/-
  Writing a field down and reading it again.

  `f.reread` is the field of the text of `f`.  Two things are lost on the way: white space at the end of
  a row is trimmed, so the field may become narrower, and a cell that stands for no character comes
  back as U+FFFD.

  1. A row never has a newline in its text if none of its cells is one (`newline_not_mem_rowChars`).
     So the lines of the text are the texts of the rows, however many of them are empty
     (`lines_text`), and the field read again is laid out from these (`reread_eq`).
  2. The crux: a row is trimmed when it is written and its line when it is read, and the second time
     nothing is left to trim (`trimEnd_rowChars`).  So a line has the columns of its row
     (`cell?_reread`), and is written again as it was (`rowChars_rowOfLine`).
  3. Hence `Rereads`, which says what the two fields have in common (`rereads`).
-/
import Funge.Proofs.Layout

namespace Funge.Playfield

variable {f : Playfield} {v : Cell} {w x y : Nat} {line text : List Char}

/-- The field of the text of a field. -/
def reread (f : Playfield) : Playfield := ofSource (String.ofList f.text)

/-! ## Writing rows -/

/-- Nothing is left to trim. -/
@[simp] theorem trimEnd_rowChars (row : Vector Cell w) : Text.trimEnd (rowChars row) = rowChars row :=
  Text.trimEnd_trimEnd _

theorem rowChars_isPrefix (row : Vector Cell w) : rowChars row <+: row.toList.map Cell.toChar :=
  Text.trimEnd_isPrefix _

theorem length_rowChars_le (row : Vector Cell w) : (rowChars row).length ≤ w := by
  simpa using (rowChars_isPrefix row).length_le

/-- A row shows its cells in their columns. -/
theorem getElem?_rowChars {row : Vector Cell w} (hx : x < (rowChars row).length) :
    (rowChars row)[x]? = row[x]?.map Cell.toChar := by
  rw [List.getElem?_eq_getElem hx, (rowChars_isPrefix row).getElem hx, ← Vector.getElem?_toList,
    ← List.getElem?_map, List.getElem?_eq_getElem]

/-- There is a newline in a row only where a cell stands for one. -/
theorem newline_not_mem_rowChars {row : Vector Cell w} (h : ∀ x : Nat, row[x]? ≠ some 10) :
    '\n' ∉ rowChars row := by
  intro hmem
  obtain ⟨x, hx, hget⟩ := List.getElem_of_mem hmem
  have hshown : row[x]?.map Cell.toChar = some '\n' := by
    rw [← getElem?_rowChars hx, List.getElem?_eq_getElem hx, hget]
  obtain ⟨v, hv, hchar⟩ := Option.map_eq_some_iff.mp hshown
  have hten : v = 10 := Cell.eq_ofChar_of_toChar hchar (by decide)
  exact h x (hten ▸ hv)

theorem getElem_rowOfLine (line : List Char) (hx : x < w) :
    getElem (rowOfLine w line) x hx = cellOfLine line x := by
  simp only [rowOfLine, Vector.getElem_ofFn, List.getElem?_toArray]
  rfl

/-- The row of a line shows the line without the white space at its end, and blanks instead. -/
theorem map_toChar_rowOfLine (h : line.length ≤ w) :
    (rowOfLine w line).toList.map Cell.toChar
      = Text.trimEnd line ++ List.replicate (w - (Text.trimEnd line).length) ' ' := by
  have hprefix := Text.trimEnd_isPrefix line
  have hlength := hprefix.length_le
  refine List.ext_getElem (by simp; omega) fun x hx _ => ?_
  rw [List.getElem_map, Vector.getElem_toList, getElem_rowOfLine, List.getElem_append]
  split
  · rename_i hx
    rw [cellOfLine_of_lt hx (List.getElem?_eq_getElem (by omega)), Cell.toChar_ofChar, hprefix.getElem hx]
  · rename_i hx
    rw [cellOfLine_of_le (Nat.le_of_not_lt hx), List.getElem_replicate]
    decide

/-- So the line is written again as it was, but for that white space. -/
theorem rowChars_rowOfLine (h : line.length ≤ w) : rowChars (rowOfLine w line) = Text.trimEnd line := by
  have hblank : ∀ c ∈ List.replicate (w - (Text.trimEnd line).length) ' ', Text.isBlank c := by
    intro c hc
    rw [List.eq_of_mem_replicate hc]
    decide
  rw [rowChars, map_toChar_rowOfLine h, Text.trimEnd_append_blanks _ hblank, Text.trimEnd_trimEnd]

/-- Lines that were laid out are written down without the white space at their ends. -/
theorem text_ofLines (ls : List (List Char)) :
    (ofLines ls).text = Text.joinLines (ls.map Text.trimEnd) := by
  show Text.joinLines ((ls.map (rowOfLine (ofLines ls).width)).toArray.toList.map rowChars) = _
  rw [List.map_map]
  refine congrArg Text.joinLines (List.map_congr_left fun line hline => ?_)
  exact rowChars_rowOfLine (length_le_width_ofLines hline)

/-! ## Reading them again -/

/-- The lines of the text of a field are the texts of its rows. -/
theorem lines_text (hrows : 0 < f.height) (h : ∀ x y, f.cell? x y ≠ some 10) :
    Text.lines f.text = f.rows.toList.map rowChars := by
  refine Text.lines_joinLines ?_ fun line hline => ?_
  · intro hnil
    rw [List.map_eq_nil_iff] at hnil
    rw [height, ← Array.length_toList, hnil] at hrows
    exact absurd hrows (Nat.lt_irrefl 0)
  · obtain ⟨row, hrow, rfl⟩ := List.mem_map.mp hline
    obtain ⟨y, hy, rfl⟩ := List.getElem_of_mem hrow
    refine newline_not_mem_rowChars fun x hx => h x y ?_
    rw [cell?, ← Array.getElem?_toList, List.getElem?_eq_getElem hy]
    exact hx

theorem reread_eq (hrows : 0 < f.height) (h : ∀ x y, f.cell? x y ≠ some 10) :
    f.reread = ofLines (f.rows.toList.map rowChars) := by
  rw [reread, ofSource, String.toList_ofList, lines_text hrows h]

/-- Where a row shows a character the field read again has the cell of that character; on its other
    squares it has blanks. -/
theorem cell?_reread (hrows : 0 < f.height) (h : ∀ x y, f.cell? x y ≠ some 10)
    (hcell : f.cell? x y = some v) (htext : f.rowText? y = some text) :
    f.reread.cell? x y = if x < f.reread.width then
      some (if x < text.length then Cell.ofChar v.toChar else Cell.blank) else none := by
  obtain ⟨row, hrow, hv⟩ := Option.bind_eq_some_iff.mp hcell
  have hline : (f.rows.toList.map rowChars)[y]? = some (rowChars row) := by
    rw [List.getElem?_map, Array.getElem?_toList, hrow, Option.map_some]
  obtain rfl : rowChars row = text := by
    rw [rowText?, hrow] at htext
    exact Option.some.inj htext
  have hcellOfLine : cellOfLine (rowChars row) x
      = if x < (rowChars row).length then Cell.ofChar v.toChar else Cell.blank := by
    split
    · rename_i hx
      refine cellOfLine_of_lt (by rw [trimEnd_rowChars]; exact hx) ?_
      rw [getElem?_rowChars hx, hv, Option.map_some]
    · rename_i hx
      refine cellOfLine_of_le ?_
      rw [trimEnd_rowChars]
      omega
  rw [reread_eq hrows h, cell?_ofLines, hline, Option.bind_some, hcellOfLine]

/-- Field `g` is field `f` written down and read again. -/
structure Rereads (f g : Playfield) : Prop where
  height_eq : g.height = f.height
  width_le : g.width ≤ f.width
  text_eq : g.text = f.text
  /-- Where a row shows a character, there is the cell of that character. -/
  cell?_of_lt : ∀ {x y v text}, f.cell? x y = some v → f.rowText? y = some text → x < text.length →
    g.cell? x y = some (Cell.ofChar v.toChar)
  /-- Behind the text of a row are blanks. -/
  cell?_of_le : ∀ {x y v text}, f.cell? x y = some v → f.rowText? y = some text → text.length ≤ x →
    x < g.width → g.cell? x y = some 32

theorem rereads (hrows : 0 < f.height) (h : ∀ x y, f.cell? x y ≠ some 10) : Rereads f f.reread := by
  have heq := reread_eq hrows h
  refine ⟨?_, ?_, ?_, fun {x y v text} hcell htext hx => ?_, fun {x y v text} hcell htext hx hw => ?_⟩
  · rw [heq, height_ofLines, List.length_map, Array.length_toList]
    rfl
  · rw [heq, width_ofLines_le_iff]
    intro line hline
    obtain ⟨row, -, rfl⟩ := List.mem_map.mp hline
    exact length_rowChars_le row
  · rw [heq, text_ofLines, List.map_map, text]
    exact congrArg Text.joinLines (List.map_congr_left fun row _ => trimEnd_rowChars row)
  · have hline : text ∈ f.rows.toList.map rowChars := by
      obtain ⟨row, hrow, rfl⟩ := Option.map_eq_some_iff.mp htext
      exact List.mem_map.mpr ⟨row, Array.mem_toList_iff.mpr (Array.mem_of_getElem? hrow), rfl⟩
    have hwidth : text.length ≤ f.reread.width := heq ▸ length_le_width_ofLines hline
    rw [cell?_reread hrows h hcell htext, if_pos (by omega), if_pos hx]
  · rw [cell?_reread hrows h hcell htext, if_pos hw, if_neg (by omega)]
    rfl

namespace Rereads

variable {g : Playfield} {p : Position}

/-- Where its row shows a character a position has the cell of that character. -/
theorem getElem?_of_lt (h : Rereads f g) (hp : p ∈ f) (htext : f.rowText? p.row = some text)
    (hx : p.col < text.length) :
    p ∈ g ∧ ∃ v, f[p]? = some v ∧ g[p]? = some (Cell.ofChar v.toChar) := by
  have hv : f[p]? = some f[p] := getElem?_pos f p hp
  have hcell := h.cell?_of_lt (getElem?_eq_cell? hp ▸ hv) htext hx
  have hinside := mem_def.mp hp
  obtain ⟨hcol, hrow⟩ := lt_of_cell?_eq_some hcell
  simp only [Position.col, Position.row] at hcol hrow
  have hp' : p ∈ g := mem_def.mpr (by omega)
  exact ⟨hp', _, hv, (getElem?_eq_cell? hp').trans hcell⟩

/-- Behind the text of its row it has a blank. -/
theorem getElem?_of_le (h : Rereads f g) (hp : p ∈ f) (htext : f.rowText? p.row = some text)
    (hx : text.length ≤ p.col) (hp' : p ∈ g) : g[p]? = some 32 := by
  have hv : f[p]? = some f[p] := getElem?_pos f p hp
  rw [getElem?_eq_cell? hp']
  exact h.cell?_of_le (getElem?_eq_cell? hp ▸ hv) htext hx (col_lt hp')

end Rereads

/-! ## The fields of texts -/

/-- The field of a text is written down as the lines of the text without the white space at their
    ends. -/
theorem text_ofSource (source : String) :
    (ofSource source).text = Text.joinLines ((Text.lines source.toList).map Text.trimEnd) :=
  text_ofLines _

/-- After that it is always written down alike. -/
theorem text_reread_ofSource (source : String) :
    (ofSource source).reread.text = (ofSource source).text := by
  have hlines : Text.lines (ofSource source).text = (Text.lines source.toList).map Text.trimEnd := by
    rw [text_ofSource]
    refine Text.lines_joinLines ?_ fun line hline => ?_
    · rw [ne_eq, List.map_eq_nil_iff]
      exact List.splitOn_ne_nil _ _
    · obtain ⟨line, hmem, rfl⟩ := List.mem_map.mp hline
      exact fun h => Text.newline_not_mem_of_mem_lines hmem ((Text.trimEnd_isPrefix line).mem h)
  rw [reread, text_ofSource, String.toList_ofList, hlines, List.map_map]
  refine (congrArg Text.joinLines (List.map_congr_left fun line _ => ?_)).trans (text_ofSource source).symm
  exact Text.trimEnd_trimEnd line

theorem height_after_pos (source : String) (requests : List Request) :
    0 < ((ofSource source).after requests).height :=
  after_induction (motive := fun g => 0 < g.height) (fun _ _ _ h hg => height_set h ▸ hg)
    (height_ofSource_pos source) requests

/-- **Reading a field again loses only what it must.**  Take the field of any text after any requests,
    without a newline in a cell.  Its text makes a field of as many rows, at most as wide, and of the
    same text.  Where a row shows a character, the cell there is the cell of that character, so the
    same cell unless it stood for none; behind the text of the row are blanks.  The field of any text
    is written down as the lines of the text without the white space at their ends, and when that is
    read and written again it stays as it is. -/
theorem reread_keeps :
    (∀ source requests, let g := (ofSource source).after requests
      (∀ x y, g.cell? x y ≠ some 10) →
        Rereads g g.reread ∧
          ∀ p text, p ∈ g → g.rowText? p.row = some text →
            (p.col < text.length → p ∈ g.reread ∧ ∃ v, g[p]? = some v ∧
              g.reread[p]? = some (Cell.ofChar v.toChar)) ∧
            (text.length ≤ p.col → p ∈ g.reread → g.reread[p]? = some 32)) ∧
      (∀ v : Cell, Cell.ofChar v.toChar = if v.toChar?.isSome then v else 0xFFFD) ∧
      (∀ source,
        (ofSource source).text = Text.joinLines ((Text.lines source.toList).map Text.trimEnd)) ∧
      ∀ source, (ofSource source).reread.text = (ofSource source).text := by
  refine ⟨fun source requests h => ?_, Cell.ofChar_toChar, text_ofSource, text_reread_ofSource⟩
  have hrereads := rereads (height_after_pos source requests) h
  exact ⟨hrereads, fun p text hp htext =>
    ⟨hrereads.getElem?_of_lt hp htext, hrereads.getElem?_of_le hp htext⟩⟩

/-- In the text `ab  ↵↵c` a cell that stands for no character is written, and an ideographic space at
    the end of the first row. -/
theorem reread_keeps_narrower :
    let g := (ofSource "ab  \n\nc").after [.write ⟨1, 0⟩ (-5), .write ⟨3, 0⟩ 0x3000]
    g.width = 4 ∧ g.reread.width = 2 ∧ g.reread.height = g.height ∧ g.reread.text = g.text ∧
      g.reread[(⟨1, 0⟩ : Position)]? = some 0xFFFD ∧ g.reread[(⟨1, 2⟩ : Position)]? = some 32 := by
  intro g
  have hnewline : ∀ x y, g.cell? x y ≠ some 10 := by
    intro x y hcell
    have hinside : ∀ x < 4, ∀ y < 3, g.cell? x y ≠ some 10 := by decide +kernel
    obtain ⟨hx, hy⟩ := lt_of_cell?_eq_some hcell
    exact hinside x hx y hy hcell
  obtain ⟨hrereads, hreads⟩ := reread_keeps.1 "ab  \n\nc" _ hnewline
  obtain ⟨-, v, hv, hchar⟩ := (hreads ⟨1, 0⟩ ['a', '\uFFFD'] (by decide +kernel) (by decide +kernel)).1
    (by decide)
  obtain rfl : (-5 : Cell) = v := Option.some.inj (Eq.trans (by decide +kernel) hv)
  exact ⟨by decide +kernel, by decide +kernel, hrereads.height_eq, hrereads.text_eq, hchar,
    (hreads ⟨1, 2⟩ ['c'] (by decide +kernel) (by decide +kernel)).2 (by decide) (by decide +kernel)⟩

end Funge.Playfield
