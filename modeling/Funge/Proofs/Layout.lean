/-
  How a text is laid out.

  1. The field has a row for every line, and is as wide as the longest line before trimming
     (`length_le_width_ofLines`, `exists_length_eq_width_ofLines`).
  2. A square holds the character of its line, up to the white space at the end of the line
     (`cellOfLine_of_lt`), and a blank from there on (`cellOfLine_of_le`).  Trimming keeps a
     beginning of the line, so no character changes its column.
  3. Together they tell what every position reads (`ofSource_lays`).
-/
import Funge.Playfield.Lemmas
import Funge.Playfield.Requests
import Funge.Proofs.InputLines

namespace Funge.Playfield

variable {p : Position} {line : List Char} {ls : List (List Char)} {x : Nat}

/-! ## The cells of a line -/

/-- Before the white space at its end a line has its characters. -/
theorem cellOfLine_of_lt {l : List Char} {c : Char} (hx : x < (Text.trimEnd l).length)
    (hc : l[x]? = some c) : cellOfLine l x = Cell.ofChar c := by
  have hkept := (Text.trimEnd_isPrefix l).getElem hx
  have hlength := (Text.trimEnd_isPrefix l).length_le
  rw [List.getElem?_eq_getElem (by omega), ← hkept] at hc
  rw [cellOfLine, List.getElem?_eq_getElem hx, Option.some.inj hc]
  rfl

/-- From there on it has blanks. -/
theorem cellOfLine_of_le (hx : (Text.trimEnd line).length ≤ x) : cellOfLine line x = Cell.blank := by
  rw [cellOfLine, List.getElem?_eq_none hx]
  rfl

/-- The columns of a line are squares of its row. -/
theorem mem_ofLines (hx : 0 ≤ p.x.toInt) (hy : 0 ≤ p.y.toInt) (hline : ls[p.row]? = some line)
    (hcol : p.col < line.length) : p ∈ ofLines ls := by
  obtain ⟨hrow, hget⟩ := List.getElem?_eq_some_iff.mp hline
  have hwidth : line.length ≤ (ofLines ls).width :=
    length_le_width_ofLines (hget ▸ List.getElem_mem hrow)
  have hheight := height_ofLines ls
  simp only [Position.col, Position.row] at hcol hrow
  exact mem_def.mpr (by omega)

/-- A square reads what its line has in its column. -/
theorem getElem?_ofLines (h : p ∈ ofLines ls) :
    ∃ line, ls[p.row]? = some line ∧ (ofLines ls)[p]? = some (cellOfLine line p.col) := by
  have hrow : p.row < ls.length := by
    rw [← height_ofLines ls]
    exact row_lt h
  refine ⟨ls[p.row], List.getElem?_eq_getElem hrow, ?_⟩
  rw [getElem?_eq_cell? h, cell?_ofLines, List.getElem?_eq_getElem hrow, Option.bind_some,
    if_pos (col_lt h)]

/-! ## Whole texts -/

/-- **Every text is laid out faithfully.**  The lines are the pieces of the text between its newlines;
    there is a row for each of them, and the field is as wide as the longest.  A position reads the
    character of its line, if that comes before the white space at the end of the line; on any other
    square it reads a blank, and outside the field there is nothing to read. -/
theorem ofSource_lays (source : String) :
    let ls := Text.lines source.toList
    let f := ofSource source
    (Text.joinLines ls = source.toList ∧ ∀ line ∈ ls, '\n' ∉ line) ∧
      f.height = source.toList.count '\n' + 1 ∧
      ((∀ line ∈ ls, line.length ≤ f.width) ∧ ∃ line ∈ ls, line.length = f.width) ∧
      ∀ p : Position,
        (∀ l c, 0 ≤ p.x.toInt → 0 ≤ p.y.toInt → ls[p.row]? = some l →
          p.col < (Text.trimEnd l).length → l[p.col]? = some c →
            (f.serve (.read p)).1 = .cell (Cell.ofChar c)) ∧
        (p ∈ f → (∀ l, ls[p.row]? = some l → (Text.trimEnd l).length ≤ p.col) →
          (f.serve (.read p)).1 = .cell 32) ∧
        (p ∉ f → (f.serve (.read p)).1 = .outside p) := by
  intro ls f
  have hls : ls ≠ [] := List.splitOn_ne_nil _ _
  refine ⟨⟨List.intercalate_splitOn '\n', fun line h => Text.newline_not_mem_of_mem_lines h⟩, ?_,
    ⟨fun line h => length_le_width_ofLines h, exists_length_eq_width_ofLines hls⟩,
    fun p => ⟨?_, ?_, ?_⟩⟩
  · rw [← Text.length_lines]
    exact height_ofLines ls
  · intro l c hx hy hline hcol hc
    have hlength := (Text.trimEnd_isPrefix l).length_le
    have hp : p ∈ ofLines ls := mem_ofLines hx hy hline (by omega)
    obtain ⟨line', hline', hread⟩ := getElem?_ofLines hp
    obtain rfl := Option.some.inj (hline.symm.trans hline')
    have hcell : f[p]? = some (Cell.ofChar c) := hread.trans (congrArg some (cellOfLine_of_lt hcol hc))
    rw [serve_read, hcell]
    rfl
  · intro hp hblank
    obtain ⟨line, hline, hread⟩ := getElem?_ofLines hp
    have hcell : f[p]? = some 32 := hread.trans (congrArg some (cellOfLine_of_le (hblank line hline)))
    rw [serve_read, hcell]
    rfl
  · intro hp
    rw [serve_read, getElem?_eq_none_iff.mpr hp]
    rfl

/-- The field of a text with white space at the end of its first line and a shorter second line. -/
theorem ofSource_lays_ragged :
    let f := ofSource "ab\u3000 \n c"
    f.width = 4 ∧ f.height = 2 ∧
      (f.serve (.read ⟨1, 0⟩)).1 = .cell (Cell.ofChar 'b') ∧ (f.serve (.read ⟨2, 0⟩)).1 = .cell 32 ∧
      (f.serve (.read ⟨3, 1⟩)).1 = .cell 32 ∧ (f.serve (.read ⟨0, -1⟩)).1 = .outside ⟨0, -1⟩ := by
  intro f
  obtain ⟨-, -, -, hreads⟩ := ofSource_lays "ab\u3000 \n c"
  refine ⟨by decide +kernel, by decide +kernel, ?_, ?_, ?_, ?_⟩
  · exact (hreads ⟨1, 0⟩).1 ['a', 'b', '\u3000', ' '] 'b' (by decide) (by decide) (by decide +kernel)
      (by decide +kernel) rfl
  · exact (hreads ⟨2, 0⟩).2.1 (by decide +kernel) (by decide +kernel)
  · exact (hreads ⟨3, 1⟩).2.1 (by decide +kernel) (by decide +kernel)
  · exact (hreads ⟨0, -1⟩).2.2 (by decide +kernel)

end Funge.Playfield
