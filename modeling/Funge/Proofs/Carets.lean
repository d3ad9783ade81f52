/-
  Where the caret of a diagnostic points.

  The window and the caret line are cut on their own: the window starts `reach` columns before the
  square, but not before the row does, and ends where the row ends, or `reach` columns behind the
  square.

  1. By its index, a character of the window is one of the row (`getElem?_window`).  The start of the
     window is the column of the square less that of the caret (`windowStart_eq`), so the index of the
     caret is the one the square has in the window (`window_shows`).
  2. A row shows its characters in the columns of its cells, as nothing but its end is trimmed away
     (`exists_getElem?_eq`); so what is above the caret is the cell of the square
     (`render_points`).
-/
import Funge.Diagnostic
import Funge.Proofs.Rereading

namespace Funge

/-! ## Rows -/

namespace Playfield

variable {f : Playfield} {pos : Position} {row : List Char} {c : Char} {x y : Nat}

/-- The text of a row shows its cells in their columns, as far as it goes. -/
theorem getElem?_of_rowText? (hrow : f.rowText? y = some row) (hx : x < row.length) :
    row[x]? = (f.cell? x y).map Cell.toChar := by
  obtain ⟨cells, hcells, rfl⟩ := Option.map_eq_some_iff.mp hrow
  rw [getElem?_rowChars hx, cell?, hcells]
  rfl

/-- A square that has a character in the text of its row is one of the field, and its cell is shown. -/
theorem exists_getElem?_eq (hx : 0 ≤ pos.x.toInt) (hy : 0 ≤ pos.y.toInt)
    (hrow : f.rowText? pos.row = some row) (hc : row[pos.col]? = some c) :
    ∃ v, f[pos]? = some v ∧ v.toChar = c := by
  obtain ⟨hlt, -⟩ := List.getElem?_eq_some_iff.mp hc
  rw [getElem?_of_rowText? hrow hlt] at hc
  obtain ⟨v, hcell, hchar⟩ := Option.map_eq_some_iff.mp hc
  have hbounds := lt_of_cell?_eq_some hcell
  have hmem : pos ∈ f := by
    simp only [Position.col, Position.row] at hbounds
    rw [mem_def]
    omega
  exact ⟨v, (getElem?_eq_cell? hmem).trans hcell, hchar⟩

end Playfield

namespace Diagnostic

variable {row w : List Char} {x k : Nat}

/-! ## Windows -/

/-- Of a row, `w` is shown for the square in column `x`, and that square at index `k`. -/
structure Shows (row : List Char) (x : Nat) (w : List Char) (k : Nat) : Prop where
  /-- Up to 32 columns before the square are shown, ... -/
  index_eq : k = min x 32
  /-- ... and up to 32 columns behind it, ... -/
  getElem?_eq : ∀ i, w[i]? = if i ≤ k + 32 then row[x - k + i]? else none
  /-- ... which makes 65 at most. -/
  length_le : w.length ≤ 65
  /-- A row that ends before has nothing to show. -/
  eq_nil : row.length ≤ x - k → w = []
  /-- The character of the square, if the row has one, is at its index. -/
  getElem?_index : w[k]? = row[x]?

theorem windowStart_eq (x : Nat) : windowStart x = x - min x reach := by
  unfold windowStart
  omega

theorem getElem?_window (x : Nat) (row : List Char) (i : Nat) :
    (window x row)[i]? = if i ≤ min x reach + reach then row[windowStart x + i]? else none := by
  have hbound : windowStart x + i < x + reach + 1 ↔ i ≤ min x reach + reach := by
    unfold windowStart
    omega
  rw [window, List.getElem?_drop, List.getElem?_take]
  simp only [hbound]

theorem length_window_le (x : Nat) (row : List Char) : (window x row).length ≤ 2 * reach + 1 := by
  rw [window, List.length_drop, List.length_take, windowStart]
  omega

theorem window_shows (row : List Char) (x : Nat) : Shows row x (window x row) (min x 32) where
  index_eq := rfl
  getElem?_eq i := by
    rw [getElem?_window, windowStart_eq]
    rfl
  length_le := length_window_le x row
  eq_nil h := by
    refine List.drop_eq_nil_iff.mpr ?_
    rw [List.length_take, windowStart_eq]
    exact Nat.le_trans (Nat.min_le_right ..) h
  getElem?_index := by
    have hstart : windowStart x + min x 32 = x := by
      rw [windowStart_eq]
      exact Nat.sub_add_cancel (Nat.min_le_left ..)
    have hbound : min x 32 ≤ min x reach + reach := Nat.le_add_right ..
    rw [getElem?_window, if_pos hbound, hstart]

/-- The caret is at the index of the square. -/
theorem caretLine_eq (x : Nat) : caretLine x = List.replicate (min x 32) ' ' ++ ['^'] := by
  have hindex : x - windowStart x = min x 32 := by
    unfold windowStart reach
    omega
  rw [caretLine, hindex]

/-! ## Diagnostics -/

variable {f : Playfield} {fault : Fault} {pos : Position} {program : Option String}

/-- The first line, without colours. -/
def firstLine (program : Option String) (f : Playfield) (fault : Fault) (pos : Position) : String :=
  titled program (headline f fault) ++ " at " ++ pos.text

theorem render_eq (h : fault.position? = some pos) :
    render program f fault none = firstLine program f fault pos ++ "\n" ++ context f pos none := by
  unfold render
  rw [h]
  rfl

theorem rowAt?_eq_none (h : pos.x.toInt < 0 ∨ pos.y.toInt < 0 ∨ f.height ≤ pos.y.toInt) :
    rowAt? f pos = none := by
  unfold rowAt?
  split
  · rename_i hpos
    refine Option.map_eq_none_iff.mpr (Option.map_eq_none_iff.mpr (Array.getElem?_eq_none ?_))
    show f.height ≤ pos.y.toInt.toNat
    omega
  · rfl

theorem rowAt?_eq_some (hx : 0 ≤ pos.x.toInt) (hy : 0 ≤ pos.y.toInt)
    (hrow : f.rowText? pos.row = some row) : rowAt? f pos = some (pos.col, row) := by
  rw [rowAt?, if_pos ⟨hx, hy⟩, hrow, Option.map_some]

/-- There is nothing to show of a square that is in no row, ... -/
theorem context_eq_empty (h : pos.x.toInt < 0 ∨ pos.y.toInt < 0 ∨ f.height ≤ pos.y.toInt)
    (palette : Option Palette) : context f pos palette = "" := by
  rw [context, rowAt?_eq_none h]

/-- ... while a row is shown with a caret. -/
theorem context_eq_of_rowText? (hx : 0 ≤ pos.x.toInt) (hy : 0 ≤ pos.y.toInt)
    (hrow : f.rowText? pos.row = some row) (palette : Option Palette) :
    context f pos palette
      = "  " ++ Color.paint (palette.map (·.source)) (String.ofList (window pos.col row)) ++ "\n"
        ++ "  " ++ Color.paint (palette.map (·.caret)) (String.ofList (caretLine pos.col)) ++ "\n" := by
  rw [context, rowAt?_eq_some hx hy hrow]

/-- A square in a row of the field has a text of that row. -/
theorem exists_rowText?_eq (hy : 0 ≤ pos.y.toInt) (hheight : pos.y.toInt < f.height) :
    ∃ row, f.rowText? pos.row = some row := by
  have hlt : pos.row < f.rows.size := by
    show pos.y.toInt.toNat < f.height
    omega
  exact ⟨_, by rw [Playfield.rowText?, Array.getElem?_eq_getElem hlt, Option.map_some]⟩

/-- The diagnostic of a position in a row of the field. -/
theorem exists_render_eq (program : Option String) (h : fault.position? = some pos)
    (hx : 0 ≤ pos.x.toInt) (hy : 0 ≤ pos.y.toInt) (hheight : pos.y.toInt < f.height) :
    ∃ row, f.rowText? pos.row = some row ∧
      render program f fault none = firstLine program f fault pos ++ "\n"
        ++ "  " ++ String.ofList (window pos.col row) ++ "\n"
        ++ "  " ++ String.ofList (List.replicate (min pos.col 32) ' ' ++ ['^']) ++ "\n" := by
  obtain ⟨row, hrow⟩ := exists_rowText?_eq hy hheight
  refine ⟨row, hrow, ?_⟩
  rw [render_eq h, context_eq_of_rowText? hx hy hrow, caretLine_eq]
  simp only [String.append_assoc]
  rfl

/-- **The caret points at the faulty square.**  After the line with the headline and the position there
    is nothing if the position is in no row of the field, else up to 65 characters of the row and a
    caret.  Above it stands the character of the square, if the row has not ended before, which is the
    one the cell there stands for. -/
theorem render_points (program : Option String) (f : Playfield) (fault : Fault) (pos : Position)
    (h : fault.position? = some pos) :
    (pos.x.toInt < 0 ∨ pos.y.toInt < 0 ∨ f.height ≤ pos.y.toInt →
      render program f fault none = firstLine program f fault pos ++ "\n") ∧
    (0 ≤ pos.x.toInt ∧ 0 ≤ pos.y.toInt ∧ pos.y.toInt < f.height →
      ∃ row w k, f.rowText? pos.row = some row ∧ Shows row pos.col w k ∧
        render program f fault none = firstLine program f fault pos ++ "\n"
          ++ "  " ++ String.ofList w ++ "\n"
          ++ "  " ++ String.ofList (List.replicate k ' ' ++ ['^']) ++ "\n" ∧
        ∀ c, row[pos.col]? = some c → w[k]? = some c ∧ ∃ v, f[pos]? = some v ∧ v.toChar = c) := by
  constructor
  · intro hpos
    rw [render_eq h, context_eq_empty hpos, String.append_empty]
  · rintro ⟨hx, hy, hheight⟩
    obtain ⟨row, hrow, hrender⟩ := exists_render_eq program h hx hy hheight
    have hshows := window_shows row pos.col
    refine ⟨row, _, _, hrow, hshows, hrender, fun c hc => ⟨hshows.getElem?_index.trans hc, ?_⟩⟩
    exact Playfield.exists_getElem?_eq hx hy hrow hc

/-- An underflow behind 39 other characters, and one above the field. -/
theorem render_points_long :
    let f := Playfield.ofSource (String.ofList (List.replicate 39 '.' ++ ['+'] ++ List.replicate 40 ','))
    render (some "befunge") f (.stackUnderflow ⟨0, -1⟩ '+') none
      = "befunge: Runtime error: stack underflow (op=+) at (0, -1)\n" ∧
    ∃ row w k, f.rowText? 0 = some row ∧ Shows row 39 w k ∧
      render none f (.stackUnderflow ⟨39, 0⟩ '+') none
        = "Runtime error: stack underflow (op=+) at (39, 0)\n" ++ "  " ++ String.ofList w ++ "\n"
          ++ "  " ++ String.ofList (List.replicate k ' ' ++ ['^']) ++ "\n" ∧
      w[k]? = some '+' := by
  intro f
  constructor
  · exact (render_points (some "befunge") f (.stackUnderflow ⟨0, -1⟩ '+') ⟨0, -1⟩ rfl).1 (by decide)
  · obtain ⟨row, w, k, hrow, hshows, hrender, hcaret⟩ :=
      (render_points none f (.stackUnderflow ⟨39, 0⟩ '+') ⟨39, 0⟩ rfl).2 (by decide)
    refine ⟨row, w, k, hrow, hshows, hrender, (hcaret '+' ?_).1⟩
    rw [← Option.some.inj hrow]
    decide

end Diagnostic

end Funge
