/-
  The playfield as a map from positions to cells.

  Writing keeps the size, the written square reads as written and every other square reads as
  before; a field is determined by its size and what it reads.
-/
import Funge.Playfield.Basic

namespace Funge.Playfield

variable {f g : Playfield} {p q : Position} {v : Cell}

/-! ## Reading -/

theorem getElem_def (h : p ∈ f) :
    f[p] = getElem (getElem f.rows p.row (row_lt h)) p.col (col_lt h) := rfl

theorem getElem?_eq_none_iff : f[p]? = none ↔ p ∉ f := by
  by_cases h : p ∈ f <;> simp [h]

theorem mem_of_getElem?_eq_some (h : f[p]? = some v) : p ∈ f := by
  by_cases hp : p ∈ f
  · exact hp
  · rw [getElem?_eq_none_iff.mpr hp] at h
    nomatch h

/-- Two squares of one field are the same when their columns and rows are. -/
theorem eq_of_col_eq_of_row_eq (hp : p ∈ f) (hq : q ∈ f) (hx : p.col = q.col)
    (hy : p.row = q.row) : p = q := by
  have hp := mem_def.mp hp
  have hq := mem_def.mp hq
  simp only [Position.col, Position.row] at hx hy
  have hx : p.x = q.x := Int32.toInt_inj.mp (by omega)
  have hy : p.y = q.y := Int32.toInt_inj.mp (by omega)
  cases p; cases q; simp_all

/-! ## Writing -/

@[simp] theorem width_set (h : p ∈ f) : (f.set p v h).width = f.width := rfl

@[simp] theorem height_set (h : p ∈ f) : (f.set p v h).height = f.height := by
  simp [set, height]

@[simp] theorem mem_set (h : p ∈ f) : q ∈ f.set p v h ↔ q ∈ f := by
  simp [mem_def]

/-- The written square reads as written, every other square as before. -/
theorem getElem_set (h : p ∈ f) (hq : q ∈ f) :
    getElem (f.set p v h) q ((mem_set h).mpr hq) = if p = q then v else f[q] := by
  have hrow := Array.getElem_modify (f := fun row => row.set p.col v (col_lt h))
    (show q.row < (f.rows.modify p.row _).size by rw [Array.size_modify]; exact row_lt hq)
  refine (congrArg (fun row : Vector Cell f.width => getElem row q.col (col_lt hq)) hrow).trans ?_
  rw [getElem_def]
  by_cases hy : p.row = q.row
  · simp only [if_pos hy, Vector.getElem_set]
    by_cases hx : p.col = q.col
    · rw [if_pos hx, if_pos (eq_of_col_eq_of_row_eq h hq hx hy)]
    · have hne : p ≠ q := fun e => hx (by rw [e])
      simp only [if_neg hx, if_neg hne]
  · have hne : p ≠ q := fun e => hy (by rw [e])
    simp only [if_neg hy, if_neg hne]

theorem getElem?_set (h : p ∈ f) : (f.set p v h)[q]? = if p = q then some v else f[q]? := by
  by_cases hq : q ∈ f
  · rw [getElem?_pos _ q ((mem_set h).mpr hq), getElem?_pos f q hq, getElem_set h hq]
    split <;> rfl
  · have hne : p ≠ q := fun e => hq (e ▸ h)
    rw [getElem?_neg _ q (fun h' => hq ((mem_set h).mp h')), getElem?_neg f q hq, if_neg hne]

theorem set?_eq_some_iff : f.set? p v = some g ↔ ∃ h : p ∈ f, g = f.set p v h := by
  unfold set?
  split
  · rename_i h
    simp [h, eq_comm]
  · rename_i h
    simp [h]

theorem set?_eq_none_iff : f.set? p v = none ↔ p ∉ f := by
  unfold set?
  split <;> simp_all

/-! ## Columns and rows -/

/-- The cell in column `x` of row `y`.  A field may be so large that no position names it. -/
def cell? (f : Playfield) (x y : Nat) : Option Cell := f.rows[y]?.bind fun row => row[x]?

/-- What a position reads is the cell in its column and row. -/
theorem getElem?_eq_cell? (h : p ∈ f) : f[p]? = f.cell? p.col p.row := by
  rw [getElem?_pos f p h, getElem_def, cell?, Array.getElem?_eq_getElem (row_lt h),
    Option.bind_some, Vector.getElem?_eq_getElem (col_lt h)]

theorem lt_of_cell?_eq_some {x y : Nat} (h : f.cell? x y = some v) : x < f.width ∧ y < f.height := by
  obtain ⟨row, hrow, hcell⟩ := Option.bind_eq_some_iff.mp h
  obtain ⟨hy, -⟩ := Array.getElem?_eq_some_iff.mp hrow
  obtain ⟨hx, -⟩ := Vector.getElem?_eq_some_iff.mp hcell
  exact ⟨hx, hy⟩

theorem cell?_set (h : p ∈ f) (x y : Nat) :
    (f.set p v h).cell? x y = if p.col = x ∧ p.row = y then some v else f.cell? x y := by
  show ((f.rows.modify p.row _)[y]?.bind fun row : Vector Cell f.width => row[x]?) = _
  rw [Array.getElem?_modify, cell?]
  by_cases hy : p.row = y
  · subst hy
    rw [if_pos rfl, Array.getElem?_eq_getElem (row_lt h), Option.map_some, Option.bind_some,
      Option.bind_some, Vector.getElem?_set]
    simp
  · rw [if_neg hy, if_neg (fun h => hy h.2)]

/-! ## Fields of given lines -/

@[simp] theorem width_ofLines_nil : (ofLines []).width = 0 := rfl

/-- The field is as wide as its longest line. -/
@[simp] theorem width_ofLines_cons (line : List Char) (ls : List (List Char)) :
    (ofLines (line :: ls)).width = max line.length (ofLines ls).width := by
  show ((line :: ls).map List.length).foldl max 0
    = max line.length ((ls.map List.length).foldl max 0)
  rw [List.map_cons, List.foldl_cons, Nat.max_comm 0, List.foldl_assoc]

@[simp] theorem height_ofLines (ls : List (List Char)) : (ofLines ls).height = ls.length := by
  simp [ofLines, height]

/-- There is room for the lines where there is room for each of them. -/
theorem width_ofLines_le_iff {w : Nat} {ls : List (List Char)} :
    (ofLines ls).width ≤ w ↔ ∀ line ∈ ls, line.length ≤ w := by
  induction ls with
  | nil => simp
  | cons first ls ih => rw [width_ofLines_cons, Nat.max_le, ih, List.forall_mem_cons]

/-- No line is longer than the field is wide, ... -/
theorem length_le_width_ofLines {line : List Char} {ls : List (List Char)} (h : line ∈ ls) :
    line.length ≤ (ofLines ls).width :=
  width_ofLines_le_iff.mp (Nat.le_refl _) line h

/-- ... and one of them is that long. -/
theorem exists_length_eq_width_ofLines {ls : List (List Char)} (h : ls ≠ []) :
    ∃ line ∈ ls, line.length = (ofLines ls).width := by
  induction ls with
  | nil => exact absurd rfl h
  | cons first ls ih =>
    rw [width_ofLines_cons]
    by_cases hls : ls = []
    · subst hls
      exact ⟨first, List.mem_cons_self, by rw [width_ofLines_nil, Nat.max_zero]⟩
    · obtain ⟨line, hmem, hline⟩ := ih hls
      rcases Nat.le_total first.length (ofLines ls).width with hle | hle
      · exact ⟨line, List.mem_cons_of_mem _ hmem, by rw [hline, Nat.max_eq_right hle]⟩
      · exact ⟨first, List.mem_cons_self, by rw [Nat.max_eq_left hle]⟩

theorem height_ofSource_pos (source : String) : 0 < (ofSource source).height := by
  rw [ofSource, height_ofLines]
  exact List.length_pos_iff.mpr (List.splitOn_ne_nil _ _)

/-- The cell a line has in a column: its character there, a blank after the last one that is not
    white space. -/
def cellOfLine (line : List Char) (x : Nat) : Cell :=
  ((Text.trimEnd line)[x]?).elim Cell.blank Cell.ofChar

/-- The cell in column `x` of row `y` comes from line `y`. -/
theorem cell?_ofLines (ls : List (List Char)) (x y : Nat) :
    (ofLines ls).cell? x y
      = ls[y]?.bind fun line =>
          if x < (ofLines ls).width then some (cellOfLine line x) else none := by
  show ((ls.map (rowOfLine (ofLines ls).width)).toArray[y]?.bind
    fun row : Vector Cell (ofLines ls).width => row[x]?) = _
  rw [List.getElem?_toArray, List.getElem?_map]
  cases ls[y]? with
  | none => rfl
  | some line =>
    rw [Option.map_some, Option.bind_some, Option.bind_some, rowOfLine, Vector.getElem?_ofFn]
    simp only [List.getElem?_toArray]
    rfl

end Funge.Playfield
