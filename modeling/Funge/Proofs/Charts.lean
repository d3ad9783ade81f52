/-
  The playfield as a map.

  A `Chart` is what a field stands for: a map that has a cell for every pair of integers in a
  rectangle and none for any other pair.  Writing gives one pair another cell.

  1. What a position reads is what the map has for its two coordinates (`chart_cell?`), and writing
     to a square writes to that pair of the map (`chart_set`).  So every request is answered by the
     field as by the map (`serve_chart`), and so are all that follow (`answers_charted`).
  2. The map is all there is to a field (`eq_iff_cell?`).
  3. The crux for cells kept in one sequence, row after row: the cell in column `x` of row `y` is at
     `y * width + x`, and there no other row reaches (`getElem?_cells`, `cells_set`).
-/
import Mathlib.Data.List.Basic
import Mathlib.Logic.Function.Basic
import Funge.Playfield.Lemmas
import Funge.Playfield.Requests
import Funge.Proofs.Store

namespace Funge

/-- A map from the pairs of integers in a rectangle to cells. -/
structure Chart where
  width : Nat
  height : Nat
  cell? : Int × Int → Option Cell
  /-- It has a cell for every pair in the rectangle, and for no other. -/
  isSome_cell?_iff : ∀ x y, (cell? (x, y)).isSome ↔ (0 ≤ x ∧ x < width) ∧ 0 ≤ y ∧ y < height

namespace Chart

/-- The map with another cell for one of its pairs. -/
def put (c : Chart) (q : Int × Int) (v : Cell) (h : (c.cell? q).isSome) : Chart where
  width := c.width
  height := c.height
  cell? := Function.update c.cell? q (some v)
  isSome_cell?_iff x y := by
    rw [← c.isSome_cell?_iff x y, Function.update_apply]
    split
    · rename_i hq
      rw [hq]
      exact iff_of_true rfl h
    · rfl

/-- The text of a row: what its cells are shown as, without the white space at the end. -/
def row? (c : Chart) (y : Nat) : Option (List Char) :=
  if y < c.height then
    some (Text.trimEnd (((List.range c.width).filterMap fun x : Nat => c.cell? (x, y)).map Cell.toChar))
  else none

/-- Answer a request from the map. -/
def serve (c : Chart) : Request → Answer × Chart
  | .read p =>
    match c.cell? (p.x.toInt, p.y.toInt) with
    | some v => (.cell v, c)
    | none => (.outside p, c)
  | .write p v =>
    if h : (c.cell? (p.x.toInt, p.y.toInt)).isSome then
      (.written, c.put (p.x.toInt, p.y.toInt) v h)
    else (.outside p, c)
  | .has p => (.truth (c.cell? (p.x.toInt, p.y.toInt)).isSome, c)
  | .row y => (.row (c.row? y), c)
  | .text => (.text (Text.joinLines ((List.range c.height).filterMap c.row?)), c)

/-- A map is its rectangle and its cells. -/
theorem eq_of {c d : Chart} (hw : c.width = d.width) (hh : c.height = d.height)
    (hcell : ∀ q, c.cell? q = d.cell? q) : c = d := by
  obtain ⟨w, h, cell, hc⟩ := c
  obtain ⟨w', h', cell', hd⟩ := d
  obtain rfl : w = w' := hw
  obtain rfl : h = h' := hh
  obtain rfl : cell = cell' := funext hcell
  rfl

end Chart

/-- Looking up every index of a list gives the list. -/
theorem filterMap_getElem?_range {α : Type} (l : List α) :
    (List.range l.length).filterMap (fun i => l[i]?) = l := by
  induction l with
  | nil => rfl
  | cons a l ih =>
    rw [List.length_cons, List.range_succ_eq_map, List.filterMap_cons_some (by rfl), List.filterMap_map]
    exact congrArg (a :: ·) ih

namespace Playfield

variable {f g : Playfield} {p q : Position} {v : Cell} {x y : Nat}

/-! ## The map of a field -/

theorem isSome_cell?_iff : (f.cell? x y).isSome ↔ x < f.width ∧ y < f.height := by
  constructor
  · intro h
    obtain ⟨v, hv⟩ := Option.isSome_iff_exists.mp h
    exact lt_of_cell?_eq_some hv
  · rintro ⟨hx, hy⟩
    rw [cell?, Array.getElem?_eq_getElem hy, Option.bind_some, Vector.getElem?_eq_getElem hx]
    rfl

/-- The map a field stands for. -/
def chart (f : Playfield) : Chart where
  width := f.width
  height := f.height
  cell? q := if 0 ≤ q.1 ∧ 0 ≤ q.2 then f.cell? q.1.toNat q.2.toNat else none
  isSome_cell?_iff x y := by
    by_cases h : 0 ≤ x ∧ 0 ≤ y
    · rw [if_pos h, isSome_cell?_iff]
      omega
    · rw [if_neg h]
      simp only [Option.isSome_none, Bool.false_eq_true, false_iff]
      omega

theorem chart_cell?_natCast (f : Playfield) (x y : Nat) : f.chart.cell? (x, y) = f.cell? x y := by
  show (if (0 : Int) ≤ x ∧ (0 : Int) ≤ y then f.cell? (x : Int).toNat (y : Int).toNat else none) = _
  rw [if_pos ⟨Int.natCast_nonneg x, Int.natCast_nonneg y⟩, Int.toNat_natCast, Int.toNat_natCast]

/-- A position is a square if the map has a cell for its coordinates, ... -/
theorem isSome_chart_cell?_iff : (f.chart.cell? (p.x.toInt, p.y.toInt)).isSome ↔ p ∈ f :=
  (f.chart.isSome_cell?_iff _ _).trans mem_def.symm

/-- ... and that cell is the one it reads. -/
theorem chart_cell? (f : Playfield) (p : Position) :
    f.chart.cell? (p.x.toInt, p.y.toInt) = f[p]? := by
  by_cases hp : p ∈ f
  · have := mem_def.mp hp
    rw [getElem?_eq_cell? hp]
    exact if_pos ⟨this.1.1, this.2.1⟩
  · rw [getElem?_eq_none_iff.mpr hp, ← Option.not_isSome_iff_eq_none, isSome_chart_cell?_iff]
    exact hp

/-- Writing to a square gives its coordinates another cell. -/
theorem chart_set (h : p ∈ f) :
    (f.set p v h).chart = f.chart.put (p.x.toInt, p.y.toInt) v (isSome_chart_cell?_iff.mpr h) := by
  refine Chart.eq_of rfl (height_set h) fun ⟨x, y⟩ => ?_
  have := mem_def.mp h
  show (if 0 ≤ x ∧ 0 ≤ y then (f.set p v h).cell? x.toNat y.toNat else none)
    = Function.update f.chart.cell? (p.x.toInt, p.y.toInt) (some v) (x, y)
  rw [Function.update_apply]
  simp only [Prod.mk.injEq]
  by_cases hxy : 0 ≤ x ∧ 0 ≤ y
  · have hsame : (p.col = x.toNat ∧ p.row = y.toNat) ↔ (x = p.x.toInt ∧ y = p.y.toInt) := by
      simp only [Position.col, Position.row]
      omega
    rw [if_pos hxy, cell?_set]
    simp only [hsame]
    split
    · rfl
    · exact (if_pos hxy).symm
  · rw [if_neg hxy, if_neg (by omega)]
    exact (if_neg hxy).symm

/-- The cells the map has in a row are those of the row. -/
theorem filterMap_chart_cell? (h : y < f.height) :
    (List.range f.width).filterMap (fun x : Nat => f.chart.cell? (x, y))
      = (getElem f.rows y h).toList := by
  have hlength : (getElem f.rows y h).toList.length = f.width := Vector.length_toList
  refine Eq.trans ?_ (filterMap_getElem?_range _)
  rw [hlength]
  refine List.filterMap_congr fun x _ => ?_
  rw [chart_cell?_natCast, cell?, Array.getElem?_eq_getElem h, Option.bind_some, Vector.getElem?_toList]

/-- So a row has the same text on the map ... -/
theorem chart_row? (f : Playfield) (y : Nat) : f.chart.row? y = f.rowText? y := by
  unfold Chart.row? rowText?
  by_cases h : y < f.height
  · rw [if_pos (show y < f.chart.height from h), Array.getElem?_eq_getElem h, Option.map_some,
      rowChars, ← filterMap_chart_cell? h]
    rfl
  · rw [if_neg (show ¬ y < f.chart.height from h),
      Array.getElem?_eq_none (Nat.le_of_not_lt h), Option.map_none]

/-- ... and so has the field. -/
theorem joinLines_chart_row? (f : Playfield) :
    Text.joinLines ((List.range f.chart.height).filterMap f.chart.row?) = f.text := by
  have hlength : (f.rows.toList.map rowChars).length = f.height := by
    rw [List.length_map, Array.length_toList]
    rfl
  rw [text, ← filterMap_getElem?_range (f.rows.toList.map rowChars), hlength]
  refine congrArg Text.joinLines (List.filterMap_congr fun y _ => ?_)
  rw [chart_row?, rowText?, List.getElem?_map, Array.getElem?_toList]

/-- A request is answered by the map as by the field, and leaves the map of what it leaves of the
    field. -/
theorem serve_chart (f : Playfield) (request : Request) :
    f.chart.serve request = ((f.serve request).1, (f.serve request).2.chart) := by
  cases request with
  | read p =>
    rw [serve_read, Chart.serve, chart_cell?]
    cases f[p]? <;> rfl
  | write p v =>
    rw [serve_write, Chart.serve]
    by_cases h : p ∈ f
    · rw [dif_pos (isSome_chart_cell?_iff.mpr h), dif_pos h, chart_set h]
    · rw [dif_neg (mt isSome_chart_cell?_iff.mp h), dif_neg h]
  | has p =>
    have hhas : (f.chart.cell? (p.x.toInt, p.y.toInt)).isSome = decide (p ∈ f) := by
      rw [Bool.eq_iff_iff, isSome_chart_cell?_iff, decide_eq_true_iff]
    rw [Chart.serve, serve, hhas]
  | row y => rw [Chart.serve, serve, chart_row?]
  | text => rw [Chart.serve, serve, joinLines_chart_row?]

/-- Fields are the same when they have the same size and the same cells. -/
theorem eq_iff_cell? :
    f = g ↔ f.width = g.width ∧ f.height = g.height ∧ ∀ x y, f.cell? x y = g.cell? x y := by
  constructor
  · rintro rfl
    exact ⟨rfl, rfl, fun _ _ => rfl⟩
  · rintro ⟨hw, hh, hcell⟩
    obtain ⟨w, rows⟩ := f
    obtain ⟨w', rows'⟩ := g
    obtain rfl : w = w' := hw
    refine congrArg (mk w) (Array.ext hh fun y hy hy' => Vector.ext fun x hx => ?_)
    have hxy := hcell x y
    rw [cell?, cell?, Array.getElem?_eq_getElem hy, Array.getElem?_eq_getElem hy', Option.bind_some,
      Option.bind_some, Vector.getElem?_eq_getElem hx, Vector.getElem?_eq_getElem hx] at hxy
    exact Option.some.inj hxy

/-! ## The cells in one sequence -/

/-- Where the cell of a square is among the cells of the field. -/
def index? (f : Playfield) (p : Position) : Option Nat :=
  if p ∈ f then some (p.row * f.width + p.col) else none

theorem index?_eq_some_iff {i : Nat} :
    f.index? p = some i ↔ p ∈ f ∧ p.row * f.width + p.col = i := by
  rw [index?]
  split <;> simp_all

theorem getElem?_flatMap_toList {n : Nat} (rows : List (Vector Cell n)) (hx : x < n) (y : Nat) :
    (rows.flatMap Vector.toList)[y * n + x]? = rows[y]?.bind fun row => row[x]? := by
  induction rows generalizing y with
  | nil => rfl
  | cons row rows ih =>
    have hlength : row.toList.length = n := Vector.length_toList
    rw [List.flatMap_cons]
    cases y with
    | zero =>
      rw [Nat.zero_mul, Nat.zero_add, List.getElem?_append_left (by omega), Vector.getElem?_toList]
      rfl
    | succ y =>
      have hskip : (y + 1) * n + x - n = y * n + x := by
        rw [Nat.succ_mul]
        omega
      rw [List.getElem?_append_right (by rw [Nat.succ_mul]; omega), hlength, hskip, ih y,
        List.getElem?_cons_succ]

theorem flatMap_toList_modify {n : Nat} (rows : List (Vector Cell n)) (hx : x < n) (y : Nat) :
    (rows.modify y fun row => row.set x v hx).flatMap Vector.toList
      = (rows.flatMap Vector.toList).set (y * n + x) v := by
  induction rows generalizing y with
  | nil => cases y <;> rfl
  | cons row rows ih =>
    have hlength : row.toList.length = n := Vector.length_toList
    rw [List.flatMap_cons]
    cases y with
    | zero =>
      rw [List.modify_zero_cons, List.flatMap_cons, Nat.zero_mul, Nat.zero_add,
        List.set_append_left _ _ (by omega), Vector.toList_set]
    | succ y =>
      have hskip : (y + 1) * n + x - n = y * n + x := by
        rw [Nat.succ_mul]
        omega
      rw [List.modify_succ_cons, List.flatMap_cons, ih y,
        List.set_append_right _ _ (by rw [Nat.succ_mul]; omega), hlength, hskip]

/-- The cell in column `x` of row `y` comes after `y` rows and `x` cells. -/
theorem getElem?_cells (hx : x < f.width) (y : Nat) :
    f.cells[y * f.width + x]? = f.cell? x y := by
  rw [cells, getElem?_flatMap_toList _ hx, Array.getElem?_toList]
  rfl

/-- Reading a square is reading at its index, ... -/
theorem getElem?_eq_getElem?_cells (f : Playfield) (p : Position) :
    f[p]? = (f.index? p).bind fun i => f.cells[i]? := by
  by_cases h : p ∈ f
  · rw [index?, if_pos h, Option.bind_some, getElem?_cells (col_lt h), getElem?_eq_cell? h]
  · rw [index?, if_neg h, getElem?_eq_none_iff.mpr h]
    rfl

/-- ... writing to it is writing there, ... -/
theorem cells_set? (f : Playfield) (p : Position) (v : Cell) :
    (f.set? p v).map cells = (f.index? p).map fun i => f.cells.set i v := by
  by_cases h : p ∈ f
  · rw [index?, if_pos h, Option.map_some, set?, dif_pos h, Option.map_some]
    refine congrArg some ?_
    show (f.rows.modify p.row _).toList.flatMap Vector.toList = _
    rw [Array.toList_modify, flatMap_toList_modify _ (col_lt h)]
    rfl
  · rw [index?, if_neg h, set?, dif_neg h]
    rfl

/-- ... and no two squares have one index. -/
theorem index?_inj {i : Nat} (hp : f.index? p = some i) (hq : f.index? q = some i) : p = q := by
  obtain ⟨hp, hpi⟩ := index?_eq_some_iff.mp hp
  obtain ⟨hq, hqi⟩ := index?_eq_some_iff.mp hq
  have hpos : 0 < f.width := Nat.zero_lt_of_lt (col_lt hp)
  have hrow : p.row = q.row := by
    have hdiv := congrArg (· / f.width) (hpi.trans hqi.symm)
    simpa only [Nat.mul_comm _ f.width, Nat.mul_add_div hpos, Nat.div_eq_of_lt (col_lt hp),
      Nat.div_eq_of_lt (col_lt hq), Nat.add_zero] using hdiv
  have hcol : p.col = q.col := by
    rw [hrow] at hpi
    omega
  exact eq_of_col_eq_of_row_eq hp hq hcol hrow

/-! ## Every request -/

/-- A position is a square exactly when it can be read, ... -/
theorem mem_iff_serve_read : p ∈ f ↔ ∃ v, (f.serve (.read p)).1 = .cell v := by
  rw [serve_read]
  by_cases h : p ∈ f
  · rw [getElem?_pos f p h]
    exact iff_of_true h ⟨_, rfl⟩
  · rw [getElem?_eq_none_iff.mpr h]
    exact iff_of_false h (by simp)

/-- ... and exactly when it can be written. -/
theorem mem_iff_serve_write : p ∈ f ↔ (f.serve (.write p v)).1 = .written := by
  rw [serve_write]
  split
  · rename_i h
    exact iff_of_true h rfl
  · rename_i h
    exact iff_of_false h (by simp)

/-- **The field is a map from coordinates to cells.**  Whatever is asked of the field of a text, the
    map of that field gives the same answers, and what is left of the two goes together again.  There,
    a position is a square exactly when it can be read, and when it can be written; a row has the text
    of its cells; fields are the same when their sizes and all cells are; and a square can also be read
    and written at its index among all cells, which no other position has. -/
theorem answers_charted (source : String) (requests : List Request) :
    let f := ofSource source
    let g := f.after requests
    answers Chart.serve f.chart requests = ((answers serve f requests).1, g.chart) ∧
      (∀ p v, (p ∈ g ↔ (g.serve (.has p)).1 = .truth true) ∧
        (p ∈ g ↔ ∃ w, (g.serve (.read p)).1 = .cell w) ∧
        (p ∈ g ↔ (g.serve (.write p v)).1 = .written)) ∧
      (∀ y, g.rowText? y =
        if y < g.height then
          some (Text.trimEnd
            (((List.range g.width).filterMap fun x : Nat => g.chart.cell? (x, y)).map Cell.toChar))
        else none) ∧
      (∀ source' requests', let g' := (ofSource source').after requests'
        g' = g ↔ g'.width = g.width ∧ g'.height = g.height ∧ ∀ x y, g'.cell? x y = g.cell? x y) ∧
      g.cells.length = g.width * g.height ∧
      (∀ p v, g[p]? = ((g.index? p).bind fun i => g.cells[i]?) ∧
        (g.set? p v).map cells = (g.index? p).map fun i => g.cells.set i v) ∧
      ∀ p q i, g.index? p = some i → g.index? q = some i → p = q := by
  intro f g
  refine ⟨answers_eq_of_serve serve_chart f requests,
    fun p v => ⟨?_, mem_iff_serve_read, mem_iff_serve_write⟩,
    fun y => (chart_row? g y).symm, fun _ _ => eq_iff_cell?, length_cells g,
    fun p v => ⟨getElem?_eq_getElem?_cells g p, cells_set? g p v⟩, fun p q i => index?_inj⟩
  rw [serve, Answer.truth.injEq, decide_eq_true_iff]

/-- A text of two lines, one of them empty: a square is written in its row, and there is none to write
    right of the rows. -/
theorem answers_charted_two_rows :
    let f := ofSource "ab\n"
    let requests := [.write ⟨1, 1⟩ (-5), .write ⟨2, 0⟩ 7, .read ⟨1, 1⟩, .row 1, .has ⟨-1, 0⟩, .text]
    answers Chart.serve f.chart requests
        = ([.written, .outside ⟨2, 0⟩, .cell (-5), .row (some [' ', '\uFFFD']), .truth false,
            .text ['a', 'b', '\n', ' ', '\uFFFD']], (f.after requests).chart) ∧
      (f.after requests).cells = [97, 98, 32, -5] ∧
      ∀ p, (f.after requests).index? p = some 3 → p = ⟨1, 1⟩ := by
  intro f requests
  obtain ⟨hanswers, -, -, -, -, -, hindex⟩ := answers_charted "ab\n" requests
  refine ⟨hanswers.trans ?_, by decide +kernel, fun p hp => hindex p ⟨1, 1⟩ 3 hp (by decide +kernel)⟩
  exact congrArg (·, (f.after requests).chart) (by decide +kernel)

end Playfield

end Funge
