/-
  The playfield: the rectangle of cells a program lives on.

  `Playfield.ofSource` lays program text out, one row per line.  The field is as wide as the
  longest line, white space at its end included, but that white space itself is stored as
  blanks.  The field never grows: `p ∈ f` says that position `p` is one of its squares,
  `f[p]?` reads a square and `f.set? p v` writes one, and both fail outside.

  `rowText` turns a row back into text and `text` the whole field.
-/
import Funge.Cursor
import Funge.Text.Blank
import Funge.Text.Lines

namespace Funge

/-- A rectangle of cells. -/
structure Playfield where
  /-- The number of columns. -/
  width : Nat
  /-- The rows, the top one first. -/
  rows : Array (Vector Cell width)
deriving DecidableEq, Repr

namespace Playfield

/-- The number of rows. -/
def height (f : Playfield) : Nat := f.rows.size

/-- The squares of a field: both coordinates count from zero. -/
instance : Membership Position Playfield where
  mem f p := (0 ≤ p.x.toInt ∧ p.x.toInt < f.width) ∧ 0 ≤ p.y.toInt ∧ p.y.toInt < f.height

theorem mem_def {f : Playfield} {p : Position} :
    p ∈ f ↔ (0 ≤ p.x.toInt ∧ p.x.toInt < f.width) ∧ 0 ≤ p.y.toInt ∧ p.y.toInt < f.height :=
  Iff.rfl

instance (f : Playfield) (p : Position) : Decidable (p ∈ f) := decidable_of_iff' _ mem_def

theorem col_lt {f : Playfield} {p : Position} (h : p ∈ f) : p.col < f.width := by
  have := mem_def.mp h
  simp only [Position.col]
  omega

theorem row_lt {f : Playfield} {p : Position} (h : p ∈ f) : p.row < f.rows.size := by
  have := mem_def.mp h
  simp only [height] at this
  simp only [Position.row]
  omega

/-- The cell of a square. -/
instance : GetElem Playfield Position Cell fun f p => p ∈ f where
  getElem f p h :=
    have := row_lt h
    have := col_lt h
    f.rows[p.row][p.col]

/-- The field with one square overwritten. -/
def set (f : Playfield) (p : Position) (v : Cell) (h : p ∈ f) : Playfield :=
  { f with rows := f.rows.modify p.row fun row => row.set p.col v (col_lt h) }

/-- The field with one square overwritten, if it has that square. -/
def set? (f : Playfield) (p : Position) (v : Cell) : Option Playfield :=
  if h : p ∈ f then some (f.set p v h) else none

/-- What is said about a position outside the field. -/
def outsideMessage (p : Position) : String := "cell " ++ p.text ++ " is outside the grid"

/-! ## From text -/

/-- A line as a row: its characters up to the white space at its end, then blanks. -/
def rowOfLine (width : Nat) (line : List Char) : Vector Cell width :=
  let content := (Text.trimEnd line).toArray
  Vector.ofFn fun i => (content[i.val]?).elim Cell.blank Cell.ofChar

/-- The field of given lines: as wide as the longest of them. -/
def ofLines (ls : List (List Char)) : Playfield :=
  let width := (ls.map List.length).foldl max 0
  ⟨width, (ls.map (rowOfLine width)).toArray⟩

/-- The field of a program text. -/
def ofSource (source : String) : Playfield := ofLines (Text.lines source.toList)

/-! ## Back to text -/

/-- The characters of a row without the white space at its end. -/
def rowChars {width : Nat} (row : Vector Cell width) : List Char :=
  Text.trimEnd (row.toList.map Cell.toChar)

/-- The text of a row, if the field has that row. -/
def rowText? (f : Playfield) (y : Nat) : Option (List Char) := f.rows[y]?.map rowChars

/-- The text of the field: its rows, separated by newlines. -/
def text (f : Playfield) : List Char := Text.joinLines (f.rows.toList.map rowChars)

end Playfield

end Funge
