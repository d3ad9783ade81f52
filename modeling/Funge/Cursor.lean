/-
  Where a program is and where it goes next.

  A `Position` is a pair of cells, so any pair of values a program computes is one, on the
  playfield or not; stepping wraps around at 32 bits.  A `Cursor` is a position, the direction
  of travel and the string-mode flag.
-/
import Funge.Cell

namespace Funge

/-- A column and a row.  The origin is the top left corner, rows count downwards. -/
structure Position where
  /-- The column. -/
  x : Cell
  /-- The row. -/
  y : Cell
deriving DecidableEq, Repr, Inhabited

/-- A direction of travel. -/
inductive Direction where
  | north | south | east | west
deriving DecidableEq, Repr, Inhabited

namespace Direction

/-- The change of column in one step. -/
def dx : Direction → Cell
  | north | south => 0
  | east => 1
  | west => -1

/-- The change of row in one step. -/
def dy : Direction → Cell
  | north => -1
  | south => 1
  | east | west => 0

end Direction

namespace Position

/-- The top left corner. -/
def origin : Position := ⟨0, 0⟩

/-- The neighbour in a direction. -/
def step (p : Position) (d : Direction) : Position := ⟨p.x + d.dx, p.y + d.dy⟩

/-- The column as a count from the left edge; zero left of it. -/
def col (p : Position) : Nat := p.x.toInt.toNat

/-- The row as a count from the top edge; zero above it. -/
def row (p : Position) : Nat := p.y.toInt.toNat

/-- A position as it is written in messages: `(x, y)`. -/
def text (p : Position) : String := s!"({p.x.decimal}, {p.y.decimal})"

end Position

/-- The moving part of a running program. -/
structure Cursor where
  /-- The square whose instruction is next. -/
  pos : Position
  /-- Where the cursor goes from there. -/
  dir : Direction
  /-- Whether characters are pushed instead of obeyed. -/
  stringMode : Bool
deriving DecidableEq, Repr

namespace Cursor

/-- The cursor of a fresh run: at the origin, heading east, string mode off. -/
def start : Cursor := ⟨Position.origin, .east, false⟩

instance : Inhabited Cursor := ⟨start⟩

/-- One square on, in the direction of travel. -/
def advance (c : Cursor) : Cursor := { c with pos := c.pos.step c.dir }

/-- Take another direction. -/
def turn (c : Cursor) (d : Direction) : Cursor := { c with dir := d }

/-- Switch string mode. -/
def toggle (c : Cursor) : Cursor := { c with stringMode := !c.stringMode }

end Cursor

end Funge
