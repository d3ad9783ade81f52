/-
  The machine, and what its instructions are made of.

  A `Machine` is everything a run changes: the field, the stack, the cursor, the console and
  the source of random directions.  An action of type `Exec α` either gives a result or
  raises a fault, and in both cases leaves a machine: what it did before the fault stays done.
-/
import Funge.Console
import Funge.Fault
import Funge.Instruction
import Funge.Playfield.Basic
import Funge.Random.WordSource
import Funge.Stack

namespace Funge

/-- The state of a run. -/
structure Machine where
  /-- The program, which is also its memory. -/
  field : Playfield
  /-- The operands. -/
  stack : Stack
  /-- The place in the program. -/
  cursor : Cursor
  /-- The console. -/
  console : Console
  /-- The source of random directions. -/
  chance : Random.WordSource

/-- An action on the machine that may raise a fault. -/
abbrev Exec (α : Type) := EStateM Fault Machine α

namespace Machine

/-- A machine ready for its first run. -/
def start (field : Playfield) (console : Console) (chance : Random.WordSource) : Machine :=
  ⟨field, ∅, Cursor.start, console, chance⟩

/-- The machine ready for another run: empty stack, cursor at the start.  The field, the
    console and the source of directions go on as they are. -/
def reset (m : Machine) : Machine := { m with stack := ∅, cursor := Cursor.start }

end Machine

namespace Exec

/-- Where the cursor is. -/
def here : Exec Position := fun m => .ok m.cursor.pos m

/-- Raise a fault. -/
def fail {α : Type} (fault : Fault) : Exec α := fun m => .error fault m

/-- Put a value on the stack. -/
def push (v : Cell) : Exec Unit := fun m => .ok () { m with stack := m.stack.push v }

/-- Take the top entry off the stack, for the instruction shown as `op`. -/
def pop (op : Char) : Exec Cell := fun m =>
  match m.stack.pop? with
  | some (v, rest) => .ok v { m with stack := rest }
  | none => .error (.stackUnderflow m.cursor.pos op) m

/-- The top entry, left where it is. -/
def peek (op : Char) : Exec Cell := fun m =>
  match m.stack.peek? with
  | some v => .ok v m
  | none => .error (.stackUnderflow m.cursor.pos op) m

/-- Change the cursor. -/
def steer (change : Cursor → Cursor) : Exec Unit := fun m =>
  .ok () { m with cursor := change m.cursor }

/-- Draw a direction and take it.  A source that has none left changes nothing. -/
def steerRandomly : Exec Unit := fun m =>
  match m.chance.next? with
  | some (dir, chance) => .ok () { m with cursor := m.cursor.turn dir, chance }
  | none => .ok () m

/-- The cell at a position. -/
def load (p : Position) : Exec Cell := fun m =>
  match m.field[p]? with
  | some v => .ok v m
  | none => .error (.outOfField m.cursor.pos p) m

/-- Overwrite the cell at a position. -/
def store (p : Position) (v : Cell) : Exec Unit := fun m =>
  match m.field.set? p v with
  | some field => .ok () { m with field }
  | none => .error (.outOfField m.cursor.pos p) m

/-- Call the console; its failure is the machine's fault. -/
def consult {α : Type} (call : Console → Except String α × Console) : Exec α := fun m =>
  match call m.console with
  | (.ok result, console) => .ok result { m with console }
  | (.error text, console) => .error (.console m.cursor.pos text) { m with console }

/-- The next line of input.  Output is flushed first, so that a prompt is seen. -/
def readLine : Exec String := do
  consult Console.flush
  match ← consult Console.readLine with
  | some line => return line
  | none => fail (.malformedInput (← here) .endOfInput)

end Exec

end Funge
