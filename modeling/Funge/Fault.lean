/-
  Why a run failed.

  Every fault but the step limit carries the position of the cursor at the time.  `message` is
  the one-line text of a fault on its own; a diagnostic with the row of the program beside it
  is made elsewhere.
-/
import Funge.Cursor
import Funge.Text.Quoted

namespace Funge

/-- Why a line of input was refused. -/
inductive InputFault where
  /-- There was no line left. -/
  | endOfInput
  /-- An integer was wanted and the line does not hold one. -/
  | notAnInteger (line : String)
  /-- A character was wanted and the line is empty. -/
  | emptyLine
deriving DecidableEq, Repr

/-- The reason in words. -/
def InputFault.message : InputFault → String
  | endOfInput => "end of input"
  | notAnInteger line => "expected an integer, got " ++ String.ofList (Text.quoted line.toList)
  | emptyLine => "expected a character, got an empty line"

/-- The end of a run that did not halt. -/
inductive Fault where
  /-- The stack was empty when `op` wanted an entry. -/
  | stackUnderflow (pos : Position) (op : Char)
  /-- The cursor, or the operands of a load or a store, named a square outside the field. -/
  | outOfField (pos : Position) (square : Position)
  /-- `op` had a zero divisor. -/
  | divisionByZero (pos : Position) (op : Char)
  /-- A line of input was refused. -/
  | malformedInput (pos : Position) (reason : InputFault)
  /-- The console failed. -/
  | console (pos : Position) (message : String)
  /-- The run was stopped after so many instructions. -/
  | stepLimit (limit : Nat)
deriving DecidableEq, Repr

namespace Fault

/-- Where the cursor was. -/
def position? : Fault → Option Position
  | stackUnderflow pos _ | outOfField pos _ | divisionByZero pos _ | malformedInput pos _
  | console pos _ => some pos
  | stepLimit _ => none

/-- The fault in one line. -/
def message : Fault → String
  | stackUnderflow pos op =>
    "Stack underflow at " ++ pos.text ++ " (op='" ++ op.toString ++ "')"
  | outOfField pos square =>
    "Cell " ++ square.text ++ " is outside the grid (cursor at " ++ pos.text ++ ")"
  | divisionByZero pos op =>
    "Division by zero at " ++ pos.text ++ " (op='" ++ op.toString ++ "')"
  | malformedInput pos reason => "Malformed input at " ++ pos.text ++ ": " ++ reason.message
  | console pos text => "I/O error at " ++ pos.text ++ ": " ++ text
  | stepLimit limit => "Execution aborted: step limit exceeded (" ++ toString limit ++ ")"

end Fault

end Funge
