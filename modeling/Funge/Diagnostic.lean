/-
  Faults as a user sees them.

  A diagnostic is a headline; for a fault with a position the headline names it, and if the field
  has that row two more lines follow: a piece of the row, and a caret under the faulty square.
  The piece shows at most `reach` characters on either side of that square, and both lines are
  indented by two blanks.
-/
import Funge.Color
import Funge.Fault
import Funge.Playfield.Basic

namespace Funge.Diagnostic

/-- How many characters of the row are shown on either side of the faulty square. -/
def reach : Nat := 32

/-- What went wrong, in words. -/
def headline (field : Playfield) : Fault → String
  | .stackUnderflow _ op => "Runtime error: stack underflow (op=" ++ op.toString ++ ")"
  | .outOfField _ square =>
    "Runtime error: cell " ++ square.text ++ " is outside the " ++ toString field.width ++ "x"
      ++ toString field.height ++ " grid"
  | .divisionByZero _ op => "Runtime error: division by zero (op=" ++ op.toString ++ ")"
  | .malformedInput _ reason => "Input error: " ++ reason.message
  | .console _ text => "I/O error: " ++ text
  | .stepLimit limit => "Execution aborted: step limit exceeded (" ++ toString limit ++ ")"

/-- The headline with the name of the program in front, if there is one. -/
def titled (program : Option String) (text : String) : String :=
  match program with
  | some name => name ++ ": " ++ text
  | none => text

/-- The first column shown for a square in column `x`. -/
def windowStart (x : Nat) : Nat := x - reach

/-- The part of a row around column `x`; nothing, if the row ends before it begins. -/
def window (x : Nat) (row : List Char) : List Char :=
  (row.take (x + reach + 1)).drop (windowStart x)

/-- Blanks up to column `x` of the window, and a caret there. -/
def caretLine (x : Nat) : List Char := List.replicate (x - windowStart x) ' ' ++ ['^']

/-- The row of a square, if the field has it, as column and row text. -/
def rowAt? (field : Playfield) (pos : Position) : Option (Nat × List Char) :=
  if 0 ≤ pos.x.toInt ∧ 0 ≤ pos.y.toInt then
    (field.rowText? pos.row).map fun row => (pos.col, row)
  else none

/-- The two lines that show a square. -/
def context (field : Playfield) (pos : Position) (palette : Option Palette) : String :=
  match rowAt? field pos with
  | none => ""
  | some (x, row) =>
    "  " ++ Color.paint (palette.map (·.source)) (String.ofList (window x row)) ++ "\n" ++
    "  " ++ Color.paint (palette.map (·.caret)) (String.ofList (caretLine x)) ++ "\n"

/-- The diagnostic of a fault on a field. -/
def render (program : Option String) (field : Playfield) (fault : Fault)
    (palette : Option Palette) : String :=
  let title := Color.paint (palette.map (·.error)) (titled program (headline field fault))
  match fault.position? with
  | none => title ++ "\n"
  | some pos =>
    title ++ " at " ++ Color.paint (palette.map (·.location)) pos.text ++ "\n"
      ++ context field pos palette

end Funge.Diagnostic
