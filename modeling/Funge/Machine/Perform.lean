/-
  What each instruction does.

  `perform op i` is the effect of instruction `i`, shown as `op` in faults; the cursor's step
  to the next square is not part of it.  `dispatch v` obeys the cell `v`: in string mode
  it is pushed, unless it is the quote, otherwise its instruction is performed; after that the
  cursor steps on.
-/
import Funge.Machine.Basic
import Funge.Numeral

namespace Funge.Exec

/-- The effect of an instruction. -/
def perform (op : Char) : Instruction → Exec Unit
  | .push digit => push digit
  | .arith arith => do
    let a ← pop op
    let b ← pop op
    match arith.apply b a with
    | some result => push result
    | none => fail (.divisionByZero (← here) op)
  | .not => do
    let v ← pop op
    push (Cell.ofBool (v == 0))
  | .greater => do
    let a ← pop op
    let b ← pop op
    push (Cell.ofBool (a < b))
  | .go dir => steer (·.turn dir)
  | .goRandom => steerRandomly
  | .branchHorizontal => do
    let v ← pop op
    steer (·.turn (if v == 0 then .east else .west))
  | .branchVertical => do
    let v ← pop op
    steer (·.turn (if v == 0 then .south else .north))
  | .toggleString => steer Cursor.toggle
  | .duplicate => do
    let v ← peek op
    push v
  | .swap => do
    let a ← pop op
    let b ← pop op
    push a
    push b
  | .discard => do
    let _ ← pop op
  | .writeInteger => do
    let v ← pop op
    consult (·.writeInteger v)
  | .writeChar => do
    let v ← pop op
    consult (·.writeChar v.toChar)
  | .skip => steer Cursor.advance
  | .load => do
    let y ← pop op
    let x ← pop op
    let v ← load ⟨x, y⟩
    push v
  | .store => do
    let y ← pop op
    let x ← pop op
    let v ← pop op
    store ⟨x, y⟩ v
  | .readInteger => do
    let line ← readLine
    match Numeral.cell? (Text.trim line.toList) with
    | some v => push v
    | none => fail (.malformedInput (← here) (.notAnInteger line))
  | .readChar => do
    let line ← readLine
    match line.toList with
    | c :: _ => push (Cell.ofChar c)
    | [] => fail (.malformedInput (← here) .emptyLine)
  | .halt | .nothing => pure ()

/-- Whether string mode is on. -/
def inString : Exec Bool := fun m => .ok m.cursor.stringMode m

/-- Obey a cell and step on. -/
def dispatch (v : Cell) : Exec Unit := do
  if (← inString) && v != Cell.quote then push v
  else perform v.toChar (Instruction.decode v)
  steer Cursor.advance

end Funge.Exec
