/-
  Runs.

  `Machine.go n` obeys instructions until the program halts, a fault arises or `n` of them have
  been obeyed; the cell under the cursor is looked at first, so leaving the field and halting
  are noticed even when no instruction is left to obey.  `Machine.runFor n` is a whole
  run: it starts from a reset machine, and the console is flushed at its end.  A machine that
  halted and flushed is reset; a failed run leaves the stack and the cursor for inspection, and
  the failure of its last flush is not reported.

  `Machine.goOn` and `Machine.run none` are the same without a limit.  Such a run may never end;
  then there is no answer.
-/
import Funge.Machine.Perform

namespace Funge

/-- Why the instructions of a run stopped. -/
inductive Stop where
  /-- The halting cell was reached. -/
  | halted
  /-- A fault arose. -/
  | faulted (fault : Fault)
  /-- No more instructions were allowed. -/
  | exhausted
deriving DecidableEq, Repr

/-- The results of runs can be compared. -/
instance instDecidableEqExcept {ε α : Type} [DecidableEq ε] [DecidableEq α] :
    DecidableEq (Except ε α)
  | .ok a, .ok b => decidable_of_iff' (a = b) (by rw [Except.ok.injEq])
  | .error a, .error b => decidable_of_iff' (a = b) (by rw [Except.error.injEq])
  | .ok _, .error _ => isFalse nofun
  | .error _, .ok _ => isFalse nofun

namespace Machine

/-- Obey at most `n` instructions. -/
def go (n : Nat) (m : Machine) : Stop × Machine :=
  match m.field[m.cursor.pos]? with
  | none => (.faulted (.outOfField m.cursor.pos m.cursor.pos), m)
  | some v =>
    if v = Cell.halt then (.halted, m) else
    match n with
    | 0 => (.exhausted, m)
    | n + 1 =>
      match Exec.dispatch v m with
      | .ok () m => m.go n
      | .error fault m => (.faulted fault, m)

/-- The end of a run that was allowed `limit` instructions. -/
def finish (limit : Nat) (stop : Stop) (m : Machine) : Except Fault Unit × Machine :=
  let (flushed, console) := m.console.flush
  let m := { m with console }
  match stop, flushed with
  | .halted, .ok () => (.ok (), m.reset)
  | .halted, .error text => (.error (.console m.cursor.pos text), m)
  | .faulted fault, _ => (.error fault, m)
  | .exhausted, _ => (.error (.stepLimit limit), m)

/-- A run of at most `limit` instructions. -/
def runFor (limit : Nat) (m : Machine) : Except Fault Unit × Machine :=
  let (stop, m) := m.reset.go limit
  m.finish limit stop

/-- Obey instructions until there is a reason to stop. -/
def goOn (m : Machine) : Option (Stop × Machine) :=
  match m.field[m.cursor.pos]? with
  | none => some (.faulted (.outOfField m.cursor.pos m.cursor.pos), m)
  | some v =>
    if v = Cell.halt then some (.halted, m) else
    match Exec.dispatch v m with
    | .ok () m => m |>.goOn
    | .error fault m => some (.faulted fault, m)
partial_fixpoint

/-- A run with a limit or without one. -/
def run (limit : Option Nat) (m : Machine) : Option (Except Fault Unit × Machine) :=
  match limit with
  | some n => some (m.runFor n)
  | none => m.reset.goOn.map fun (stop, m) => m.finish 0 stop

/-- Whether the next instruction wants a line and none is queued. -/
def wantsLine (m : Machine) : Bool :=
  m.console.pending.isEmpty && !m.cursor.stringMode &&
    match m.field[m.cursor.pos]?.map Instruction.decode with
    | some .readInteger | some .readChar => true
    | _ => false

end Machine

end Funge
