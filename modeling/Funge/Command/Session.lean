/-
  A run that asks for its input.

  The command does not have its input beforehand.  It obeys the program one instruction at a time;
  when the next one wants a line and none is queued, it takes one piece off the input, and after
  every instruction it shows what was written.  A `Session` is such a run between two instructions.

  `Session.play` has the whole conversation: what is shown, and where the program stopped.  A program
  that never stops has none.
-/
import Funge.Command.Outcome

namespace Funge.Command

/-- A run that goes on. -/
structure Session where
  /-- The machine.  Its console holds what was asked for and not yet read. -/
  machine : Machine
  /-- How many instructions it may still obey, if there is a limit. -/
  left : Option Nat

namespace Session

/-- A job before its first instruction, with nothing read. -/
def start (job : Job) (entropy : UInt64) : Session :=
  ⟨(job.machine (Console.ofLines [] Failures.none) entropy).reset, job.maxSteps.map UInt64.toNat⟩

/-- Whether a line has to be asked for before the session goes on. -/
def wantsLine (s : Session) : Bool := s.left != some 0 && s.machine.wantsLine

/-- The session on another console. -/
def withConsole (s : Session) (console : Console) : Session :=
  { s with machine := { s.machine with console } }

/-- The session with a piece of the input.  It is queued as a line; at the end of input there is
    none, and after a piece that is not text the next read fails. -/
def take (s : Session) (piece : List UInt8) : Session :=
  if piece.isEmpty then s else
  match Feed.line? piece with
  | some line => s.withConsole (s.machine.console.queue [line])
  | none => s.withConsole { s.machine.console with
      failure := fun channel k =>
        if channel = .read ∧ k = s.machine.console.reads then some notUtf8 else none }

/-- Take a piece off the input, if a line has to be asked for: the session with it, and the input
    that is left. -/
def ask (input : List UInt8) (s : Session) : Session × List UInt8 :=
  if s.wantsLine then (s.take (Text.firstPiece 10 input).1, (Text.firstPiece 10 input).2)
  else (s, input)

/-- Obey one more instruction, if one is left: the text to be shown, and either where the program
    stopped or how the session goes on. -/
def turn (s : Session) : String × (Stop × Machine ⊕ Session) :=
  let (stop, m) := s.machine.go (if s.left = some 0 then 0 else 1)
  let (text, console) := m.console.takeOutput
  let m := { m with console := console.takeCalls.2 }
  match stop, s.left with
  | .exhausted, none => (text, .inr ⟨m, none⟩)
  | .exhausted, some (n + 1) => (text, .inr ⟨m, some n⟩)
  | stop, _ => (text, .inl (stop, m))

/-- The whole conversation with an input, when a text has been shown before: all that was shown in
    the end, and where the program stopped. -/
def play (shown : String) (input : List UInt8) (s : Session) : Option (String × Stop × Machine) :=
  match (s.ask input).1.turn with
  | (text, .inl stopped) => some (shown ++ text, stopped)
  | (text, .inr next) => next |>.play (shown ++ text) (s.ask input).2
partial_fixpoint

end Session

/-- The status and the message of a job whose program stopped. -/
def Job.conclude (program : String) (job : Job) (stop : Stop) (m : Machine) : Nat × String :=
  let (result, m) := m.finish ((job.maxSteps.map UInt64.toNat).getD 0) stop
  report program m.field result

/-- What a job does when it asks for its input. -/
def Job.converse (w : World) (job : Job) : Option Outcome :=
  ((Session.start job w.entropy).play "" w.input.data.toList).map fun (shown, stop, m) =>
    let (status, err) := job.conclude w.program stop m
    .exited status (job.preamble ++ shown ++ "\n") err

end Funge.Command
