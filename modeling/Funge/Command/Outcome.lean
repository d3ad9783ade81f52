/-
  The command as a function.

  `answer` is what the command does in a given `World`: the status it leaves with and what it
  writes.  A program without a step limit may never end; `answer` gives it `patience`
  instructions and says `unfinished` if they are not enough.

  Diagnostics are coloured where standard error is a terminal and the environment has no `NO_COLOR`.
  Here standard error is taken not to be a terminal: `report` renders without a palette, and the one
  among the settings is not used.  `Diagnostic.render` can do both.  Nothing interrupts a call.
-/
import Funge.Command.Feed
import Funge.Command.Job
import Funge.Diagnostic
import Funge.Machine.Run

namespace Funge.Command

/-- What the command finds when it is called. -/
structure World where
  /-- The name it was called by. -/
  program : String
  /-- The arguments after that name. -/
  arguments : List String
  /-- The environment. -/
  env : Environment
  /-- The files. -/
  files : FileTree
  /-- Standard input. -/
  input : ByteArray
  /-- The seed used when none is chosen. -/
  entropy : UInt64

/-- How a call of the command ends. -/
inductive Outcome where
  /-- The command line was refused. -/
  | refused (why : Misuse)
  /-- The settings file holds a colour value that cuts a character. -/
  | badSettings (why : SplitCharacter)
  /-- The command left with a status, after writing to its two outputs. -/
  | exited (status : Nat) (out err : String)
  /-- The program was still running when patience ended. -/
  | unfinished
deriving DecidableEq, Repr

/-- A program file that cannot be read. -/
structure Unreadable where
  /-- Its name, as it was given. -/
  path : String
  /-- The reason. -/
  why : ReadFailure
deriving DecidableEq, Repr

/-- What the command says about it. -/
def Unreadable.message (u : Unreadable) (program : String) : String :=
  program ++ ": failed to read " ++ u.path ++ " as UTF-8: " ++ u.why.message ++ "\n"

/-- What is written before the program runs. -/
def Job.preamble (job : Job) : String := if job.echo then job.source ++ "\n" else ""

/-- The machine a job starts with. -/
def Job.machine (job : Job) (console : Console) (entropy : UInt64) : Machine :=
  Machine.start (Playfield.ofSource job.source) console
    (Random.WordSource.ofSeed (job.seed.getD entropy))

/-- The status and the message for the result of a run that left a field.  The message goes to no
    terminal, so it has no colours. -/
def report (program : String) (field : Playfield) : Except Fault Unit → Nat × String
  | .ok () => (0, "")
  | .error fault => (1, Diagnostic.render (some program) field fault none)

/-- Run a job. -/
def Job.answer (patience : Nat) (w : World) (job : Job) : Outcome :=
  let limit := (job.maxSteps.map UInt64.toNat).getD patience
  let (result, m) := (job.machine (Feed.ofBytes w.input).console w.entropy).runFor limit
  match job.maxSteps, result with
  | none, .error (.stepLimit _) => .unfinished
  | _, _ =>
    let (status, err) := report w.program m.field result
    .exited status (job.preamble ++ m.console.output ++ "\n") err

/-- The settings the command finds: those of the settings file, if there is one to be read. -/
def World.settings (w : World) : Except SplitCharacter Settings :=
  match w.env.settingsPath?.map w.files.readText with
  | some (.ok content) => Settings.parse content
  | _ => .ok Settings.standard

/-- The program text at its origin. -/
def World.source (w : World) : Origin → Except Unreadable String
  | .inline code => .ok code
  | .file path => (w.files.readText path).mapError (⟨path, ·⟩)

/-- What the command does. -/
def answer (patience : Nat) (w : World) : Outcome :=
  match Plan.of w.program w.arguments with
  | .refuse why => .refused why
  | .explain text status => .exited status "" text
  | .run origin options =>
    match w.source origin, w.settings with
    | .error unreadable, _ => .exited 1 "" (unreadable.message w.program)
    | .ok _, .error why => .badSettings why
    | .ok source, .ok settings => (Job.of source options w.env settings).answer patience w

end Funge.Command
