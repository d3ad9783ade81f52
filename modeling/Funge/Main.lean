/-
  The command itself.

  It decides with the same functions as `Command.answer` and does by effects what that function
  says.  Input is read when the program wants it, after everything written so far has been shown:
  a running job is a `Session`, and `converse` does by effects what `Session.play` says.  As
  there, a diagnostic has no colours, even if standard error is a terminal.
-/
import Funge.Command.Session

namespace Funge.Command

/-- What the system says about a file that could not be read.  It may give its error numbers
    negated. -/
def readFailure (error : IO.Error) : ReadFailure :=
  match error with
  | .noFileOrDirectory _ _ _ => .missing
  | .inappropriateType _ code _ =>
    match min code (0 - code) with
    | 20 => .notDirectory
    | 21 => .isDirectory
    | _ => .other (toString error)
  | .invalidArgument _ code _ =>
    match min code (0 - code) with
    | 36 => .nameTooLong
    | _ => .other (toString error)
  | error => .other (toString error)

/-- The text of a file. -/
def readFile (path : String) : IO (Except ReadFailure String) := do
  if path.isEmpty then return .error .missing
  match ← (IO.FS.readBinFile path).toBaseIO with
  | .ok content => return decodeText content
  | .error error => return .error (readFailure error)

/-- The next piece of a stream: the bytes up to and with a newline, or those left. -/
partial def readPiece (stream : IO.FS.Stream) (start : ByteArray) : IO ByteArray := do
  let next ← stream.read 1
  if next.isEmpty then return start
  let piece := start ++ next
  if next.data == #[10] then return piece
  readPiece stream piece

/-- Obey instructions, one after the other; show what they write and read what they want. -/
partial def converse (input output : IO.FS.Stream) (s : Session) : IO (Stop × Machine) := do
  let mut s := s
  if s.wantsLine then
    output.flush
    s := s.take (← readPiece input ByteArray.empty).data.toList
  let (text, after) := s.turn
  output.putStr text
  match after with
  | .inl stopped => return stopped
  | .inr next => converse input output next

/-- Run a job. -/
def perform (program : String) (job : Job) : IO UInt32 := do
  let input ← IO.getStdin
  let output ← IO.getStdout
  let entropy := (← IO.getRandomBytes 8).toUInt64LE!
  output.putStr job.preamble
  let (stop, m) ← converse input output (Session.start job entropy)
  let (status, text) := job.conclude program stop m
  output.flush
  IO.eprint text
  output.putStrLn ""
  output.flush
  return UInt32.ofNat status

/-- Refuse a command line. -/
def refuse (why : Misuse) : IO UInt32 := do
  IO.eprintln ("error: " ++ why.message)
  return 2

/-- The settings: those of the settings file, if there is one to be read. -/
def readSettings (env : Environment) : IO (Except SplitCharacter Settings) := do
  match env.settingsPath? with
  | none => return .ok Settings.standard
  | some path =>
    match ← readFile path with
    | .ok content => return Settings.parse content
    | .error _ => return .ok Settings.standard

/-- The variables of the environment that matter. -/
def readEnvironment : IO Environment := do
  let values ← Environment.names.mapM fun name => do return (name, ← IO.getEnv name)
  return fun name => (values.lookup name).join

/-- The program text at its origin. -/
def readOrigin : Origin → IO (Except Unreadable String)
  | .inline code => return .ok code
  | .file path => return (← readFile path).mapError (⟨path, ·⟩)

/-- Call the command. -/
def call (program : String) (arguments : List String) : IO UInt32 := do
  match Plan.of program arguments with
  | .refuse why => refuse why
  | .explain text status =>
    IO.eprint text
    return UInt32.ofNat status
  | .run origin options =>
    match ← readOrigin origin with
    | .error unreadable =>
      IO.eprint (unreadable.message program)
      return 1
    | .ok source =>
      let env ← readEnvironment
      match ← readSettings env with
      | .error why =>
        IO.eprintln (program ++ ": a colour in the settings file cuts a character: " ++ why.value)
        return 101
      | .ok settings => perform program (Job.of source options env settings)

end Funge.Command

def main (arguments : List String) : IO UInt32 := Funge.Command.call "befunge" arguments
