/-
  The command line.

  The command knows one subcommand, `run`.  Before it only the help flag is allowed.  After it
  come flags (`-e`, `-h`), options with a value (`-c`, `--max-steps`, `--seed`) and one path, in
  any order; each may be given once.

  A long option takes its value after `=` or from the next argument.  One-letter options may
  share a dash; the first of them that wants a value takes the rest of the argument, less one
  `=` in front, or the next argument if nothing is left.  A value in an argument of its own must
  not begin with a dash, a lone dash excepted.  After `--` every argument is a path.

  `Arguments.parse` reads a command line from left to right with `Reader.step`, one argument at
  a time; the first argument that does not fit decides the refusal.
-/
import Funge.Numeral

namespace Funge.Command

/-- The options of `run`. -/
structure RunOptions where
  /-- Print the program before it runs. -/
  echo : Bool
  /-- The program text. -/
  code : Option String
  /-- The file that holds the program. -/
  path : Option String
  /-- How many instructions the run may take. -/
  maxSteps : Option UInt64
  /-- The seed of the random directions. -/
  seed : Option UInt64
  /-- Explain the options instead. -/
  help : Bool
deriving DecidableEq, Repr

/-- No option given. -/
def RunOptions.unset : RunOptions := ⟨false, none, none, none, none, false⟩

/-- A command line that was understood. -/
structure Arguments where
  /-- The help flag before the subcommand. -/
  help : Bool
  /-- The options of `run`, if it was given. -/
  run : Option RunOptions
deriving DecidableEq, Repr

/-- Why a command line was refused. -/
inductive Misuse where
  /-- Nothing by this name is known here. -/
  | unexpected (argument : String)
  /-- It was given before. -/
  | repeated (name : String)
  /-- An option is without its value. -/
  | missingValue (name : String)
  /-- A flag was given a value. -/
  | unwantedValue (name : String)
  /-- The value is not a number of 64 bits. -/
  | notANumber (name : String) (value : String)
deriving DecidableEq, Repr

/-- The refusal in words. -/
def Misuse.message : Misuse → String
  | unexpected argument => "unexpected argument '" ++ argument ++ "' found"
  | repeated name => "the argument '" ++ name ++ "' cannot be used multiple times"
  | missingValue name => "a value is required for '" ++ name ++ "' but none was supplied"
  | unwantedValue name => "unexpected value for '" ++ name ++ "' found"
  | notANumber name value => "invalid value '" ++ value ++ "' for '" ++ name ++ "'"

/-! ## Single options -/

/-- A flag of `run`. -/
inductive Flag where
  | echo | help
deriving DecidableEq, Repr

/-- An option of `run` with a value. -/
inductive Valued where
  | code | maxSteps | seed
deriving DecidableEq, Repr

/-- The long name of a flag. -/
def Flag.name : Flag → String
  | echo => "--echo"
  | help => "--help"

/-- The long name of an option. -/
def Valued.name : Valued → String
  | code => "--code"
  | maxSteps => "--max-steps"
  | seed => "--seed"

namespace RunOptions

/-- Give a flag. -/
def give (o : RunOptions) (flag : Flag) : Except Misuse RunOptions :=
  match flag with
  | .echo => if o.echo then .error (.repeated flag.name) else .ok { o with echo := true }
  | .help => if o.help then .error (.repeated flag.name) else .ok { o with help := true }

/-- Fill a place that may be filled once. -/
def fill {α : Type} (name : String) (place : Option α) (value : α) : Except Misuse (Option α) :=
  if place.isSome then .error (.repeated name) else .ok (some value)

/-- The number a value stands for. -/
def number (name value : String) : Except Misuse UInt64 :=
  match Numeral.word? value.toList with
  | some n => .ok n
  | none => .error (.notANumber name value)

/-- Give an option with its value. -/
def assign (o : RunOptions) (option : Valued) (value : String) : Except Misuse RunOptions :=
  match option with
  | .code => do
    let code ← fill option.name o.code value
    return { o with code }
  | .maxSteps => do
    let maxSteps ← fill option.name o.maxSteps (← number option.name value)
    return { o with maxSteps }
  | .seed => do
    let seed ← fill option.name o.seed (← number option.name value)
    return { o with seed }

/-- Give the path. -/
def place (o : RunOptions) (path : String) : Except Misuse RunOptions :=
  if o.path.isSome then .error (.unexpected path) else .ok { o with path := some path }

end RunOptions

/-! ## Arguments one after the other -/

/-- How far the options of `run` have been read. -/
structure Reader where
  /-- What was given so far. -/
  options : RunOptions
  /-- The option whose value the next argument is. -/
  awaiting : Option Valued
  /-- Whether options have ended. -/
  pathsOnly : Bool
deriving DecidableEq, Repr

namespace Reader

/-- Nothing read yet. -/
def fresh : Reader := ⟨RunOptions.unset, none, false⟩

/-- The letters behind a single dash. -/
def letters (o : RunOptions) : List Char → Except Misuse (RunOptions × Option Valued)
  | [] => .ok (o, none)
  | 'e' :: rest => do letters (← o.give .echo) rest
  | 'h' :: rest => do letters (← o.give .help) rest
  | ['c'] => .ok (o, some .code)
  | 'c' :: '=' :: value => do return (← o.assign .code (String.ofList value), none)
  | 'c' :: value => do return (← o.assign .code (String.ofList value), none)
  | c :: _ => .error (.unexpected (String.ofList ['-', c]))

/-- A flag by its long name. -/
def longFlag? : String → Option Flag
  | "echo" => some .echo
  | "help" => some .help
  | _ => none

/-- An option with a value by its long name. -/
def longValued? : String → Option Valued
  | "code" => some .code
  | "max-steps" => some .maxSteps
  | "seed" => some .seed
  | _ => none

/-- The text behind two dashes: a name, perhaps with a value after `=`. -/
def long (o : RunOptions) (text : List Char) : Except Misuse (RunOptions × Option Valued) := do
  let (name, rest) := text.span (· != '=')
  let value := rest.tail?.map String.ofList
  match longFlag? (String.ofList name), longValued? (String.ofList name), value with
  | some flag, _, none => return (← o.give flag, none)
  | some flag, _, some _ => throw (.unwantedValue flag.name)
  | none, some option, none => return (o, some option)
  | none, some option, some value => return (← o.assign option value, none)
  | none, none, _ => throw (.unexpected (String.ofList ('-' :: '-' :: text)))

/-- Read one argument. -/
def step (r : Reader) (argument : String) : Except Misuse Reader := do
  if r.pathsOnly then return { r with options := ← r.options.place argument }
  match r.awaiting, argument.toList with
  | some option, '-' :: _ :: _ => throw (.missingValue option.name)
  | some option, _ => return ⟨← r.options.assign option argument, none, false⟩
  | none, ['-', '-'] => return { r with pathsOnly := true }
  | none, '-' :: '-' :: text =>
    let (options, awaiting) ← long r.options text
    return ⟨options, awaiting, false⟩
  | none, '-' :: c :: text =>
    let (options, awaiting) ← letters r.options (c :: text)
    return ⟨options, awaiting, false⟩
  | none, _ => return { r with options := ← r.options.place argument }

/-- The options read, if none is without its value. -/
def close (r : Reader) : Except Misuse RunOptions :=
  match r.awaiting with
  | none => .ok r.options
  | some option => .error (.missingValue option.name)

end Reader

namespace Arguments

/-- The options of `run`. -/
def parseRun (arguments : List String) : Except Misuse RunOptions := do
  (← arguments.foldlM Reader.step Reader.fresh).close

/-- The command line, when the help flag has been given or not. -/
def parseFrom (help : Bool) : List String → Except Misuse Arguments
  | [] | ["--"] => .ok ⟨help, none⟩
  | "run" :: rest => do return ⟨help, some (← parseRun rest)⟩
  | argument :: rest =>
    if argument ≠ "-h" ∧ argument ≠ "--help" then .error (.unexpected argument)
    else if help then .error (.repeated "--help")
    else parseFrom true rest

/-- Read a command line. -/
def parse (arguments : List String) : Except Misuse Arguments := parseFrom false arguments

end Arguments

end Funge.Command
