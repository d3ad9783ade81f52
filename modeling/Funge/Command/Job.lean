/-
  What a command line asks for.

  `Plan.of` decides from the arguments alone: refuse, explain, or run a program.  A program to run
  becomes a `Job` once its text has been read and the settings are known: an option on the
  command line comes first, then the environment, then the settings file.
-/
import Funge.Command.Arguments
import Funge.Command.Usage
import Funge.FileTree
import Funge.Settings.Basic

namespace Funge.Command

/-- Where the program text comes from. -/
inductive Origin where
  /-- The command line. -/
  | inline (code : String)
  /-- A file. -/
  | file (path : String)
deriving DecidableEq, Repr

/-- What to do. -/
inductive Plan where
  /-- The command line cannot be understood. -/
  | refuse (why : Misuse)
  /-- Print a text as a message and leave with a status. -/
  | explain (text : String) (status : Nat)
  /-- Run a program. -/
  | run (origin : Origin) (options : RunOptions)
deriving DecidableEq, Repr

namespace Plan

/-- What to do with the options of `run`. -/
def ofRun (program : String) (o : RunOptions) : Plan :=
  if o.help then explain (runUsage program) 0 else
  match o.path, o.code with
  | none, none => explain (runUsage program) 2
  | some _, some _ =>
    explain (program ++ ": cannot use PATH together with --code\n" ++ runUsage program) 2
  | none, some code => run (.inline code) o
  | some path, none => run (.file path) o

/-- What to do with a command line, for the name the command was called by. -/
def of (program : String) (arguments : List String) : Plan :=
  match Arguments.parse arguments with
  | .error why => refuse why
  | .ok ⟨help, none⟩ => explain (usage program) (if help then 0 else 2)
  | .ok ⟨true, some _⟩ => explain (usage program) 0
  | .ok ⟨false, some options⟩ => ofRun program options

end Plan

/-! ## Settings from several places -/

/-- The variables of the environment, by name. -/
abbrev Environment := String → Option String

namespace Environment

/-- The variable that names the settings file. -/
def settingsVariable : String := "BEFUNGE_CONFIG"

/-- The variable that limits a run. -/
def maxStepsVariable : String := "BEFUNGE_MAX_STEPS"

/-- The variable that seeds the random directions. -/
def seedVariable : String := "BEFUNGE_SEED"

/-- The variable that names the user's directory of settings. -/
def settingsHomeVariable : String := "XDG_CONFIG_HOME"

/-- The variable that names the user's home directory. -/
def homeVariable : String := "HOME"

/-- The names of the variables that matter. -/
def names : List String :=
  [settingsVariable, maxStepsVariable, seedVariable, settingsHomeVariable, homeVariable]

/-- The number in a variable, white space around it aside. -/
def number? (env : Environment) (name : String) : Option UInt64 :=
  (env name).bind fun value => Numeral.word? (Text.trim value.toList)

/-- The home directory; an empty name is none. -/
def home? (env : Environment) : Option String := (env homeVariable).filter (!·.isEmpty)

/-- The user's directory of settings: the one the environment names, even by an empty name, else
    `.config` in the home directory. -/
def settingsHome? (env : Environment) : Option String :=
  env settingsHomeVariable <|> env.home?.map (FileTree.join · ".config")

/-- The settings file: the one the environment names, even by an empty name, else the one in the
    user's directory of settings. -/
def settingsPath? (env : Environment) : Option String :=
  env settingsVariable <|> env.settingsHome?.map (FileTree.join · "befunge.toml")

end Environment

/-- A program with everything that was chosen for its run. -/
structure Job where
  /-- The program text. -/
  source : String
  /-- Whether to print it first. -/
  echo : Bool
  /-- How many instructions the run may take. -/
  maxSteps : Option UInt64
  /-- The seed of the random directions, if one was chosen. -/
  seed : Option UInt64
deriving DecidableEq, Repr

/-- Each choice from the first place that makes it. -/
def Job.of (source : String) (o : RunOptions) (env : Environment) (settings : Settings) : Job where
  source := source
  echo := o.echo || settings.echoSource
  maxSteps := (o.maxSteps <|> env.number? Environment.maxStepsVariable) <|> settings.maxSteps
  seed := (o.seed <|> env.number? Environment.seedVariable) <|> settings.seed

end Funge.Command
