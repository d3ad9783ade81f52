/-
  The settings file.

  A file is read line by line.  White space around a line does not count; empty lines and lines
  that begin with a hash are skipped.  `[name]` begins a section, `key = value` assigns, and
  any other line is ignored.  A value may stand in double quotes.

  `assignments` lists what a file assigns, in order, and `lookup?` finds the last assignment of
  a key in a section.  `Settings.parse` reads the seven settings off it; one that is
  absent or has a value of the wrong form keeps its default.
-/
import Funge.Settings.Color
import Funge.Text.Lines

namespace Funge

/-- What a settings file can set. -/
structure Settings where
  /-- How many instructions a run may take. -/
  maxSteps : Option UInt64
  /-- Whether the program is printed before it runs. -/
  echoSource : Bool
  /-- The seed of the random directions. -/
  seed : Option UInt64
  /-- The colours of diagnostics. -/
  palette : Palette
deriving DecidableEq, Repr

namespace Settings

/-- The settings without a file. -/
def standard : Settings := ⟨none, false, none, Palette.standard⟩

/-! ## Lines -/

/-- What a line of a settings file says. -/
inductive Line where
  /-- Nothing. -/
  | ignored
  /-- A section begins. -/
  | header (name : List Char)
  /-- A key gets a value. -/
  | assign (key value : List Char)
deriving DecidableEq, Repr

/-- The inside of a text that begins with `first` and ends with `last`, two characters of it. -/
def enclosed? (first last : Char) (text : List Char) : Option (List Char) :=
  match text with
  | [] => none
  | c :: rest =>
    if c = first ∧ rest.getLast? = some last then some rest.dropLast else none

/-- A value without the double quotes around it. -/
def unquote (value : List Char) : List Char := (enclosed? '"' '"' value).getD value

/-- What a line says. -/
def Line.ofText (text : List Char) : Line :=
  let text := Text.trim text
  if text.isEmpty || text.head? == some '#' then ignored else
  match enclosed? '[' ']' text with
  | some name => header (Text.trim name)
  | none =>
    match text.span (· != '=') with
    | (key, '=' :: value) => assign (Text.trim key) (unquote (Text.trim value))
    | _ => ignored

/-! ## Assignments -/

/-- A key with the section it is assigned in and the value it gets. -/
structure Assignment where
  /-- The name of the section; empty before the first header. -/
  scope : List Char
  /-- The key. -/
  key : List Char
  /-- The value, without quotes. -/
  value : List Char
deriving DecidableEq, Repr

/-- The assignments of some lines, in a section that has already begun. -/
def assignmentsFrom (scope : List Char) : List Line → List Assignment
  | [] => []
  | .ignored :: rest => assignmentsFrom scope rest
  | .header name :: rest => assignmentsFrom name rest
  | .assign key value :: rest => ⟨scope, key, value⟩ :: assignmentsFrom scope rest

/-- The assignments of a file, in order. -/
def assignments (content : List Char) : List Assignment :=
  assignmentsFrom [] ((Text.lines content).map Line.ofText)

/-- The value of the last assignment of a key in a section. -/
def lookup? (all : List Assignment) (scope key : String) : Option (List Char) :=
  (all.reverse.find? fun a => a.scope == scope.toList && a.key == key.toList).map (·.value)

/-! ## Values -/

/-- A truth value. -/
def flag? (value : List Char) : Option Bool :=
  if value = "true".toList then some true
  else if value = "false".toList then some false
  else none

/-- The colour a key is set to, or `otherwise` if it is not set to any. -/
def colorOr (all : List Assignment) (key : String) (otherwise : Color) :
    Except SplitCharacter Color :=
  match lookup? all "colors" key with
  | none => .ok otherwise
  | some value => (Color.ofValue? value).map (·.getD otherwise)

/-- The settings of a file; it is at fault only where a colour value cuts a character. -/
def parse (content : String) : Except SplitCharacter Settings := do
  let all := assignments content.toList
  let standard := Palette.standard
  let error ← colorOr all "error" standard.error
  let caret ← colorOr all "caret" standard.caret
  let source ← colorOr all "source" standard.source
  let location ← colorOr all "location" standard.location
  return {
    maxSteps := (lookup? all "run" "max_steps").bind Numeral.word?
    echoSource := ((lookup? all "run" "echo_source").bind flag?).getD false
    seed := (lookup? all "run" "seed").bind Numeral.word?
    palette := ⟨error, caret, source, location⟩
  }

end Settings

end Funge
