/-
  Colours as a settings file writes them.

  A value is a name in any case, or a hash and six bytes: two for each of red, green and blue,
  each two hexadecimal digits or a plus and one digit.  Length is counted in bytes of UTF-8, and
  the six bytes are cut after the second and the fourth before anything else is looked at; a
  character across one of these cuts makes the value impossible to read, which is a fault
  of the whole file (`SplitCharacter`), not just a value to be ignored.
-/
import Funge.Color
import Funge.Numeral
import Funge.Text.Blank
import Funge.Text.Bytes

namespace Funge

/-- A colour value with a character across two of its parts. -/
structure SplitCharacter where
  /-- The text after the hash. -/
  value : String
deriving DecidableEq, Repr

namespace Color

/-- The colour of three groups of two bytes. -/
def ofGroups? (r g b : List Char) : Option Color := do
  return rgb (← Numeral.hexPair? r) (← Numeral.hexPair? g) (← Numeral.hexPair? b)

/-- The colour of the text after a hash, if it is one. -/
def ofHex? (hex : List Char) : Except SplitCharacter (Option Color) :=
  if Text.byteLength hex ≠ 6 then .ok none else
  match Text.splitAtByte? 2 hex with
  | none => .error ⟨String.ofList hex⟩
  | some (r, rest) =>
    match Text.splitAtByte? 2 rest with
    | none => .error ⟨String.ofList hex⟩
    | some (g, b) => .ok (ofGroups? r g b)

/-- The colour of a value, if it is one. -/
def ofValue? (value : List Char) : Except SplitCharacter (Option Color) :=
  match Text.trim value with
  | '#' :: hex => ofHex? hex
  | name => .ok (named? (String.ofList (name.map Char.toLower)))

end Color

end Funge
