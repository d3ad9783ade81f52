/-
  Colours of a terminal.

  A colour is one of thirteen named ones or given by its red, green and blue parts.  `paint`
  puts a text between the escape sequence of a colour and the one that resets it, an empty text
  too.
-/

namespace Funge

/-- A foreground colour. -/
inductive Color where
  | black | red | green | yellow | blue | purple | cyan | white
  | darkGray | lightRed | lightGreen | lightBlue | lightCyan
  | rgb (r g b : UInt8)
deriving DecidableEq, Repr

namespace Color

/-- The parameters of the escape sequence that selects a colour. -/
def code : Color → String
  | black => "30"
  | red => "31"
  | green => "32"
  | yellow => "33"
  | blue => "34"
  | purple => "35"
  | cyan => "36"
  | white => "37"
  | darkGray => "90"
  | lightRed => "91"
  | lightGreen => "92"
  | lightBlue => "94"
  | lightCyan => "96"
  | rgb r g b => "38;2;" ++ toString r.toNat ++ ";" ++ toString g.toNat ++ ";" ++ toString b.toNat

/-- An escape sequence with given parameters. -/
def escape (parameters : String) : String := "\x1b[" ++ parameters ++ "m"

/-- A text in a colour; without a colour, the text as it is. -/
def paint (color : Option Color) (text : String) : String :=
  match color with
  | some c => escape c.code ++ text ++ escape "0"
  | none => text

/-- The colour of a name in lower case. -/
def named? : String → Option Color
  | "black" => some black
  | "red" => some red
  | "green" => some green
  | "yellow" => some yellow
  | "blue" => some blue
  | "purple" | "magenta" => some purple
  | "cyan" => some cyan
  | "white" => some white
  | "gray" | "grey" | "darkgray" | "dark_gray" => some darkGray
  | "lightred" | "light_red" => some lightRed
  | "lightgreen" | "light_green" => some lightGreen
  | "lightblue" | "light_blue" => some lightBlue
  | "lightcyan" | "light_cyan" => some lightCyan
  | _ => none

end Color

/-- The colours of a diagnostic. -/
structure Palette where
  /-- The headline. -/
  error : Color
  /-- The line with the caret. -/
  caret : Color
  /-- The row of the program. -/
  source : Color
  /-- The position. -/
  location : Color
deriving DecidableEq, Repr

/-- The palette used where none is chosen. -/
def Palette.standard : Palette where
  error := .rgb 243 139 168
  caret := .rgb 249 226 175
  source := .rgb 127 132 156
  location := .rgb 250 179 135

end Funge
