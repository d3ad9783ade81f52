/-
  Text in double quotes, as messages show it.

  A quoted text has one printed line whatever it holds: the quote and the backslash are
  escaped, NUL, tab, newline and carriage return have short escapes, and every other character
  that would not show on its own is written as its code point in braces.  Such are the
  characters without a printed form, the ones that are left out of a drawing, and those that
  join the one before them.  Of the last the two halfwidth sound marks are spared: they
  are letters, with a width of their own.
-/
import Funge.Text.DefaultIgnorable
import Funge.Text.GraphemeExtend
import Funge.Text.Unprintable

namespace Funge.Text

/-- A number in lower-case hexadecimal, without leading zeros. -/
def hexadecimal (n : Nat) : List Char := Nat.toDigits 16 n

/-- The halfwidth voiced and semi-voiced sound marks. -/
def isHalfwidthSoundMark (c : Char) : Bool := c == '\uff9e' || c == '\uff9f'

/-- Whether a character would not show on its own. -/
def isHidden (c : Char) : Bool :=
  (isGraphemeExtend c && !isHalfwidthSoundMark c) || isDefaultIgnorable c || isUnprintable c

/-- The quoted form of one character. -/
def quotedChar (c : Char) : List Char :=
  match c with
  | '\x00' => ['\\', '0']
  | '\t' => ['\\', 't']
  | '\n' => ['\\', 'n']
  | '\r' => ['\\', 'r']
  | '"' => ['\\', '"']
  | '\\' => ['\\', '\\']
  | c =>
    if isHidden c then
      ['\\', 'u', '\x7b'] ++ hexadecimal c.toNat ++ ['\x7d']
    else [c]

/-- A text between double quotes. -/
def quoted (text : List Char) : List Char := '"' :: text.flatMap quotedChar ++ ['"']

end Funge.Text
