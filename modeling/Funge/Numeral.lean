/-
  Numbers as text.

  `natural?` reads one or more ASCII digits.  An unsigned number may have one plus in front, a
  signed one a plus or a minus; leading zeros are allowed, everything else (blanks, separators,
  other digits, a second sign) is not, and neither is a value out of range.  `hexPair?` reads a
  byte from two characters.
-/
import Funge.Cell

namespace Funge.Numeral

/-- The value of a nonempty sequence of decimal digits. -/
def natural? (text : List Char) : Option Nat :=
  if !text.isEmpty && text.all Char.isDigit then some (Nat.ofDigitChars 10 text 0) else none

/-- A number with an optional sign. -/
def integer? (text : List Char) : Option Int :=
  match text with
  | '+' :: digits => (natural? digits).map Int.ofNat
  | '-' :: digits => (natural? digits).map fun n => -Int.ofNat n
  | digits => (natural? digits).map Int.ofNat

/-- A signed number of 32 bits. -/
def cell? (text : List Char) : Option Cell :=
  (integer? text).bind fun i =>
    if Int32.minValue.toInt ≤ i ∧ i ≤ Int32.maxValue.toInt then some (Int32.ofInt i) else none

/-- An unsigned number of 64 bits; a plus may stand in front. -/
def word? (text : List Char) : Option UInt64 :=
  let digits := match text with
    | '+' :: rest => rest
    | _ => text
  (natural? digits).bind fun n => if n < UInt64.size then some (UInt64.ofNat n) else none

/-- The value of a hexadecimal digit of either case. -/
def hexDigit? (c : Char) : Option Nat :=
  if '0' ≤ c ∧ c ≤ '9' then some (c.toNat - '0'.toNat)
  else if 'a' ≤ c ∧ c ≤ 'f' then some (c.toNat - 'a'.toNat + 10)
  else if 'A' ≤ c ∧ c ≤ 'F' then some (c.toNat - 'A'.toNat + 10)
  else none

/-- A byte in two characters: two hexadecimal digits, or a plus and one digit. -/
def hexPair? (text : List Char) : Option UInt8 :=
  match text with
  | ['+', low] => (hexDigit? low).map UInt8.ofNat
  | [high, low] => do
    let h ← hexDigit? high
    let l ← hexDigit? low
    return UInt8.ofNat (16 * h + l)
  | _ => none

/-! ## What is written is read -/

/-- The digits of a number read back as that number. -/
theorem natural?_toDigits (n : Nat) : natural? (Nat.toDigits 10 n) = some n := by
  have hd : (Nat.toDigits 10 n).all Char.isDigit := by
    rw [List.all_eq_true]
    exact fun c hc => Nat.isDigit_of_mem_toDigits (by decide) (by decide) hc
  simp [natural?, hd, Nat.toDigits_ne_nil, Nat.ofDigitChars_ten_toDigits]

end Funge.Numeral
