/-
  The values a program is made of.

  A `Cell` is a signed number of 32 bits, and it is both: the content of one square of the
  playfield and one entry of the stack.  Arithmetic on cells wraps around.  A cell stands for
  a character exactly when its value is a Unicode scalar value; every other cell is shown as
  U+FFFD.
-/

namespace Funge

/-- The content of a square of the playfield, and an entry of the stack. -/
abbrev Cell := Int32

namespace Cell

/-- The cell that holds a character. -/
def ofChar (c : Char) : Cell := Int32.ofNat c.toNat

/-- The character a cell stands for, when its value is a Unicode scalar value. -/
def toChar? (v : Cell) : Option Char :=
  if 0 ≤ v.toInt ∧ v.toInt.toNat.isValidChar then some (Char.ofNat v.toInt.toNat) else none

/-- The character a cell is shown as: the one it stands for, or U+FFFD. -/
def toChar (v : Cell) : Char := v.toChar?.getD '\uFFFD'

/-- The content of a square nothing was written to. -/
def blank : Cell := 32

/-- The cell that ends a run. -/
def halt : Cell := 64

/-- The cell that switches string mode on and off. -/
def quote : Cell := 34

/-- Truth as a cell: one or zero. -/
def ofBool (b : Bool) : Cell := if b then 1 else 0

/-- A cell in decimal, with a sign when it is negative. -/
def decimal (v : Cell) : String := toString v.toInt

/-! ## Characters are kept -/

/-- Every character fits in a cell. -/
theorem toInt_ofChar (c : Char) : (ofChar c).toInt = c.toNat := by
  have hc : c.toNat < 0x110000 := by
    have h := c.valid
    simp only [UInt32.isValidChar, Nat.isValidChar] at h
    simp only [Char.toNat]
    omega
  exact Int32.toInt_ofNat_of_lt (by omega)

/-- ... and the cell stands for that character again. -/
@[simp] theorem toChar?_ofChar (c : Char) : (ofChar c).toChar? = some c := by
  have hv : c.toNat.isValidChar := c.valid
  simp [toChar?, toInt_ofChar, hv, Char.ofNat_toNat]

/-- No other cell stands for it. -/
theorem toChar?_eq_some_iff {v : Cell} {c : Char} : v.toChar? = some c ↔ v = ofChar c := by
  constructor
  · intro h
    unfold toChar? at h
    split at h
    · rename_i hv
      have hc : c.toNat = v.toInt.toNat := by
        rw [← Option.some.inj h, Char.ofNat, dif_pos hv.2]
        rfl
      apply Int32.toInt_inj.mp
      rw [toInt_ofChar, hc]
      omega
    · nomatch h
  · rintro rfl
    exact toChar?_ofChar c

theorem ofChar_inj {c d : Char} : ofChar c = ofChar d ↔ c = d := by
  rw [← toChar?_eq_some_iff, toChar?_ofChar, Option.some.injEq]

@[simp] theorem toChar_ofChar (c : Char) : (ofChar c).toChar = c := by simp [toChar]

/-- Any other character than U+FFFD is shown for its own cell only. -/
theorem eq_ofChar_of_toChar {v : Cell} {c : Char} (h : v.toChar = c) (hc : c ≠ '\uFFFD') :
    v = ofChar c := by
  unfold toChar at h
  cases hv : v.toChar? with
  | none =>
    rw [hv] at h
    exact absurd h.symm hc
  | some d =>
    rw [hv] at h
    obtain rfl : d = c := h
    exact toChar?_eq_some_iff.mp hv

/-- The cell of the character a cell is shown as: the same, if it stands for one. -/
theorem ofChar_toChar (v : Cell) : ofChar v.toChar = if v.toChar?.isSome then v else 0xFFFD := by
  unfold toChar
  cases hv : v.toChar? with
  | none => rfl
  | some c => exact (toChar?_eq_some_iff.mp hv).symm

end Cell

end Funge
