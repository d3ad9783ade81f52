/-
  Arithmetic at the limits of a cell.

  1. Every integer is congruent to one cell modulo 2 ^ 32 (`Cell.residue_ofInt`), and that cell is what
     a sum, a difference or a product is cut down to.
  2. A quotient and its remainder make up the dividend again, at the limits too (`Cell.Divided`).  The
     crux is the one quotient that is no cell: cutting it down changes the product by a multiple of
     2 ^ 32, so nothing is lost in wrapping arithmetic (`Cell.div_mul_add_mod`).
  3. With two entries on the stack an operator can fail for its divisor only
     (`Exec.dispatch_calculates`).
-/
import Mathlib.Data.Int.ModEq
import Funge.Proofs.Action
import Funge.Proofs.Linear
import Funge.Proofs.Steps

namespace Funge

namespace Cell

variable {a b : Cell}

/-! ## Results that are cut down -/

/-- The cell `r` is congruent to an integer modulo 2 ^ 32, and no other cell is. -/
def Residue (x : Int) (r : Cell) : Prop := ∀ r' : Cell, r'.toInt ≡ x [ZMOD 2 ^ 32] ↔ r' = r

theorem residue_ofInt (x : Int) : Residue x (Int32.ofInt x) := by
  intro r
  constructor
  · intro h
    have hbmod : r.toInt.bmod (2 ^ 32) = x.bmod (2 ^ 32) := by
      rw [← Int.emod_bmod r.toInt, ← Int.emod_bmod x]
      exact congrArg (Int.bmod · (2 ^ 32)) h
    rw [← Int32.toInt_inj, Int32.toInt_ofInt, ← Int32.toInt_bmod r]
    exact hbmod
  · rintro rfl
    rw [Int32.toInt_ofInt]
    exact Int.bmod_emod

/-! ## Quotients and remainders -/

/-- What is promised of a quotient `q` and a remainder `r` of `b` by `a`. -/
structure Divided (b a q r : Cell) : Prop where
  /-- In wrapping arithmetic they make up the dividend. -/
  mul_add_eq : q * a + r = b
  /-- The remainder is smaller than the divisor ... -/
  natAbs_lt : r.toInt.natAbs < a.toInt.natAbs
  /-- ... and has the sign of the dividend, unless it is zero. -/
  sign_eq : r = 0 ∨ r.toInt.sign = b.toInt.sign
  /-- The quotient is the exact one cut off towards zero, ... -/
  quotient_eq : ¬ (b = -2147483648 ∧ a = -1) → q.toInt = b.toInt.tdiv a.toInt
  /-- ... but for the one that is no cell. -/
  least_eq : b = -2147483648 → a = -1 → q = -2147483648 ∧ r = 0

/-- The exact quotient and the exact remainder make up the dividend, and so do the cells they are cut
    down to. -/
theorem div_mul_add_mod (b a : Cell) : b / a * a + b % a = b := by
  calc b / a * a + b % a
      = Int32.ofInt (b.toInt.tdiv a.toInt) * Int32.ofInt a.toInt + Int32.ofInt (b.toInt.tmod a.toInt) := by
        rw [div_eq_ofInt, mod_eq_ofInt, Int32.ofInt_toInt]
    _ = Int32.ofInt (b.toInt.tdiv a.toInt * a.toInt + b.toInt.tmod a.toInt) := by
        rw [Int32.ofInt_add, Int32.ofInt_mul]
    _ = b := by rw [Int.tdiv_mul_add_tmod, Int32.ofInt_toInt]

theorem natAbs_mod_lt (b : Cell) (ha : a ≠ 0) : (b % a).toInt.natAbs < a.toInt.natAbs := by
  have hpos : 0 < a.toInt.natAbs := Int.natAbs_pos.mpr (mt toInt_eq_zero_iff.mp ha)
  rw [Int32.toInt_mod, Int.natAbs_tmod]
  exact Nat.mod_lt _ hpos

theorem sign_mod (b a : Cell) : b % a = 0 ∨ (b % a).toInt.sign = b.toInt.sign := by
  have hsign := Int.sign_tmod b.toInt a.toInt
  rw [← Int32.toInt_mod] at hsign
  split at hsign
  · exact Or.inl (toInt_eq_zero_iff.mp (Int.sign_eq_zero_iff_zero.mp hsign))
  · exact Or.inr hsign

/-- Only the least number by -1 has a quotient that is no cell. -/
theorem toInt_div_of_not_least (h : ¬ (b = -2147483648 ∧ a = -1)) :
    (b / a).toInt = b.toInt.tdiv a.toInt := by
  by_cases hb : b = -2147483648
  · exact Int32.toInt_div_of_ne_right b a fun ha => h ⟨hb, ha⟩
  · exact Int32.toInt_div_of_ne_left b a hb

theorem divided (b : Cell) (ha : a ≠ 0) : Divided b a (b / a) (b % a) where
  mul_add_eq := div_mul_add_mod b a
  natAbs_lt := natAbs_mod_lt b ha
  sign_eq := sign_mod b a
  quotient_eq := toInt_div_of_not_least
  least_eq := by
    rintro rfl rfl
    decide

end Cell

/-! ## The operators -/

namespace Arith

variable {a b : Cell} {op : Arith}

/-- An operator has no result exactly if it divides by zero. -/
theorem apply_eq_none_iff : op.apply b a = none ↔ (op = .divide ∨ op = .modulo) ∧ a = 0 := by
  cases op with
  | add | subtract | multiply => simp [apply]
  | divide | modulo => simp [apply]

/-- The integer that a result is cut down from. -/
theorem exists_apply_eq {x : Int} (h : op.onInt b.toInt a.toInt = some x) :
    ∃ r, op.apply b a = some r ∧ Cell.Residue x r := by
  refine ⟨Int32.ofInt x, ?_, Cell.residue_ofInt x⟩
  rw [apply_eq_onInt, h, Option.map_some]

end Arith

namespace Exec

variable {m : Machine} {v x y : Cell} {a : Arith} {op : Char} {s : Stack}

/-! ## The operators on a stack -/

/-- The entry popped first is the right operand. -/
theorem perform_arith_push (h : m.stack = (s.push y).push x) :
    perform op (.arith a) m = match a.apply y x with
      | some r => .ok () { m with stack := s.push r }
      | none => .error (.divisionByZero m.cursor.pos op) { m with stack := s } := by
  have hx : pop op m = .ok x { m with stack := s.push y } := pop_of_push h
  have hy : pop op { m with stack := s.push y } = .ok y { m with stack := s } := pop_of_push rfl
  rw [perform, bind_of_ok hx, bind_of_ok hy]
  cases a.apply y x with
  | some r => rfl
  | none => rfl

/-- With fewer than two entries there is an underflow, and none is left. -/
theorem perform_arith_underflow (h : m.stack.size < 2) :
    perform op (.arith a) m = .error (.stackUnderflow m.cursor.pos op) { m with stack := ∅ } := by
  obtain ⟨field, ⟨_ | ⟨x, _ | ⟨y, rest⟩⟩⟩, cursor, console, chance⟩ := m
  case nil | cons.nil => rfl
  case cons.cons => exact absurd h (by simp [Stack.toList])

/-- **Arithmetic is exact modulo 2 ^ 32, and division is consistent at the limits.**  A sum, a
    difference or a product is the one cell that is congruent to the exact result.  Only a zero
    divisor has no quotient and no remainder; for every other they make up the dividend, the remainder
    is smaller than the divisor and has the sign of the dividend, and the quotient is cut off towards
    zero, but for the least number by -1.

    So an operator that finds two entries, the right operand on top, pushes its result and the cursor
    steps on, unless it divides by zero.  With fewer entries it underflows. -/
theorem dispatch_calculates :
    (∀ b a : Cell,
      (∃ r, Arith.add.apply b a = some r ∧ Cell.Residue (b.toInt + a.toInt) r) ∧
      (∃ r, Arith.subtract.apply b a = some r ∧ Cell.Residue (b.toInt - a.toInt) r) ∧
      (∃ r, Arith.multiply.apply b a = some r ∧ Cell.Residue (b.toInt * a.toInt) r) ∧
      (Arith.divide.apply b a = none ↔ a = 0) ∧ (Arith.modulo.apply b a = none ↔ a = 0) ∧
      (a ≠ 0 → ∃ q r, Arith.divide.apply b a = some q ∧ Arith.modulo.apply b a = some r ∧
        Cell.Divided b a q r)) ∧
    ∀ (m : Machine) (v : Cell) (op : Arith), m.cursor.stringMode = false →
      Instruction.decode v = .arith op →
      (m.stack.size < 2 →
        dispatch v m = .error (.stackUnderflow m.cursor.pos v.toChar) { m with stack := ∅ }) ∧
      ∀ s b a, m.stack = (s.push b).push a →
        ((op = .divide ∨ op = .modulo) ∧ a = 0 →
          dispatch v m = .error (.divisionByZero m.cursor.pos v.toChar) { m with stack := s }) ∧
        (¬ ((op = .divide ∨ op = .modulo) ∧ a = 0) →
          ∃ r, op.apply b a = some r ∧
            dispatch v m = .ok () { m with stack := s.push r, cursor := m.cursor.advance }) := by
  refine ⟨fun b a => ⟨Arith.exists_apply_eq rfl, Arith.exists_apply_eq rfl, Arith.exists_apply_eq rfl,
    ?_, ?_, fun ha => ?_⟩, fun m v op hmode hv => ⟨fun hsize => ?_, fun s b a hstack => ⟨?_, ?_⟩⟩⟩
  · simp [Arith.apply_eq_none_iff]
  · simp [Arith.apply_eq_none_iff]
  · exact ⟨b / a, b % a, if_neg ha, if_neg ha, Cell.divided b ha⟩
  · exact dispatch_of_perform_error hmode hv (perform_arith_underflow hsize)
  · intro hzero
    refine dispatch_of_perform_error hmode hv ?_
    rw [perform_arith_push hstack, Arith.apply_eq_none_iff.mpr hzero]
  · intro hzero
    obtain ⟨r, hr⟩ := Option.ne_none_iff_exists'.mp (mt Arith.apply_eq_none_iff.mp hzero)
    have hperform : perform v.toChar (.arith op) m = .ok () { m with stack := s.push r } := by
      rw [perform_arith_push hstack, hr]
    exact ⟨r, hr, dispatch_of_perform_ok hmode hv hperform⟩

/-- The least number divided by -1, and a division of 7 by zero. -/
theorem dispatch_calculates_limits :
    (∃ q r, Arith.divide.apply (-2147483648) (-1) = some q ∧
      Arith.modulo.apply (-2147483648) (-1) = some r ∧ Cell.Divided (-2147483648) (-1) q r ∧
      q = -2147483648 ∧ r = 0) ∧
    let m := { Machine.quiet "/" with stack := ((∅ : Stack).push 7).push 0 }
    dispatch (Cell.ofChar '/') m = .error (.divisionByZero ⟨0, 0⟩ '/') { m with stack := ∅ } := by
  obtain ⟨hcells, hdispatch⟩ := dispatch_calculates
  constructor
  · obtain ⟨q, r, hq, hr, hdivided⟩ := (hcells (-2147483648) (-1)).2.2.2.2.2 (by decide)
    exact ⟨q, r, hq, hr, hdivided, hdivided.least_eq rfl rfl⟩
  · intro m
    exact ((hdispatch m (Cell.ofChar '/') .divide rfl (by decide)).2 ∅ 7 0 rfl).1 ⟨Or.inl rfl, rfl⟩

end Exec

end Funge
