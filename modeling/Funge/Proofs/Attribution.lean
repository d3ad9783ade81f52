/-
  Faults name the instruction that is to blame.

  A failing instruction raises a fault of its own and leaves the cursor and the field alone, so the
  cell that is to blame can still be read under the cursor after the run: `Fault.Blames m` says what
  is found there, and `run_blames` that it is found after every run.
-/
import Funge.Proofs.Faults
import Funge.Proofs.Steps

namespace Funge

/-! ## What is found under the cursor -/

/-- What a fault says about the machine the run left.  Its position is the cursor's, and the cell
    there is one that can raise it: outside string mode for everything an instruction does. -/
def Fault.Blames (m : Machine) : Fault → Prop
  | .stackUnderflow pos op =>
    pos = m.cursor.pos ∧ m.cursor.stringMode = false ∧
      ∃ v, m.field[pos]? = some v ∧ op = v.toChar
  | .divisionByZero pos op =>
    pos = m.cursor.pos ∧ m.cursor.stringMode = false ∧
      ∃ v, m.field[pos]? = some v ∧ op = v.toChar ∧ (v = Cell.ofChar '/' ∨ v = Cell.ofChar '%')
  | .outOfField pos square =>
    pos = m.cursor.pos ∧ square ∉ m.field ∧
      (square = pos ∨ pos ∈ m.field ∧ m.cursor.stringMode = false ∧
        (m.field[pos]? = some (Cell.ofChar 'g') ∨ m.field[pos]? = some (Cell.ofChar 'p')))
  | .malformedInput pos reason =>
    pos = m.cursor.pos ∧ m.cursor.stringMode = false ∧
      match reason with
      | .endOfInput =>
        m.field[pos]? = some (Cell.ofChar '&') ∨ m.field[pos]? = some (Cell.ofChar '~')
      | .notAnInteger _ => m.field[pos]? = some (Cell.ofChar '&')
      | .emptyLine => m.field[pos]? = some (Cell.ofChar '~')
  | .console pos _ =>
    pos = m.cursor.pos ∧
      (m.field[pos]? = some Cell.halt ∨ m.cursor.stringMode = false ∧
        ∃ c ∈ ['.', ',', '&', '~'], m.field[pos]? = some (Cell.ofChar c))
  | .stepLimit _ => ∃ v, m.field[m.cursor.pos]? = some v ∧ v ≠ Cell.halt

/-- Only the cursor and the field are looked at. -/
theorem Fault.Blames.of_eq {m m' : Machine} {fault : Fault} (h : fault.Blames m)
    (hcursor : m'.cursor = m.cursor) (hfield : m'.field = m.field) : fault.Blames m' := by
  unfold Fault.Blames at h ⊢
  rw [hcursor, hfield]
  exact h

/-- A fault with a position has the cursor's. -/
theorem Fault.Blames.position?_eq {m : Machine} {fault : Fault} (h : fault.Blames m)
    (hlimit : ∀ n, fault ≠ .stepLimit n) : fault.position? = some m.cursor.pos := by
  cases fault with
  | stepLimit n => exact absurd rfl (hlimit n)
  | stackUnderflow | divisionByZero | outOfField | malformedInput | console =>
    exact congrArg some h.1

namespace Machine

variable {m m' : Machine} {fault : Fault} {left : Nat}

/-- The cell to blame, from the instruction that raised the fault. -/
theorem blames_of_raises {v : Cell} (hf : m.fetch? = some v) (hmode : m.cursor.stringMode = false)
    (h : Exec.Raises m.field m.cursor.pos v.toChar (Instruction.decode v) fault) :
    fault.Blames m := by
  unfold fetch? at hf
  -- an instruction with a character of its own is found as that character
  have hcell : ∀ g, (Instruction.decode v).glyph? = some g →
      m.field[m.cursor.pos]? = some (Cell.ofChar g) := by
    intro g hg
    rw [hf, Instruction.eq_of_glyph?_decode hg]
  generalize hi : Instruction.decode v = i at h hcell
  cases h with
  | underflow => exact ⟨rfl, hmode, v, hf, rfl⟩
  | zeroDivisor ha =>
    refine ⟨rfl, hmode, v, hf, rfl, ?_⟩
    rcases ha with rfl | rfl
    · exact Or.inl (Option.some.inj (hf.symm.trans (hcell '/' rfl)))
    · exact Or.inr (Option.some.inj (hf.symm.trans (hcell '%' rfl)))
  | load hp =>
    have hpos := Playfield.mem_of_getElem?_eq_some hf
    exact ⟨rfl, hp, Or.inr ⟨hpos, hmode, Or.inl (hcell 'g' rfl)⟩⟩
  | store hp =>
    have hpos := Playfield.mem_of_getElem?_eq_some hf
    exact ⟨rfl, hp, Or.inr ⟨hpos, hmode, Or.inr (hcell 'p' rfl)⟩⟩
  | endOfInput hr =>
    refine ⟨rfl, hmode, ?_⟩
    rcases hr with rfl | rfl
    · exact Or.inl (hcell '&' rfl)
    · exact Or.inr (hcell '~' rfl)
  | notAnInteger => exact ⟨rfl, hmode, hcell '&' rfl⟩
  | emptyLine => exact ⟨rfl, hmode, hcell '~' rfl⟩
  | console hr =>
    refine ⟨rfl, Or.inr ⟨hmode, ?_⟩⟩
    rcases hr with rfl | rfl | rfl | rfl
    · exact ⟨'.', by decide, hcell '.' rfl⟩
    · exact ⟨',', by decide, hcell ',' rfl⟩
    · exact ⟨'&', by decide, hcell '&' rfl⟩
    · exact ⟨'~', by decide, hcell '~' rfl⟩

/-- The fault that stops the instructions of a run blames the machine they leave. -/
theorem Stops.blames (h : Stops left m (.faulted fault) m') : fault.Blames m' := by
  cases h with
  | outside h => exact ⟨rfl, Playfield.getElem?_eq_none_iff.mp h, Or.inl rfl⟩
  | faulted hf _ hd =>
    obtain ⟨hmode, hm, hr⟩ := Exec.dispatch_raises hd
    exact (blames_of_raises hf hmode hr).of_eq hm.cursor_eq hm.field_eq

/-- **Error attribution.**  Whatever machine earlier runs left, and with a limit or without one, a
    fault of a run blames the machine the run leaves: it has the cursor's position, and what is
    under the cursor is something that raises it.  A run without a fault leaves an empty stack and
    a cursor at its start. -/
theorem run_blames {limit : Option Nat} {result : Except Fault Unit}
    (h : m.run limit = some (result, m')) :
    match result with
    | .ok () => m'.stack = ∅ ∧ m'.cursor = Cursor.start
    | .error fault =>
      ((∀ n, fault ≠ .stepLimit n) → fault.position? = some m'.cursor.pos) ∧ fault.Blames m' := by
  -- only the stop matters, not how it was reached
  obtain ⟨k, left, m₁, stop, m₂, -, -, hs, hfin⟩ := run_eq_some_iff.mp h
  -- the last flush changes neither the cursor nor the field
  cases stop with
  | faulted fault =>
    obtain ⟨rfl, rfl⟩ := Prod.mk.inj hfin
    have hblames : fault.Blames { m₂ with console := m₂.console.flush.2 } :=
      hs.blames.of_eq rfl rfl
    exact ⟨hblames.position?_eq, hblames⟩
  | exhausted =>
    obtain ⟨rfl, rfl⟩ := Prod.mk.inj hfin
    cases hs with
    | exhausted hf hv => exact ⟨fun hlimit => absurd rfl (hlimit _), _, hf, hv⟩
  | halted =>
    rw [finish_halted] at hfin
    split at hfin
    · obtain ⟨rfl, rfl⟩ := Prod.mk.inj hfin
      exact ⟨rfl, rfl⟩
    · obtain ⟨rfl, rfl⟩ := Prod.mk.inj hfin
      cases hs with
      | halted hf => exact ⟨fun _ => rfl, rfl, Or.inl hf⟩

/-- The zero divisor of `10/` is blamed on the third cell. -/
theorem run_blames_division :
    ∃ m', (quiet "10/").run (some 5) = some (.error (.divisionByZero ⟨2, 0⟩ '/'), m') ∧
      m'.cursor.pos = ⟨2, 0⟩ ∧ m'.field[m'.cursor.pos]? = some (Cell.ofChar '/') ∧
      (Fault.divisionByZero ⟨2, 0⟩ '/').Blames m' := by
  have hfault : ((quiet "10/").runFor 5).1 = .error (.divisionByZero ⟨2, 0⟩ '/') := by
    decide +kernel
  have hrun := run_some_of_runFor hfault
  exact ⟨_, hrun, by decide +kernel, by decide +kernel, (run_blames hrun).2⟩

end Machine

end Funge
