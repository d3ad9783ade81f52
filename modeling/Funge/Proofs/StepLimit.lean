/-
  A step limit observes a run without changing it.

  1. A limit is exceeded exactly if that many instructions are obeyed and then there is one more
     (`runFor_exceeded_iff`): a program that halts or leaves its field right after the last
     instruction it was allowed is not stopped by the limit.
  2. A run that is not stopped by its limit is the run with any larger limit, and the run without
     one (`runFor_of_not_exceeded`).
  3. A run that is stopped can be taken up where it was left.  On a console without failures the
     cell under the cursor decides what one more instruction would have led to
     (`continues_of_exceeded`).
-/
import Funge.Proofs.Alike
import Funge.Proofs.Faults

namespace Funge.Machine

variable {m m' : Machine} {stop : Stop} {left n k : Nat}

/-! ## The stop at the limit -/

/-- No instruction raises the fault of the limit. -/
theorem Stops.ne_stepLimit (h : Stops left m stop m') : stop ≠ .faulted (.stepLimit n) := by
  rintro rfl
  cases h with
  | faulted _ _ hd =>
    obtain ⟨-, -, hr⟩ := Exec.dispatch_raises hd
    generalize Instruction.decode _ = i at hr
    nomatch hr

/-- Only a run that was stopped by its limit reports it. -/
theorem finish_ne_stepLimit {limit : Nat} (h : Stops left m stop m') (hs : stop ≠ .exhausted) :
    (m'.finish limit stop).1 ≠ .error (.stepLimit n) := by
  intro hfin
  cases stop with
  | exhausted => exact hs rfl
  | faulted fault => exact h.ne_stepLimit (congrArg Stop.faulted (Except.error.inj hfin))
  | halted =>
    rw [finish_halted] at hfin
    split at hfin
    · nomatch hfin
    · nomatch hfin

/-- The limit is mentioned in the end of a run only if it was reached. -/
theorem finish_eq_of_ne_exhausted (hs : stop ≠ .exhausted) (i j : Nat) :
    m.finish i stop = m.finish j stop := by
  cases stop with
  | exhausted => exact absurd rfl hs
  | faulted fault => rfl
  | halted => rw [finish_halted, finish_halted]

/-- A limit is exceeded exactly if there is an instruction after the ones it allows. -/
theorem runFor_exceeded_iff :
    (m.runFor n).1 = .error (.stepLimit n) ↔
      ∃ m' v, m.reset.after? n = some m' ∧ m'.fetch? = some v ∧ v ≠ Cell.halt := by
  constructor
  · intro h
    obtain ⟨k, left, m₁, stop, m₂, hlimit, hk, hs, hfin⟩ :=
      run_eq_some_iff.mp (run_some_of_runFor h)
    by_cases hstop : stop = .exhausted
    · subst hstop
      cases hs with
      | exhausted hf hv =>
        obtain rfl : n = k := by simpa using hlimit
        exact ⟨_, _, hk, hf, hv⟩
    · exact absurd (congrArg Prod.fst hfin) (finish_ne_stepLimit hs hstop)
  · rintro ⟨m', v, hk, hf, hv⟩
    rw [runFor_of_stops hk (.exhausted hf hv) (Nat.add_zero n), finish_exhausted]

/-- A run that does not exceed its limit is the run with a larger limit or without one. -/
theorem runFor_of_not_exceeded (hnk : n ≤ k) (h : (m.runFor n).1 ≠ .error (.stepLimit n)) :
    m.runFor k = m.runFor n ∧ m.run none = some (m.runFor n) := by
  obtain ⟨i, left, m₁, stop, m₂, hi, hk, hs⟩ := exists_stops n m.reset
  rw [runFor_of_stops hk hs hi] at h ⊢
  have hne : stop ≠ .exhausted := by
    rintro rfl
    exact h rfl
  constructor
  · -- the larger limit leaves at least as many instructions at the stop
    have hmore : Stops (k - i) m₁ stop m₂ := hs.of_ne_exhausted hne (by omega)
    rw [runFor_of_stops hk hmore (by omega)]
    exact finish_eq_of_ne_exhausted hne k n
  · have hmore : Stops 1 m₁ stop m₂ := hs.of_ne_exhausted hne (fun _ => Nat.one_pos)
    rw [run_none_of_stops hk hmore]
    exact congrArg some (finish_eq_of_ne_exhausted hne 0 n)

/-- A run that ends is the run with every limit that is large enough, and none of them stops it. -/
theorem exists_enough {result : Except Fault Unit} (h : m.run none = some (result, m')) :
    ∃ enough, ∀ n, enough ≤ n →
      m.runFor n = (result, m') ∧ ∀ k, result ≠ .error (.stepLimit k) := by
  obtain ⟨k, one, m₁, stop, m₂, hone, hk, hs, hfin⟩ := run_eq_some_iff.mp h
  obtain ⟨-, rfl⟩ := hone.resolve_right (by simp)
  have hstop : stop ≠ .exhausted := by
    rintro rfl
    cases hs
  refine ⟨k + 1, fun n hn => ⟨?_, fun limit hlimit => ?_⟩⟩
  · have hmore : Stops (n - k) m₁ stop m₂ := hs.of_ne_exhausted hstop (by omega)
    rw [runFor_of_stops hk hmore (by omega), finish_eq_of_ne_exhausted hstop n 0]
    exact hfin
  · have hne : (m₂.finish 0 stop).1 ≠ .error (.stepLimit limit) := finish_ne_stepLimit hs hstop
    exact hne (hlimit ▸ congrArg Prod.fst hfin)

/-- A run that never ends exceeds every limit. -/
theorem runFor_exceeds (h : m.run none = none) (n : Nat) :
    (m.runFor n).1 = .error (.stepLimit n) := by
  by_cases hexceeded : (m.runFor n).1 = .error (.stepLimit n)
  · exact hexceeded
  · rw [(runFor_of_not_exceeded (Nat.le_refl n) hexceeded).2] at h
    cases h

/-! ## One more instruction -/

/-- What a run with one more instruction comes to, from the outcome `o` of that instruction: the
    run's result and the machine it leaves. -/
def Continues (limit : Nat) (o : EStateM.Result Fault Machine Unit) (result : Except Fault Unit)
    (left : Machine) : Prop :=
  match o with
  | .error fault a => result = .error fault ∧ Alike a left
  | .ok () a =>
    match a.fetch? with
    | none => result = .error (.outOfField a.cursor.pos a.cursor.pos) ∧ Alike a left
    | some v =>
      if v = Cell.halt then result = .ok () ∧ Alike a.reset left
      else result = .error (.stepLimit limit) ∧ Alike a left

/-- Once one more instruction was obeyed, the limit is met again at what it left. -/
theorem continues_of_after? {a : Machine} (hk : m.reset.after? (n + 1) = some m')
    (h : Alike a m') :
    Continues (n + 1) (.ok () a) (m.runFor (n + 1)).1 (m.runFor (n + 1)).2 := by
  have hrun {stop : Stop} {m₂ : Machine} (hs : Stops 0 m' stop m₂) :
      m.runFor (n + 1) = m₂.finish (n + 1) stop := runFor_of_stops hk hs (Nat.add_zero _)
  unfold Continues
  cases hf : a.fetch? with
  | none =>
    simp only [hf]
    obtain hfalse | hout := lockstep_alike.fetch?_eq_none h hf
    · exact hfalse.elim
    · rw [hrun (.outside hout), h.cursor_eq]
      exact ⟨rfl, h.flush_right⟩
  | some v =>
    simp only [hf]
    have hf' := lockstep_alike.fetch?_eq_some h hf
    by_cases hv : v = Cell.halt
    · subst hv
      rw [hrun (.halted hf'), finish_halted, h.console.flush_right.1]
      exact ⟨rfl, lockstep_alike.reset h.flush_right⟩
    · rw [hrun (.exhausted hf' hv)]
      simp only [if_neg hv]
      exact ⟨rfl, h.flush_right⟩

/-- The instruction that was not allowed any more, obeyed on a machine like the one that was left,
    decides what one more allowed instruction comes to. -/
theorem continues_of_exceeded (hm : m.console.failure = Failures.none)
    (h : (m.runFor n).1 = .error (.stepLimit n)) {a : Machine} (ha : Alike (m.runFor n).2 a) :
    ∃ v, a.fetch? = some v ∧
      Continues (n + 1) (Exec.dispatch v a) (m.runFor (n + 1)).1 (m.runFor (n + 1)).2 := by
  obtain ⟨m', v, hk, hf, hv⟩ := runFor_exceeded_iff.mp h
  -- the machine left behind is the one after `n` instructions, but for the flush
  have hleft : (m.runFor n).2 = { m' with console := m'.console.flush.2 } := by
    rw [runFor_of_stops hk (.exhausted hf hv) (Nat.add_zero n), finish_exhausted]
  rw [hleft] at ha
  have hself := alike_of_after? hm hk
  have hR : Alike a m' := (hself.flush_right.trans ha).symm
  refine ⟨v, lockstep_alike.fetch?_eq_some hR.symm hf, ?_⟩
  have hfollows := lockstep_alike.dispatch_follows v hR
  cases hd : Exec.dispatch v a with
  | error fault a' =>
    obtain hfalse | ⟨m₁, hm₁, h₁⟩ := hfollows.of_error hd
    · exact hfalse.elim
    · rw [runFor_of_stops hk (.faulted hf hv hm₁) (show n + (0 + 1) = n + 1 by omega)]
      exact ⟨rfl, h₁.flush_right⟩
  | ok u a' =>
    obtain ⟨m₁, hm₁, h₁⟩ := hfollows.of_ok hd
    have hstep : m'.step? = some m₁ := step?_eq_some_iff.mpr ⟨v, hf, hv, hm₁⟩
    exact continues_of_after? ((after?_succ_of_after? hk).trans hstep) h₁

/-! ## The limit observes -/

/-- **Step limits observe.**  From any machine and with any limits `n ≤ k`: the limit `n` is
    exceeded exactly if `n` instructions are obeyed and there is one more; otherwise the run is the
    run with limit `k` and the run without a limit, in its result and in all it leaves; and where a
    limit is exceeded on a console without failures, obeying the cell under the cursor of what is
    left gives what the run with limit `n + 1` gives and leaves. -/
theorem runFor_observes (m : Machine) (hnk : n ≤ k) :
    ((m.runFor n).1 = .error (.stepLimit n) ↔
      ∃ m' v, m.reset.after? n = some m' ∧ m'.fetch? = some v ∧ v ≠ Cell.halt) ∧
    ((m.runFor n).1 ≠ .error (.stepLimit n) →
      m.runFor k = m.runFor n ∧ m.run none = some (m.runFor n)) ∧
    (m.console.failure = Failures.none → (m.runFor n).1 = .error (.stepLimit n) →
      ∀ a, Alike (m.runFor n).2 a →
        ∃ v, a.fetch? = some v ∧
          Continues (n + 1) (Exec.dispatch v a) (m.runFor (n + 1)).1 (m.runFor (n + 1)).2) := by
  refine ⟨runFor_exceeded_iff, runFor_of_not_exceeded hnk, ?_⟩
  intro hm h a ha
  exact continues_of_exceeded hm h ha

/-- The program `12+@` halts after three instructions.  The limit 2 is exceeded, and one more
    instruction is the addition; the limit 3 is not, though all the instructions it allows are
    obeyed. -/
theorem runFor_observes_adding :
    ((quiet "12+@").runFor 2).1 = .error (.stepLimit 2) ∧ ((quiet "12+@").runFor 3).1 = .ok () ∧
      (∃ v, ((quiet "12+@").runFor 2).2.fetch? = some v ∧
        Continues 3 (Exec.dispatch v ((quiet "12+@").runFor 2).2) ((quiet "12+@").runFor 3).1
          ((quiet "12+@").runFor 3).2) ∧
      (quiet "12+@").runFor 8 = (quiet "12+@").runFor 3 ∧
      (quiet "12+@").run none = some ((quiet "12+@").runFor 3) := by
  have hexceeded : ((quiet "12+@").runFor 2).1 = .error (.stepLimit 2) := by decide +kernel
  have hhalted : ((quiet "12+@").runFor 3).1 = .ok () := by decide +kernel
  obtain ⟨-, -, hcontinues⟩ := runFor_observes (quiet "12+@") (show 2 ≤ 8 by decide)
  obtain ⟨-, hsame, -⟩ := runFor_observes (quiet "12+@") (show 3 ≤ 8 by decide)
  have hleft := alike_of_run (m := quiet "12+@") rfl (run_some_of_runFor hexceeded)
  have hne : ((quiet "12+@").runFor 3).1 ≠ .error (.stepLimit 3) := by
    rw [hhalted]
    nofun
  exact ⟨hexceeded, hhalted, hcontinues rfl hexceeded _ hleft, hsame hne⟩

end Funge.Machine
