/-
  Runs, one instruction at a time.

  `m.step?` is the machine after one more instruction and `m.after? n` the one after `n` of
  them; there is none if the program leaves the field, halts or faults before that.  What happens
  where the instructions end is one of four things, and `Stops` lists them with what they leave
  behind.

  A run is then some number of instructions and one stop: `go_eq_iff` says so for a run that is
  allowed `n` instructions, `goOn_eq_some_iff` for one without a limit, and `run_eq_some_iff` for
  a whole run, its last flush included.
-/
import Funge.Machine.Run

namespace Funge.Machine

variable {m m' m₁ : Machine} {stop : Stop} {left n : Nat}

/-- The cell whose instruction is next. -/
def fetch? (m : Machine) : Option Cell := m.field[m.cursor.pos]?

/-- The machine after one more instruction. -/
def step? (m : Machine) : Option Machine :=
  match m.fetch? with
  | none => none
  | some v =>
    if v = Cell.halt then none else
    match Exec.dispatch v m with
    | .ok () m => some m
    | .error _ _ => none

/-- The machine after `n` more instructions. -/
def after? : (n : Nat) → Machine → Option Machine
  | 0, m => some m
  | n + 1, m => m.step?.bind (after? n)

/-- The reasons to stop at `m` with `left` instructions still allowed, each with the machine it
    leaves.  The order matters: leaving the field and halting come before the limit, and only a
    run that is allowed one more instruction can fail in it. -/
inductive Stops : (left : Nat) → (m : Machine) → Stop → Machine → Prop
  /-- The cursor has left the field. -/
  | outside {left : Nat} {m : Machine} (h : m.fetch? = none) :
      Stops left m (.faulted (.outOfField m.cursor.pos m.cursor.pos)) m
  /-- The cursor is on the halting cell. -/
  | halted {left : Nat} {m : Machine} (h : m.fetch? = some Cell.halt) : Stops left m .halted m
  /-- There is an instruction, but no more are allowed. -/
  | exhausted {m : Machine} {v : Cell} (h : m.fetch? = some v) (hv : v ≠ Cell.halt) :
      Stops 0 m .exhausted m
  /-- The instruction faults. -/
  | faulted {left : Nat} {m m' : Machine} {v : Cell} {fault : Fault} (h : m.fetch? = some v)
      (hv : v ≠ Cell.halt) (hd : Exec.dispatch v m = .error fault m') :
      Stops (left + 1) m (.faulted fault) m'

/-! ## One iteration -/

/-- An instruction was obeyed exactly if there is one, it is not the halting one, and it did not
    fault. -/
theorem step?_eq_some_iff :
    m.step? = some m' ↔
      ∃ v, m.fetch? = some v ∧ v ≠ Cell.halt ∧ Exec.dispatch v m = .ok () m' := by
  unfold step?
  constructor
  · intro h
    -- three of the four ways through an iteration give no machine
    split at h
    · cases h
    · rename_i v hf
      split at h
      · cases h
      · rename_i hv
        split at h
        · rename_i hd
          exact ⟨v, hf, hv, by rw [hd, Option.some.inj h]⟩
        · cases h
  · rintro ⟨v, hf, hv, hd⟩
    simp only [hf, if_neg hv, hd]

/-- At every machine there is an instruction to obey or a reason to stop. -/
theorem step_or_stops (left : Nat) (m : Machine) :
    (∃ m', m.step? = some m') ∨ ∃ stop m', Stops (left + 1) m stop m' := by
  cases hf : m.fetch? with
  | none => exact Or.inr ⟨_, _, .outside hf⟩
  | some v =>
    by_cases hv : v = Cell.halt
    · exact Or.inr ⟨_, _, .halted (hv ▸ hf)⟩
    · cases hd : Exec.dispatch v m with
      | ok _ m' => exact Or.inl ⟨m', step?_eq_some_iff.mpr ⟨v, hf, hv, hd⟩⟩
      | error fault m' => exact Or.inr ⟨_, _, .faulted hf hv hd⟩

/-- With no instruction left there is always a reason to stop. -/
theorem stops_zero (m : Machine) : ∃ stop m', Stops 0 m stop m' := by
  cases hf : m.fetch? with
  | none => exact ⟨_, _, .outside hf⟩
  | some v =>
    by_cases hv : v = Cell.halt
    · exact ⟨_, _, .halted (hv ▸ hf)⟩
    · exact ⟨_, _, .exhausted hf hv⟩

/-- A machine that stops has no next instruction to obey. -/
theorem Stops.step?_eq_none (h : Stops (left + 1) m stop m') : m.step? = none := by
  cases hs : m.step? with
  | none => rfl
  | some n =>
    obtain ⟨v, hf, hv, hd⟩ := step?_eq_some_iff.mp hs
    cases h with
    | outside h => rw [h] at hf; nomatch hf
    | halted h => rw [h] at hf; exact absurd (Option.some.inj hf).symm hv
    | faulted h _ hd' =>
      rw [h] at hf
      obtain rfl := Option.some.inj hf
      rw [hd] at hd'
      nomatch hd'

/-- How many instructions are still allowed matters only for the stop at the limit. -/
theorem Stops.of_ne_exhausted {more : Nat} (h : Stops left m stop m') (hs : stop ≠ .exhausted)
    (hmore : 0 < left → 0 < more) : Stops more m stop m' := by
  cases h with
  | outside h => exact .outside h
  | halted h => exact .halted h
  | exhausted => exact absurd rfl hs
  | faulted h hv hd =>
    obtain ⟨k, rfl⟩ : ∃ k, more = k + 1 := ⟨more - 1, by omega⟩
    exact .faulted h hv hd

/-! ## Many iterations -/

theorem after?_succ_eq_some_iff :
    m.after? (n + 1) = some m' ↔ ∃ m₁, m.step? = some m₁ ∧ m₁.after? n = some m' :=
  Option.bind_eq_some_iff

/-- The instruction after the first `n`. -/
theorem after?_succ_of_after? (h : m.after? n = some m₁) : m.after? (n + 1) = m₁.step? := by
  induction n generalizing m with
  | zero =>
    obtain rfl := Option.some.inj h
    exact Option.bind_fun_some _
  | succ n ih =>
    obtain ⟨m₂, hs, h⟩ := after?_succ_eq_some_iff.mp h
    rw [after?, hs, Option.bind_some, ih h]

/-- A machine that goes on for `n` iterations goes on for fewer. -/
theorem after?_of_le {k : Nat} (h : m.after? k = some m') (hn : n ≤ k) :
    ∃ m₁, m.after? n = some m₁ := by
  induction n generalizing m k with
  | zero => exact ⟨m, rfl⟩
  | succ n ih =>
    obtain ⟨k, rfl⟩ : ∃ j, k = j + 1 := ⟨k - 1, by omega⟩
    obtain ⟨m₁, hs, hk⟩ := after?_succ_eq_some_iff.mp h
    obtain ⟨m₂, hm₂⟩ := ih hk (by omega)
    exact ⟨m₂, after?_succ_eq_some_iff.mpr ⟨m₁, hs, hm₂⟩⟩

/-- The last instruction taken off. -/
theorem after?_add_one_eq_some_iff :
    m.after? (n + 1) = some m' ↔ ∃ m₁, m.after? n = some m₁ ∧ m₁.step? = some m' := by
  constructor
  · intro h
    obtain ⟨m₁, h₁⟩ := after?_of_le h (Nat.le_add_right n 1)
    exact ⟨m₁, h₁, (after?_succ_of_after? h₁).symm.trans h⟩
  · rintro ⟨m₁, h₁, hs⟩
    exact (after?_succ_of_after? h₁).trans hs

/-! ## Runs -/

theorem go_of_stops (h : Stops left m stop m') : m.go left = (stop, m') := by
  cases h with
  | outside h =>
    unfold fetch? at h
    unfold go
    rw [h]
  | halted h =>
    unfold fetch? at h
    unfold go
    rw [h]
    exact if_pos rfl
  | exhausted h hv =>
    unfold fetch? at h
    unfold go
    rw [h]
    exact if_neg hv
  | faulted h hv hd =>
    unfold fetch? at h
    unfold go
    simp only [h, if_neg hv, hd]

theorem go_of_step (h : m.step? = some m₁) : m.go (n + 1) = m₁.go n := by
  obtain ⟨v, hf, hv, hd⟩ := step?_eq_some_iff.mp h
  unfold fetch? at hf
  conv => lhs; unfold go
  simp only [hf, if_neg hv, hd]

/-- A run that is allowed `n` instructions obeys some of them and stops. -/
theorem go_eq_iff :
    m.go n = (stop, m') ↔
      ∃ k left m₁, k + left = n ∧ m.after? k = some m₁ ∧ Stops left m₁ stop m' := by
  constructor
  · intro h
    -- the first instruction is taken off a run that obeys any
    induction n generalizing m with
    | zero =>
      obtain ⟨stop', m₁, hs⟩ := stops_zero m
      obtain ⟨rfl, rfl⟩ := Prod.mk.inj ((go_of_stops hs).symm.trans h)
      exact ⟨0, 0, m, rfl, rfl, hs⟩
    | succ n ih =>
      rcases step_or_stops n m with ⟨m₁, h₁⟩ | ⟨stop', m₁, hs⟩
      · obtain ⟨k, left, m₂, rfl, hk, hs⟩ := ih ((go_of_step h₁).symm.trans h)
        exact ⟨k + 1, left, m₂, by omega, after?_succ_eq_some_iff.mpr ⟨m₁, h₁, hk⟩, hs⟩
      · obtain ⟨rfl, rfl⟩ := Prod.mk.inj ((go_of_stops hs).symm.trans h)
        exact ⟨0, n + 1, m, by omega, rfl, hs⟩
  · rintro ⟨k, left, m₁, rfl, hk, hs⟩
    -- and put in front of it again
    induction k generalizing m with
    | zero =>
      obtain rfl := Option.some.inj hk
      rw [Nat.zero_add]
      exact go_of_stops hs
    | succ k ih =>
      obtain ⟨m₂, h₂, hk⟩ := after?_succ_eq_some_iff.mp hk
      rw [Nat.succ_add, go_of_step h₂]
      exact ih hk

/-- Allowed `n` instructions, every machine comes to a stop. -/
theorem exists_stops (n : Nat) (m : Machine) :
    ∃ k left m₁ stop m₂, k + left = n ∧ m.after? k = some m₁ ∧ Stops left m₁ stop m₂ := by
  obtain ⟨k, left, m₁, hn, hk, hs⟩ := go_eq_iff.mp (rfl : m.go n = (_, _))
  exact ⟨k, left, m₁, _, _, hn, hk, hs⟩

theorem goOn_of_stops (h : Stops 1 m stop m') : m.goOn = some (stop, m') := by
  rw [goOn]
  cases h with
  | outside h =>
    unfold fetch? at h
    rw [h]
  | halted h =>
    unfold fetch? at h
    rw [h]
    exact if_pos rfl
  | faulted h hv hd =>
    unfold fetch? at h
    simp only [h, if_neg hv, hd]

theorem goOn_of_step (h : m.step? = some m₁) : m.goOn = m₁.goOn := by
  obtain ⟨v, hf, hv, hd⟩ := step?_eq_some_iff.mp h
  unfold fetch? at hf
  rw [goOn]
  simp only [hf, if_neg hv, hd]

/-- A run without a limit that ends obeys some instructions and stops. -/
theorem goOn_eq_some_iff :
    m.goOn = some (stop, m') ↔ ∃ k m₁, m.after? k = some m₁ ∧ Stops 1 m₁ stop m' := by
  constructor
  · intro h
    -- an answer of the least fixed point is an answer of some finite unfolding
    refine goOn.partial_correctness
      (fun m r => ∃ k m₁, m.after? k = some m₁ ∧ Stops 1 m₁ r.1 r.2) ?_ m (stop, m') h
    intro goOn ih m r h
    split at h
    · rename_i hf
      obtain rfl := Option.some.inj h
      exact ⟨0, m, rfl, .outside hf⟩
    · rename_i v hf
      split at h
      · rename_i hv
        obtain rfl := Option.some.inj h
        exact ⟨0, m, rfl, .halted (hv ▸ hf)⟩
      · rename_i hv
        split at h
        · rename_i m₂ hd
          obtain ⟨k, m₁, hk, hs⟩ := ih _ _ h
          have h₂ : m.step? = some m₂ := step?_eq_some_iff.mpr ⟨v, hf, hv, hd⟩
          exact ⟨k + 1, m₁, after?_succ_eq_some_iff.mpr ⟨m₂, h₂, hk⟩, hs⟩
        · rename_i hd
          obtain rfl := Option.some.inj h
          exact ⟨0, m, rfl, .faulted hf hv hd⟩
  · rintro ⟨k, m₁, hk, hs⟩
    induction k generalizing m with
    | zero =>
      obtain rfl := Option.some.inj hk
      exact goOn_of_stops hs
    | succ k ih =>
      obtain ⟨m₂, h₂, hk⟩ := after?_succ_eq_some_iff.mp hk
      rw [goOn_of_step h₂]
      exact ih hk

/-- A run without a limit has no answer exactly if every instruction is followed by another. -/
theorem goOn_eq_none_iff : m.goOn = none ↔ ∀ n, ∃ m', m.after? n = some m' := by
  constructor
  · intro h n
    -- a machine reached without a successor would be a stop, and a stop an answer
    induction n with
    | zero => exact ⟨m, rfl⟩
    | succ n ih =>
      obtain ⟨m₁, h₁⟩ := ih
      rcases step_or_stops 0 m₁ with ⟨m₂, h₂⟩ | ⟨stop, m₂, hs⟩
      · exact ⟨m₂, (after?_succ_of_after? h₁).trans h₂⟩
      · rw [goOn_eq_some_iff.mpr ⟨n, m₁, h₁, hs⟩] at h
        nomatch h
  · intro h
    cases hg : m.goOn with
    | none => rfl
    | some r =>
      obtain ⟨stop, m₂⟩ := r
      obtain ⟨k, m₁, hk, hs⟩ := goOn_eq_some_iff.mp hg
      obtain ⟨m₂, h₂⟩ := h (k + 1)
      rw [after?_succ_of_after? hk, hs.step?_eq_none] at h₂
      nomatch h₂

/-! ## The end of a run -/

theorem finish_faulted (limit : Nat) (fault : Fault) (m : Machine) :
    m.finish limit (.faulted fault) = (.error fault, { m with console := m.console.flush.2 }) :=
  rfl

theorem finish_exhausted (limit : Nat) (m : Machine) :
    m.finish limit .exhausted
      = (.error (.stepLimit limit), { m with console := m.console.flush.2 }) :=
  rfl

theorem finish_halted (limit : Nat) (m : Machine) :
    m.finish limit .halted
      = match m.console.flush.1 with
        | .ok () => (.ok (), { m with console := m.console.flush.2 }.reset)
        | .error text =>
          (.error (.console m.cursor.pos text), { m with console := m.console.flush.2 }) := by
  unfold finish
  rcases m.console.flush with ⟨_ | _, console⟩
  · rfl
  · rfl

/-- Of the console the end of a run is a flush. -/
theorem console_finish (limit : Nat) (stop : Stop) (m : Machine) :
    (m.finish limit stop).2.console = m.console.flush.2 := by
  cases stop with
  | faulted | exhausted => rfl
  | halted =>
    rw [finish_halted]
    cases m.console.flush.1 <;> rfl

/-- The run that obeys `k` instructions and stops with `left` still allowed. -/
theorem runFor_of_stops {k limit : Nat} {m₂ : Machine} (hk : m.reset.after? k = some m₁)
    (hs : Stops left m₁ stop m₂) (hlimit : k + left = limit) :
    m.runFor limit = m₂.finish limit stop := by
  rw [runFor, go_eq_iff.mpr ⟨k, left, m₁, hlimit, hk, hs⟩]

/-- The run without a limit that obeys `k` instructions and stops. -/
theorem run_none_of_stops {k : Nat} {m₂ : Machine} (hk : m.reset.after? k = some m₁)
    (hs : Stops 1 m₁ stop m₂) : m.run none = some (m₂.finish 0 stop) := by
  rw [run, goOn_eq_some_iff.mpr ⟨k, m₁, hk, hs⟩]
  rfl

/-- A whole run: instructions from the reset machine on, a stop, and the last flush.  Without a
    limit there is always one more instruction allowed. -/
theorem run_eq_some_iff {limit : Option Nat} {result : Except Fault Unit} :
    m.run limit = some (result, m') ↔
      ∃ k left m₁ stop m₂, (limit = none ∧ left = 1 ∨ limit = some (k + left)) ∧
        m.reset.after? k = some m₁ ∧ Stops left m₁ stop m₂ ∧
        m₂.finish (limit.getD 0) stop = (result, m') := by
  cases limit with
  | none =>
    simp only [run, Option.map_eq_some_iff, Prod.exists, goOn_eq_some_iff, Option.getD_none,
      reduceCtorEq, or_false, true_and]
    constructor
    · rintro ⟨stop, m₂, ⟨k, m₁, hk, hs⟩, hfin⟩
      exact ⟨k, 1, m₁, stop, m₂, rfl, hk, hs, hfin⟩
    · rintro ⟨k, left, m₁, stop, m₂, rfl, hk, hs, hfin⟩
      exact ⟨stop, m₂, ⟨k, m₁, hk, hs⟩, hfin⟩
  | some n =>
    simp only [run, Option.some.injEq, Option.getD_some, reduceCtorEq, false_and, false_or]
    constructor
    · intro h
      obtain ⟨k, left, m₁, rfl, hk, hs⟩ := go_eq_iff.mp (rfl : m.reset.go n = (_, _))
      exact ⟨k, left, m₁, _, _, rfl, hk, hs, h⟩
    · rintro ⟨k, left, m₁, stop, m₂, rfl, hk, hs, hfin⟩
      exact (runFor_of_stops hk hs rfl).trans hfin

/-- With a limit, the instructions obeyed before the stop and those still allowed are all of them. -/
theorem add_left_eq {limit : Option Nat} {k most : Nat}
    (hlimit : limit = none ∧ left = 1 ∨ limit = some (k + left)) (hmost : limit = some most) :
    k + left = most := by
  rcases hlimit with ⟨hnone, -⟩ | hsome
  · rw [hnone] at hmost
    nomatch hmost
  · exact Option.some.inj (hsome.symm.trans hmost)

/-- The machine of a run with a limit is known once its result is. -/
theorem run_some_of_runFor {limit : Nat} {result : Except Fault Unit}
    (h : (m.runFor limit).1 = result) :
    m.run (some limit) = some (result, (m.runFor limit).2) := by
  subst h
  rfl

/-- The machine of a program text, with nothing to read. -/
def quiet (source : String) : Machine :=
  Machine.start (Playfield.ofSource source) (Console.ofLines [] Failures.none)
    (Random.WordSource.ofWords #[])

end Funge.Machine
