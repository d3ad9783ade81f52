/-
  Instructions that work on data alone.

  While the cursor stays on its way east, most instructions only work on the stack, the lines still
  to be read and the text written: on what the linear stack machine calls its data.  `Mirrors` says
  of an action on the machine that it does what an action on the data does, with the same result or
  the failure that belongs to the fault.  The rules follow the ways actions are made, so that each
  instruction is compared with its entry in the table part by part (`perform_mirrors`).
-/
import Funge.Proofs.Action
import Funge.Proofs.Linear

namespace Funge

namespace Linear

/-- The fault of a failure, for the character `op` at `pos`. -/
def Failure.fault (pos : Position) (op : Char) : Failure → Fault
  | .underflow => .stackUnderflow pos op
  | .zeroDivisor => .divisionByZero pos op
  | .refused reason => .malformedInput pos reason

/-- The characters that may move the cursor off its line, or look at the field. -/
def steering : List Char := ['#', '<', '^', 'v', '?', '_', '|', 'g', 'p']

/-- The machine has a given field and cursor, the data of the linear machine, and a console that
    does not fail. -/
structure Shows (field : Playfield) (cursor : Cursor) (d : Data) (m : Machine) : Prop where
  field_eq : m.field = field
  cursor_eq : m.cursor = cursor
  stack_eq : m.stack = ⟨d.stack⟩
  pending_eq : m.console.pending = d.pending
  output_eq : m.console.output = d.output
  unfailing : m.console.failure = Failures.none

/-! ## Actions -/

section

variable {α β : Type} {field : Playfield} {cursor : Cursor} {op : Char}

/-- Action `a` of an instruction shown as `op` does what `r` does to the data. -/
def Mirrors (field : Playfield) (cursor : Cursor) (op : Char) (a : Exec α) (r : Action α) : Prop :=
  ∀ d m, Shows field cursor d m →
    Exec.Ends a (fun x m' => ∃ d', r d = .ok (x, d') ∧ Shows field cursor d' m')
      (fun fault _ => ∃ why, r d = .error why ∧ fault = why.fault cursor.pos op) m

theorem mirrors_pure (x : α) : Mirrors field cursor op (pure x) (pure x) :=
  fun d _ h => ⟨d, rfl, h⟩

theorem Mirrors.bind {a : Exec α} {r : Action α} {j : α → Exec β} {k : α → Action β}
    (h : Mirrors field cursor op a r) (hk : ∀ x, Mirrors field cursor op (j x) (k x)) :
    Mirrors field cursor op (a >>= j) (r >>= k) := by
  intro d m hm
  rw [Exec.ends_bind]
  refine (h d m hm).mono ?_ ?_
  · rintro x m' ⟨d', hr, hm'⟩
    have hbind : (r >>= k) d = k x d' := by
      show (r d >>= fun p => k p.1 p.2) = k x d'
      rw [hr]
      rfl
    rw [hbind]
    exact hk x d' m' hm'
  · rintro fault _ ⟨why, hr, hfault⟩
    refine ⟨why, ?_, hfault⟩
    show (r d >>= fun p => k p.1 p.2) = .error why
    rw [hr]
    rfl

theorem mirrors_push (v : Cell) : Mirrors field cursor op (Exec.push v) (push v) := by
  intro d m hm
  refine ⟨_, rfl, hm.field_eq, hm.cursor_eq, ?_, hm.pending_eq, hm.output_eq, hm.unfailing⟩
  rw [hm.stack_eq]
  rfl

theorem mirrors_pop : Mirrors field cursor op (Exec.pop op) pop := by
  intro d m hm
  refine Exec.ends_pop.mpr ⟨fun v rest hv => ?_, fun hv => ?_⟩
  · cases hd : d.stack with
    | nil =>
      rw [hm.stack_eq, hd] at hv
      nomatch hv
    | cons w ws =>
      rw [hm.stack_eq, hd] at hv
      cases hv
      refine ⟨{ d with stack := ws }, ?_, hm.field_eq, hm.cursor_eq, rfl, hm.pending_eq,
        hm.output_eq, hm.unfailing⟩
      simp only [pop, hd]
  · cases hd : d.stack with
    | nil => exact ⟨.underflow, by simp only [pop, hd], by rw [hm.cursor_eq]; rfl⟩
    | cons w ws =>
      rw [hm.stack_eq, hd] at hv
      nomatch hv

theorem mirrors_peek : Mirrors field cursor op (Exec.peek op) peek := by
  intro d m hm
  refine Exec.ends_peek.mpr ⟨fun v hv => ?_, fun hv => ?_⟩
  · cases hd : d.stack with
    | nil =>
      rw [hm.stack_eq, hd] at hv
      nomatch hv
    | cons w ws =>
      rw [hm.stack_eq, hd] at hv
      cases hv
      exact ⟨d, by simp only [peek, hd], hm⟩
  · cases hd : d.stack with
    | nil => exact ⟨.underflow, by simp only [peek, hd], by rw [hm.cursor_eq]; rfl⟩
    | cons w ws =>
      rw [hm.stack_eq, hd] at hv
      nomatch hv

/-- A fault at the cursor is a failure. -/
theorem mirrors_fail (why : Failure) {fault : Position → Fault}
    (h : fault cursor.pos = why.fault cursor.pos op) :
    Mirrors field cursor op (do Exec.fail (fault (← Exec.here)) : Exec α) (fail why) := by
  intro d m hm
  refine Exec.ends_bind.mpr (Exec.ends_here.mpr ?_)
  exact ⟨why, rfl, by rw [hm.cursor_eq, h]⟩

/-- Without failures a call does what its effect does. -/
theorem mirrors_consult {channel : Channel} {effect : Console → α × Call × Console}
    {r : Action α}
    (h : ∀ d (c : Console), c.pending = d.pending → c.output = d.output →
      c.failure = Failures.none → ∃ d', r d = .ok ((effect c).1, d') ∧ d'.stack = d.stack ∧
        (effect c).2.2.pending = d'.pending ∧ (effect c).2.2.output = d'.output ∧
        (effect c).2.2.failure = Failures.none) :
    Mirrors field cursor op (Exec.consult (·.attempt channel effect)) r := by
  intro d m hm
  obtain ⟨d', hr, hstack, hpending, houtput, hfailure⟩ :=
    h d m.console hm.pending_eq hm.output_eq hm.unfailing
  refine Exec.ends_consult.mpr ⟨fun x console hc => ?_, fun text console hc => ?_⟩
  · rw [Console.attempt_eq_of_failure hm.unfailing] at hc
    obtain ⟨hx, rfl⟩ := Prod.mk.inj hc
    refine ⟨d', Except.ok.inj hx ▸ hr, hm.field_eq, hm.cursor_eq, by rw [hstack]; exact hm.stack_eq,
      ?_, ?_, ?_⟩
    · exact (Console.pending_record _ _ _).trans hpending
    · exact (Console.output_record _ _ _).trans houtput
    · exact (Console.failure_record _ _ _).trans hfailure
  · rw [Console.attempt_eq_of_failure hm.unfailing] at hc
    nomatch (Prod.mk.inj hc).1

theorem mirrors_writeInteger (v : Cell) :
    Mirrors field cursor op (Exec.consult (·.writeInteger v)) (write (toString v.toInt)) := by
  refine mirrors_consult fun d c hpending houtput hfailure => ⟨_, rfl, rfl, hpending, ?_, hfailure⟩
  exact congrArg (· ++ v.decimal) houtput

theorem mirrors_writeChar (c : Char) :
    Mirrors field cursor op (Exec.consult (·.writeChar c)) (write c.toString) := by
  refine mirrors_consult fun d console hpending houtput hfailure =>
    ⟨_, rfl, rfl, hpending, ?_, hfailure⟩
  show console.output.push c = d.output ++ c.toString
  rw [houtput]
  rfl

/-- Reading a line flushes, takes the next line, and fails if there is none. -/
theorem mirrors_readLine : Mirrors field cursor op Exec.readLine read := by
  let next : Action (Option String) := fun d =>
    .ok (d.pending.head?, { d with pending := d.pending.tail })
  let deliver : Option String → Action String := fun line =>
    line.elim (fail (.refused .endOfInput)) pure
  have hflush : Mirrors field cursor op (Exec.consult Console.flush) (pure ()) :=
    mirrors_consult fun d _ hpending houtput hfailure =>
      ⟨d, rfl, rfl, hpending, houtput, hfailure⟩
  have hnext : Mirrors field cursor op (Exec.consult Console.readLine) next := by
    refine mirrors_consult fun d c hpending houtput hfailure =>
      ⟨{ d with pending := d.pending.tail }, ?_, rfl, ?_, houtput, hfailure⟩
    · show Except.ok (d.pending.head?, _) = Except.ok (c.pending.head?, _)
      rw [hpending]
    · exact congrArg List.tail hpending
  -- on the data the flush is nothing, and what is left is taken apart like the line
  have hread : ((pure () : Action Unit) >>= fun _ => next >>= deliver) = read := by
    funext d
    obtain ⟨stack, pending, output⟩ := d
    cases pending <;> rfl
  rw [← hread]
  refine hflush.bind fun _ => hnext.bind fun line => ?_
  cases line with
  | some line => exact mirrors_pure line
  | none => exact mirrors_fail (.refused .endOfInput) rfl

/-! ## Instructions -/

theorem mirrors_calculate (a : Arith) :
    Mirrors field cursor op (Exec.perform op (.arith a)) (calculate a) := by
  refine mirrors_pop.bind fun x => mirrors_pop.bind fun y => ?_
  rw [Arith.apply_eq_onInt]
  cases a.onInt y.toInt x.toInt with
  | some result => exact mirrors_push _
  | none => exact mirrors_fail .zeroDivisor rfl

/-- A character without an entry in the table has an instruction that does nothing to a cursor
    that is heading east. -/
theorem mirrors_nothing {c : Char} (heast : cursor.dir = .east)
    (hc : Instruction.ofChar c = .nothing ∨ Instruction.ofChar c = .halt ∨
      Instruction.ofChar c = .go .east) :
    Mirrors field cursor op (Exec.perform op (Instruction.ofChar c)) (pure ()) := by
  rcases hc with hc | hc | hc
  · rw [hc]
    exact mirrors_pure ()
  · rw [hc]
    exact mirrors_pure ()
  · rw [hc]
    -- the cursor takes the direction it has
    intro d m hm
    refine ⟨d, rfl, hm.field_eq, ?_, hm.stack_eq, hm.pending_eq, hm.output_eq, hm.unfailing⟩
    show m.cursor.turn .east = cursor
    rw [hm.cursor_eq, Cursor.turn, ← heast]

/-- Outside string mode a character that does not steer does what the table says. -/
theorem perform_mirrors {c : Char} (heast : cursor.dir = .east) (hsteer : c ∉ steering)
    (hquote : c ≠ '"') :
    Mirrors field cursor c (Exec.perform c (Instruction.ofChar c)) (table c) := by
  unfold table
  split
  · rename_i hdigit
    have hdecode : Instruction.ofChar c = .push (Int32.ofNat (c.toNat - '0'.toNat)) := by
      have hle : '0'.toNat ≤ c.toNat := by
        have h := hdigit
        simp only [Char.isDigit, Bool.and_eq_true, decide_eq_true_eq] at h
        exact h.1
      unfold Instruction.ofChar
      rw [if_pos hdigit, Int32.ofNat_sub _ _ hle]
      rfl
    rw [hdecode]
    exact mirrors_push _
  · rename_i hdigit
    -- the goals come in the order of the table
    split
    · exact mirrors_calculate .add
    · exact mirrors_calculate .subtract
    · exact mirrors_calculate .multiply
    · exact mirrors_calculate .divide
    · exact mirrors_calculate .modulo
    · refine mirrors_pop.bind fun v => ?_
      have hnot : Cell.ofBool (v == 0) = if v = 0 then 1 else 0 := by simp [Cell.ofBool]
      rw [hnot]
      exact mirrors_push _
    · refine mirrors_pop.bind fun a => mirrors_pop.bind fun b => ?_
      have hgreater : Cell.ofBool (a < b) = if b.toInt > a.toInt then 1 else 0 := by
        simp [Cell.ofBool, Int32.lt_iff_toInt_lt]
      rw [hgreater]
      exact mirrors_push _
    · exact mirrors_peek.bind fun v => mirrors_push v
    · exact mirrors_pop.bind fun a => mirrors_pop.bind fun b =>
        (mirrors_push a).bind fun _ => mirrors_push b
    · exact mirrors_pop.bind fun _ => mirrors_pure ()
    · exact mirrors_pop.bind fun v => mirrors_writeInteger v
    · exact mirrors_pop.bind fun v => mirrors_writeChar v.toChar
    · refine mirrors_readLine.bind fun line => ?_
      cases Numeral.cell? (Text.trim line.toList) with
      | some v => exact mirrors_push v
      | none => exact mirrors_fail (.refused (.notAnInteger line)) rfl
    · refine mirrors_readLine.bind fun line => ?_
      cases line.toList with
      | cons c _ => exact mirrors_push _
      | nil => exact mirrors_fail (.refused .emptyLine) rfl
    · -- no entry in the table, so one of the instructions that do nothing here
      refine mirrors_nothing heast ?_
      unfold Instruction.ofChar
      rw [if_neg hdigit]
      split <;> simp_all [steering]

end

end Linear

end Funge
