/-
  Failing instructions.

  `Exec.Raises` lists which instruction may raise which fault, and with what data;
  `Exec.Untouched` says what a failing instruction leaves alone.  That no instruction raises another
  fault or touches more (`Exec.perform_raises`) is found from the rules for actions.
-/
import Funge.Proofs.Action

namespace Funge

/-! ## Calls that write nothing -/

namespace Console

variable {c : Console} {channel : Channel} {α : Type} {effect : Console → α × Call × Console}

/-- A call writes what its effect writes, and nothing if it fails. -/
theorem output_attempt (h : (effect c).2.2.output = c.output) :
    (c.attempt channel effect).2.output = c.output := by
  unfold attempt
  split
  · exact output_record _ _ _
  · exact (output_record _ _ _).trans h

theorem output_of_attempt_error {console : Console} {text : String}
    (h : c.attempt channel effect = (.error text, console)) : console.output = c.output := by
  unfold attempt at h
  split at h
  · rw [← (Prod.mk.inj h).2, output_record]
  · nomatch h

theorem output_flush (c : Console) : c.flush.2.output = c.output := output_attempt rfl

theorem output_readLine (c : Console) : c.readLine.2.output = c.output := output_attempt rfl

end Console

/-! ## Faults and their instructions -/

/-- Only a division can lack a result. -/
theorem Arith.eq_divide_or_eq_modulo {op : Arith} {b a : Cell} (h : op.apply b a = none) :
    op = .divide ∨ op = .modulo := by
  cases op with
  | add | subtract | multiply => nomatch h
  | divide => exact Or.inl rfl
  | modulo => exact Or.inr rfl

namespace Exec

/-- The faults of an instruction shown as `op`, with the cursor at `pos`. -/
inductive Raises (field : Playfield) (pos : Position) (op : Char) : Instruction → Fault → Prop
  /-- Any instruction may find too few entries. -/
  | underflow {i : Instruction} : Raises field pos op i (.stackUnderflow pos op)
  /-- A quotient or a remainder may have a zero divisor. -/
  | zeroDivisor {a : Arith} (h : a = .divide ∨ a = .modulo) :
      Raises field pos op (.arith a) (.divisionByZero pos op)
  /-- A load may name a square outside the field. -/
  | load {p : Position} (h : p ∉ field) : Raises field pos op .load (.outOfField pos p)
  /-- So may a store. -/
  | store {p : Position} (h : p ∉ field) : Raises field pos op .store (.outOfField pos p)
  /-- A reading instruction may find no line. -/
  | endOfInput {i : Instruction} (h : i = .readInteger ∨ i = .readChar) :
      Raises field pos op i (.malformedInput pos .endOfInput)
  /-- The line may hold no integer. -/
  | notAnInteger {line : String} :
      Raises field pos op .readInteger (.malformedInput pos (.notAnInteger line))
  /-- The line may be empty. -/
  | emptyLine : Raises field pos op .readChar (.malformedInput pos .emptyLine)
  /-- The console may fail those that use it. -/
  | console {i : Instruction} {text : String}
      (h : i = .writeInteger ∨ i = .writeChar ∨ i = .readInteger ∨ i = .readChar) :
      Raises field pos op i (.console pos text)

/-- What a failing instruction leaves alone: everything but the stack and the lines it took. -/
structure Untouched (m m' : Machine) : Prop where
  cursor_eq : m'.cursor = m.cursor
  field_eq : m'.field = m.field
  chance_eq : m'.chance = m.chance
  output_eq : m'.console.output = m.console.output

theorem Untouched.set_stack {m m' : Machine} (h : Untouched m m') (stack : Stack) :
    Untouched m { m' with stack } := ⟨h.cursor_eq, h.field_eq, h.chance_eq, h.output_eq⟩

@[simp] theorem untouched_self (m : Machine) : Untouched m m := ⟨rfl, rfl, rfl, rfl⟩

@[simp] theorem untouched_set_stack (m : Machine) (stack : Stack) :
    Untouched m { m with stack } := (untouched_self m).set_stack stack

/-- A console call that fails is all that happened. -/
theorem consult_raises {α : Type} {call : Console → Except String α × Console} {m : Machine}
    (h : ∀ text console, call m.console = (.error text, console) →
      console.output = m.console.output) :
    Ends (consult call) (fun _ _ => True)
      (fun fault m' => Untouched m m' ∧ ∃ text, fault = .console m.cursor.pos text) m := by
  refine ends_consult.mpr ⟨fun _ _ _ => trivial, fun text console hc => ?_⟩
  exact ⟨⟨rfl, rfl, rfl, h text console hc⟩, text, rfl⟩

/-- Reading a line writes nothing; there may be none, or the console may fail. -/
theorem readLine_raises (m : Machine) :
    Ends readLine (fun _ m' => Untouched m m')
      (fun fault m' => Untouched m m' ∧ (fault = .malformedInput m.cursor.pos .endOfInput ∨
        ∃ text, fault = .console m.cursor.pos text)) m := by
  have hflush {result console} (h : m.console.flush = (result, console)) :
      console.output = m.console.output := by
    rw [show console = m.console.flush.2 by rw [h], Console.output_flush]
  have hread {result console console'} (h : m.console.flush = (.ok (), console))
      (h' : console.readLine = (result, console')) : console'.output = m.console.output := by
    rw [show console' = console.readLine.2 by rw [h'], Console.output_readLine, hflush h]
  refine ends_readLine.mpr ⟨fun console hc => ⟨fun line console' hl => ?_, fun console' hl => ?_,
    fun text console' hl => ?_⟩, fun text console hc => ?_⟩
  · exact ⟨rfl, rfl, rfl, hread hc hl⟩
  · exact ⟨⟨rfl, rfl, rfl, hread hc hl⟩, Or.inl rfl⟩
  · exact ⟨⟨rfl, rfl, rfl, hread hc hl⟩, Or.inr ⟨text, rfl⟩⟩
  · exact ⟨⟨rfl, rfl, rfl, hflush hc⟩, Or.inr ⟨text, rfl⟩⟩

/-- Writing pops first. -/
theorem write_raises {op : Char} {i : Instruction} {m : Machine}
    {call : Cell → Console → Except String Unit × Console}
    (hi : i = .writeInteger ∨ i = .writeChar ∨ i = .readInteger ∨ i = .readChar)
    (hcall : ∀ v text console, call v m.console = (.error text, console) →
      console.output = m.console.output) :
    Ends (do let v ← pop op; consult (call v)) (fun _ _ => True)
      (fun fault m' => Untouched m m' ∧ Raises m.field m.cursor.pos op i fault) m := by
  refine ends_bind.mpr (ends_pop.mpr ⟨fun v rest _ => ?_, fun _ => ?_⟩)
  · refine (consult_raises (m := { m with stack := rest }) (hcall v)).mono (fun _ _ _ => trivial) ?_
    rintro fault m' ⟨hm, text, rfl⟩
    exact ⟨⟨hm.cursor_eq, hm.field_eq, hm.chance_eq, hm.output_eq⟩, .console hi⟩
  · exact ⟨untouched_self m, .underflow⟩

/-- A failing instruction raises a fault of its own and has done nothing but pop and read. -/
theorem perform_raises (op : Char) (i : Instruction) (m : Machine) :
    Ends (perform op i) (fun _ _ => True)
      (fun fault m' => Untouched m m' ∧ Raises m.field m.cursor.pos op i fault) m := by
  cases i with
  | push | go | goRandom | toggleString | skip | halt | nothing => simp [perform]
  | not | greater | branchHorizontal | branchVertical | duplicate | swap | discard =>
    simp [perform, Raises.underflow]
  | arith =>
    refine ends_arith.mpr ⟨fun x rest _ => ⟨fun y below _ => ⟨fun _ _ => trivial, fun h => ?_⟩,
      fun _ => ?_⟩, fun _ => ?_⟩
    · exact ⟨untouched_set_stack m below, .zeroDivisor (Arith.eq_divide_or_eq_modulo h)⟩
    · exact ⟨untouched_set_stack m rest, .underflow⟩
    · exact ⟨untouched_self m, .underflow⟩
  | writeInteger =>
    exact write_raises (Or.inl rfl) fun v _ _ h => Console.output_of_attempt_error h
  | writeChar =>
    exact write_raises (Or.inr (Or.inl rfl)) fun v _ _ h => Console.output_of_attempt_error h
  | load => simp +contextual [perform, Raises.underflow, Raises.load]
  | store => simp +contextual [perform, Raises.underflow, Raises.store]
  | readInteger =>
    refine ends_readInteger.mpr ((readLine_raises m).mono ?_ ?_)
    · exact fun line m' hm => ⟨fun _ _ => trivial, fun _ => ⟨hm, hm.cursor_eq ▸ .notAnInteger⟩⟩
    · rintro fault m' ⟨hm, rfl | ⟨text, rfl⟩⟩
      · exact ⟨hm, .endOfInput (Or.inl rfl)⟩
      · exact ⟨hm, .console (Or.inr (Or.inr (Or.inl rfl)))⟩
  | readChar =>
    refine ends_readChar.mpr ((readLine_raises m).mono ?_ ?_)
    · exact fun line m' hm => ⟨fun _ _ _ => trivial, fun _ => ⟨hm, hm.cursor_eq ▸ .emptyLine⟩⟩
    · rintro fault m' ⟨hm, rfl | ⟨text, rfl⟩⟩
      · exact ⟨hm, .endOfInput (Or.inr rfl)⟩
      · exact ⟨hm, .console (Or.inr (Or.inr (Or.inr rfl)))⟩

/-- A dispatch that faults has performed the instruction of the cell, outside string mode. -/
theorem dispatch_raises {v : Cell} {m m' : Machine} {fault : Fault}
    (h : dispatch v m = .error fault m') :
    m.cursor.stringMode = false ∧ Untouched m m' ∧
      Raises m.field m.cursor.pos v.toChar (Instruction.decode v) fault := by
  have hends : Ends (dispatch v) (fun _ _ => True) (fun fault m' =>
      m.cursor.stringMode = false ∧ Untouched m m' ∧
        Raises m.field m.cursor.pos v.toChar (Instruction.decode v) fault) m := by
    rw [ends_dispatch]
    cases hmode : m.cursor.stringMode with
    | false =>
      rw [Bool.false_and, if_neg Bool.false_ne_true]
      exact (perform_raises v.toChar (Instruction.decode v) m).mono (fun _ _ _ => trivial)
        (fun fault m' hf => ⟨rfl, hf⟩)
    | true =>
      -- in string mode the quote is the only cell that is obeyed, and it cannot fail
      by_cases hv : v = Cell.quote
      · subst hv
        simp [Instruction.decode_quote, perform]
      · simp [hv]
  exact hends.of_error h

end Exec

end Funge
