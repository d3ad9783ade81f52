/-
  What a failing iteration leaves.

  An iteration of a run fails where it looks for a cell, in an instruction, or in the flush after the
  halting cell; `Fails` lists these.  Whichever it is, little has happened: `Spares` says what is as
  before, which entries the stack may lack and which line the queue may lack.

  1. Every instruction takes its operands before it can do harm, so when it fails exactly these are
     gone, as far as they were there (`Exec.perform_takes`).  This is the crux: it bounds the
     entries by three, and spares the stack where there are no operands.
  2. What else a failing instruction leaves alone, and what it said to the console, is known
     (`Exec.dispatch_raises`, `Exec.dispatch_hears`): only a line that was refused is gone.
  3. A run that fails, and not at its limit, obeys some instructions and comes to such an iteration
     (`run_fails`).
-/
import Funge.Proofs.Attribution
import Funge.Proofs.Conservation

namespace Funge

/-! ## Operands -/

/-- The number of entries an instruction works on. -/
def Instruction.operands : Instruction → Nat
  | not | branchHorizontal | branchVertical | duplicate | discard | writeInteger | writeChar => 1
  | arith _ | greater | swap | load => 2
  | store => 3
  | push _ | go _ | goRandom | toggleString | skip | readInteger | readChar | halt | nothing => 0

theorem Instruction.operands_le (i : Instruction) : i.operands ≤ 3 := by
  cases i <;> simp [operands]

namespace Exec

variable {m s m' : Machine} {op : Char} {i : Instruction} {fault : Fault} {k : Nat}

/-- Machine `s` is machine `m` without its `k` top entries, as far as stack and console go. -/
structure Popped (m : Machine) (k : Nat) (s : Machine) : Prop where
  entries_eq : s.stack.entries = m.stack.entries.drop k
  le_length : k ≤ m.stack.entries.length
  console_eq : s.console = m.console

theorem popped_zero (m : Machine) : Popped m 0 m := ⟨rfl, Nat.zero_le _, rfl⟩

/-- What a failing instruction has taken off the stack: its operands.  If there were too few it has
    taken all there were.  A console that failed an instruction with operands failed to write. -/
structure Takes (m : Machine) (i : Instruction) (fault : Fault) (m' : Machine) : Prop where
  entries_eq : m'.stack.entries = m.stack.entries.drop i.operands
  underflow : ∀ {pos op}, fault = .stackUnderflow pos op → m.stack.entries.length < i.operands
  calls_eq : ∀ {pos text}, fault = .console pos text → 0 < i.operands →
    m'.console.calls = m.console.calls.push (.failed .write)

/-- Popping takes one more entry, or there is none left for an instruction that wants one. -/
theorem pop_takes {α : Type} {next : Cell → Exec α} (h : Popped m k s) (hk : k < i.operands)
    (hnext : ∀ v s', Popped m (k + 1) s' → Ends (next v) (fun _ _ => True) (Takes m i) s') :
    Ends (pop op >>= next) (fun _ _ => True) (Takes m i) s := by
  refine ends_bind.mpr (ends_pop.mpr ⟨fun v rest hpop => hnext v _ ?_, fun hpop => ?_⟩)
  · have hentries : s.stack.entries = v :: rest.entries := by
      simpa [Stack.toList] using Stack.pop?_eq_some_iff.mp hpop
    have hdrop : m.stack.entries.drop k = v :: rest.entries := h.entries_eq.symm.trans hentries
    refine ⟨?_, ?_, h.console_eq⟩
    · show rest.entries = _
      rw [← List.drop_drop, hdrop, List.drop_one, List.tail_cons]
    · have hlength := congrArg List.length hdrop
      rw [List.length_drop, List.length_cons] at hlength
      omega
  · have hentries : s.stack.entries = [] := by
      simpa [Stack.toList] using Stack.pop?_eq_none_iff.mp hpop
    have hlength : m.stack.entries.length ≤ k :=
      List.drop_eq_nil_iff.mp (h.entries_eq.symm.trans hentries)
    refine ⟨?_, fun _ => by omega, by simp⟩
    rw [hentries, List.drop_eq_nil_iff.mpr (by omega)]

/-- With all operands popped the stack is as any fault leaves it. -/
theorem Popped.takes (h : Popped m i.operands s) (hstack : m'.stack = s.stack)
    (hunderflow : ∀ pos op, fault ≠ .stackUnderflow pos op)
    (hconsole : ∀ pos text, fault = .console pos text → 0 < i.operands →
      m'.console.calls = m.console.calls.push (.failed .write)) : Takes m i fault m' := by
  refine ⟨by rw [hstack, h.entries_eq], fun hfault => absurd hfault (hunderflow _ _), ?_⟩
  exact fun hfault => hconsole _ _ hfault

/-- A write that fails is recorded. -/
theorem consult_takes {call : Console → Except String Unit × Console} {effect : Console → Unit × Call × Console}
    (h : Popped m i.operands s) (hcall : call s.console = s.console.attempt .write effect) :
    Ends (consult call) (fun _ _ => True) (fun fault s' => Takes m i fault s') s := by
  refine ends_consult.mpr ⟨fun _ _ _ => trivial, fun text console hc => ?_⟩
  obtain ⟨-, htranscript⟩ := Console.of_attempt_error (hcall.symm.trans hc)
  refine h.takes rfl (by simp) fun _ _ _ _ => ?_
  rw [← h.console_eq]
  apply Array.toList_inj.mp
  rw [htranscript.calls_eq, Array.toList_push]

/-- Reading a line takes nothing off the stack. -/
theorem readLine_takes_none (h : Popped m i.operands m) (hi : i.operands = 0) :
    Ends readLine (fun _ s => s.stack = m.stack) (fun fault s => Takes m i fault s) m := by
  have htakes {fault : Fault} {console : Console}
      (hunderflow : ∀ pos op, fault ≠ .stackUnderflow pos op) :
      Takes m i fault { m with console } := h.takes rfl hunderflow fun _ _ _ hpos => by omega
  refine ends_readLine.mpr ⟨fun console _ => ⟨fun _ _ _ => rfl, fun _ _ => ?_, fun _ _ _ => ?_⟩,
    fun _ _ _ => ?_⟩
  · exact htakes (by simp)
  · exact htakes (by simp)
  · exact htakes (by simp)

/-- **Operands first.**  A failing instruction has taken its operands off the stack, as far as they
    were there. -/
theorem perform_takes (op : Char) (i : Instruction) (m : Machine) :
    Ends (perform op i) (fun _ _ => True) (Takes m i) m := by
  have hstart := popped_zero m
  cases i with
  | push | go | goRandom | toggleString | skip | halt | nothing => simp [perform]
  | not | branchHorizontal | branchVertical | discard =>
    exact pop_takes hstart (by decide) fun _ _ _ => trivial
  | greater | swap =>
    exact pop_takes hstart (by decide) fun _ _ h => pop_takes h (by decide) fun _ _ _ => trivial
  | duplicate =>
    refine ends_bind.mpr (ends_peek.mpr ⟨fun _ _ => trivial, fun hpeek => ?_⟩)
    have hentries : m.stack.entries = [] := List.head?_eq_none_iff.mp hpeek
    exact ⟨by rw [hentries, List.drop_nil], fun _ => by simp [hentries, Instruction.operands], by simp⟩
  | arith a =>
    refine pop_takes hstart Nat.two_pos fun x s h => pop_takes h (Nat.lt_succ_self 1) fun y s h => ?_
    cases a.apply y x with
    | some v => trivial
    | none => exact h.takes rfl (by simp) (by simp)
  | load =>
    refine pop_takes hstart (by decide) fun y _ h => pop_takes h (by decide) fun x _ h => ?_
    refine ends_bind.mpr (ends_load.mpr ⟨fun _ _ => trivial, fun _ => ?_⟩)
    exact h.takes rfl (by simp) (by simp)
  | store =>
    refine pop_takes hstart (by decide) fun y _ h => pop_takes h (by decide) fun x _ h =>
      pop_takes h (by decide) fun v _ h => ends_store.mpr ⟨fun _ => trivial, fun _ => ?_⟩
    exact h.takes rfl (by simp) (by simp)
  | writeInteger => exact pop_takes hstart (by decide) fun _ _ h => consult_takes h rfl
  | writeChar => exact pop_takes hstart (by decide) fun _ _ h => consult_takes h rfl
  | readInteger =>
    refine ends_readInteger.mpr ((readLine_takes_none hstart rfl).mono ?_ fun _ _ h => h)
    refine fun line s hs => ⟨fun _ _ => trivial, fun _ => hstart.takes hs (by simp) (by simp)⟩
  | readChar =>
    refine ends_readChar.mpr ((readLine_takes_none hstart rfl).mono ?_ fun _ _ h => h)
    refine fun line s hs => ⟨fun _ _ _ => trivial, fun _ => hstart.takes hs (by simp) (by simp)⟩

/-- So has a dispatch that faults. -/
theorem dispatch_takes_operands (v : Cell) (m : Machine) :
    Ends (dispatch v) (fun _ _ => True) (Takes m (Instruction.decode v)) m := by
  rw [ends_dispatch]
  split
  · trivial
  · exact perform_takes v.toChar (Instruction.decode v) m

/-- Only the reading instructions refuse lines, and they have no operands. -/
theorem Raises.operands_eq_zero {field : Playfield} {here pos : Position} {reason : InputFault}
    (h : Raises field here op i (.malformedInput pos reason)) : i.operands = 0 := by
  cases h with
  | endOfInput h => rcases h with rfl | rfl <;> rfl
  | notAnInteger | emptyLine => rfl

/-- An underflow names the instruction. -/
theorem Raises.op_eq {field : Playfield} {here pos : Position} {op' : Char}
    (h : Raises field here op i (.stackUnderflow pos op')) : op = op' := by
  cases h
  rfl

namespace Takes

theorem stack_eq (h : Takes m i fault m') (hi : i.operands = 0) : m'.stack = m.stack := by
  have hentries := h.entries_eq
  rw [hi, List.drop_zero] at hentries
  exact congrArg Stack.mk hentries

theorem stack_isPrefix (h : Takes m i fault m') : m'.stack.toList <+: m.stack.toList := by
  have hsuffix := List.drop_suffix i.operands m.stack.entries
  rw [← h.entries_eq] at hsuffix
  exact List.reverse_prefix.mpr hsuffix

theorem size_le (h : Takes m i fault m') : m.stack.size ≤ m'.stack.size + 3 := by
  have hlength := congrArg List.length h.entries_eq
  have hoperands := i.operands_le
  rw [List.length_drop] at hlength
  simp only [Stack.size]
  omega

end Takes

end Exec

/-! ## The queue -/

/-- The line that was refused, if the fault is that. -/
def Fault.refused? : Fault → Option String
  | .malformedInput _ reason => reason.line?
  | .stackUnderflow _ _ | .outOfField _ _ | .divisionByZero _ _ | .console _ _ | .stepLimit _ => none

/-- Of the queue a failing instruction has taken the line it refused. -/
theorem Console.Hears.pending_eq {c d : Console} {fault : Fault} (h : c.Hears (some fault) d) :
    c.pending = fault.refused?.toList ++ d.pending := by
  cases h with
  | nothing h =>
    cases fault with
    | malformedInput => nomatch h
    | stackUnderflow | outOfField | divisionByZero | console | stepLimit => rfl
  | @refused pos reason _ h =>
    rw [h.lines_eq]
    cases reason <;> rfl
  | failed hcalls h =>
    rw [h.lines_eq]
    rcases hcalls with ⟨rfl, -⟩ | ⟨rfl, -⟩
    · rfl
    · rfl

namespace Machine

variable {m m' : Machine} {fault : Fault}

/-! ## Failing iterations -/

/-- An iteration that starts at `m` fails with a fault and leaves `m'`. -/
inductive Fails : (m : Machine) → Fault → Machine → Prop
  /-- The cursor has left the field. -/
  | outside {m : Machine} (h : m.fetch? = none) :
      Fails m (.outOfField m.cursor.pos m.cursor.pos) m
  /-- The instruction faults. -/
  | dispatch {m m' : Machine} {v : Cell} {fault : Fault} (h : m.fetch? = some v)
      (hv : v ≠ Cell.halt) (hd : Exec.dispatch v m = .error fault m') : Fails m fault m'
  /-- The program halts, and what it wrote cannot be flushed. -/
  | flush {m : Machine} {text : String} {console : Console} (h : m.fetch? = some Cell.halt)
      (hflush : m.console.flush = (.error text, console)) :
      Fails m (.console m.cursor.pos text) { m with console }

/-- What is left of machine `m` in machine `m'`: the field, the source of directions, the cursor and
    the text are as before. -/
structure Spares (m : Machine) (fault : Fault) (m' : Machine) : Prop extends Exec.Untouched m m' where
  /-- Entries are missing at the top only ... -/
  stack_isPrefix : m'.stack.toList <+: m.stack.toList
  /-- ... and not more than three. -/
  size_le : m.stack.size ≤ m'.stack.size + 3
  /-- None is missing if there was no cell, ... -/
  stack_of_outside : m.fetch? = none → m'.stack = m.stack
  /-- ... if a line was refused or there was none, ... -/
  stack_of_refused : ∀ pos reason, fault = .malformedInput pos reason → m'.stack = m.stack
  /-- ... if there was nothing to duplicate, ... -/
  stack_of_duplicate : ∀ pos, fault = .stackUnderflow pos ':' → m'.stack = m.stack
  /-- ... if the program had come to its end, ... -/
  stack_of_halt : m.fetch? = some Cell.halt → m'.stack = m.stack
  /-- ... and if the console failed anything but a write. -/
  stack_of_call : ∀ pos text, fault = .console pos text →
    m'.stack = m.stack ∨ m'.console.calls.back? = some (.failed .write)
  /-- Of the queue a line is missing that was refused, the first one, and no other. -/
  pending_eq : m.console.pending = fault.refused?.toList ++ m'.console.pending

/-- A failing instruction spares the machine. -/
theorem spares_of_dispatch {v : Cell} (hf : m.fetch? = some v) (hv : v ≠ Cell.halt)
    (hd : Exec.dispatch v m = .error fault m') : m.Spares fault m' := by
  obtain ⟨-, huntouched, hraises⟩ := Exec.dispatch_raises hd
  have htakes := (Exec.dispatch_takes_operands v m).of_error hd
  have hpending := ((Exec.dispatch_hears v m).of_error hd).pending_eq
  refine ⟨huntouched, htakes.stack_isPrefix, htakes.size_le, ?_, ?_, ?_, ?_, ?_, hpending⟩
  · intro hnone
    rw [hnone] at hf
    nomatch hf
  · rintro pos reason rfl
    exact htakes.stack_eq hraises.operands_eq_zero
  · rintro pos rfl
    -- the cell shown as `:` is the one that duplicates, so the stack was empty
    obtain rfl := Cell.eq_ofChar_of_toChar hraises.op_eq (by decide)
    have hlength : m.stack.entries.length < 1 := htakes.underflow rfl
    have hentries : m.stack.entries = [] := List.length_eq_zero_iff.mp (by omega)
    have hleft := htakes.entries_eq
    rw [hentries, List.drop_nil, ← hentries] at hleft
    exact congrArg Stack.mk hleft
  · intro hhalt
    exact absurd (Option.some.inj (hf.symm.trans hhalt)) hv
  · rintro pos text rfl
    rcases Nat.eq_zero_or_pos (Instruction.decode v).operands with hzero | hpos
    · exact Or.inl (htakes.stack_eq hzero)
    · refine Or.inr ?_
      rw [htakes.calls_eq rfl hpos, Array.back?_push]

/-- So does every failing iteration. -/
theorem Fails.spares (h : m.Fails fault m') : m.Spares fault m' := by
  cases h with
  | outside h =>
    exact ⟨Exec.untouched_self m, List.prefix_rfl, Nat.le_add_right _ _, fun _ => rfl,
      fun _ _ _ => rfl, fun _ _ => rfl, fun _ => rfl, fun _ _ _ => Or.inl rfl, rfl⟩
  | dispatch h hv hd => exact spares_of_dispatch h hv hd
  | @flush text console h hflush =>
    have huntouched : Exec.Untouched m { m with console } :=
      ⟨rfl, rfl, rfl, Console.output_of_attempt_error hflush⟩
    obtain ⟨-, htranscript⟩ := Console.of_attempt_error hflush
    exact ⟨huntouched, List.prefix_rfl, Nat.le_add_right _ _, fun _ => rfl, fun _ _ _ => rfl,
      fun _ _ => rfl, fun _ => rfl, fun _ _ _ => Or.inl rfl, htranscript.lines_eq⟩

/-- A run that fails, and not at its limit, obeys some instructions and comes to an iteration that
    fails.  What it still does is the last flush; after a flush that failed it does nothing. -/
theorem run_fails {limit : Option Nat} (h : m.run limit = some (.error fault, m'))
    (hlimit : ∀ n, fault ≠ .stepLimit n) :
    ∃ k m₁ m₂, m.reset.after? k = some m₁ ∧ m₁.Fails fault m₂ ∧
      (m' = m₂ ∨ m' = { m₂ with console := m₂.console.flush.2 }) := by
  obtain ⟨k, left, m₁, stop, m₂, -, hk, hs, hfin⟩ := run_eq_some_iff.mp h
  cases hs with
  | outside hf =>
    obtain ⟨hfault, rfl⟩ := Prod.mk.inj hfin
    obtain rfl := Except.error.inj hfault
    exact ⟨k, m₁, _, hk, .outside hf, Or.inr rfl⟩
  | faulted hf hv hd =>
    obtain ⟨hfault, rfl⟩ := Prod.mk.inj hfin
    obtain rfl := Except.error.inj hfault
    exact ⟨k, m₁, _, hk, .dispatch hf hv hd, Or.inr rfl⟩
  | exhausted =>
    obtain ⟨hfault, -⟩ := Prod.mk.inj hfin
    exact absurd (Except.error.inj hfault).symm (hlimit _)
  | halted hf =>
    rw [finish_halted] at hfin
    rcases hflush : m₁.console.flush with ⟨result, console⟩
    rw [hflush] at hfin
    cases result with
    | ok => nomatch (Prod.mk.inj hfin).1
    | error text =>
      obtain ⟨hfault, rfl⟩ := Prod.mk.inj hfin
      obtain rfl := Except.error.inj hfault
      exact ⟨k, m₁, _, hk, .flush hf hflush, Or.inl rfl⟩

/-- **A failing iteration is nearly atomic.**  Wherever it fails, the field, the source of directions,
    the cursor and the text are as before, at most three entries are gone from the top of the
    stack, and none where nothing was to be popped, and of the queue no line is gone but the one that
    was refused.  Every run that fails before its limit fails in such an iteration. -/
theorem fails_spares :
    (∀ (m m' : Machine) (fault : Fault), m.Fails fault m' → m.Spares fault m') ∧
    ∀ (m m' : Machine) (limit : Option Nat) (fault : Fault),
      m.run limit = some (.error fault, m') → (∀ n, fault ≠ .stepLimit n) →
        ∃ k m₁ m₂, m.reset.after? k = some m₁ ∧ m₁.Fails fault m₂ ∧ m₁.Spares fault m₂ ∧
          (m' = m₂ ∨ m' = { m₂ with console := m₂.console.flush.2 }) := by
  refine ⟨fun m m' fault h => h.spares, fun m m' limit fault h hlimit => ?_⟩
  obtain ⟨k, m₁, m₂, hk, hfails, hleft⟩ := run_fails h hlimit
  exact ⟨k, m₁, m₂, hk, hfails, hfails.spares, hleft⟩

/-- The store of `4095p` names the square (9, 5), which is not there: three entries are gone, and the 4
    below them is left.  The run of `12&` refuses the line `x`: the stack is as it was, and the line
    behind `x` is still queued. -/
theorem fails_spares_storing_reading :
    (∃ m m', (quiet "4095p").after? 4 = some m ∧ m.stack.toList = [4, 0, 9, 5] ∧
      m.Fails (.outOfField ⟨4, 0⟩ ⟨9, 5⟩) m' ∧ m'.stack.toList = [4] ∧
      m.Spares (.outOfField ⟨4, 0⟩ ⟨9, 5⟩) m') ∧
    let m := start (Playfield.ofSource "12&") (Console.ofLines ["x", "8"] Failures.none)
      (Random.WordSource.ofWords #[])
    let fault := Fault.malformedInput ⟨2, 0⟩ (.notAnInteger "x")
    ∃ m' m₁ m₂ : Machine, m.run (some 9) = some (.error fault, m') ∧ m₁.Fails fault m₂ ∧
      m₂.stack = m₁.stack ∧ m₁.console.pending = ["x"] ++ m₂.console.pending := by
  constructor
  · have hfails : ∃ m m', (quiet "4095p").after? 4 = some m ∧ m.stack.toList = [4, 0, 9, 5] ∧
        m.Fails (.outOfField ⟨4, 0⟩ ⟨9, 5⟩) m' ∧ m'.stack.toList = [4] :=
      ⟨_, _, rfl, by decide +kernel, .dispatch (v := 112) (by decide +kernel) (by decide) rfl,
        by decide +kernel⟩
    obtain ⟨m, m', hafter, hbefore, hfails, hleft⟩ := hfails
    exact ⟨m, m', hafter, hbefore, hfails, hleft, fails_spares.1 m m' _ hfails⟩
  · intro m fault
    have hfault : (m.runFor 9).1 = .error fault := by decide +kernel
    have hrun := run_some_of_runFor hfault
    obtain ⟨k, m₁, m₂, hk, hfails, hspares, hleft⟩ := fails_spares.2 _ _ _ _ hrun (by simp)
    exact ⟨_, m₁, m₂, hrun, hfails, hspares.stack_of_refused _ _ rfl, hspares.pending_eq⟩

end Machine

end Funge
