/-
  The console protocol of a run.

  A run speaks to its console while it obeys instructions, and flushes it once at its end.  Four
  calls may fail: a write, the flush before a read, the read itself, and that last flush.

  1. Until an instruction faults nothing has failed, and every read came right after a flush
     (`serves_of_after?`).  A call that fails is the last one of the instruction that made it
     (`Stops.reports`).
  2. Whether the last flush fails matters only to a program that halted (`finish_halted`).  A run
     that has a fault keeps it.
  3. So the result of a run can be told from the calls and from why its instructions stopped
     (`run_protocol`).
-/
import Funge.Proofs.Calls
import Funge.Proofs.Steps

namespace Funge

/-- A fault of the console. -/
def Fault.IsConsole (fault : Fault) : Prop := ∃ pos text, fault = .console pos text

/-- The fault a run has once its instructions have stopped.  A program that halted has none. -/
def Stop.fault? (limit : Nat) : Stop → Option Fault
  | halted => none
  | faulted fault => some fault
  | exhausted => some (.stepLimit limit)

namespace Machine

variable {m m' m₁ : Machine} {stop : Stop} {left n limit : Nat}

/-! ## Why the instructions of a run stopped -/

/-- Why the instructions of a run stop, and the machine they leave to the last flush. -/
def instructions? (limit : Option Nat) (m : Machine) : Option (Stop × Machine) :=
  match limit with
  | some n => some (m.reset.go n)
  | none => m.reset.goOn

/-- A run is its instructions and an end. -/
theorem run_eq_map (limit : Option Nat) (m : Machine) :
    m.run limit = (m.instructions? limit).map fun r => r.2.finish (limit.getD 0) r.1 := by
  cases limit with
  | none => rfl
  | some n => rfl

theorem instructions?_eq_some_iff {limit : Option Nat} :
    m.instructions? limit = some (stop, m') ↔
      ∃ k left m₁, (limit = none ∧ left = 1 ∨ limit = some (k + left)) ∧
        m.reset.after? k = some m₁ ∧ Stops left m₁ stop m' := by
  cases limit with
  | none =>
    show m.reset.goOn = some (stop, m') ↔ _
    rw [goOn_eq_some_iff]
    simp
  | some n =>
    show some (m.reset.go n) = some (stop, m') ↔ _
    rw [Option.some.injEq, go_eq_iff]
    simp [eq_comm]

/-! ## What a run says -/

/-- As instructions are obeyed the console is served. -/
theorem serves_of_after? (h : m.after? n = some m') : m.console.Serves m'.console := by
  induction n generalizing m with
  | zero =>
    obtain rfl := Option.some.inj h
    exact Console.serves_self _
  | succ n ih =>
    obtain ⟨m₁, hstep, hrest⟩ := after?_succ_eq_some_iff.mp h
    obtain ⟨v, -, -, hd⟩ := step?_eq_some_iff.mp hstep
    have hserved : m.console.Serves m₁.console := (Exec.dispatch_reports v m).of_ok hd
    exact hserved.trans (ih hrest)

/-- Where instructions stop, a call failed exactly if the console's fault stops them. -/
theorem Stops.reports (h : Stops left m stop m') :
    match stop with
    | .faulted fault => fault.Reports m.console m'.console
    | _ => m.console.Serves m'.console := by
  cases h with
  | outside => exact Console.serves_self _
  | halted => exact Console.serves_self _
  | exhausted => exact Console.serves_self _
  | faulted _ _ hd => exact (Exec.dispatch_reports _ m).of_error hd

/-- The instructions of a run, served to their end or broken off by the console. -/
theorem reports_of_instructions? {limit : Option Nat}
    (h : m.instructions? limit = some (stop, m')) :
    (∃ pos text, stop = .faulted (.console pos text) ∧ m.console.Breaks text m'.console) ∨
      (∀ pos text, stop ≠ .faulted (.console pos text)) ∧ m.console.Serves m'.console := by
  obtain ⟨k, left, m₁, -, hk, hs⟩ := instructions?_eq_some_iff.mp h
  have hserved : m.console.Serves m₁.console := serves_of_after? (m := m.reset) hk
  have hreports := hs.reports
  cases stop with
  | halted => exact Or.inr ⟨nofun, hserved.trans hreports⟩
  | exhausted => exact Or.inr ⟨nofun, hserved.trans hreports⟩
  | faulted fault =>
    cases fault with
    | console pos text => exact Or.inl ⟨pos, text, rfl, hserved.breaks hreports⟩
    | stackUnderflow | outOfField | divisionByZero | malformedInput | stepLimit =>
      exact Or.inr ⟨nofun, hserved.trans hreports⟩

end Machine

/-! ## The last flush -/

namespace Smooth

variable {calls rest : List Call}

/-- The first failure is not among calls that went well. -/
theorem dropWhile_append (h : Smooth calls) :
    (calls ++ rest).dropWhile Call.succeeded = rest.dropWhile Call.succeeded :=
  List.dropWhile_append_of_pos h.succeeded

theorem takeWhile_append (h : Smooth calls) :
    (calls ++ rest).takeWhile Call.succeeded = calls ++ rest.takeWhile Call.succeeded :=
  List.takeWhile_append_of_pos h.succeeded

/-- After calls that went well only the last one can be the first failure. -/
theorem eq_of_dropWhile_concat {call failed : Call} {further : List Call} (h : Smooth calls)
    (hdrop : (calls ++ [call]).dropWhile Call.succeeded = failed :: further) :
    failed = call ∧ further = [] ∧ call.succeeded = false := by
  rw [h.dropWhile_append] at hdrop
  cases hcall : call.succeeded with
  | true =>
    rw [List.dropWhile_cons_of_pos hcall] at hdrop
    nomatch hdrop
  | false =>
    rw [List.dropWhile_cons_of_neg (by simp [hcall])] at hdrop
    obtain ⟨rfl, rfl⟩ := List.cons.inj hdrop
    exact ⟨rfl, rfl, rfl⟩

end Smooth

/-- A flush is one more call, and its failure has the text of the schedule. -/
theorem Console.exists_flush (c : Console) :
    ∃ call, call.channel = .flush ∧ Transcript c [call] c.flush.2 ∧
      match c.flush.1 with
      | .ok () => call.succeeded = true
      | .error text => call = .failed .flush ∧ c.failure .flush (c.count .flush) = some text := by
  rcases h : c.flush with ⟨_ | _, d⟩
  · obtain ⟨htext, hd⟩ := of_attempt_error h
    exact ⟨.failed .flush, rfl, hd, rfl, htext⟩
  · exact ⟨.flushed, rfl, transcript_of_flush h, rfl⟩

/-! ## The protocol -/

/-- What the calls `made` in a run from `m` to `m'` say about its result.  The instructions of the
    run stopped for the reason `stop`, and the last flush found the machine `last`. -/
structure Machine.Protocol (limit : Option Nat) (m : Machine) (stop : Stop) (last : Machine)
    (made : List Call) (result : Except Fault Unit) (m' : Machine) : Prop where
  /-- The console has recorded the calls, failed ones included. -/
  calls_eq : m'.console.calls.toList = m.console.calls.toList ++ made
  /-- Every read comes right after a flush that succeeded. -/
  flushedReads : FlushedReads made
  /-- The last call is a flush. -/
  last_eq_flush : made.getLast?.map Call.channel = some .flush
  /-- After the first call that fails there is at most one more, and it is a flush. -/
  after_failure : ∀ failed further, made.dropWhile Call.succeeded = failed :: further →
    further = [] ∨ ∃ call, further = [call] ∧ call.channel = .flush
  /-- The console's fault is reported exactly if a call failed, unless the first to fail was the last
      flush of a run that already had another fault. -/
  console_iff : (∃ fault, result = .error fault ∧ fault.IsConsole) ↔
    ∃ failed further, made.dropWhile Call.succeeded = failed :: further ∧
      ¬ (further = [] ∧ ∃ fault, stop.fault? (limit.getD 0) = some fault ∧ ¬ fault.IsConsole)
  /-- It has the text of the first failure. -/
  text_eq : ∀ pos text, result = .error (.console pos text) →
    ∃ failed further, made.dropWhile Call.succeeded = failed :: further ∧
      m.console.failure failed.channel (m.console.count failed.channel
        + callsOver failed.channel (made.takeWhile Call.succeeded)) = some text
  /-- A fault that stopped the instructions is reported, whatever the last flush did. -/
  unmasked : ∀ fault, stop.fault? (limit.getD 0) = some fault → result = .error fault
  /-- If the last flush of a program that halted fails, the fault is at the halting cell, and the
      stack and the cursor are not reset. -/
  halted : stop = .halted → made.getLast? = some (.failed .flush) →
    (∃ text, result = .error (.console last.cursor.pos text)) ∧
      last.fetch? = some Cell.halt ∧ m'.stack = last.stack ∧ m'.cursor = last.cursor

namespace Machine

variable {m m' m₁ last : Machine} {stop : Stop} {limit : Option Nat} {result : Except Fault Unit}

/-- What the last flush adds to calls that went well. -/
theorem concat_flush {calls : List Call} {closing : Call} (hcalls : Smooth calls)
    (hclosing : closing.channel = .flush) :
    FlushedReads (calls ++ [closing]) ∧
      (calls ++ [closing]).getLast?.map Call.channel = some .flush ∧
      ∀ failed further, (calls ++ [closing]).dropWhile Call.succeeded = failed :: further →
        further = [] ∨ ∃ call, further = [call] ∧ call.channel = .flush := by
  refine ⟨hcalls.flushedReads.concat fun h => ?_, ?_, fun failed further h => Or.inl ?_⟩
  · rw [hclosing] at h
    nomatch h
  · rw [List.getLast?_concat, Option.map_some, hclosing]
  · exact (hcalls.eq_of_dropWhile_concat h).2.1

/-- The end of a run that already has a fault. -/
theorem finish_of_fault? {limit : Nat} {fault : Fault} (h : stop.fault? limit = some fault) :
    last.finish limit stop = (.error fault, { last with console := last.console.flush.2 }) := by
  cases stop with
  | halted => nomatch h
  | faulted fault' => rw [finish_faulted, Option.some.inj h]
  | exhausted => rw [finish_exhausted, Option.some.inj h]

/-- The console's fault was not to be masked: a call failed, and then there was the last flush. -/
theorem protocol_of_breaks {pos : Position} {text : String}
    (hbreaks : m.console.Breaks text last.console)
    (hfin : last.finish (limit.getD 0) (.faulted (.console pos text)) = (result, m')) :
    ∃ made, Protocol limit m (.faulted (.console pos text)) last made result m' := by
  obtain ⟨calls, channel, hcalls, hreads, hlast, htext⟩ := hbreaks
  obtain ⟨closing, hclosing, hflush, -⟩ := last.console.exists_flush
  obtain ⟨rfl, rfl⟩ := Prod.mk.inj hfin
  have hdrop : (calls ++ [Call.failed channel] ++ [closing]).dropWhile Call.succeeded
      = [Call.failed channel, closing] := by
    rw [List.append_assoc, hcalls.dropWhile_append]
    rfl
  have htake : (calls ++ [Call.failed channel] ++ [closing]).takeWhile Call.succeeded = calls := by
    rw [List.append_assoc, hcalls.takeWhile_append]
    exact List.append_nil _
  refine ⟨calls ++ [.failed channel] ++ [closing], ?_⟩
  constructor
  case calls_eq => exact (hlast.append hflush).calls_eq
  case flushedReads => exact hreads.concat fun h => by rw [hclosing] at h; nomatch h
  case last_eq_flush => rw [List.getLast?_concat, Option.map_some, hclosing]
  case after_failure =>
    intro failed further h
    rw [hdrop] at h
    obtain ⟨-, rfl⟩ := List.cons.inj h
    exact Or.inr ⟨closing, rfl, hclosing⟩
  case console_iff =>
    refine ⟨fun _ => ⟨_, _, hdrop, fun h => List.cons_ne_nil _ _ h.1⟩, fun _ => ?_⟩
    exact ⟨_, rfl, pos, text, rfl⟩
  case text_eq =>
    intro pos' text' h
    cases h
    exact ⟨_, _, hdrop, by rw [htake]; exact htext⟩
  case unmasked => exact fun fault h => congrArg Except.error (Option.some.inj h)
  case halted => exact fun h => nomatch h

/-- Another fault is kept, though the last flush may fail. -/
theorem protocol_of_fault {fault : Fault} (hfault : stop.fault? (limit.getD 0) = some fault)
    (hother : ¬ fault.IsConsole) (hserves : m.console.Serves last.console)
    (hfin : last.finish (limit.getD 0) stop = (result, m')) :
    ∃ made, Protocol limit m stop last made result m' := by
  obtain ⟨calls, hcalls, hlast⟩ := hserves
  obtain ⟨closing, hclosing, hflush, -⟩ := last.console.exists_flush
  obtain ⟨hreads, hgetLast, hafter⟩ := concat_flush hcalls hclosing
  rw [finish_of_fault? hfault] at hfin
  obtain ⟨rfl, rfl⟩ := Prod.mk.inj hfin
  refine ⟨calls ++ [closing], (hlast.append hflush).calls_eq, hreads, hgetLast, hafter, ?_, ?_, ?_, ?_⟩
  · constructor
    · rintro ⟨fault', h, hconsole⟩
      cases h
      exact absurd hconsole hother
    · rintro ⟨failed, further, hdrop, hnot⟩
      exact absurd ⟨(hcalls.eq_of_dropWhile_concat hdrop).2.1, fault, hfault, hother⟩ hnot
  · intro pos text h
    cases h
    exact absurd ⟨pos, text, rfl⟩ hother
  · intro fault' h
    rw [hfault] at h
    exact congrArg Except.error (Option.some.inj h)
  · rintro rfl
    nomatch hfault

/-- A program that halted has no fault but that of its last flush. -/
theorem protocol_of_halted (hhalt : last.fetch? = some Cell.halt)
    (hserves : m.console.Serves last.console)
    (hfin : last.finish (limit.getD 0) .halted = (result, m')) :
    ∃ made, Protocol limit m .halted last made result m' := by
  obtain ⟨calls, hcalls, hlast⟩ := hserves
  obtain ⟨closing, hclosing, hflush, hresult⟩ := last.console.exists_flush
  obtain ⟨hreads, hgetLast, hafter⟩ := concat_flush hcalls hclosing
  rw [finish_halted] at hfin
  refine ⟨calls ++ [closing], ?_⟩
  cases hc : last.console.flush.1 with
  | ok u =>
    rw [hc] at hfin hresult
    obtain ⟨rfl, rfl⟩ := Prod.mk.inj hfin
    have hdrop : ∀ {failed further},
        (calls ++ [closing]).dropWhile Call.succeeded ≠ failed :: further := by
      intro failed further h
      rw [(hcalls.eq_of_dropWhile_concat h).2.2] at hresult
      nomatch hresult
    refine ⟨(hlast.append hflush).calls_eq, hreads, hgetLast, hafter, ?_, nofun, nofun, ?_⟩
    · constructor
      · rintro ⟨_, h, -⟩
        nomatch h
      · rintro ⟨_, _, h, -⟩
        exact absurd h hdrop
    · intro _ h
      rw [List.getLast?_concat] at h
      rw [Option.some.inj h] at hresult
      nomatch hresult
  | error text =>
    rw [hc] at hfin hresult
    obtain ⟨rfl, rfl⟩ := Prod.mk.inj hfin
    obtain ⟨rfl, htext⟩ := hresult
    have hdrop : (calls ++ [Call.failed .flush]).dropWhile Call.succeeded = [Call.failed .flush] := by
      rw [hcalls.dropWhile_append]
      rfl
    refine ⟨(hlast.append hflush).calls_eq, hreads, hgetLast, hafter, ?_, ?_, nofun, ?_⟩
    · refine ⟨fun _ => ⟨_, _, hdrop, ?_⟩, fun _ => ⟨_, rfl, _, _, rfl⟩⟩
      rintro ⟨-, fault, h, -⟩
      nomatch h
    · intro pos text' h
      cases h
      refine ⟨_, _, hdrop, ?_⟩
      rw [hcalls.takeWhile_append]
      show m.console.failure .flush (m.console.count .flush + callsOver .flush (calls ++ [])) = _
      rw [List.append_nil, ← hlast.count_eq, ← hlast.failure_eq]
      exact htext
    · exact fun _ _ => ⟨⟨text, rfl⟩, hhalt, rfl, rfl⟩

/-- **The console protocol.**  Whatever the console's schedule of failures, the calls of a run that
    ends keep to the protocol, and its result tells of the first failure just as the protocol says.
    As long as a run goes on no call has failed, and every read came right after a flush. -/
theorem run_protocol (m : Machine) (limit : Option Nat) :
    (∀ result m', m.run limit = some (result, m') →
      ∃ stop last made, m.instructions? limit = some (stop, last) ∧
        Protocol limit m stop last made result m') ∧
    ∀ n m₁, m.reset.after? n = some m₁ →
      ∃ made, m₁.console.calls.toList = m.console.calls.toList ++ made ∧ Smooth made := by
  constructor
  · intro result m' hrun
    rw [run_eq_map] at hrun
    obtain ⟨⟨stop, last⟩, hstop, hfin⟩ := Option.map_eq_some_iff.mp hrun
    obtain ⟨k, left, m₁, -, -, hs⟩ := instructions?_eq_some_iff.mp hstop
    have hprotocol : ∃ made, Protocol limit m stop last made result m' := by
      rcases reports_of_instructions? hstop with ⟨pos, text, rfl, hbreaks⟩ | ⟨hother, hserves⟩
      · exact protocol_of_breaks hbreaks hfin
      · cases stop with
        | halted =>
          cases hs with
          | halted hf => exact protocol_of_halted hf hserves hfin
        | faulted fault =>
          refine protocol_of_fault rfl ?_ hserves hfin
          rintro ⟨pos, text, rfl⟩
          exact hother pos text rfl
        | exhausted => exact protocol_of_fault rfl (fun ⟨_, _, h⟩ => nomatch h) hserves hfin
    obtain ⟨made, hmade⟩ := hprotocol
    exact ⟨stop, last, made, hstop, hmade⟩
  · intro n m₁ h
    obtain ⟨made, hsmooth, htranscript⟩ := serves_of_after? h
    exact ⟨made, htranscript.calls_eq, hsmooth⟩

/-- The program `1.&@` on a console whose second flush, the last one of the run, fails: the line it
    wanted was not there, and that is what is reported. -/
theorem run_protocol_masked :
    let failing : Failures := fun channel k =>
      if channel = .flush ∧ k = 1 then some "broken" else none
    let m := start (Playfield.ofSource "1.&@") (Console.ofLines [] failing)
      (Random.WordSource.ofWords #[])
    ∃ m' stop last made, m.run (some 9)
        = some (.error (.malformedInput ⟨2, 0⟩ .endOfInput), m') ∧
      m'.console.calls = #[.wroteInteger 1, .flushed, .read none, .failed .flush] ∧
      m.instructions? (some 9) = some (stop, last) ∧
      Protocol (some 9) m stop last made (.error (.malformedInput ⟨2, 0⟩ .endOfInput)) m' := by
  intro failing m
  have hfault : (m.runFor 9).1 = .error (.malformedInput ⟨2, 0⟩ .endOfInput) := by decide +kernel
  have hcalls : (m.runFor 9).2.console.calls
      = #[.wroteInteger 1, .flushed, .read none, .failed .flush] := by decide +kernel
  have hrun := run_some_of_runFor hfault
  obtain ⟨stop, last, made, hstop, hprotocol⟩ := (run_protocol m (some 9)).1 _ _ hrun
  exact ⟨_, stop, last, made, hrun, hcalls, hstop, hprotocol⟩

end Machine

end Funge
