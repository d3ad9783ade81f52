/-
  What lies ahead of a run and behind it.

  A run reads its input from the front and writes behind what is there.  So it does not see lines
  queued behind those it reads, nor text and calls from before: machine `n` is machine `m` with such
  a frame, `m.Framed ahead text calls n`, and the two run in lockstep (`lockstep_framed`).  Only where
  the input of the first ends, and that of the second does not, they part.
-/
import Funge.Proofs.Faults
import Funge.Proofs.Lockstep

namespace Funge

/-! ## Consoles -/

/-- Console `d` is console `c` with lines queued behind its own, and with text and calls from
    before. -/
structure Console.Framed (ahead : List String) (text : String) (calls : List Call)
    (c d : Console) : Prop where
  pending_eq : d.pending = c.pending ++ ahead
  output_eq : d.output = text ++ c.output
  calls_eq : d.calls.toList = calls ++ c.calls.toList
  failure_eq : d.failure = c.failure
  count_eq : ∀ channel, d.count channel = c.count channel

namespace Console.Framed

variable {ahead : List String} {text : String} {calls : List Call} {c d : Console}

theorem record (h : Framed ahead text calls c d) (channel : Channel) (call : Call) :
    Framed ahead text calls (c.record channel call) (d.record channel call) := by
  constructor
  · rw [pending_record, pending_record, h.pending_eq]
  · rw [output_record, output_record, h.output_eq]
  · rw [calls_record, calls_record, Array.toList_push, Array.toList_push, h.calls_eq,
      List.append_assoc]
  · rw [failure_record, failure_record, h.failure_eq]
  · intro other
    rw [count_record, count_record, h.count_eq]

/-- An attempt has the same result on both, if its effect has or the schedule lets it fail. -/
theorem attempt (h : Framed ahead text calls c d) {α : Type} (channel : Channel)
    {effect : Console → α × Call × Console}
    (heffect : c.failure channel (c.count channel) = none →
      (effect d).1 = (effect c).1 ∧ (effect d).2.1 = (effect c).2.1 ∧
        Framed ahead text calls (effect c).2.2 (effect d).2.2) :
    (d.attempt channel effect).1 = (c.attempt channel effect).1 ∧
      Framed ahead text calls (c.attempt channel effect).2 (d.attempt channel effect).2 := by
  unfold Console.attempt
  rw [h.failure_eq, h.count_eq]
  cases hfailure : c.failure channel (c.count channel) with
  | some message => exact ⟨rfl, h.record channel _⟩
  | none =>
    obtain ⟨hresult, hcall, hframed⟩ := heffect hfailure
    refine ⟨congrArg Except.ok hresult, ?_⟩
    show Framed ahead text calls ((effect c).2.2.record channel (effect c).2.1)
      ((effect d).2.2.record channel (effect d).2.1)
    rw [hcall]
    exact hframed.record channel _

/-- A read gives the same line, if there is one or the frame has none either; or it fails. -/
theorem readLine (h : Framed ahead text calls c d)
    (hline : c.failure .read (c.count .read) = none → c.pending ≠ [] ∨ ahead = []) :
    d.readLine.1 = c.readLine.1 ∧ Framed ahead text calls c.readLine.2 d.readLine.2 := by
  refine h.attempt .read fun hfailure => ?_
  have hpending : d.pending.head? = c.pending.head? ∧ d.pending.tail = c.pending.tail ++ ahead := by
    rw [h.pending_eq]
    cases hc : c.pending with
    | cons line more => exact ⟨rfl, rfl⟩
    | nil =>
      rw [(hline hfailure).resolve_left (fun hne => hne hc)]
      exact ⟨rfl, rfl⟩
  refine ⟨hpending.1, congrArg Call.read hpending.1, hpending.2, h.output_eq, h.calls_eq,
    h.failure_eq, h.count_eq⟩

theorem writeInteger (h : Framed ahead text calls c d) (v : Cell) :
    (d.writeInteger v).1 = (c.writeInteger v).1 ∧
      Framed ahead text calls (c.writeInteger v).2 (d.writeInteger v).2 := by
  refine h.attempt .write fun _ => ⟨rfl, rfl, h.pending_eq, ?_, h.calls_eq, h.failure_eq, h.count_eq⟩
  show d.output ++ v.decimal = text ++ (c.output ++ v.decimal)
  rw [h.output_eq, String.append_assoc]

theorem writeChar (h : Framed ahead text calls c d) (ch : Char) :
    (d.writeChar ch).1 = (c.writeChar ch).1 ∧
      Framed ahead text calls (c.writeChar ch).2 (d.writeChar ch).2 := by
  refine h.attempt .write fun _ => ⟨rfl, rfl, h.pending_eq, ?_, h.calls_eq, h.failure_eq, h.count_eq⟩
  show d.output.push ch = text ++ c.output.push ch
  rw [h.output_eq, String.push_eq_append, String.push_eq_append, String.append_assoc]

theorem flush (h : Framed ahead text calls c d) :
    d.flush.1 = c.flush.1 ∧ Framed ahead text calls c.flush.2 d.flush.2 :=
  h.attempt .flush fun _ => ⟨rfl, rfl, h⟩

/-- Text and calls that are taken away are text and calls from before. -/
theorem taken (h : Framed ahead text calls c d) :
    Framed ahead (text ++ c.output) (calls ++ c.calls.toList) c.takeOutput.2.takeCalls.2 d := by
  refine ⟨h.pending_eq, ?_, ?_, h.failure_eq, fun channel => ?_⟩
  · rw [h.output_eq]
    exact String.append_empty.symm
  · rw [h.calls_eq]
    exact (List.append_nil _).symm
  · rw [h.count_eq]
    cases channel <;> rfl

/-- A line from ahead may be queued. -/
theorem queue {line : String} (h : Framed (line :: ahead) text calls c d) :
    Framed ahead text calls (c.queue [line]) d := by
  refine ⟨?_, h.output_eq, h.calls_eq, h.failure_eq, fun channel => ?_⟩
  · rw [h.pending_eq, Console.queue, List.append_assoc, List.singleton_append]
  · rw [h.count_eq]
    cases channel <;> rfl

end Console.Framed

/-! ## Machines -/

/-- Machine `n` is machine `m` with a frame around its input and its output. -/
structure Machine.Framed (ahead : List String) (text : String) (calls : List Call)
    (m n : Machine) : Prop where
  field_eq : n.field = m.field
  stack_eq : n.stack = m.stack
  cursor_eq : n.cursor = m.cursor
  chance_eq : n.chance = m.chance
  console : m.console.Framed ahead text calls n.console

/-- The console may be replaced by one with another frame. -/
theorem Machine.Framed.set_console {ahead ahead' : List String} {text text' : String}
    {calls calls' : List Call} {m n : Machine} (h : m.Framed ahead text calls n) {c : Console}
    (hc : c.Framed ahead' text' calls' n.console) :
    Framed ahead' text' calls' { m with console := c } n :=
  ⟨h.field_eq, h.stack_eq, h.cursor_eq, h.chance_eq, hc⟩

/-- The fault of finding no line. -/
def Fault.IsEndOfInput (fault : Fault) : Prop := ∃ pos, fault = .malformedInput pos .endOfInput

open Machine Exec

variable {ahead : List String} {text : String} {calls : List Call}

/-- Reading without a queued line, on a console that does not fail the call, is the end of input. -/
theorem Exec.lineRead_ends {m : Machine} (hpending : m.console.pending = [])
    (hfailure : m.console.failure .read (m.console.count .read) = none) :
    Ends lineRead (fun _ _ => False) (fun fault _ => fault.IsEndOfInput) m := by
  have hread : m.console.readLine = (.ok none, m.console.readLine.2) := by
    rw [Console.readLine, Console.attempt, hfailure, hpending]
    rfl
  refine ends_bind.mpr (ends_consult.mpr ⟨fun line console hc => ?_, fun text console hc => ?_⟩)
  · rw [hread] at hc
    obtain rfl := Except.ok.inj (Prod.mk.inj hc).1
    exact ⟨_, rfl⟩
  · rw [hread] at hc
    simp at hc

theorem Machine.framed_iff (m n : Machine) :
    m.Framed ahead text calls n ↔ n.field = m.field ∧ n.stack = m.stack ∧ n.cursor = m.cursor ∧
      n.chance = m.chance ∧ m.console.Framed ahead text calls n.console :=
  ⟨fun h => ⟨h.field_eq, h.stack_eq, h.cursor_eq, h.chance_eq, h.console⟩,
    fun ⟨hfield, hstack, hcursor, hchance, hc⟩ => ⟨hfield, hstack, hcursor, hchance, hc⟩⟩

/-- A machine does the same with a frame, until its own input ends. -/
theorem lockstep_framed (ahead : List String) (text : String) (calls : List Call) :
    Lockstep (Framed ahead text calls) (fun fault => ahead ≠ [] ∧ fault.IsEndOfInput) := by
  refine lockstep_of_consoles framed_iff (fun {m n} h => ?_) (fun v h => h.writeInteger v)
    (fun ch h => h.writeChar ch) Console.Framed.flush
  refine (follows_call framed_iff h h.console.flush).bind fun _ m₁ n₁ h₁ => ?_
  show Follows _ _ lineRead lineRead m₁ n₁
  by_cases hline : m₁.console.failure .read (m₁.console.count .read) = none →
      m₁.console.pending ≠ [] ∨ ahead = []
  · exact follows_lineRead (fun _ _ h => h.cursor_eq)
      (follows_call framed_iff h₁ (h₁.console.readLine hline))
  · -- only the second machine has a line, so the first raises the exempt fault
    rw [Classical.not_imp, not_or] at hline
    obtain ⟨hfailure, hpending, hahead⟩ := hline
    exact (lineRead_ends (Classical.not_not.mp hpending) hfailure).mono (fun _ _ h => h.elim)
      fun _ _ h => Or.inl ⟨hahead, h⟩

end Funge
