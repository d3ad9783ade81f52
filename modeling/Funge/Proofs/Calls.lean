/-
  What is said to a console.

  `c.Transcript calls d` says that the calls were made of console `c` one after the other, each
  going the way the schedule of failures and the queue have it, and left console `d`.  A transcript
  is all there is to know: what the console recorded, how often each channel was called and with
  what text a call failed are read off it.

  Two kinds of transcript are told apart.  In a `Smooth` one no call failed and every read came right
  after a flush; a console that `Breaks` was served so far and then failed a call, the last one.

  One instruction says little to the console: nothing, one write, or a flush and a read, and it stops
  where a call fails.  `Console.Hears` lists what the console may hear of it, with the fault that goes
  with it (`Exec.dispatch_hears`).  So an obeyed instruction serves the console (`c.Serves d`), and one
  that raises the console's fault leaves it broken (`Exec.dispatch_reports`).
-/
import Funge.Proofs.Action

namespace Funge

/-! ## Calls -/

namespace Call

/-- The channel a call goes over. -/
def channel : Call → Channel
  | flushed => .flush
  | read _ => .read
  | wroteInteger _ | wroteChar _ => .write
  | failed channel => channel

/-- Whether a call did what it was made for. -/
def succeeded : Call → Bool
  | failed _ => false
  | _ => true

end Call

/-- The number of calls over a channel. -/
def callsOver (channel : Channel) (calls : List Call) : Nat :=
  calls.countP fun call => call.channel = channel

/-- Every read comes right after a flush that succeeded. -/
def FlushedReads (calls : List Call) : Prop :=
  ∀ before call after, calls = before ++ call :: after → call.channel = .read →
    before.getLast? = some .flushed

/-- Calls that all succeeded, with every read right after a flush. -/
structure Smooth (calls : List Call) : Prop where
  succeeded : ∀ call ∈ calls, call.succeeded = true
  flushedReads : FlushedReads calls

/-- Every read of a longer sequence comes right after a flush, if every one of its beginning does and
    what is added does not itself begin with a read. -/
theorem FlushedReads.append {calls more : List Call} (h : FlushedReads calls)
    (hmore : ∀ before call after, more = before ++ call :: after → call.channel = .read →
      (calls ++ before).getLast? = some .flushed) : FlushedReads (calls ++ more) := by
  intro before call after heq hread
  rcases List.append_eq_append_iff.mp heq with ⟨mid, hbefore, hmid⟩ | ⟨mid, hcalls, hmid⟩
  · -- the read is among the calls added
    rw [hbefore]
    exact hmore mid call after hmid hread
  · cases mid with
    | nil =>
      rw [List.append_nil] at hcalls
      rw [← hcalls, ← List.append_nil calls]
      exact hmore [] call after hmid.symm hread
    | cons c mid =>
      obtain ⟨rfl, -⟩ := List.cons.inj hmid
      exact h before call mid hcalls hread

/-- One more call. -/
theorem FlushedReads.concat {calls : List Call} {call : Call} (h : FlushedReads calls)
    (hcall : call.channel = .read → calls.getLast? = some .flushed) :
    FlushedReads (calls ++ [call]) := by
  refine h.append fun before other after heq hread => ?_
  obtain ⟨rfl, hsingle⟩ := (List.singleton_eq_append_iff.mp heq).resolve_right (by simp)
  obtain ⟨rfl, -⟩ := List.cons.inj hsingle
  rw [List.append_nil]
  exact hcall hread

namespace Smooth

theorem nil : Smooth [] := by
  refine ⟨fun _ h => absurd h List.not_mem_nil, fun before call after h => ?_⟩
  exact absurd h.symm (by simp)

theorem concat {calls : List Call} {call : Call} (h : Smooth calls)
    (hcall : call.succeeded = true)
    (hread : call.channel = .read → calls.getLast? = some .flushed) : Smooth (calls ++ [call]) := by
  refine ⟨fun other hother => ?_, h.flushedReads.concat hread⟩
  rcases List.mem_append.mp hother with hother | hother
  · exact h.succeeded other hother
  · rw [List.mem_singleton.mp hother, hcall]

/-- A flush alone is smooth. -/
theorem flushed : Smooth [.flushed] := by
  have hconcat : Smooth ([] ++ [.flushed]) := nil.concat rfl nofun
  exact hconcat

theorem append {calls more : List Call} (h : Smooth calls) (h' : Smooth more) :
    Smooth (calls ++ more) := by
  refine ⟨fun call hc => ?_, h.flushedReads.append fun before call after hmore hread => ?_⟩
  · rcases List.mem_append.mp hc with hc | hc
    · exact h.succeeded call hc
    · exact h'.succeeded call hc
  · rw [List.getLast?_append, h'.flushedReads before call after hmore hread]
    rfl

end Smooth

/-! ## Transcripts -/

namespace Console

/-- The console after a call that went as recorded. -/
def after (c : Console) : Call → Console
  | .flushed => c.record .flush .flushed
  | .read line => { c with pending := c.pending.tail }.record .read (.read line)
  | .wroteInteger v => { c with output := c.output ++ v.decimal }.record .write (.wroteInteger v)
  | .wroteChar ch => { c with output := c.output.push ch }.record .write (.wroteChar ch)
  | .failed channel => c.record channel (.failed channel)

/-- Whether the next call can go as recorded: the schedule decides whether it fails, and the queue
    what a read gives. -/
def Allows (c : Console) (call : Call) : Prop :=
  (c.failure call.channel (c.count call.channel) = none ↔ call.succeeded = true) ∧
    ∀ line, call = .read line → line = c.pending.head?

/-- The calls were made of the first console, one after the other, and left the second. -/
inductive Transcript : Console → List Call → Console → Prop
  | nil {c : Console} : Transcript c [] c
  | cons {c d : Console} {call : Call} {calls : List Call} (h : c.Allows call)
      (rest : Transcript (c.after call) calls d) : Transcript c (call :: calls) d

variable {c d e : Console} {call : Call} {calls more : List Call}

@[simp] theorem calls_after (c : Console) (call : Call) :
    (c.after call).calls = c.calls.push call := by
  cases call <;> simp [after]

@[simp] theorem failure_after (c : Console) (call : Call) :
    (c.after call).failure = c.failure := by
  cases call <;> simp [after]

theorem count_after (c : Console) (call : Call) (channel : Channel) :
    (c.after call).count channel = c.count channel + if call.channel = channel then 1 else 0 := by
  cases call with
  | flushed => exact count_record c .flush channel _
  | read line => exact count_record { c with pending := c.pending.tail } .read channel _
  | wroteInteger v => exact count_record { c with output := c.output ++ v.decimal } .write channel _
  | wroteChar ch => exact count_record { c with output := c.output.push ch } .write channel _
  | failed other => exact count_record c other channel _

namespace Transcript

theorem single (h : c.Allows call) : Transcript c [call] (c.after call) := .cons h .nil

theorem append (h : Transcript c calls d) (h' : Transcript d more e) :
    Transcript c (calls ++ more) e := by
  induction h with
  | nil => exact h'
  | cons hcall _ ih => exact .cons hcall (ih h')

/-- The console has recorded the calls. -/
theorem calls_eq (h : Transcript c calls d) : d.calls.toList = c.calls.toList ++ calls := by
  induction h with
  | nil => exact (List.append_nil _).symm
  | cons _ _ ih => rw [ih, calls_after, Array.toList_push, List.append_assoc, List.singleton_append]

/-- The schedule of failures stays. -/
theorem failure_eq (h : Transcript c calls d) : d.failure = c.failure := by
  induction h with
  | nil => rfl
  | cons _ _ ih => rw [ih, failure_after]

/-- Each channel has counted its calls. -/
theorem count_eq (h : Transcript c calls d) (channel : Channel) :
    d.count channel = c.count channel + callsOver channel calls := by
  induction h with
  | nil => rfl
  | cons _ _ ih =>
    rw [ih, count_after, callsOver, callsOver, List.countP_cons]
    simp only [decide_eq_true_eq]
    omega

end Transcript

/-! ## What an instruction says -/

/-- Calls without an incident lead from the first console to the second. -/
def Serves (c d : Console) : Prop := ∃ calls, Smooth calls ∧ Transcript c calls d

/-- The console was served, and then a call failed with the text. -/
def Breaks (c : Console) (text : String) (d : Console) : Prop :=
  ∃ calls channel, Smooth calls ∧ FlushedReads (calls ++ [.failed channel]) ∧
    Transcript c (calls ++ [.failed channel]) d ∧
    c.failure channel (c.count channel + callsOver channel calls) = some text

@[simp] theorem serves_self (c : Console) : c.Serves c := ⟨[], .nil, .nil⟩

theorem Serves.trans (h : c.Serves d) (h' : d.Serves e) : c.Serves e := by
  obtain ⟨calls, hcalls, hd⟩ := h
  obtain ⟨more, hmore, he⟩ := h'
  exact ⟨calls ++ more, hcalls.append hmore, hd.append he⟩

theorem Serves.breaks {text : String} (h : c.Serves d) (h' : d.Breaks text e) :
    c.Breaks text e := by
  obtain ⟨calls, hcalls, hd⟩ := h
  obtain ⟨more, channel, hmore, hreads, he, htext⟩ := h'
  refine ⟨calls ++ more, channel, hcalls.append hmore, ?_, ?_, ?_⟩
  · rw [List.append_assoc]
    refine hcalls.flushedReads.append fun before call after heq hread => ?_
    rw [List.getLast?_append, hreads before call after heq hread]
    rfl
  · rw [List.append_assoc]
    exact hd.append he
  · rw [hd.failure_eq, hd.count_eq] at htext
    rw [← htext, callsOver, callsOver, callsOver, List.countP_append, Nat.add_assoc]

section attempts

variable {α : Type} {channel : Channel} {effect : Console → α × Call × Console} {x : α}
  {text : String}

/-- A call that succeeds was not to fail, and leaves the console it is said to leave. -/
theorem transcript_of_attempt (hcall : (effect c).2.1 = call) (hchannel : call.channel = channel)
    (hsucceeded : call.succeeded = true) (hread : ∀ line, call = .read line → line = c.pending.head?)
    (hafter : (effect c).2.2.record channel call = c.after call)
    (h : c.attempt channel effect = (.ok x, d)) : Transcript c [call] d := by
  unfold attempt at h
  split at h
  · nomatch h
  · rename_i hnone
    obtain rfl : c.after call = d := by rw [← (Prod.mk.inj h).2, hcall, hafter]
    rw [← hchannel] at hnone
    exact .single ⟨⟨fun _ => hsucceeded, fun _ => hnone⟩, hread⟩

/-- A call that fails has the text of the schedule, and nothing else happens. -/
theorem of_attempt_error (h : c.attempt channel effect = (.error text, d)) :
    c.failure channel (c.count channel) = some text ∧ Transcript c [.failed channel] d := by
  unfold attempt at h
  split at h
  · rename_i message hsome
    obtain ⟨ht, rfl⟩ := Prod.mk.inj h
    rw [← Except.error.inj ht]
    refine ⟨hsome, .single ⟨⟨fun hnone => ?_, fun h => nomatch h⟩, fun _ h => nomatch h⟩⟩
    rw [show (Call.failed channel).channel = channel from rfl, hsome] at hnone
    nomatch hnone
  · nomatch h

end attempts

theorem transcript_of_flush (h : c.flush = (.ok (), d)) : Transcript c [.flushed] d :=
  transcript_of_attempt rfl rfl rfl nofun rfl h

theorem transcript_of_writeInteger {v : Cell} (h : c.writeInteger v = (.ok (), d)) :
    Transcript c [.wroteInteger v] d :=
  transcript_of_attempt rfl rfl rfl nofun rfl h

theorem transcript_of_writeChar {ch : Char} (h : c.writeChar ch = (.ok (), d)) :
    Transcript c [.wroteChar ch] d :=
  transcript_of_attempt rfl rfl rfl nofun rfl h

/-- The line that is recorded is the one that was given. -/
theorem transcript_of_readLine {line : Option String} (h : c.readLine = (.ok line, d)) :
    Transcript c [.read line] d := by
  have hline : line = c.pending.head? := by
    unfold readLine attempt at h
    split at h
    · nomatch h
    · exact (Except.ok.inj (Prod.mk.inj h).1).symm
  subst hline
  exact transcript_of_attempt rfl rfl rfl (fun _ h => (Call.read.inj h).symm) rfl h

end Console

/-- The line that was refused.  At the end of input there is none. -/
def InputFault.line? : InputFault → Option String
  | endOfInput => none
  | notAnInteger line => some line
  | emptyLine => some ""

/-- Whether the fault tells of a console call. -/
def Fault.ofCall : Fault → Bool
  | .console _ _ | .malformedInput _ _ => true
  | .stackUnderflow _ _ | .outOfField _ _ | .divisionByZero _ _ | .stepLimit _ => false

/-- What a console hears of one instruction, told from the fault the instruction raises, if any. -/
inductive Console.Hears (c : Console) : Option Fault → Console → Prop
  /-- Most instructions say nothing, and their faults do not tell of calls. -/
  | nothing {fault? : Option Fault} (h : fault?.any Fault.ofCall = false) : c.Hears fault? c
  /-- Something was written. -/
  | wrote {call : Call} {d : Console} (hchannel : call.channel = .write) (hcall : call.succeeded = true)
      (h : c.Transcript [call] d) : c.Hears none d
  /-- A line was asked for, and it served. -/
  | gave {line : String} {d : Console} (h : c.Transcript [.flushed, .read (some line)] d) :
      c.Hears none d
  /-- A line was asked for, and it was refused, or there was none. -/
  | refused {pos : Position} {reason : InputFault} {d : Console}
      (h : c.Transcript [.flushed, .read reason.line?] d) :
      c.Hears (some (.malformedInput pos reason)) d
  /-- A call failed: a read after its flush, or any other call as the first one. -/
  | failed {pos : Position} {text : String} {calls : List Call} {channel : Channel} {d : Console}
      (hcalls : calls = [] ∧ channel ≠ .read ∨ calls = [.flushed] ∧ channel = .read)
      (h : c.Transcript (calls ++ [.failed channel]) d)
      (htext : c.failure channel (c.count channel + callsOver channel calls) = some text) :
      c.Hears (some (.console pos text)) d

/-- What a failing instruction said to the console: a call failed exactly if the fault is the
    console's, and the fault carries its text. -/
def Fault.Reports (c d : Console) : Fault → Prop
  | .console _ text => c.Breaks text d
  | _ => c.Serves d

namespace Console.Hears

variable {c d : Console} {fault : Fault}

@[simp] theorem none_self (c : Console) : c.Hears none c := .nothing rfl

@[simp] theorem stackUnderflow_self (c : Console) (pos : Position) (op : Char) :
    c.Hears (some (.stackUnderflow pos op)) c := .nothing rfl

@[simp] theorem divisionByZero_self (c : Console) (pos : Position) (op : Char) :
    c.Hears (some (.divisionByZero pos op)) c := .nothing rfl

@[simp] theorem outOfField_self (c : Console) (pos square : Position) :
    c.Hears (some (.outOfField pos square)) c := .nothing rfl

/-- A read may follow a flush. -/
theorem smooth_read (line : Option String) : Smooth [.flushed, .read line] :=
  Smooth.flushed.concat rfl fun _ => rfl

/-- An instruction that is obeyed serves the console. -/
theorem serves (h : c.Hears none d) : c.Serves d := by
  cases h with
  | nothing => exact serves_self c
  | wrote hchannel hcall h =>
    refine ⟨[] ++ [_], Smooth.nil.concat hcall fun hread => ?_, h⟩
    rw [hchannel] at hread
    nomatch hread
  | gave h => exact ⟨_, smooth_read _, h⟩

/-- One that fails serves it too, unless the fault is the console's. -/
theorem reports (h : c.Hears (some fault) d) : fault.Reports c d := by
  cases h with
  | nothing h =>
    cases fault with
    | console | malformedInput => nomatch h
    | stackUnderflow | outOfField | divisionByZero | stepLimit => exact serves_self c
  | refused h => exact ⟨_, smooth_read _, h⟩
  | failed hcalls h htext =>
    rcases hcalls with ⟨rfl, hchannel⟩ | ⟨rfl, rfl⟩
    · exact ⟨[], _, .nil, Smooth.nil.flushedReads.concat fun hread => absurd hread hchannel, h, htext⟩
    · exact ⟨_, .read, .flushed, Smooth.flushed.flushedReads.concat fun _ => rfl, h, htext⟩

end Console.Hears

namespace Exec

variable {m m' : Machine} {op : Char}

/-- Writing is one call, and it may fail. -/
theorem consult_hears {call : Console → Except String Unit × Console} (wrote : Call)
    (hchannel : wrote.channel = .write) (hwrote : wrote.succeeded = true)
    (hok : ∀ d, call m.console = (.ok (), d) → m.console.Transcript [wrote] d)
    (herror : ∀ text d, call m.console = (.error text, d) →
      m.console.failure .write (m.console.count .write) = some text ∧
        m.console.Transcript [.failed .write] d) :
    Ends (consult call) (fun _ m' => m.console.Hears none m'.console)
      (fun fault m' => m.console.Hears (some fault) m'.console) m := by
  refine ends_consult.mpr ⟨fun _ d hd => .wrote hchannel hwrote (hok d hd), fun text d hd => ?_⟩
  obtain ⟨htext, h⟩ := herror text d hd
  exact .failed (Or.inl ⟨rfl, by decide⟩) h htext

/-- Reading a line is a flush and a read, and each of them may fail. -/
theorem readLine_hears (m : Machine) :
    Ends readLine (fun line m' => m.console.Transcript [.flushed, .read (some line)] m'.console)
      (fun fault m' => m.console.Hears (some fault) m'.console) m := by
  refine ends_readLine.mpr ⟨fun d hflush => ?_, fun text d hflush => ?_⟩
  · have hd := Console.transcript_of_flush hflush
    refine ⟨fun line e hread => ?_, fun e hread => ?_, fun text e hread => ?_⟩
    · exact hd.append (Console.transcript_of_readLine hread)
    · exact .refused (hd.append (Console.transcript_of_readLine hread))
    · obtain ⟨htext, he⟩ := Console.of_attempt_error hread
      refine .failed (Or.inr ⟨rfl, rfl⟩) (hd.append he) ?_
      rw [← hd.count_eq, ← hd.failure_eq]
      exact htext
  · obtain ⟨htext, hd⟩ := Console.of_attempt_error hflush
    exact .failed (Or.inl ⟨rfl, by decide⟩) hd htext

/-- What the console hears of an instruction, whether it is obeyed or fails. -/
theorem perform_hears (op : Char) (i : Instruction) (m : Machine) :
    Ends (perform op i) (fun _ m' => m.console.Hears none m'.console)
      (fun fault m' => m.console.Hears (some fault) m'.console) m := by
  cases i with
  | push | go | goRandom | toggleString | skip | halt | nothing | not | greater | branchHorizontal
  | branchVertical | duplicate | swap | discard | load | store => simp [perform]
  | arith => simp [ends_arith]
  | writeInteger =>
    refine ends_bind.mpr (ends_pop.mpr ⟨fun v rest _ => ?_, fun _ => .nothing rfl⟩)
    exact consult_hears (m := { m with stack := rest }) (.wroteInteger v) rfl rfl
      (fun _ => Console.transcript_of_writeInteger) fun _ _ => Console.of_attempt_error
  | writeChar =>
    refine ends_bind.mpr (ends_pop.mpr ⟨fun v rest _ => ?_, fun _ => .nothing rfl⟩)
    exact consult_hears (m := { m with stack := rest }) (.wroteChar v.toChar) rfl rfl
      (fun _ => Console.transcript_of_writeChar) fun _ _ => Console.of_attempt_error
  | readInteger =>
    refine ends_readInteger.mpr ((readLine_hears m).mono (fun line m' h => ?_) fun _ _ h => h)
    have hline : m.console.Transcript [.flushed, .read (InputFault.notAnInteger line).line?]
        m'.console := h
    exact ⟨fun _ _ => .gave h, fun _ => .refused hline⟩
  | readChar =>
    refine ends_readChar.mpr ((readLine_hears m).mono (fun line m' h => ?_) fun _ _ h => h)
    refine ⟨fun _ _ _ => .gave h, fun hempty => ?_⟩
    obtain rfl := String.toList_eq_nil_iff.mp hempty
    have hline : m.console.Transcript [.flushed, .read InputFault.emptyLine.line?] m'.console := h
    exact .refused hline

/-- What the console hears of a dispatch. -/
theorem dispatch_hears (v : Cell) (m : Machine) :
    Ends (dispatch v) (fun _ m' => m.console.Hears none m'.console)
      (fun fault m' => m.console.Hears (some fault) m'.console) m := by
  rw [ends_dispatch]
  split
  · exact .nothing rfl
  · exact perform_hears v.toChar (Instruction.decode v) m

/-- What obeying a cell says to the console. -/
theorem dispatch_reports (v : Cell) (m : Machine) :
    Ends (dispatch v) (fun _ m' => m.console.Serves m'.console)
      (fun fault m' => fault.Reports m.console m'.console) m :=
  (dispatch_hears v m).mono (fun _ _ h => h.serves) fun _ _ h => h.reports

end Exec

end Funge
