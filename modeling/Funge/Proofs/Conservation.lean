/-
  No line is lost, and no text.

  The calls made of a console tell which lines it gave (`linesRead`) and what was written to it
  (`textWritten`).  With what was queued and what was taken in between they balance:

  1. Over a transcript the lines that were queued are those that were read, followed by those still
     queued, and the text there is what there was, followed by what was written.  A read without a line
     found the queue empty (`Transcript.lines_eq`, `Transcript.output_eq`, `Transcript.endOfInput`).
  2. Everything a run does to its console is one transcript, up to each of its moments.  It holds a
     read without a line only where the run ends in that fault, and a refused line is the last one it
     read (`transcript_of_after?`, `transcript_of_run`).
  3. So the account of a history balances, at every moment of the run that comes after it
     (`history_conserves`).
-/
import Funge.Proofs.History
import Funge.Proofs.Protocol

namespace Funge

/-! ## What calls tell -/

namespace Call

/-- The line a read gave. -/
def line? : Call → Option String
  | read line => line
  | _ => none

/-- The text a write added. -/
def text : Call → String
  | wroteInteger v => v.decimal
  | wroteChar c => String.singleton c
  | _ => ""

end Call

/-- The lines that were read, in order. -/
def linesRead (calls : List Call) : List String := calls.filterMap Call.line?

/-- The text that was written, in order. -/
def textWritten (calls : List Call) : String := String.join (calls.map Call.text)

@[simp] theorem linesRead_append (calls more : List Call) :
    linesRead (calls ++ more) = linesRead calls ++ linesRead more := List.filterMap_append

@[simp] theorem textWritten_append (calls more : List Call) :
    textWritten (calls ++ more) = textWritten calls ++ textWritten more := by
  rw [textWritten, List.map_append, String.join_append]
  rfl

/-! ## Transcripts balance -/

namespace Console

variable {c d : Console} {call : Call} {calls more : List Call}

/-- The queue of a console is what a call read from it, and what it left. -/
theorem Allows.lines_eq (h : c.Allows call) :
    c.pending = linesRead [call] ++ (c.after call).pending := by
  cases call with
  | flushed | wroteInteger | wroteChar | failed => simp [after, linesRead, Call.line?]
  | read line =>
    obtain rfl := h.2 line rfl
    show c.pending = linesRead [.read c.pending.head?] ++ c.pending.tail
    cases c.pending <;> rfl

/-- The text after a call is the text before it and what the call wrote. -/
theorem output_after (c : Console) (call : Call) :
    (c.after call).output = c.output ++ textWritten [call] := by
  cases call <;> simp [after, textWritten, Call.text]

namespace Transcript

/-- What was queued was read or is still queued. -/
theorem lines_eq (h : Transcript c calls d) : c.pending = linesRead calls ++ d.pending := by
  induction h with
  | nil => rfl
  | @cons c d call calls hcall rest ih =>
    rw [hcall.lines_eq, ih, ← List.append_assoc, ← linesRead_append, List.singleton_append]

/-- What was written is there, behind what was there before. -/
theorem output_eq (h : Transcript c calls d) : d.output = c.output ++ textWritten calls := by
  induction h with
  | nil => exact String.append_empty.symm
  | @cons c d call calls hcall rest ih =>
    rw [ih, output_after, String.append_assoc, ← textWritten_append, List.singleton_append]

/-- A transcript may be cut anywhere. -/
theorem split (h : Transcript c (calls ++ more) d) :
    ∃ e, Transcript c calls e ∧ Transcript e more d := by
  induction calls generalizing c with
  | nil => exact ⟨c, .nil, h⟩
  | cons call calls ih =>
    cases h with
    | cons hcall rest =>
      obtain ⟨e, he, hrest⟩ := ih rest
      exact ⟨e, .cons hcall he, hrest⟩

/-- A read without a line came after all that were queued. -/
theorem endOfInput (h : Transcript c (calls ++ .read none :: more) d) :
    linesRead calls = c.pending := by
  obtain ⟨e, he, hrest⟩ := h.split
  cases hrest with
  | cons hread =>
    have hnone : e.pending.head? = none := (hread.2 none rfl).symm
    rw [he.lines_eq, List.head?_eq_none_iff.mp hnone, List.append_nil]

end Transcript

/-! ## What one instruction adds -/

/-- A read without a line is the end of input, and a line that is refused is the last one read. -/
theorem Hears.exists_transcript {fault? : Option Fault} (h : c.Hears fault? d) :
    ∃ calls, Transcript c calls d ∧
      (.read none ∈ calls → ∃ pos, fault? = some (.malformedInput pos .endOfInput)) ∧
      ∀ pos reason, fault? = some (.malformedInput pos reason) →
        calls = [.flushed, .read reason.line?] := by
  cases h with
  | nothing h =>
    refine ⟨[], .nil, fun hread => absurd hread List.not_mem_nil, ?_⟩
    rintro pos reason rfl
    nomatch h
  | wrote hchannel _ h =>
    refine ⟨_, h, fun hread => ?_, nofun⟩
    rw [← List.mem_singleton.mp hread] at hchannel
    nomatch hchannel
  | gave h => exact ⟨_, h, fun hread => by simp at hread, nofun⟩
  | @refused pos reason _ h =>
    refine ⟨_, h, fun hread => ⟨pos, ?_⟩, ?_⟩
    · cases reason with
      | endOfInput => rfl
      | notAnInteger | emptyLine => simp [InputFault.line?] at hread
    · rintro _ _ h
      cases h
      rfl
  | failed hcalls h =>
    refine ⟨_, h, fun hread => ?_, nofun⟩
    rcases hcalls with ⟨rfl, -⟩ | ⟨rfl, -⟩
    · simp at hread
    · simp at hread

end Console

/-! ## What a run adds -/

namespace Machine

variable {m m' m₁ : Machine} {stop : Stop} {left n : Nat}

/-- As instructions are obeyed the console hears of lines and of text, and of no end of input. -/
theorem transcript_of_after? (h : m.after? n = some m') :
    ∃ made, m.console.Transcript made m'.console ∧ .read none ∉ made := by
  induction n generalizing m with
  | zero =>
    obtain rfl := Option.some.inj h
    exact ⟨[], .nil, List.not_mem_nil⟩
  | succ n ih =>
    obtain ⟨m₁, hstep, hrest⟩ := after?_succ_eq_some_iff.mp h
    obtain ⟨v, -, -, hd⟩ := step?_eq_some_iff.mp hstep
    obtain ⟨calls, hcalls, hnone, -⟩ := ((Exec.dispatch_hears v m).of_ok hd).exists_transcript
    obtain ⟨made, hmade, hlater⟩ := ih hrest
    refine ⟨calls ++ made, hcalls.append hmade, fun hread => ?_⟩
    rcases List.mem_append.mp hread with hread | hread
    · obtain ⟨pos, hpos⟩ := hnone hread
      nomatch hpos
    · exact hlater hread

/-- Where instructions stop the console hears of the fault they have by then. -/
theorem Stops.hears (h : Stops left m stop m') (limit : Nat) :
    m.console.Hears (stop.fault? limit) m'.console := by
  cases h with
  | outside => exact .nothing rfl
  | halted => exact .nothing rfl
  | exhausted => exact .nothing rfl
  | faulted _ _ hd => exact (Exec.dispatch_hears _ m).of_error hd

/-- A refused line is not masked, and the last flush refuses none. -/
theorem finish_eq_malformedInput_iff {limit : Nat} {pos : Position} {reason : InputFault} :
    (m.finish limit stop).1 = .error (.malformedInput pos reason)
      ↔ stop.fault? limit = some (.malformedInput pos reason) := by
  cases hfault : stop.fault? limit with
  | some fault =>
    rw [finish_of_fault? hfault]
    simp
  | none =>
    cases stop with
    | halted =>
      rw [finish_halted]
      cases m.console.flush.1 <;> simp
    | faulted | exhausted => nomatch hfault

/-- Everything a run does to its console.  A read without a line ends it, and a line that is refused is
    the last one read, before the last flush. -/
theorem transcript_of_run {limit : Option Nat} {result : Except Fault Unit}
    (h : m.run limit = some (result, m')) :
    ∃ made, m.console.Transcript made m'.console ∧
      (.read none ∈ made → ∃ pos, result = .error (.malformedInput pos .endOfInput)) ∧
      ∀ pos reason, result = .error (.malformedInput pos reason) →
        ∃ earlier closing, closing.channel = .flush ∧
          made = earlier ++ [.flushed, .read reason.line?, closing] := by
  obtain ⟨k, left, m₁, stop, m₂, -, hk, hs, hfin⟩ := run_eq_some_iff.mp h
  obtain ⟨calls, hcalls, hnone⟩ := transcript_of_after? hk
  obtain ⟨last, hlast, hend, hrefused⟩ := (hs.hears (limit.getD 0)).exists_transcript
  obtain ⟨closing, hclosing, hflush, -⟩ := m₂.console.exists_flush
  have hresult : (m₂.finish (limit.getD 0) stop).1 = result := congrArg Prod.fst hfin
  have hconsole : m'.console = m₂.console.flush.2 := by
    rw [← console_finish, hfin]
  rw [hconsole]
  refine ⟨calls ++ (last ++ [closing]), hcalls.append (hlast.append hflush), fun hread => ?_,
    fun pos reason hreason => ?_⟩
  · rw [List.mem_append, List.mem_append, List.mem_singleton] at hread
    rcases hread with hread | hread | rfl
    · exact absurd hread hnone
    · obtain ⟨pos, hpos⟩ := hend hread
      exact ⟨pos, hresult.symm.trans (finish_eq_malformedInput_iff.mpr hpos)⟩
    · nomatch hclosing
  · have hlines := hrefused pos reason (finish_eq_malformedInput_iff.mp (hresult.trans hreason))
    exact ⟨calls, closing, hclosing, by rw [hlines]; rfl⟩

end Machine

/-! ## Accounts of a history -/

namespace Event

/-- The lines an event queued. -/
def lines : Event → List String
  | queued lines => lines
  | ran _ _ _ | took _ _ => []

/-- The text an event took. -/
def text : Event → String
  | took output _ => output
  | ran _ _ _ | queued _ => ""

/-- The calls an event took. -/
def calls : Event → List Call
  | took _ calls => calls.toList
  | ran _ _ _ | queued _ => []

end Event

/-- All lines ever queued in a history. -/
def linesQueued (events : List Event) : List String := events.flatMap Event.lines

/-- The texts taken in a history, one after the other. -/
def textTaken (events : List Event) : String := String.join (events.map Event.text)

/-- The calls taken in a history. -/
def callsTaken (events : List Event) : List Call := events.flatMap Event.calls

@[simp] theorem linesQueued_concat (events : List Event) (event : Event) :
    linesQueued (events ++ [event]) = linesQueued events ++ event.lines := by
  simp [linesQueued]

@[simp] theorem textTaken_concat (events : List Event) (event : Event) :
    textTaken (events ++ [event]) = textTaken events ++ event.text := by
  simp [textTaken]

@[simp] theorem callsTaken_concat (events : List Event) (event : Event) :
    callsTaken (events ++ [event]) = callsTaken events ++ event.calls := by
  simp [callsTaken]

/-- The calls `made` of the console through a history of `m`, and up to machine `s`, account for every
    line and every text. -/
structure Accounts (m : Machine) (events : List Event) (made : List Call) (s : Machine) : Prop where
  /-- These are the calls: what was recorded before, what was taken and what is recorded now. -/
  calls_eq : m.console.calls.toList ++ made = callsTaken events ++ s.console.calls.toList
  /-- The lines read, followed by those still queued, are all lines ever queued. -/
  lines_eq : linesRead made ++ s.console.pending = m.console.pending ++ linesQueued events
  /-- The texts taken, followed by the text there is, are all that was written. -/
  text_eq : textTaken events ++ s.console.output = m.console.output ++ textWritten made

namespace Accounts

variable {m s s' : Machine} {events : List Event} {made more : List Call}

theorem start (m : Machine) : Accounts m [] [] m :=
  ⟨List.append_nil _, (List.append_nil _).symm, by simp [textTaken, textWritten]⟩

/-- Calls are accounted for as they are made. -/
theorem transcript (h : Accounts m events made s) (hmore : s.console.Transcript more s'.console) :
    Accounts m events (made ++ more) s' := by
  constructor
  · rw [hmore.calls_eq, ← List.append_assoc, h.calls_eq, List.append_assoc]
  · rw [linesRead_append, List.append_assoc, ← hmore.lines_eq, h.lines_eq]
  · rw [hmore.output_eq, ← String.append_assoc, h.text_eq, textWritten_append, String.append_assoc]

/-- An event is accounted for by what it queues and what it takes. -/
theorem event (h : Accounts m events made s) {event : Event}
    (hcalls : event.calls ++ s'.console.calls.toList = s.console.calls.toList)
    (hlines : s'.console.pending = s.console.pending ++ event.lines)
    (htext : event.text ++ s'.console.output = s.console.output) :
    Accounts m (events ++ [event]) made s' := by
  constructor
  · rw [h.calls_eq, callsTaken_concat, List.append_assoc, hcalls]
  · rw [hlines, ← List.append_assoc, h.lines_eq, linesQueued_concat, List.append_assoc]
  · rw [textTaken_concat, String.append_assoc, htext, h.text_eq]

/-- Every history has an account. -/
theorem of_history (h : History m events s) : ∃ made, Accounts m events made s := by
  induction h with
  | start => exact ⟨[], start m⟩
  | snoc _ hlast ih =>
    obtain ⟨made, hmade⟩ := ih
    cases hlast with
    | ran hrun =>
      obtain ⟨more, hmore, -⟩ := Machine.transcript_of_run hrun
      exact ⟨made ++ more, (hmade.transcript hmore).event rfl (List.append_nil _).symm
        String.empty_append⟩
    | queued => exact ⟨made, hmade.event rfl rfl String.empty_append⟩
    | took => exact ⟨made, hmade.event (List.append_nil _) (List.append_nil _).symm String.append_empty⟩

end Accounts

namespace Machine

/-- **No line is lost, and no text.**  Whatever the schedule of failures, and whatever happened to a
    machine, the calls made of its console account for it: the lines that were read, followed by those
    still queued, are all lines ever queued, in order; the texts that were taken, followed by the one
    that is there, are the decimal texts and the characters of all successful writes, in order.  So it
    is at every moment of the next run and at its end, however it ends.

    A read of that run finds no line only if all lines ever queued have been read, and then the run
    ends in this fault; and a run that ends because a line was refused, or was not there, read that
    line last, and once. -/
theorem history_conserves {m m₁ : Machine} {events : List Event} (h : History m events m₁) :
    ∃ made, Accounts m events made m₁ ∧
      (∀ n s, m₁.reset.after? n = some s → ∃ more, Accounts m events (made ++ more) s) ∧
      ∀ limit result m', m₁.run limit = some (result, m') →
        ∃ more, Accounts m events (made ++ more) m' ∧
          (∀ earlier later, more = earlier ++ .read none :: later →
            linesRead (made ++ earlier) = m.console.pending ++ linesQueued events ∧
              ∃ pos, result = .error (.malformedInput pos .endOfInput)) ∧
          ∀ pos reason, result = .error (.malformedInput pos reason) →
            ∃ earlier closing, closing.channel = .flush ∧
              more = earlier ++ [.flushed, .read reason.line?, closing] := by
  obtain ⟨made, hmade⟩ := Accounts.of_history h
  refine ⟨made, hmade, fun n s hs => ?_, fun limit result m' hrun => ?_⟩
  · obtain ⟨more, hmore, -⟩ := transcript_of_after? hs
    exact ⟨more, hmade.transcript hmore⟩
  · obtain ⟨more, hmore, hend, hrefused⟩ := transcript_of_run hrun
    refine ⟨more, hmade.transcript hmore, fun earlier later hsplit => ⟨?_, hend ?_⟩, hrefused⟩
    · subst hsplit
      rw [linesRead_append, hmore.endOfInput, hmade.lines_eq]
    · simp [hsplit]

/-- The program `&.@` is run on the line `x` and a console whose first flush fails.  The first run does
    not come to the line, the second refuses it.  Then `8` is queued, and the next run writes it: the
    lines read are `x` and `8`, each once. -/
theorem history_conserves_failing :
    let failing : Failures := fun channel k =>
      if channel = .flush ∧ k = 0 then some "broken" else none
    let m := start (Playfield.ofSource "&.@") (Console.ofLines ["x"] failing)
      (Random.WordSource.ofWords #[])
    ∃ first second m₁ m₂ made more,
      History m [.ran (some 9) (.error (.console ⟨0, 0⟩ "broken")) first,
        .ran (some 9) (.error (.malformedInput ⟨0, 0⟩ (.notAnInteger "x"))) second,
        .queued ["8"]] m₁ ∧
      linesRead made = ["x"] ∧ m₁.console.pending = ["8"] ∧
      m₁.run (some 9) = some (.ok (), m₂) ∧
      linesRead (made ++ more) = ["x", "8"] ∧ textWritten (made ++ more) = "8" := by
  intro failing m
  obtain ⟨n, first, hrun, hlog, hfault, hqueue, hok, hpending, houtput⟩ : ∃ n first,
      m.run (some 9) = some (.error (.console ⟨0, 0⟩ "broken"), n) ∧ m.Dispatches (some 9) first ∧
        (n.runFor 9).1 = .error (.malformedInput ⟨0, 0⟩ (.notAnInteger "x")) ∧
        ((n.runFor 9).2.queue ["8"]).console.pending = ["8"] ∧
        (((n.runFor 9).2.queue ["8"]).runFor 9).1 = .ok () ∧
        (((n.runFor 9).2.queue ["8"]).runFor 9).2.console.pending = [] ∧
        (((n.runFor 9).2.queue ["8"]).runFor 9).2.console.output = "8" :=
    ⟨_, _, run_some_of_runFor (by decide +kernel), rfl, by decide +kernel, by decide +kernel,
      by decide +kernel, by decide +kernel, by decide +kernel⟩
  have hhistory := ((History.single hrun hlog).snoc (.ran (run_some_of_runFor hfault) rfl)).snoc
    (.queued ["8"])
  obtain ⟨made, hmade, -, hnext⟩ := history_conserves hhistory
  obtain ⟨more, hmore, -, -⟩ := hnext (some 9) _ _ (run_some_of_runFor hok)
  have hread := hmade.lines_eq
  have hreads := hmore.lines_eq
  have hwritten := hmore.text_eq
  rw [hqueue] at hread
  rw [hpending, List.append_nil] at hreads
  rw [houtput] at hwritten
  exact ⟨_, _, _, _, made, more, hhistory, List.append_cancel_right hread, hqueue,
    run_some_of_runFor hok, hreads, (String.empty_append.symm.trans hwritten.symm)⟩

end Machine

end Funge
