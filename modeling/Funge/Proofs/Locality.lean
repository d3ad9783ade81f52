/-
  What a run does not see.

  A run takes lines from the front of its queue and writes behind the text that is there.  So lines
  queued behind those it reads are left for later, and text from before stays in front:

  1. A machine with more lines queued, or with other text in its output, is the same machine within a
     frame (`framed_queue`, `framed_withOutput`), and a frame without the rest is one of these
     (`Framed.eq_queue`, `Framed.eq_withOutput`).
  2. Frames last (`lockstep_framed`), so running and queueing may change places, and so may running
     and writing in front (`run_local`).  Only a run that meets the end of its input could tell: with
     more lines it would have gone on.
-/
import Funge.Proofs.Frame
import Funge.Proofs.History

namespace Funge

/-- A frame that is known leaves nothing open. -/
theorem Console.Framed.eq {ahead : List String} {text : String} {calls : List Call} {c d : Console}
    (h : c.Framed ahead text calls d) :
    d = { c with
      pending := c.pending ++ ahead
      output := text ++ c.output
      calls := calls.toArray ++ c.calls } := by
  have hreads : d.reads = c.reads := h.count_eq .read
  have hwrites : d.writes = c.writes := h.count_eq .write
  have hflushes : d.flushes = c.flushes := h.count_eq .flush
  have hcalls : d.calls = calls.toArray ++ c.calls := by
    apply Array.toList_inj.mp
    rw [h.calls_eq, Array.toList_append]
  cases d
  simp only [Console.mk.injEq]
  exact ⟨h.pending_eq, h.output_eq, hcalls, h.failure_eq, hreads, hwrites, hflushes⟩

namespace Machine

variable {m n : Machine} {limit : Option Nat}

/-- The machine with other text in its output. -/
def withOutput (m : Machine) (text : String) : Machine :=
  { m with console := { m.console with output := text } }

/-! ## Frames that are queues, and frames that are texts -/

/-- The machine of a frame, but for its console. -/
theorem Framed.eq {ahead : List String} {text : String} {calls : List Call}
    (h : m.Framed ahead text calls n) : n = { m with console := n.console } := by
  cases n
  simp only [Machine.mk.injEq]
  exact ⟨h.field_eq, h.stack_eq, h.cursor_eq, trivial, h.chance_eq⟩

theorem framed_queue (m : Machine) (more : List String) : m.Framed more "" [] (m.queue more) := by
  refine ⟨rfl, rfl, rfl, rfl, rfl, String.empty_append.symm, rfl, rfl, fun channel => ?_⟩
  cases channel <;> rfl

theorem Framed.eq_queue {more : List String} (h : m.Framed more "" [] n) : n = m.queue more := by
  rw [h.eq, h.console.eq, String.empty_append, Array.empty_append]
  rfl

theorem framed_withOutput (m : Machine) (text : String) :
    (m.withOutput "").Framed [] text [] (m.withOutput text) := by
  refine ⟨rfl, rfl, rfl, rfl, (List.append_nil _).symm, String.append_empty.symm, rfl, rfl,
    fun channel => ?_⟩
  cases channel <;> rfl

theorem Framed.eq_withOutput {text : String} (h : m.Framed [] text [] n) :
    n = m.withOutput (text ++ m.console.output) := by
  rw [h.eq, h.console.eq, List.append_nil, Array.empty_append]
  rfl

/-! ## Runs within a frame -/

/-- More lines change nothing but what is left in the queue, unless the run meets the end of its
    input. -/
theorem run_queue (more : List String)
    (hinput : ∀ pos m', m.run limit ≠ some (.error (.malformedInput pos .endOfInput), m')) :
    (m.queue more).run limit = (m.run limit).map fun r => (r.1, r.2.queue more) := by
  have hfollows := (lockstep_framed more "" []).run_follows (framed_queue m more) limit
  generalize (m.queue more).run limit = second at hfollows
  generalize m.run limit = first at hfollows hinput
  cases hfollows with
  | endless => rfl
  | same h => rw [h.eq_queue]; rfl
  | exempt h =>
    obtain ⟨-, pos, rfl⟩ := h
    exact absurd rfl (hinput pos _)

/-- Text from before stays in front, and changes nothing else. -/
theorem run_withOutput (text : String) :
    (m.withOutput text).run limit
      = ((m.withOutput "").run limit).map fun r =>
          (r.1, r.2.withOutput (text ++ r.2.console.output)) := by
  have hfollows := (lockstep_framed [] text []).run_follows (framed_withOutput m text) limit
  generalize (m.withOutput text).run limit = second at hfollows
  generalize (m.withOutput "").run limit = first at hfollows
  cases hfollows with
  | endless => rfl
  | same h => rw [h.eq_withOutput]; rfl
  | exempt h => exact absurd rfl h.1

/-- **Runs are local.**  Whatever the field, the source of directions, the schedule of failures and
    the limit: a run that does not meet the end of its input is the same with more lines queued, in
    its result and in all it leaves, and those lines are left behind the ones it leaves anyway; a run
    that does not end does not end with them either.  And whatever was written before a run, its
    result and all it leaves are those of the run without that text, which stays in front of what the
    run writes. -/
theorem run_local (m : Machine) (limit : Option Nat) :
    (∀ more, (∀ pos m', m.run limit ≠ some (.error (.malformedInput pos .endOfInput), m')) →
      (m.queue more).run limit = (m.run limit).map fun r => (r.1, r.2.queue more)) ∧
    ∀ text, (m.withOutput text).run limit
      = ((m.withOutput "").run limit).map fun r =>
          (r.1, r.2.withOutput (text ++ r.2.console.output)) :=
  ⟨fun more hinput => run_queue more hinput, fun text => run_withOutput text⟩

/-- The program `&.&@` reads `7`, writes it and refuses `seven`.  With one more line queued it does
    the same, and leaves that line. -/
theorem run_local_refusing :
    let m := start (Playfield.ofSource "&.&@") (Console.ofLines ["7", "seven"] Failures.none)
      (Random.WordSource.ofWords #[])
    ∃ m', m.run (some 9) = some (.error (.malformedInput ⟨2, 0⟩ (.notAnInteger "seven")), m') ∧
      m'.console.pending = [] ∧ m'.console.output = "7" ∧
      (m.queue ["8"]).run (some 9)
        = some (.error (.malformedInput ⟨2, 0⟩ (.notAnInteger "seven")), m'.queue ["8"]) := by
  intro m
  obtain ⟨m', hrun, hpending, houtput⟩ : ∃ m',
      m.run (some 9) = some (.error (.malformedInput ⟨2, 0⟩ (.notAnInteger "seven")), m') ∧
        m'.console.pending = [] ∧ m'.console.output = "7" :=
    ⟨_, run_some_of_runFor (by decide +kernel), by decide +kernel, by decide +kernel⟩
  have hmore := (run_local m (some 9)).1 ["8"] fun pos left h => by
    rw [hrun] at h
    nomatch h
  rw [hrun] at hmore
  exact ⟨m', hrun, hpending, houtput, hmore⟩

end Machine

end Funge
