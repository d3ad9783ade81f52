/-
  The console: where a program reads lines and writes numbers and characters.

  A console answers reads from a queue of lines, keeps what was written, and records every call
  made to it.  It may be given a schedule of failures: `failure ch k` is the text with which
  call number `k` on channel `ch` fails, counted from zero over the life of the console.  A
  failed call does nothing else: no line is taken and nothing is written.
-/
import Funge.Cell

namespace Funge

/-- The three kinds of console call, each counted on its own. -/
inductive Channel where
  | read | write | flush
deriving DecidableEq, Repr

/-- What the console records of a call. -/
inductive Call where
  /-- A successful flush. -/
  | flushed
  /-- A successful read: a line, or none at the end of input. -/
  | read (line : Option String)
  /-- A number was written. -/
  | wroteInteger (v : Cell)
  /-- A character was written. -/
  | wroteChar (c : Char)
  /-- A call failed. -/
  | failed (channel : Channel)
deriving DecidableEq, Repr

/-- Which calls fail, and with what text. -/
abbrev Failures := Channel → Nat → Option String

/-- The schedule without failures. -/
def Failures.none : Failures := fun _ _ => Option.none

/-- A console. -/
structure Console where
  /-- The lines still to be read, the next one first. -/
  pending : List String
  /-- The text written since it was last taken. -/
  output : String
  /-- The calls made since they were last taken, in order. -/
  calls : Array Call
  /-- The schedule of failures. -/
  failure : Failures
  /-- The number of reads so far, failed ones included. -/
  reads : Nat
  /-- The number of writes so far, failed ones included. -/
  writes : Nat
  /-- The number of flushes so far, failed ones included. -/
  flushes : Nat

namespace Console

/-- A fresh console. -/
def ofLines (pending : List String) (failure : Failures) : Console :=
  ⟨pending, "", #[], failure, 0, 0, 0⟩

/-- Queue more lines. -/
def queue (c : Console) (more : List String) : Console :=
  { c with pending := c.pending ++ more }

/-- The number of calls so far on a channel. -/
def count (c : Console) : Channel → Nat
  | .read => c.reads
  | .write => c.writes
  | .flush => c.flushes

/-- The console after one more call, with what is recorded of it. -/
def record (c : Console) (channel : Channel) (call : Call) : Console :=
  let c := { c with calls := c.calls.push call }
  match channel with
  | .read => { c with reads := c.reads + 1 }
  | .write => { c with writes := c.writes + 1 }
  | .flush => { c with flushes := c.flushes + 1 }

/-- One call on a channel: it fails if the schedule says so, else `effect` gives the result,
    what is recorded, and the console it leaves. -/
def attempt {α : Type} (c : Console) (channel : Channel) (effect : Console → α × Call × Console) :
    Except String α × Console :=
  match c.failure channel (c.count channel) with
  | some message => (.error message, c.record channel (.failed channel))
  | none =>
    let (result, call, c) := effect c
    (.ok result, c.record channel call)

/-- Take the next line; there is none at the end of input. -/
def readLine (c : Console) : Except String (Option String) × Console :=
  c.attempt .read fun c =>
    (c.pending.head?, .read c.pending.head?, { c with pending := c.pending.tail })

/-- Write a number in decimal. -/
def writeInteger (c : Console) (v : Cell) : Except String Unit × Console :=
  c.attempt .write fun c => ((), .wroteInteger v, { c with output := c.output ++ v.decimal })

/-- Write a character. -/
def writeChar (c : Console) (ch : Char) : Except String Unit × Console :=
  c.attempt .write fun c => ((), .wroteChar ch, { c with output := c.output.push ch })

/-- Push pending output on to its destination. -/
def flush (c : Console) : Except String Unit × Console :=
  c.attempt .flush fun c => ((), .flushed, c)

/-! ## What recording a call changes -/

@[simp] theorem calls_record (c : Console) (channel : Channel) (call : Call) :
    (c.record channel call).calls = c.calls.push call := by
  cases channel <;> rfl

@[simp] theorem pending_record (c : Console) (channel : Channel) (call : Call) :
    (c.record channel call).pending = c.pending := by
  cases channel <;> rfl

@[simp] theorem output_record (c : Console) (channel : Channel) (call : Call) :
    (c.record channel call).output = c.output := by
  cases channel <;> rfl

@[simp] theorem failure_record (c : Console) (channel : Channel) (call : Call) :
    (c.record channel call).failure = c.failure := by
  cases channel <;> rfl

/-- The channel of the call counts it, the other two do not. -/
theorem count_record (c : Console) (channel other : Channel) (call : Call) :
    (c.record channel call).count other = c.count other + if channel = other then 1 else 0 := by
  cases channel <;> cases other <;> rfl

/-! ## Consoles that do not fail -/

/-- Without failures an attempt succeeds. -/
theorem attempt_eq_of_failure {c : Console} (h : c.failure = Failures.none) {α : Type}
    (channel : Channel) (effect : Console → α × Call × Console) :
    c.attempt channel effect
      = (.ok (effect c).1, (effect c).2.2.record channel (effect c).2.1) := by
  rw [attempt, h]
  rfl

/-! ## Taking what has piled up -/

/-- Take the text written so far. -/
def takeOutput (c : Console) : String × Console := (c.output, { c with output := "" })

/-- Take the record of calls made so far. -/
def takeCalls (c : Console) : Array Call × Console := (c.calls, { c with calls := #[] })

end Console

end Funge
