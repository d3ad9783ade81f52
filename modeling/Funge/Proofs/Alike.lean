/-
  What a program can notice of its machine.

  A program sees the field, the stack, the cursor and the directions it draws; of the console it
  sees the lines it reads and the text it has written.  It does not see how often output was
  flushed, nor what the console recorded of the calls.  Two machines that differ in nothing else,
  on consoles that do not fail, are `Alike`: they run in lockstep (`lockstep_alike`), and a flush
  leads from a machine to one alike.
-/
import Funge.Proofs.Lockstep

namespace Funge

/-! ## Consoles -/

/-- What programs notice of two consoles is the same: the lines still to be read, the text
    written, and that neither fails. -/
structure Console.Alike (c d : Console) : Prop where
  pending_eq : d.pending = c.pending
  output_eq : d.output = c.output
  left_unfailing : c.failure = Failures.none
  right_unfailing : d.failure = Failures.none

namespace Console.Alike

variable {c d : Console}

theorem record (h : Alike c d) (channel other : Channel) (call call' : Call) :
    Alike (c.record channel call) (d.record other call') := by
  constructor
  · simpa using h.pending_eq
  · simpa using h.output_eq
  · simpa using h.left_unfailing
  · simpa using h.right_unfailing

/-- An attempt with the same effect on both has the same result. -/
theorem attempt (h : Alike c d) {α : Type} (channel : Channel)
    {effect : Console → α × Call × Console} (hresult : (effect d).1 = (effect c).1)
    (heffect : Alike (effect c).2.2 (effect d).2.2) :
    (d.attempt channel effect).1 = (c.attempt channel effect).1 ∧
      Alike (c.attempt channel effect).2 (d.attempt channel effect).2 := by
  rw [attempt_eq_of_failure h.left_unfailing, attempt_eq_of_failure h.right_unfailing]
  exact ⟨congrArg Except.ok hresult, heffect.record _ _ _ _⟩

theorem readLine (h : Alike c d) :
    d.readLine.1 = c.readLine.1 ∧ Alike c.readLine.2 d.readLine.2 := by
  refine h.attempt .read ?_ ?_
  · exact congrArg List.head? h.pending_eq
  · exact ⟨congrArg List.tail h.pending_eq, h.output_eq, h.left_unfailing, h.right_unfailing⟩

theorem writeInteger (h : Alike c d) (v : Cell) :
    (d.writeInteger v).1 = (c.writeInteger v).1 ∧
      Alike (c.writeInteger v).2 (d.writeInteger v).2 := by
  refine h.attempt .write rfl ⟨h.pending_eq, ?_, h.left_unfailing, h.right_unfailing⟩
  exact congrArg (· ++ v.decimal) h.output_eq

theorem writeChar (h : Alike c d) (ch : Char) :
    (d.writeChar ch).1 = (c.writeChar ch).1 ∧ Alike (c.writeChar ch).2 (d.writeChar ch).2 := by
  refine h.attempt .write rfl ⟨h.pending_eq, ?_, h.left_unfailing, h.right_unfailing⟩
  exact congrArg (String.push · ch) h.output_eq

theorem flush (h : Alike c d) : d.flush.1 = c.flush.1 ∧ Alike c.flush.2 d.flush.2 :=
  h.attempt .flush rfl h

/-- A flush is not noticed. -/
theorem flush_right (h : Alike c d) : d.flush.1 = .ok () ∧ Alike c d.flush.2 := by
  rw [Console.flush, attempt_eq_of_failure h.right_unfailing]
  refine ⟨rfl, ?_, ?_, h.left_unfailing, ?_⟩
  · simpa using h.pending_eq
  · simpa using h.output_eq
  · simpa using h.right_unfailing

theorem refl (h : c.failure = Failures.none) : Alike c c := ⟨rfl, rfl, h, h⟩

theorem symm (h : Alike c d) : Alike d c :=
  ⟨h.pending_eq.symm, h.output_eq.symm, h.right_unfailing, h.left_unfailing⟩

theorem trans {e : Console} (h : Alike c d) (h' : Alike d e) : Alike c e :=
  ⟨h'.pending_eq.trans h.pending_eq, h'.output_eq.trans h.output_eq, h.left_unfailing,
    h'.right_unfailing⟩

end Console.Alike

/-! ## Machines -/

/-- Two machines that no program tells apart, on consoles that do not fail. -/
structure Machine.Alike (m n : Machine) : Prop where
  field_eq : n.field = m.field
  stack_eq : n.stack = m.stack
  cursor_eq : n.cursor = m.cursor
  chance_eq : n.chance = m.chance
  console : Console.Alike m.console n.console

namespace Machine.Alike

variable {m n a : Machine}

theorem refl (h : m.console.failure = Failures.none) : Alike m m :=
  ⟨rfl, rfl, rfl, rfl, Console.Alike.refl h⟩

theorem symm (h : Alike m n) : Alike n m :=
  ⟨h.field_eq.symm, h.stack_eq.symm, h.cursor_eq.symm, h.chance_eq.symm, h.console.symm⟩

theorem trans (h : Alike m n) (h' : Alike n a) : Alike m a :=
  ⟨h'.field_eq.trans h.field_eq, h'.stack_eq.trans h.stack_eq, h'.cursor_eq.trans h.cursor_eq,
    h'.chance_eq.trans h.chance_eq, h.console.trans h'.console⟩

theorem set_console (h : Alike m n) {c d : Console} (hc : Console.Alike c d) :
    Alike { m with console := c } { n with console := d } :=
  ⟨h.field_eq, h.stack_eq, h.cursor_eq, h.chance_eq, hc⟩

/-- A flush is not noticed. -/
theorem flush_right (h : Alike m n) : Alike m { n with console := n.console.flush.2 } :=
  h.set_console h.console.flush_right.2

end Machine.Alike

open Machine Exec

theorem Machine.alike_iff (m n : Machine) :
    Alike m n ↔ n.field = m.field ∧ n.stack = m.stack ∧ n.cursor = m.cursor ∧
      n.chance = m.chance ∧ Console.Alike m.console n.console :=
  ⟨fun h => ⟨h.field_eq, h.stack_eq, h.cursor_eq, h.chance_eq, h.console⟩,
    fun ⟨hfield, hstack, hcursor, hchance, hc⟩ => ⟨hfield, hstack, hcursor, hchance, hc⟩⟩

/-- Machines that are alike stay alike. -/
theorem lockstep_alike : Lockstep Alike (fun _ => False) := by
  refine lockstep_of_consoles alike_iff (fun h => ?_) (fun v h => h.writeInteger v)
    (fun ch h => h.writeChar ch) Console.Alike.flush
  exact follows_readLine (fun _ _ h => h.cursor_eq) (follows_call alike_iff h h.console.flush)
    fun _ _ h => follows_call alike_iff h h.console.readLine

namespace Machine

variable {m m' : Machine}

/-- A console without failures stays one as instructions are obeyed ... -/
theorem alike_of_after? {n : Nat} (hm : m.console.failure = Failures.none)
    (h : m.reset.after? n = some m') : Alike m' m' := by
  have hreset : Alike m.reset m.reset := Alike.refl hm
  obtain ⟨n', hn', hR⟩ := lockstep_alike.after?_follows hreset h
  rw [h] at hn'
  cases hn'
  exact hR

/-- ... and over a whole run. -/
theorem alike_of_run {limit : Option Nat} {result : Except Fault Unit}
    (hm : m.console.failure = Failures.none) (h : m.run limit = some (result, m')) :
    Alike m' m' := by
  have hfollows := lockstep_alike.run_follows (Alike.refl hm) limit
  rw [h] at hfollows
  cases hfollows with
  | same hR => exact hR
  | exempt hfalse => exact hfalse.elim

end Machine

end Funge
