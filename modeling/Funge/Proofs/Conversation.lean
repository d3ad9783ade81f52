/-
  Asking for the input and having it.

  A session obeys one instruction at a time, asks for a line where the next instruction wants one,
  and shows what was written.  A run has its lines from the start and keeps its text.  They come to
  the same:

  1. Between two instructions the run's machine is the session's within a frame: the lines not yet
     asked for are ahead of it, and what was shown is behind it (`Machine.Within`).
  2. Asking keeps that, and a session that has asked for its line meets the end of input only where
     the run does (`ask_within`, `wantsLine_of_endOfInput`).  So a turn does what the run's next
     instruction does (`turn_follows`).
  3. Hence the conversation ends where the run stops (`play_follows`), and it ends if the run does
     (`play_ends`).
-/
import Funge.Command.Session
import Funge.Proofs.Frame
import Funge.Proofs.History

namespace Funge

namespace Console

/-- A flush leaves the queue as it is. -/
theorem pending_flush (c : Console) : c.flush.2.pending = c.pending := by
  unfold flush attempt
  split
  · exact pending_record _ _ _
  · exact pending_record _ _ _

/-- A read that found no line found none queued. -/
theorem pending_of_readLine {c d : Console} (h : c.readLine = (.ok none, d)) : c.pending = [] := by
  unfold readLine attempt at h
  split at h
  · simp at h
  · exact List.head?_eq_none_iff.mp (Except.ok.inj (Prod.mk.inj h).1)

end Console

namespace Machine

variable {m m' n : Machine} {stop : Stop}

/-! ## Runs with and without a limit -/

/-- Obey instructions, with a limit or without one. -/
def goWithin (limit : Option Nat) (m : Machine) : Option (Stop × Machine) :=
  match limit with
  | some n => some (m.go n)
  | none => m.goOn

theorem run_eq_goWithin (limit : Option Nat) (m : Machine) :
    m.run limit = (m.reset.goWithin limit).map fun r => r.2.finish (limit.getD 0) r.1 := by
  cases limit <;> rfl

/-- A stop after at most one instruction is a stop under every limit that allows one. -/
theorem goWithin_of_stop {limit : Option Nat} (hgo : m.go 1 = (stop, m'))
    (hstop : stop ≠ .exhausted) (hlimit : limit ≠ some 0) :
    m.goWithin limit = some (stop, m') := by
  obtain ⟨i, left, m₁, hi, hafter, hs⟩ := go_eq_iff.mp hgo
  cases limit with
  | none =>
    exact goOn_eq_some_iff.mpr ⟨i, m₁, hafter, hs.of_ne_exhausted hstop fun _ => Nat.one_pos⟩
  | some k =>
    have hk : k ≠ 0 := fun h => hlimit (congrArg some h)
    refine congrArg some (go_eq_iff.mpr ⟨i, k - i, m₁, by omega, hafter, ?_⟩)
    exact hs.of_ne_exhausted hstop (by omega)

/-- One instruction that is followed by another was obeyed. -/
theorem step?_of_go_one (hgo : m.go 1 = (.exhausted, m')) : m.step? = some m' := by
  obtain ⟨i, left, m₁, hi, hafter, hs⟩ := go_eq_iff.mp hgo
  cases hs with
  | exhausted =>
    obtain rfl : i = 1 := hi
    exact (Option.bind_fun_some _).symm.trans hafter

theorem goWithin_none_of_step (h : m.step? = some m') : m.goWithin none = m'.goWithin none :=
  goOn_of_step h

theorem goWithin_succ_of_step {k : Nat} (h : m.step? = some m') :
    m.goWithin (some (k + 1)) = m'.goWithin (some k) := congrArg some (go_of_step h)

/-! ## The end of input -/

/-- Reading a line meets the end of input only if none is queued ... -/
theorem readLine_endOfInput (m : Machine) :
    Exec.Ends Exec.readLine (fun _ _ => True)
      (fun fault _ => fault.IsEndOfInput → m.console.pending = []) m := by
  refine Exec.ends_readLine.mpr ⟨fun console hflush => ⟨fun _ _ _ => trivial,
    fun console' hread _ => ?_, fun text _ _ h => ?_⟩, fun text _ _ h => ?_⟩
  · have hqueue : console.pending = m.console.pending := by
      rw [show console = m.console.flush.2 by rw [hflush], Console.pending_flush]
    rw [← hqueue]
    exact Console.pending_of_readLine hread
  · simp [Fault.IsEndOfInput] at h
  · simp [Fault.IsEndOfInput] at h

/-- ... and what the instructions do with a line raises other faults. -/
theorem perform_endOfInput {op : Char} {i : Instruction} (hi : i = .readInteger ∨ i = .readChar)
    (m : Machine) : Exec.Ends (Exec.perform op i) (fun _ _ => True)
      (fun fault _ => fault.IsEndOfInput → m.console.pending = []) m := by
  rcases hi with rfl | rfl
  · refine Exec.ends_readInteger.mpr ((readLine_endOfInput m).mono (fun line m' _ => ?_) fun _ _ h => h)
    simp [Fault.IsEndOfInput]
  · refine Exec.ends_readChar.mpr ((readLine_endOfInput m).mono (fun line m' _ => ?_) fun _ _ h => h)
    simp [Fault.IsEndOfInput]

/-- A machine wants a line where the next instruction reads one and none is queued. -/
theorem wantsLine_eq_true_iff :
    m.wantsLine = true ↔ m.console.pending = [] ∧
      (m.instruction? = some .readInteger ∨ m.instruction? = some .readChar) := by
  unfold wantsLine instruction? fetch?
  generalize m.field[m.cursor.pos]?.map Instruction.decode = next
  cases m.cursor.stringMode with
  | true => simp
  | false =>
    cases next with
    | none => simp
    | some i => cases i <;> simp

/-- Only a machine that wants a line meets the end of its input. -/
theorem wantsLine_of_dispatch {v : Cell} {fault : Fault} (hf : m.fetch? = some v)
    (hd : Exec.dispatch v m = .error fault m') (hfault : fault.IsEndOfInput) :
    m.wantsLine = true := by
  obtain ⟨hmode, -, hraises⟩ := Exec.dispatch_raises hd
  have hinstruction : Instruction.decode v = .readInteger ∨ Instruction.decode v = .readChar := by
    obtain ⟨pos, rfl⟩ := hfault
    generalize Instruction.decode v = i at hraises
    cases hraises with
    | endOfInput h => exact h
  have hends : Exec.Ends (Exec.dispatch v) (fun _ _ => True)
      (fun fault _ => fault.IsEndOfInput → m.console.pending = []) m := by
    rw [Exec.ends_dispatch, hmode, Bool.false_and, if_neg Bool.false_ne_true]
    exact perform_endOfInput hinstruction m
  refine wantsLine_eq_true_iff.mpr ⟨hends.of_error hd hfault, ?_⟩
  exact hinstruction.imp (fun h => instruction?_eq_some_iff.mpr ⟨hmode, v, hf, h⟩)
    fun h => instruction?_eq_some_iff.mpr ⟨hmode, v, hf, h⟩

theorem wantsLine_of_endOfInput {k : Nat} {fault : Fault} (hk : k ≤ 1)
    (hgo : m.go k = (.faulted fault, m')) (hfault : fault.IsEndOfInput) :
    k = 1 ∧ m.wantsLine = true := by
  obtain ⟨pos, rfl⟩ := hfault
  obtain ⟨i, left, m₁, hi, hafter, hs⟩ := go_eq_iff.mp hgo
  cases hs with
  | faulted hf hv hd =>
    obtain ⟨rfl, rfl⟩ : i = 0 ∧ k = 1 := by omega
    obtain rfl := Option.some.inj hafter
    exact ⟨rfl, wantsLine_of_dispatch hf hd ⟨pos, rfl⟩⟩

/-- The second machine is the first with lines ahead of it and text from before. -/
def Within (ahead : List String) (text : String) (m n : Machine) : Prop :=
  ∃ calls, m.Framed ahead text calls n

end Machine

namespace Command

open Machine

/-- The pieces of an input give the lines. -/
def Reads (input : List UInt8) (lines : List String) : Prop :=
  (Text.pieces 10 input).map Feed.line? = lines.map some

namespace Session

variable {s : Session} {n n' : Machine} {lines : List String} {shown : String}
  {input : List UInt8}

/-- After asking, the lines ahead are still those of the input, and only a session without them
    wants one. -/
theorem ask_within (hreads : Reads input lines) (h : s.machine.Within lines shown n) :
    ∃ lines', Reads (s.ask input).2 lines' ∧ (s.ask input).1.machine.Within lines' shown n ∧
      (s.ask input).1.left = s.left ∧ (lines' = [] ∨ (s.ask input).1.wantsLine = false) := by
  unfold ask
  cases hwants : s.wantsLine with
  | false => exact ⟨lines, hreads, h, rfl, Or.inr hwants⟩
  | true =>
    cases input with
    | nil =>
      obtain rfl : lines = [] := List.map_eq_nil_iff.mp hreads.symm
      exact ⟨[], rfl, h, rfl, Or.inl rfl⟩
    | cons b input =>
      rw [Reads, Text.pieces_eq_cons, List.map_cons] at hreads
      cases lines with
      | nil => simp at hreads
      | cons line lines =>
        obtain ⟨hline, hrest⟩ := List.cons.inj hreads
        obtain ⟨calls, hframed⟩ := h
        have htake : s.take (Text.firstPiece 10 (b :: input)).1
            = s.withConsole (s.machine.console.queue [line]) := by
          have hne : (Text.firstPiece 10 (b :: input)).1.isEmpty = false := by
            rw [Text.firstPiece_cons]
            split <;> rfl
          unfold take
          rw [hne, hline]
          rfl
        refine ⟨lines, hrest, ?_, ?_, Or.inr ?_⟩
        · rw [if_pos rfl, htake]
          exact ⟨calls, hframed.set_console hframed.console.queue⟩
        · rw [if_pos rfl, htake]
          rfl
        · rw [if_pos rfl, htake]
          simp [wantsLine, Machine.wantsLine, withConsole, Console.queue]

/-- What a turn comes to, beside the machine `n` of the run. -/
inductive Turned (lines : List String) (shown : String) (s : Session) (n : Machine) :
    String × (Stop × Machine ⊕ Session) → Prop
  /-- Both have stopped, for the same reason. -/
  | stopped {text : String} {stop : Stop} {m' n' : Machine}
      (hrun : n.goWithin s.left = some (stop, n')) (hshown : m'.console.output = "")
      (h : m'.Within lines (shown ++ text) n') : Turned lines shown s n (text, .inl (stop, m'))
  /-- Both have obeyed an instruction, and another one follows. -/
  | goesOn {text : String} {s' : Session} {n' : Machine} (hstep : n.step? = some n')
      (hleft : s.left = none ∧ s'.left = none ∨ ∃ k, s.left = some (k + 1) ∧ s'.left = some k)
      (h : s'.machine.Within lines (shown ++ text) n') : Turned lines shown s n (text, .inr s')

/-- A turn of a session that has asked does what the run does. -/
theorem turn_follows (h : s.machine.Within lines shown n)
    (hasked : lines = [] ∨ s.wantsLine = false) : Turned lines shown s n s.turn := by
  obtain ⟨calls, hframed⟩ := h
  have hone : (if s.left = some 0 then 0 else 1) ≤ 1 := by split <;> omega
  rcases hgo : s.machine.go (if s.left = some 0 then 0 else 1) with ⟨stop, m'⟩
  obtain ⟨n', hn, hframed'⟩ : ∃ n', n.go (if s.left = some 0 then 0 else 1) = (stop, n') ∧
      m'.Framed lines shown calls n' := by
    refine ((lockstep_framed lines shown calls).go_follows hframed hgo).resolve_left ?_
    rintro ⟨fault, rfl, hahead, hfault⟩
    -- a line is ahead, so the session has asked for one
    obtain ⟨hallowed, hwants⟩ := wantsLine_of_endOfInput hone hgo hfault
    have hnot := hasked.resolve_left hahead
    rw [Session.wantsLine, hwants, Bool.and_true] at hnot
    rw [if_pos (by simpa using hnot)] at hallowed
    exact absurd hallowed (by decide)
  have hwithin : Within lines (shown ++ m'.console.output)
      { m' with console := m'.console.takeOutput.2.takeCalls.2 } n' :=
    ⟨_, hframed'.set_console hframed'.console.taken⟩
  unfold turn
  rw [hgo]
  by_cases hleft : s.left = some 0
  · rw [if_pos hleft] at hn
    have hrun : n.goWithin s.left = some (stop, n') := by
      rw [hleft]
      exact congrArg some hn
    cases stop with
    | exhausted => simp only [hleft]; exact .stopped hrun rfl hwithin
    | halted => exact .stopped hrun rfl hwithin
    | faulted => exact .stopped hrun rfl hwithin
  · rw [if_neg hleft] at hn
    cases stop with
    | exhausted =>
      have hstep := step?_of_go_one hn
      cases hs : s.left with
      | none => exact .goesOn hstep (Or.inl ⟨hs, rfl⟩) hwithin
      | some k =>
        cases k with
        | zero => exact absurd hs hleft
        | succ k => exact .goesOn hstep (Or.inr ⟨k, hs, rfl⟩) hwithin
    | halted => exact .stopped (goWithin_of_stop hn (by simp) hleft) rfl hwithin
    | faulted => exact .stopped (goWithin_of_stop hn (by simp) hleft) rfl hwithin

/-! ## Conversations -/

/-- What a conversation that ends has shown and where it stopped is what the run has. -/
theorem play_follows {told : String × Stop × Machine} (hplay : s.play shown input = some told)
    (hreads : Reads input lines) (h : s.machine.Within lines shown n) :
    ∃ n' lines', n.goWithin s.left = some (told.2.1, n') ∧ told.2.2.console.output = "" ∧
      told.2.2.Within lines' told.1 n' := by
  refine play.partial_correctness (fun shown input s told => ∀ lines n, Reads input lines →
    s.machine.Within lines shown n → ∃ n' lines', n.goWithin s.left = some (told.2.1, n') ∧
      told.2.2.console.output = "" ∧ told.2.2.Within lines' told.1 n') ?_ shown input s told
    hplay lines n hreads h
  intro play ih shown input s told hplay lines n hreads h
  obtain ⟨lines', hreads', h', hleft, hasked⟩ := ask_within hreads h
  have hturned := turn_follows h' hasked
  generalize (s.ask input).1.turn = turned at hplay hturned
  cases hturned with
  | stopped hrun hshown hwithin =>
    obtain rfl := Option.some.inj hplay
    rw [hleft] at hrun
    exact ⟨_, _, hrun, hshown, hwithin⟩
  | goesOn hstep hcount hwithin =>
    obtain ⟨n', lines'', hrun, hshown, hlast⟩ := ih _ _ _ _ hplay _ _ hreads' hwithin
    refine ⟨n', lines'', ?_, hshown, hlast⟩
    rw [← hrun, ← hleft]
    rcases hcount with ⟨hnone, hnone'⟩ | ⟨k, hsome, hsome'⟩
    · rw [hnone, hnone', goWithin_none_of_step hstep]
    · rw [hsome, hsome', goWithin_succ_of_step hstep]

/-- A conversation ends if its run does. -/
theorem play_ends {k : Nat} (hreads : Reads input lines) (h : s.machine.Within lines shown n)
    (hk : s.left = some k ∨ n.after? k = none) : ∃ told, s.play shown input = some told := by
  induction k using Nat.strongRecOn generalizing input s lines shown n with
  | ind k ih =>
    obtain ⟨lines', hreads', h', hleft, hasked⟩ := ask_within hreads h
    have hturned := turn_follows h' hasked
    rw [play]
    generalize (s.ask input).1.turn = turned at hturned
    cases hturned with
    | stopped => exact ⟨_, rfl⟩
    | goesOn hstep hcount hwithin =>
      rename_i text next n₁
      -- a turn that goes on uses one instruction up
      obtain ⟨j, hj, hnext⟩ : ∃ j < k, next.left = some j ∨ n₁.after? j = none := by
        rcases hk with hk | hk
        · rw [hleft, hk] at hcount
          rcases hcount with ⟨hnone, -⟩ | ⟨j, hsome, hnext⟩
          · simp at hnone
          · exact ⟨j, by have := Option.some.inj hsome; omega, Or.inl hnext⟩
        · cases k with
          | zero => simp [after?] at hk
          | succ j =>
            rw [after?, hstep, Option.bind_some] at hk
            exact ⟨j, Nat.lt_succ_self j, Or.inr hk⟩
      exact ih j hj hreads' hwithin hnext

/-- The conversation and the run come to the same: neither ends, or both stop for the same reason,
    with the same field and the same text. -/
theorem play_eq (hreads : Reads input lines) (h : s.machine.Within lines shown n) :
    (s.play shown input = none ∧ n.goWithin s.left = none) ∨
      ∃ told stop m n' lines', s.play shown input = some (told, stop, m) ∧
        n.goWithin s.left = some (stop, n') ∧ m.console.output = "" ∧ m.Within lines' told n' := by
  cases hplay : s.play shown input with
  | some told =>
    obtain ⟨n', lines', hrun, hshown, hwithin⟩ := play_follows hplay hreads h
    exact Or.inr ⟨_, _, _, n', lines', rfl, hrun, hshown, hwithin⟩
  | none =>
    have hnever : ∀ k, ¬(s.left = some k ∨ n.after? k = none) := by
      intro k hk
      obtain ⟨told, htold⟩ := play_ends hreads h hk
      rw [hplay] at htold
      cases htold
    have hleft : s.left = none := Option.eq_none_iff_forall_not_mem.mpr
      fun k hk => hnever k (Or.inl hk)
    refine Or.inl ⟨rfl, ?_⟩
    rw [hleft]
    exact goOn_eq_none_iff.mpr fun k =>
      Option.ne_none_iff_exists'.mp fun hk => hnever k (Or.inr hk)

end Session

end Command

end Funge
