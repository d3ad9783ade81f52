/-
  What a seed decides.

  The source of directions lasts over all runs on a machine, and only the random turn draws from it.

  1. Every dispatch of a random turn, outside string mode, is one draw, and nothing else is
     (`tally_drawn`).  So the turn that comes after `i` others, over a whole history, takes sample
     number `i` of the seed's stream.
  2. Two machines that differ in nothing but their sources do the same at every instruction but a
     random turn (`steady_sameButChance`), and at a turn that draws the same direction from both.
     So they have the same history as long as their first directions are the same
     (`Drawn.history`).

  `history_directions` says both of seeds.
-/
import Funge.Proofs.History
import Funge.Proofs.Lockstep
import Funge.Proofs.Samples

namespace Funge

open Funge.Random

/-! ## Random turns -/

/-- The number of random turns among some dispatches. -/
def draws (log : List Machine) : Nat := log.countP fun m => m.instruction? = some .goRandom

@[simp] theorem draws_nil : draws [] = 0 := rfl

@[simp] theorem draws_append (log more : List Machine) :
    draws (log ++ more) = draws log + draws more := List.countP_append

namespace Machine

variable {m m' m₁ : Machine} {v : Cell}

theorem draws_single_eq_one (h : m.instruction? = some .goRandom) : draws [m] = 1 := by
  simp [draws, h]

theorem draws_single_eq_zero (h : m.instruction? ≠ some .goRandom) : draws [m] = 0 := by
  simp [draws, h]

/-- The machine after a random turn. -/
def turned (m : Machine) : Machine :=
  { m with
    cursor := (m.chance.heading?.elim m.cursor m.cursor.turn).advance
    chance := m.chance.draw }

/-- A random turn is obeyed, and takes the next direction. -/
theorem dispatch_of_draw (h : m.instruction? = some .goRandom) (hf : m.fetch? = some v) :
    Exec.dispatch v m = .ok () m.turned := by
  have hends : Exec.Ends (Exec.dispatch v) (fun _ m' => m' = m.turned) (fun _ _ => False) m := by
    rw [ends_dispatch_of_instruction? h hf]
    refine Exec.ends_steerRandomly.mpr ⟨fun dir chance hd => ?_, fun hd => ?_⟩
    · simp only [turned, WordSource.heading?, WordSource.draw, hd, Option.map_some, Option.elim_some]
    · simp only [turned, WordSource.heading?, WordSource.draw, hd, Option.map_none, Option.elim_none]
  cases hd : Exec.dispatch v m with
  | ok _ m' => rw [hends.of_ok hd]
  | error fault m' => exact (hends.of_error hd).elim

theorem step?_of_draw (h : m.instruction? = some .goRandom) : m.step? = some m.turned := by
  obtain ⟨-, v, hf, hdecode⟩ := instruction?_eq_some_iff.mp h
  refine step?_eq_some_iff.mpr ⟨v, hf, ?_, dispatch_of_draw h hf⟩
  rintro rfl
  rw [Instruction.decode_halt] at hdecode
  nomatch hdecode

/-- The source after a dispatch, whether it was obeyed or faulted. -/
theorem dispatch_drawn (hf : m.fetch? = some v) :
    Exec.Ends (Exec.dispatch v) (fun _ m' => m'.chance = m.chance.drawn (draws [m]))
      (fun _ m' => m'.chance = m.chance.drawn (draws [m])) m := by
  by_cases hdraw : m.instruction? = some .goRandom
  · rw [draws_single_eq_one hdraw, Exec.Ends, dispatch_of_draw hdraw hf]
    rfl
  · rw [draws_single_eq_zero hdraw]
    exact (dispatch_keeps hf).mono (fun _ _ hm => hm.chance_eq hdraw)
      fun _ _ hm => hm.chance_eq hdraw

/-- The random turns, and nothing else, draw. -/
theorem tally_drawn : Tally fun m log m' => m'.chance = m.chance.drawn (draws log) where
  nothing := fun _ hchance => hchance
  obeyed := fun hf hd => (dispatch_drawn hf).of_ok hd
  faulted := fun hf hd => (dispatch_drawn hf).of_error hd
  trans := fun h h' => by rw [draws_append, WordSource.drawn_add, ← h, h']

/-- Where neither of two machines has a next one, both dispatch a cell to fault, or neither does. -/
theorem forall₂_dispatched {R : Machine → Machine → Prop} {n : Machine} {j : Nat} (hR : R m n)
    (hm : m.step? = none) (hn : n.step? = none)
    (hfetch : m.fetch? = none ∧ n.fetch? = none ∨
      ∃ v w, m.fetch? = some v ∧ n.fetch? = some w ∧ (w = Cell.halt ↔ v = Cell.halt)) :
    List.Forall₂ R (m.dispatched j) (n.dispatched j) := by
  cases j with
  | zero => exact .nil
  | succ j =>
    rw [dispatched_of_step?_eq_none hm, dispatched_of_step?_eq_none hn]
    rcases hfetch with ⟨hv, hw⟩ | ⟨v, w, hv, hw, hhalt⟩
    · rw [hv, hw]
      exact .nil
    · rw [hv, hw, Option.elim_some, Option.elim_some]
      by_cases hstop : v = Cell.halt
      · rw [if_pos hstop, if_pos (hhalt.mpr hstop)]
        exact .nil
      · rw [if_neg hstop, if_neg (mt hhalt.mp hstop)]
        exact .cons hR .nil

/-! ## Machines with different sources -/

/-- The machines differ in nothing but their sources of directions. -/
structure SameButChance (m n : Machine) : Prop where
  field_eq : n.field = m.field
  stack_eq : n.stack = m.stack
  cursor_eq : n.cursor = m.cursor
  console_eq : n.console = m.console

end Machine

open Machine Exec

/-- Whatever is known of the sources, machines that differ in nothing else stay so as long as no
    direction is drawn. -/
theorem steady_sameButChance (Q : WordSource → WordSource → Prop) :
    Steady (fun m n => SameButChance m n ∧ Q m.chance n.chance) (fun _ => False) := by
  have hcall {α : Type} {m n : Machine} (h : SameButChance m n ∧ Q m.chance n.chance)
      (call : Console → Except String α × Console) :
      Follows (fun m n => SameButChance m n ∧ Q m.chance n.chance) (fun _ => False) (consult call)
        (consult call) m n := by
    refine follows_consult (by rw [h.1.console_eq]) h.1.cursor_eq ?_
    exact ⟨⟨h.1.field_eq, h.1.stack_eq, h.1.cursor_eq, by rw [h.1.console_eq]⟩, h.2⟩
  refine ⟨?_, fun h p => follows_load h h.1.field_eq h.1.cursor_eq p⟩
  constructor
  case cursor_eq => exact fun h => h.1.cursor_eq
  case stack_eq => exact fun h => h.1.stack_eq
  case set_cursor => exact fun h _ => ⟨⟨h.1.field_eq, h.1.stack_eq, rfl, h.1.console_eq⟩, h.2⟩
  case set_stack => exact fun h _ => ⟨⟨h.1.field_eq, rfl, h.1.cursor_eq, h.1.console_eq⟩, h.2⟩
  case store =>
    intro m n h
    exact follows_store h h.1.field_eq h.1.cursor_eq
      fun _ => ⟨⟨rfl, h.1.stack_eq, h.1.cursor_eq, h.1.console_eq⟩, h.2⟩
  case readLine =>
    intro m n h
    exact follows_readLine (fun _ _ h => h.1.cursor_eq) (hcall h _) fun _ _ h => hcall h _
  case writeInteger => exact fun h v => hcall h (·.writeInteger v)
  case writeChar => exact fun h c => hcall h (·.writeChar c)
  case flush =>
    intro m n h
    rw [h.1.console_eq]
    exact ⟨rfl, ⟨h.1.field_eq, h.1.stack_eq, h.1.cursor_eq, rfl⟩, h.2⟩

/-- Machines that differ in nothing but their sources, after `i` draws from `a` and from `b`. -/
def Machine.Drawn (a b : WordSource) (i : Nat) (m n : Machine) : Prop :=
  SameButChance m n ∧ m.chance = a.drawn i ∧ n.chance = b.drawn i

/-- What was seen at two machines that differ in nothing but their sources. -/
inductive Event.Matches : Event → Event → Prop
  | ran {limit : Option Nat} {result : Except Fault Unit} {log log' : List Machine}
      (h : List.Forall₂ SameButChance log log') : Matches (ran limit result log) (ran limit result log')
  | queued (lines : List String) : Matches (queued lines) (queued lines)
  | took (output : String) (calls : Array Call) : Matches (took output calls) (took output calls)

namespace Machine.Drawn

variable {a b : WordSource} {i k : Nat} {m m' n : Machine} {stop : Stop} {left : Nat}

/-- What is particular about the relation, as long as no direction is drawn. -/
theorem steady (a b : WordSource) (i : Nat) : Steady (Drawn a b i) (fun _ => False) :=
  steady_sameButChance fun s t => s = a.drawn i ∧ t = b.drawn i

theorem fetch?_eq (h : Drawn a b i m n) : n.fetch? = m.fetch? := by
  rw [fetch?, fetch?, h.1.cursor_eq, h.1.field_eq]

theorem instruction?_eq (h : Drawn a b i m n) : n.instruction? = m.instruction? := by
  rw [instruction?, instruction?, h.fetch?_eq, h.1.cursor_eq]

/-- The same direction is taken by both. -/
theorem turned (h : Drawn a b i m n) (hsame : (a.drawn i).heading? = (b.drawn i).heading?) :
    Drawn a b (i + 1) m.turned n.turned := by
  refine ⟨⟨h.1.field_eq, h.1.stack_eq, ?_, h.1.console_eq⟩, ?_, ?_⟩
  · show (n.chance.heading?.elim n.cursor n.cursor.turn).advance
      = (m.chance.heading?.elim m.cursor m.cursor.turn).advance
    rw [h.1.cursor_eq, h.2.1, h.2.2, hsame]
  · show m.chance.draw = _
    rw [h.2.1]
    rfl
  · show n.chance.draw = _
    rw [h.2.2]
    rfl

/-- Any other dispatch follows itself. -/
theorem dispatch_follows {v : Cell} (h : Drawn a b i m n) (hf : m.fetch? = some v)
    (hdraw : m.instruction? ≠ some .goRandom) :
    Follows (Drawn a b i) (fun _ => False) (dispatch v) (dispatch v) m n := by
  refine (steady a b i).dispatch_of_perform v h fun hperformed => ?_
  refine (steady a b i).perform_follows _ (fun hrandom => ?_) h
  rcases instruction?_of_performed hf hperformed with hi | hquote
  · exact hdraw (hi.trans (congrArg some hrandom))
  · nomatch hrandom.symm.trans hquote

/-- Where one run stops so does the other.  Neither draws there, as a draw is obeyed. -/
theorem stops (h : Drawn a b i m n) (hs : m.Stops left stop m') :
    draws (m.dispatched left) = 0 ∧ ∃ n', n.Stops left stop n' ∧ Drawn a b i m' n' ∧
      List.Forall₂ SameButChance (m.dispatched left) (n.dispatched left) := by
  have hno : ∀ v fault, m.fetch? = some v → dispatch v m = .error fault m' →
      m.instruction? ≠ some .goRandom := by
    intro v fault hf hd hdraw
    rw [dispatch_of_draw hdraw hf] at hd
    nomatch hd
  obtain ⟨n', hn, hR⟩ := ((steady a b i).stops_of_dispatch h
    (fun v fault hf hd => h.dispatch_follows hf (hno v fault hf hd)) hs).resolve_left (by simp)
  refine ⟨?_, n', hn, hR, ?_⟩
  · rcases (hs.dispatched_eq Iff.rfl).2 with ⟨hnil, -⟩ | ⟨v, fault, hf, -, hd, hone⟩
    · rw [hnil, draws_nil]
    · rw [hone, draws_single_eq_zero (hno v fault hf hd)]
  · cases left with
    | zero => exact .nil
    | succ left =>
      refine forall₂_dispatched h.1 hs.step?_eq_none hn.step?_eq_none ?_
      rw [h.fetch?_eq]
      cases m.fetch? with
      | none => exact Or.inl ⟨rfl, rfl⟩
      | some v => exact Or.inr ⟨v, v, rfl, rfl, Iff.rfl⟩

variable (hsame : ∀ i < k, (a.drawn i).heading? = (b.drawn i).heading?)

include hsame

/-- One more instruction.  If it is a random turn, it is one of those that agree. -/
theorem step? (h : Drawn a b i m n) (hs : m.step? = some m') (hk : i + draws [m] ≤ k) :
    ∃ n', n.step? = some n' ∧ Drawn a b (i + draws [m]) m' n' := by
  by_cases hdraw : m.instruction? = some .goRandom
  · rw [draws_single_eq_one hdraw] at hk ⊢
    obtain rfl := Option.some.inj ((step?_of_draw hdraw).symm.trans hs)
    exact ⟨n.turned, step?_of_draw (h.instruction?_eq.trans hdraw), h.turned (hsame i (by omega))⟩
  · rw [draws_single_eq_zero hdraw]
    obtain ⟨v, hf, hv, hd⟩ := step?_eq_some_iff.mp hs
    obtain ⟨n', hn, hR⟩ := (h.dispatch_follows hf hdraw).of_ok hd
    exact ⟨n', step?_eq_some_iff.mpr ⟨v, h.fetch?_eq.trans hf, hv, hn⟩, hR⟩

/-- Any number of instructions. -/
theorem after? {j : Nat} (h : Drawn a b i m n) (hs : m.after? j = some m')
    (hk : i + draws (m.dispatched j) ≤ k) :
    ∃ n', n.after? j = some n' ∧ Drawn a b (i + draws (m.dispatched j)) m' n' ∧
      List.Forall₂ SameButChance (m.dispatched j) (n.dispatched j) := by
  induction j generalizing m n i with
  | zero =>
    obtain rfl := Option.some.inj hs
    exact ⟨n, rfl, h, .nil⟩
  | succ j ih =>
    obtain ⟨m₁, hm₁, hs⟩ := after?_succ_eq_some_iff.mp hs
    have hdraws : draws (m.dispatched (j + 1)) = draws [m] + draws (m₁.dispatched j) := by
      rw [dispatched_of_step hm₁, ← draws_append]
      rfl
    rw [hdraws, ← Nat.add_assoc] at hk ⊢
    obtain ⟨n₁, hn₁, h₁⟩ := h.step? hsame hm₁ (by omega)
    obtain ⟨n', hn', hR, hlog⟩ := ih h₁ hs hk
    rw [dispatched_of_step hm₁, dispatched_of_step hn₁]
    exact ⟨n', after?_succ_eq_some_iff.mpr ⟨n₁, hn₁, hn'⟩, hR, .cons h.1 hlog⟩

/-- A whole run. -/
theorem run {limit : Option Nat} {result : Except Fault Unit} {log : List Machine}
    (h : Drawn a b i m n) (hrun : m.run limit = some (result, m')) (hlog : m.Dispatches limit log)
    (hk : i + draws log ≤ k) :
    ∃ n' log', n.run limit = some (result, n') ∧ n.Dispatches limit log' ∧
      List.Forall₂ SameButChance log log' ∧ Drawn a b (i + draws log) m' n' := by
  obtain ⟨j, left, m₁, stop, m₂, hlimit, hj, hs, hfin⟩ := run_eq_some_iff.mp hrun
  obtain rfl := (dispatches_iff hlimit hj hs).mp hlog
  rw [draws_append, ← Nat.add_assoc] at hk ⊢
  obtain ⟨n₁, hn₁, h₁, hlog₁⟩ := ((steady a b i).reset h).after? hsame hj (by omega)
  obtain ⟨hzero, n₂, hn₂, h₂, hlog₂⟩ := h₁.stops hs
  obtain ⟨n', hn', hR⟩ := (steady a b _).finish_follows h₂ (limit.getD 0) stop
  rw [hfin] at hn' hR
  rw [hzero]
  exact ⟨n', _, run_eq_some_iff.mpr ⟨j, left, n₁, stop, n₂, hlimit, hn₁, hn₂, hn'⟩,
    (dispatches_iff hlimit hn₁ hn₂).mpr rfl, List.rel_append hlog₁ hlog₂, hR⟩

/-- A whole history. -/
theorem history {events : List Event} (h : Drawn a b i m n) (hm : History m events m')
    (hk : i + draws (dispatchedIn events) ≤ k) :
    ∃ events' n', History n events' n' ∧ List.Forall₂ Event.Matches events events' ∧
      Drawn a b (i + draws (dispatchedIn events)) m' n' := by
  induction hm with
  | start => exact ⟨[], n, .start, .nil, h⟩
  | snoc before hlast ih =>
    rw [dispatchedIn_concat, draws_append, ← Nat.add_assoc] at hk ⊢
    obtain ⟨events', n₁, hn₁, hmatches, h₁⟩ := ih (by omega)
    cases hlast with
    | ran hrun hlog =>
      obtain ⟨n', log', hn', hlog', hsame', hR⟩ := h₁.run hsame hrun hlog hk
      exact ⟨_, n', hn₁.snoc (.ran hn' hlog'),
        List.rel_append hmatches (.cons (.ran hsame') .nil), hR⟩
    | queued lines =>
      refine ⟨_, _, hn₁.snoc (.queued lines), List.rel_append hmatches (.cons (.queued lines) .nil),
        ⟨h₁.1.field_eq, h₁.1.stack_eq, h₁.1.cursor_eq, ?_⟩, h₁.2⟩
      exact congrArg (Console.queue · lines) h₁.1.console_eq
    | took =>
      refine ⟨_, _, hn₁.snoc .took, List.rel_append hmatches (.cons ?_ .nil),
        ⟨h₁.1.field_eq, h₁.1.stack_eq, h₁.1.cursor_eq, ?_⟩, h₁.2⟩
      · rw [h₁.1.console_eq]
        exact .took _ _
      · exact congrArg (fun c : Console => c.takeOutput.2.takeCalls.2) h₁.1.console_eq

end Machine.Drawn

/-! ## Seeds -/

namespace Machine

variable {m m₁ : Machine} {a : UInt64} {events : List Event}

/-- Sources of two seeds draw the same direction where their samples are the same. -/
theorem heading?_eq_of_isSample_iff {a b : UInt64} {i : Nat}
    (h : ∀ d, IsSample (streamWord (keyOfSeed a)) i d ↔ IsSample (streamWord (keyOfSeed b)) i d) :
    ((WordSource.ofSeed a).drawn i).heading? = ((WordSource.ofSeed b).drawn i).heading? := by
  refine Option.ext fun d => ?_
  rw [WordSource.heading?_drawn_iff (WordSource.cyclic_ofSeed a) rfl,
    WordSource.heading?_drawn_iff (WordSource.cyclic_ofSeed b) rfl]
  exact h d

/-- **The seed matters only through the directions used.**  Let anything have happened to a machine
    whose source is that of seed `a`.

    Wherever the next run comes to a random turn, the turn takes the sample of the seed's stream whose
    number is that of the turns before it, over all runs: the stream never starts again.  There is
    exactly one such sample, if the stream has any.

    Let the first `k` samples of another seed be the same.  If no more than `k` turns were taken, all
    the same happens with that seed, and the machine it leaves differs in nothing but its source; and
    so do the machines of the next run, as long as it takes no more than `k` turns in all. -/
theorem history_directions (hm : m.chance = .ofSeed a) (h : History m events m₁) :
    (∀ n s, m₁.reset.after? n = some s → s.instruction? = some .goRandom →
      ∃ s', s.step? = some s' ∧
        ∀ d, IsSample (streamWord (keyOfSeed a))
          (draws (dispatchedIn events ++ m₁.reset.dispatched n)) d → s'.cursor.dir = d) ∧
      ((∃ j, accepts (streamWord (keyOfSeed a) j) = true) →
        ∀ i, ∃ d, IsSample (streamWord (keyOfSeed a)) i d ∧
          ∀ d', IsSample (streamWord (keyOfSeed a)) i d' → d' = d) ∧
      ∀ (b : UInt64) (k : Nat),
        (∀ i < k, ∀ d, IsSample (streamWord (keyOfSeed a)) i d
          ↔ IsSample (streamWord (keyOfSeed b)) i d) →
        draws (dispatchedIn events) ≤ k →
        ∃ events' n₁, History { m with chance := .ofSeed b } events' n₁ ∧
          List.Forall₂ Event.Matches events events' ∧ SameButChance m₁ n₁ ∧
          ∀ n s, m₁.reset.after? n = some s →
            draws (dispatchedIn events ++ m₁.reset.dispatched n) ≤ k →
            ∃ s', n₁.reset.after? n = some s' ∧ SameButChance s s' := by
  refine ⟨fun n s hs hdraw => ?_, fun ⟨j, hj⟩ i => ?_, fun b k hsame hk => ?_⟩
  · refine ⟨s.turned, step?_of_draw hdraw, fun d hd => ?_⟩
    have hchance := tally_drawn.moment h hs
    have hheading : s.chance.heading? = some d := by
      rw [hchance, hm]
      exact (WordSource.heading?_drawn_iff (WordSource.cyclic_ofSeed a) rfl _).mpr hd
    show (s.chance.heading?.elim s.cursor s.cursor.turn).advance.dir = d
    rw [hheading]
    rfl
  · obtain ⟨d, hd⟩ := WordSource.exists_isSample (WordSource.cyclic_ofSeed a) rfl hj i
    exact ⟨d, hd, fun d' hd' => hd'.unique hd⟩
  · have hheadings : ∀ i < k, ((WordSource.ofSeed a).drawn i).heading?
        = ((WordSource.ofSeed b).drawn i).heading? := fun i hi =>
      heading?_eq_of_isSample_iff (hsame i hi)
    have hstart : Drawn (.ofSeed a) (.ofSeed b) 0 m { m with chance := .ofSeed b } :=
      ⟨⟨rfl, rfl, rfl, rfl⟩, hm, rfl⟩
    obtain ⟨events', n₁, hn₁, hmatches, h₁⟩ := hstart.history hheadings h (by omega)
    refine ⟨events', n₁, hn₁, hmatches, h₁.1, fun n s hs hmore => ?_⟩
    rw [draws_append] at hmore
    obtain ⟨s', hs', hR, -⟩ := ((Drawn.steady _ _ _).reset h₁).after? hheadings hs (by omega)
    exact ⟨s', hs', hR.1⟩

/-- Of the two question marks of this program the first one is quoted, so only the second is a random
    turn.  The first sample of seed 5 is south, and to the south the program halts.  That of seed 6 is
    south too, so all the same happens with it. -/
theorem history_directions_south :
    let m := Machine.start (Playfield.ofSource "\"?\"?\n   @") (Console.ofLines [] Failures.none)
      (.ofSeed 5)
    (∃ s s', m.reset.after? 3 = some s ∧ s.instruction? = some .goRandom ∧ s.step? = some s' ∧
      s'.cursor.dir = .south) ∧
    ∃ log m₁ events' n₁, History m [.ran (some 9) (.ok ()) log] m₁ ∧ log.length = 4 ∧ draws log = 1 ∧
      History { m with chance := .ofSeed 6 } events' n₁ ∧
      List.Forall₂ Event.Matches [.ran (some 9) (.ok ()) log] events' ∧ SameButChance m₁ n₁ := by
  intro m
  have hfirst (seed : UInt64) (hword : (accepts (streamWord (keyOfSeed seed) 0),
      directionOf (streamWord (keyOfSeed seed) 0)) = (true, .south)) :
      IsSample (streamWord (keyOfSeed seed)) 0 .south :=
    ⟨0, congrArg Prod.fst hword, rfl, congrArg Prod.snd hword⟩
  have hfive := hfirst 5 (by decide +kernel)
  have hsix := hfirst 6 (by decide +kernel)
  have hsame : ∀ i < 1, ∀ d, IsSample (streamWord (keyOfSeed 5)) i d
      ↔ IsSample (streamWord (keyOfSeed 6)) i d := by
    intro i hi d
    obtain rfl := Nat.lt_one_iff.mp hi
    exact ⟨fun h => h.unique hfive ▸ hsix, fun h => h.unique hsix ▸ hfive⟩
  constructor
  · have hnext : (m.reset.after? 3).bind instruction? = some .goRandom := by decide +kernel
    have hnone : draws (m.reset.dispatched 3) = 0 := by decide +kernel
    obtain ⟨s, hs, hdraw⟩ := Option.bind_eq_some_iff.mp hnext
    obtain ⟨s', hs', hturn⟩ := (history_directions (a := 5) rfl .start).1 3 s hs hdraw
    refine ⟨s, s', hs, hdraw, hs', hturn .south ?_⟩
    rw [dispatchedIn_nil, List.nil_append, hnone]
    exact hfive
  · obtain ⟨m₁, log, hrun, hlog, hlength, hdraws⟩ : ∃ m₁ log,
        m.run (some 9) = some (.ok (), m₁) ∧ m.Dispatches (some 9) log ∧ log.length = 4 ∧
          draws log = 1 :=
      ⟨_, _, run_some_of_runFor (by decide +kernel), rfl, by decide +kernel, by decide +kernel⟩
    have hhistory := History.single hrun hlog
    have hone : draws (dispatchedIn [.ran (some 9) (.ok ()) log]) ≤ 1 := by
      rw [← List.nil_append [_], dispatchedIn_concat]
      exact hdraws.le
    obtain ⟨events', n₁, hn₁, hmatches, hboth, -⟩ :=
      (history_directions (a := 5) rfl hhistory).2.2 6 1 hsame hone
    exact ⟨log, m₁, events', n₁, hhistory, hlength, hdraws, hn₁, hmatches, hboth⟩

end Machine

end Funge
