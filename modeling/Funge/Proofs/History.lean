/-
  Everything that happened to a machine.

  A machine is run again and again, with lines queued for it and its output taken in between.
  `History m events m'` says that this was done to machine `m`, that the events tell what was seen
  of it, and that it left machine `m'`.  Of a run an event keeps the machines at which it dispatched
  a cell, in order (`Machine.dispatched`): all that a run does to the field and to the source of
  directions it does there.

  Such a fact is a `Tally`: a relation between a machine, the dispatches since then and the machine
  they led to, which one dispatch establishes and which composes.  Then it holds of any number of
  instructions, of a run, and of a history (`Tally.history`), and at every moment of the run that
  comes after one (`Tally.moment`).
-/
import Funge.Proofs.Faults
import Funge.Proofs.Steps

namespace Funge

/-! ## What a dispatch leaves alone -/

namespace Exec

variable {m m' : Machine} {i : Option Instruction}

/-- Only a store touches the field, and only a random turn the source of directions. -/
structure Keeps (i : Option Instruction) (m m' : Machine) : Prop where
  field_eq : i ≠ some .store → m'.field = m.field
  chance_eq : i ≠ some .goRandom → m'.chance = m.chance

theorem Keeps.of_eq (hfield : m'.field = m.field) (hchance : m'.chance = m.chance) :
    Keeps i m m' := ⟨fun _ => hfield, fun _ => hchance⟩

@[simp] theorem keeps_iff :
    Keeps i m m' ↔
      (i ≠ some .store → m'.field = m.field) ∧ (i ≠ some .goRandom → m'.chance = m.chance) :=
  ⟨fun h => ⟨h.field_eq, h.chance_eq⟩, fun h => ⟨h.1, h.2⟩⟩

/-- What an instruction leaves alone, whether it is obeyed or fails. -/
theorem perform_keeps (op : Char) (i : Instruction) (m : Machine) :
    Ends (perform op i) (fun _ m' => Keeps i m m') (fun _ m' => Keeps i m m') m := by
  have hread : Ends readLine (fun _ m' => m'.field = m.field ∧ m'.chance = m.chance)
      (fun _ m' => m'.field = m.field ∧ m'.chance = m.chance) m := by simp
  cases i with
  | push | go | goRandom | branchHorizontal | branchVertical | toggleString | not | greater
  | duplicate | swap | discard | skip | load | store | halt | nothing | writeInteger | writeChar =>
    simp [perform]
  | arith => simp [ends_arith]
  | readInteger =>
    exact ends_readInteger.mpr (hread.mono
      (fun _ _ hm => ⟨fun _ _ => .of_eq hm.1 hm.2, fun _ => .of_eq hm.1 hm.2⟩)
      fun _ _ hm => .of_eq hm.1 hm.2)
  | readChar =>
    exact ends_readChar.mpr (hread.mono
      (fun _ _ hm => ⟨fun _ _ _ => .of_eq hm.1 hm.2, fun _ => .of_eq hm.1 hm.2⟩)
      fun _ _ hm => .of_eq hm.1 hm.2)

/-- Of the cursor, only a skip changes the position, and only the quote the mode. -/
theorem perform_steers (op : Char) (i : Instruction) (m : Machine) :
    Ends (perform op i)
      (fun _ m' => (i ≠ .skip → m'.cursor.pos = m.cursor.pos) ∧
        (i ≠ .toggleString → m'.cursor.stringMode = m.cursor.stringMode)) (fun _ _ => True) m := by
  have hread : Ends readLine (fun _ m' => m'.cursor = m.cursor) (fun _ _ => True) m := by simp
  cases i with
  | push | go | goRandom | branchHorizontal | branchVertical | toggleString | not | greater
  | duplicate | swap | discard | skip | load | store | halt | nothing | writeInteger
  | writeChar =>
    simp [perform, Cursor.turn, Cursor.toggle, Cursor.advance]
  | arith => simp [ends_arith]
  | readInteger =>
    exact ends_readInteger.mpr (hread.mono
      (fun _ _ hm => ⟨fun _ _ => ⟨fun _ => congrArg Cursor.pos hm,
        fun _ => congrArg Cursor.stringMode hm⟩, fun _ => trivial⟩) fun _ _ h => h)
  | readChar =>
    exact ends_readChar.mpr (hread.mono
      (fun _ _ hm => ⟨fun _ _ _ => ⟨fun _ => congrArg Cursor.pos hm,
        fun _ => congrArg Cursor.stringMode hm⟩, fun _ => trivial⟩) fun _ _ h => h)

end Exec

namespace Machine

variable {m m' : Machine} {v : Cell}

/-- The instruction that is next.  In string mode there is none. -/
def instruction? (m : Machine) : Option Instruction :=
  if m.cursor.stringMode then none else m.fetch?.map Instruction.decode

theorem instruction?_eq_some_iff {i : Instruction} :
    m.instruction? = some i ↔
      m.cursor.stringMode = false ∧ ∃ v, m.fetch? = some v ∧ Instruction.decode v = i := by
  unfold instruction?
  cases m.cursor.stringMode with
  | true => simp
  | false => simp [Option.map_eq_some_iff]

/-- What is performed is the next instruction; in string mode it is the quote. -/
theorem instruction?_of_performed (hf : m.fetch? = some v)
    (hperformed : (m.cursor.stringMode && v != Cell.quote) = false) :
    m.instruction? = some (Instruction.decode v) ∨ Instruction.decode v = .toggleString := by
  cases hmode : m.cursor.stringMode with
  | false => exact Or.inl (instruction?_eq_some_iff.mpr ⟨hmode, v, hf, rfl⟩)
  | true =>
    rw [hmode, Bool.true_and, bne_eq_false_iff_eq] at hperformed
    rw [hperformed]
    exact Or.inr Instruction.decode_quote

/-- Outside string mode a dispatch performs the instruction and steps on. -/
theorem ends_dispatch_of_instruction? {U : Unit → Machine → Prop} {F : Fault → Machine → Prop}
    {i : Instruction} (hi : m.instruction? = some i) (hf : m.fetch? = some v) :
    Exec.Ends (Exec.dispatch v) U F m ↔
      Exec.Ends (Exec.perform v.toChar i)
        (fun _ m' => U () { m' with cursor := m'.cursor.advance }) F m := by
  obtain ⟨hmode, w, hw, rfl⟩ := instruction?_eq_some_iff.mp hi
  obtain rfl : v = w := Option.some.inj (hf.symm.trans hw)
  rw [Exec.ends_dispatch, hmode, Bool.false_and, if_neg Bool.false_ne_true]

/-- What a dispatch leaves alone, whether it is obeyed or faults. -/
theorem dispatch_keeps (hf : m.fetch? = some v) :
    Exec.Ends (Exec.dispatch v) (fun _ m' => Exec.Keeps m.instruction? m m')
      (fun _ m' => Exec.Keeps m.instruction? m m') m := by
  rw [Exec.ends_dispatch]
  cases hquoted : m.cursor.stringMode && v != Cell.quote with
  | true => exact Exec.ends_push.mpr (.of_eq rfl rfl)
  | false =>
    rw [if_neg Bool.false_ne_true]
    rcases instruction?_of_performed hf hquoted with hi | hquote
    · rw [hi]
      exact (Exec.perform_keeps v.toChar (Instruction.decode v) m).mono
        (fun _ _ hm => ⟨hm.field_eq, hm.chance_eq⟩) fun _ _ hm => hm
    · rw [hquote]
      exact Exec.ends_steer.mpr (.of_eq rfl rfl)

end Machine

namespace Machine

variable {m m' m₁ : Machine} {stop : Stop} {left n : Nat}

/-! ## The dispatches of a run -/

/-- The machines at which the next `n` iterations dispatch a cell.  If the last of these dispatches
    faults, its machine is still among them. -/
def dispatched : (n : Nat) → Machine → List Machine
  | 0, _ => []
  | n + 1, m =>
    match m.fetch? with
    | none => []
    | some v => if v = Cell.halt then [] else m :: m.step?.elim [] (dispatched n)

/-- The machines at which a run dispatches a cell.  A run without a limit dispatches no more than in
    some number of iterations after which there is no next one. -/
def Dispatches (m : Machine) : (limit : Option Nat) → List Machine → Prop
  | some n, log => log = m.reset.dispatched n
  | none, log => ∃ n, m.reset.after? n = none ∧ log = m.reset.dispatched n

theorem dispatched_of_step (h : m.step? = some m₁) :
    m.dispatched (n + 1) = m :: m₁.dispatched n := by
  obtain ⟨v, hf, hv, -⟩ := step?_eq_some_iff.mp h
  rw [dispatched, hf]
  show (if v = Cell.halt then [] else m :: m.step?.elim [] (dispatched n)) = _
  rw [if_neg hv, h]
  rfl

/-- Without a next machine there is at most the dispatch that faults. -/
theorem dispatched_of_step?_eq_none (h : m.step? = none) :
    m.dispatched (n + 1) = m.fetch?.elim [] fun v => if v = Cell.halt then [] else [m] := by
  rw [dispatched, h]
  cases m.fetch? <;> rfl

/-- The dispatches after the first `k` are those of the machine reached by then. -/
theorem dispatched_add {k : Nat} (h : m.after? k = some m₁) :
    m.dispatched (k + n) = m.dispatched k ++ m₁.dispatched n := by
  induction k generalizing m with
  | zero =>
    obtain rfl := Option.some.inj h
    rw [Nat.zero_add]
    rfl
  | succ k ih =>
    obtain ⟨m₂, hs, hk⟩ := after?_succ_eq_some_iff.mp h
    rw [Nat.succ_add, dispatched_of_step hs, dispatched_of_step hs, ih hk, List.cons_append]

/-- Only on a square there is a next instruction. -/
theorem mem_of_step? (h : m.step? = some m') : m.cursor.pos ∈ m.field := by
  obtain ⟨v, hf, -, -⟩ := step?_eq_some_iff.mp h
  exact Playfield.mem_of_getElem?_eq_some hf

/-- Every dispatch is made at a moment of the run, on a square. -/
theorem exists_after?_of_mem_dispatched {s : Machine} (h : s ∈ m.dispatched n) :
    ∃ k < n, m.after? k = some s ∧ s.cursor.pos ∈ s.field := by
  induction n generalizing m with
  | zero => exact absurd h List.not_mem_nil
  | succ n ih =>
    cases hstep : m.step? with
    | some m₁ =>
      rw [dispatched_of_step hstep] at h
      rcases List.mem_cons.mp h with rfl | h
      · exact ⟨0, Nat.succ_pos n, rfl, mem_of_step? hstep⟩
      · obtain ⟨k, hlt, hk, hs⟩ := ih h
        exact ⟨k + 1, Nat.succ_lt_succ hlt, after?_succ_eq_some_iff.mpr ⟨m₁, hstep, hk⟩, hs⟩
    | none =>
      rw [dispatched_of_step?_eq_none hstep] at h
      cases hf : m.fetch? with
      | none => simp [hf] at h
      | some v =>
        obtain ⟨-, rfl⟩ : v ≠ Cell.halt ∧ s = m := by simpa [hf] using h
        exact ⟨0, Nat.succ_pos n, rfl, Playfield.mem_of_getElem?_eq_some hf⟩

/-- A dispatch that faults is not obeyed. -/
theorem step?_eq_none_of_error {v : Cell} {fault : Fault} (hf : m.fetch? = some v)
    (hv : v ≠ Cell.halt) (hd : Exec.dispatch v m = .error fault m') : m.step? = none := by
  have hstops : Stops 1 m (.faulted fault) m' := .faulted hf hv hd
  exact hstops.step?_eq_none

/-- Where a run stops it dispatches a cell only to fault. -/
theorem Stops.dispatched_eq (h : Stops left m stop m') (hn : 0 < n ↔ 0 < left) :
    m.dispatched n = m.dispatched left ∧
      (m.dispatched left = [] ∧ m' = m ∨
        ∃ v fault, m.fetch? = some v ∧ v ≠ Cell.halt ∧ Exec.dispatch v m = .error fault m' ∧
          m.dispatched left = [m]) := by
  cases h with
  | outside hf =>
    have hnone : ∀ j, m.dispatched j = [] := by
      intro j
      cases j with
      | zero => rfl
      | succ j => rw [dispatched, hf]
    exact ⟨by rw [hnone, hnone], Or.inl ⟨hnone _, rfl⟩⟩
  | halted hf =>
    have hnone : ∀ j, m.dispatched j = [] := by
      intro j
      cases j with
      | zero => rfl
      | succ j =>
        rw [dispatched, hf]
        exact if_pos rfl
    exact ⟨by rw [hnone, hnone], Or.inl ⟨hnone _, rfl⟩⟩
  | exhausted =>
    obtain rfl : n = 0 := by omega
    exact ⟨rfl, Or.inl ⟨rfl, rfl⟩⟩
  | @faulted left _ _ v fault hf hv hd =>
    obtain ⟨j, rfl⟩ : ∃ j, n = j + 1 := ⟨n - 1, by omega⟩
    have hone : ∀ j, m.dispatched (j + 1) = [m] := by
      intro j
      rw [dispatched, hf]
      show (if v = Cell.halt then [] else m :: m.step?.elim [] (dispatched j)) = _
      rw [if_neg hv, step?_eq_none_of_error hf hv hd]
      rfl
    exact ⟨by rw [hone, hone], Or.inr ⟨v, fault, hf, hv, hd, hone _⟩⟩

/-- The dispatches of a run that obeys `k` instructions and stops. -/
theorem dispatches_iff {limit : Option Nat} {k : Nat} {log : List Machine}
    (hlimit : limit = none ∧ left = 1 ∨ limit = some (k + left))
    (hk : m.reset.after? k = some m₁) (hs : Stops left m₁ stop m') :
    m.Dispatches limit log ↔ log = m.reset.dispatched k ++ m₁.dispatched left := by
  rcases hlimit with ⟨rfl, rfl⟩ | rfl
  · -- any number of iterations that is too large gives the same dispatches
    constructor
    · rintro ⟨n, hnone, rfl⟩
      obtain ⟨j, rfl⟩ : ∃ j, n = k + (j + 1) := by
        rcases Nat.lt_or_ge k n with hlt | hle
        · exact ⟨n - k - 1, by omega⟩
        · obtain ⟨m₂, hm₂⟩ := after?_of_le hk hle
          rw [hnone] at hm₂
          nomatch hm₂
      rw [dispatched_add hk, (hs.dispatched_eq (n := j + 1) (by omega)).1]
    · rintro rfl
      refine ⟨k + 1, ?_, (dispatched_add hk).symm⟩
      rw [after?_succ_of_after? hk, hs.step?_eq_none]
  · show log = m.reset.dispatched (k + left) ↔ _
    rw [dispatched_add hk]

/-- A run that ends has dispatches. -/
theorem exists_dispatches {limit : Option Nat} {result : Except Fault Unit}
    (h : m.run limit = some (result, m')) : ∃ log, m.Dispatches limit log := by
  obtain ⟨k, left, m₁, stop, m₂, hlimit, hk, hs, -⟩ := run_eq_some_iff.mp h
  exact ⟨_, (dispatches_iff hlimit hk hs).mpr rfl⟩

/-- The end of a run touches neither the field nor the source of directions. -/
theorem finish_kept (limit : Nat) (stop : Stop) (m : Machine) :
    (m.finish limit stop).2.field = m.field ∧ (m.finish limit stop).2.chance = m.chance := by
  cases stop with
  | faulted => exact ⟨rfl, rfl⟩
  | exhausted => exact ⟨rfl, rfl⟩
  | halted =>
    rw [finish_halted]
    split
    · exact ⟨rfl, rfl⟩
    · exact ⟨rfl, rfl⟩

/-- The machine with more lines queued. -/
def queue (m : Machine) (lines : List String) : Machine :=
  { m with console := m.console.queue lines }

/-- The machine with its output and the record of its calls taken away. -/
def taken (m : Machine) : Machine :=
  { m with console := m.console.takeOutput.2.takeCalls.2 }

end Machine

/-! ## Histories -/

/-- One thing done to a machine, with what is seen of it. -/
inductive Event where
  /-- A run, its result, and the machines at which it dispatched a cell. -/
  | ran (limit : Option Nat) (result : Except Fault Unit) (dispatched : List Machine)
  /-- More lines were queued. -/
  | queued (lines : List String)
  /-- The output and the calls were taken. -/
  | took (output : String) (calls : Array Call)

namespace Event

/-- The machines at which a cell was dispatched. -/
def dispatched : Event → List Machine
  | ran _ _ dispatched => dispatched
  | queued _ | took _ _ => []

/-- The event leads from the first machine to the second. -/
inductive Leads : Machine → Event → Machine → Prop
  | ran {m m' : Machine} {limit : Option Nat} {result : Except Fault Unit} {log : List Machine}
      (h : m.run limit = some (result, m')) (hlog : m.Dispatches limit log) :
      Leads m (ran limit result log) m'
  | queued {m : Machine} (lines : List String) : Leads m (queued lines) (m.queue lines)
  | took {m : Machine} : Leads m (took m.console.output m.console.calls) m.taken

end Event

/-- The events happened to the first machine, one after the other, and left the second. -/
inductive History : Machine → List Event → Machine → Prop
  | start {m : Machine} : History m [] m
  | snoc {m m₁ m' : Machine} {events : List Event} {event : Event} (before : History m events m₁)
      (h : event.Leads m₁ m') : History m (events ++ [event]) m'

/-- All dispatches of a history. -/
def dispatchedIn (events : List Event) : List Machine := events.flatMap Event.dispatched

@[simp] theorem dispatchedIn_nil : dispatchedIn [] = [] := rfl

@[simp] theorem dispatchedIn_concat (events : List Event) (event : Event) :
    dispatchedIn (events ++ [event]) = dispatchedIn events ++ event.dispatched := by
  simp [dispatchedIn]

/-- A single run is a history. -/
theorem History.single {m m' : Machine} {limit : Option Nat} {result : Except Fault Unit}
    {log : List Machine} (h : m.run limit = some (result, m')) (hlog : m.Dispatches limit log) :
    History m [.ran limit result log] m' := .snoc .start (.ran h hlog)

/-! ## What is told by the dispatches -/

/-- A relation between a machine, the dispatches since then, and the machine they led to. -/
structure Tally (P : Machine → List Machine → Machine → Prop) : Prop where
  /-- Only the field and the source of directions are looked at. -/
  nothing : ∀ {m m' : Machine}, m'.field = m.field → m'.chance = m.chance → P m [] m'
  /-- An instruction that is obeyed is told of ... -/
  obeyed : ∀ {m m' : Machine} {v : Cell}, m.fetch? = some v → Exec.dispatch v m = .ok () m' →
    P m [m] m'
  /-- ... and so is one that faults. -/
  faulted : ∀ {m m' : Machine} {v : Cell} {fault : Fault}, m.fetch? = some v →
    Exec.dispatch v m = .error fault m' → P m [m] m'
  /-- Dispatches add up. -/
  trans : ∀ {m m₁ m' : Machine} {log more : List Machine}, P m log m₁ → P m₁ more m' →
    P m (log ++ more) m'

namespace Tally

variable {P : Machine → List Machine → Machine → Prop} (T : Tally P) {m m' m₁ : Machine}

include T

/-- Nothing told of is lost in a reset. -/
theorem of_reset {log : List Machine} (h : P m.reset log m') : P m log m' := by
  have hreset : P m [] m.reset := T.nothing rfl rfl
  exact List.nil_append log ▸ T.trans hreset h

theorem after? {n : Nat} (h : m.after? n = some m') : P m (m.dispatched n) m' := by
  induction n generalizing m with
  | zero =>
    obtain rfl := Option.some.inj h
    exact T.nothing rfl rfl
  | succ n ih =>
    obtain ⟨m₁, hs, hrest⟩ := Machine.after?_succ_eq_some_iff.mp h
    obtain ⟨v, hf, -, hd⟩ := Machine.step?_eq_some_iff.mp hs
    rw [Machine.dispatched_of_step hs]
    exact T.trans (T.obeyed hf hd) (ih hrest)

theorem stops {left : Nat} {stop : Stop} (h : Machine.Stops left m stop m') :
    P m (m.dispatched left) m' := by
  rcases (h.dispatched_eq Iff.rfl).2 with ⟨hnil, rfl⟩ | ⟨v, fault, hf, -, hd, hone⟩
  · rw [hnil]
    exact T.nothing rfl rfl
  · rw [hone]
    exact T.faulted hf hd

/-- A run is told of by its dispatches, whatever it ends in. -/
theorem run {limit : Option Nat} {result : Except Fault Unit} {log : List Machine}
    (h : m.run limit = some (result, m')) (hlog : m.Dispatches limit log) : P m log m' := by
  obtain ⟨k, left, m₁, stop, m₂, hlimit, hk, hs, hfin⟩ := Machine.run_eq_some_iff.mp h
  obtain rfl := (Machine.dispatches_iff hlimit hk hs).mp hlog
  obtain ⟨hfield, hchance⟩ := Machine.finish_kept (limit.getD 0) stop m₂
  rw [hfin] at hfield hchance
  have hbody : P m.reset (m.reset.dispatched k ++ m₁.dispatched left ++ []) m' :=
    T.trans (T.trans (T.after? hk) (T.stops hs)) (T.nothing hfield hchance)
  rw [List.append_nil] at hbody
  exact T.of_reset hbody

/-- So is a history. -/
theorem history {events : List Event} (h : History m events m') :
    P m (dispatchedIn events) m' := by
  induction h with
  | start => exact T.nothing rfl rfl
  | snoc _ hlast ih =>
    rw [dispatchedIn_concat]
    refine T.trans ih ?_
    cases hlast with
    | ran hrun hlog => exact T.run hrun hlog
    | queued => exact T.nothing rfl rfl
    | took => exact T.nothing rfl rfl

/-- At every moment of the run after a history the dispatches so far tell of the machine. -/
theorem moment {events : List Event} {n : Nat} {s : Machine} (h : History m events m₁)
    (hs : m₁.reset.after? n = some s) : P m (dispatchedIn events ++ m₁.reset.dispatched n) s :=
  T.trans (T.history h) (T.of_reset (T.after? hs))

end Tally

end Funge
