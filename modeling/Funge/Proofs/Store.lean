/-
  The playfield as a memory.

  Programs read and write the field they live on, so it is the one thing that lasts from run to run.
  `stores log` lists what the store instructions among some dispatches wrote, and where.  A field
  that `Remembers` them has, on every square, the value last stored there, and where nothing was
  stored it has what it had before.

  1. A dispatch is remembered: a store that succeeds is the only instruction that changes the field,
     and one that fails names no square of it (`tally_remembers`).
  2. Memories of one log after another are a memory of both (`Remembers.trans`).
  3. So whole histories are remembered, and at every moment of a run what is fetched and what is
     loaded is what was last stored (`history_remembers`).
-/
import Funge.Proofs.History
import Funge.Playfield.Lemmas

namespace Funge

/-! ## What is stored and loaded -/

namespace Stack

/-- What a store takes off the stack: a position and a value. -/
def storeOperands? (s : Stack) : Option (Position × Cell) :=
  match s.entries with
  | y :: x :: v :: _ => some (⟨x, y⟩, v)
  | _ => none

/-- What a load takes off the stack, a position, and the stack that is left. -/
def loadOperands? (s : Stack) : Option (Position × Stack) :=
  match s.entries with
  | y :: x :: rest => some (⟨x, y⟩, ⟨rest⟩)
  | _ => none

theorem storeOperands?_eq_some_iff {s : Stack} {p : Position} {v : Cell} :
    s.storeOperands? = some (p, v) ↔ ∃ rest, s.entries = p.y :: p.x :: v :: rest := by
  obtain ⟨px, py⟩ := p
  obtain ⟨_ | ⟨y, _ | ⟨x, _ | ⟨w, rest⟩⟩⟩⟩ := s <;>
    simp [storeOperands?, and_comm, and_assoc]

theorem loadOperands?_eq_some_iff {s rest : Stack} {p : Position} :
    s.loadOperands? = some (p, rest) ↔ s.entries = p.y :: p.x :: rest.entries := by
  obtain ⟨px, py⟩ := p
  obtain ⟨below⟩ := rest
  obtain ⟨_ | ⟨y, _ | ⟨x, entries⟩⟩⟩ := s <;>
    simp [loadOperands?, and_comm, and_assoc]

end Stack

namespace Machine

/-- What the next instruction stores, if it is a store that has its operands. -/
def store? (m : Machine) : Option (Position × Cell) :=
  if m.instruction? = some .store then m.stack.storeOperands? else none

/-- What the next instruction loads from, and the stack it leaves, if it is a load that has its
    operands. -/
def load? (m : Machine) : Option (Position × Stack) :=
  if m.instruction? = some .load then m.stack.loadOperands? else none

end Machine

/-- What was stored, in order. -/
def stores (log : List Machine) : List (Position × Cell) := log.filterMap Machine.store?

/-- The value last stored in a square. -/
def lastStored (p : Position) (stored : List (Position × Cell)) : Option Cell :=
  stored.reverse.lookup p

/-- The value a square of the field has once all this was stored: the last one, or the one from
    before. -/
def Playfield.remembered (f : Playfield) (stored : List (Position × Cell)) (p : Position) :
    Option Cell :=
  f[p]?.map fun v => (lastStored p stored).getD v

/-- The later of two stores counts. -/
theorem lastStored_append (p : Position) (stored more : List (Position × Cell)) :
    lastStored p (stored ++ more) = (lastStored p more).or (lastStored p stored) := by
  rw [lastStored, List.reverse_append, List.lookup_append]
  rfl

theorem lastStored_single (p q : Position) (v : Cell) :
    lastStored q [(p, v)] = if p = q then some v else none := by
  by_cases h : p = q
  · subst h
    simp [lastStored]
  · have hne : (q == p) = false := beq_eq_false_iff_ne.mpr (Ne.symm h)
    simp [lastStored, List.lookup_cons, hne, h]

/-! ## Fields that remember -/

namespace Playfield

/-- The cells, row by row. -/
def cells (f : Playfield) : List Cell := f.rows.toList.flatMap Vector.toList

theorem length_cells (f : Playfield) : f.cells.length = f.width * f.height := by
  have hrow : f.rows.toList.map (fun row => row.toList.length)
      = f.rows.toList.map fun _ => f.width := List.map_congr_left fun row _ => Vector.length_toList
  rw [cells, List.length_flatMap, hrow, List.map_const', List.sum_replicate_nat, height,
    Array.length_toList, Nat.mul_comm]

/-- Field `g` is field `f` after all this was stored. -/
structure Remembers (f : Playfield) (stored : List (Position × Cell)) (g : Playfield) : Prop where
  width_eq : g.width = f.width
  height_eq : g.height = f.height
  /-- Every square has the value last stored there. -/
  getElem?_eq : ∀ p, g[p]? = f.remembered stored p
  /-- A field may be so large that no position names a square; then that square is as before. -/
  cell?_eq : ∀ x y, (∀ p ∈ f, ¬ (p.col = x ∧ p.row = y)) → g.cell? x y = f.cell? x y

namespace Remembers

variable {f g : Playfield} {p : Position} {v : Cell} {stored more : List (Position × Cell)}

theorem mem_iff (h : Remembers f stored g) : p ∈ g ↔ p ∈ f := by
  rw [mem_def, mem_def, h.width_eq, h.height_eq]

theorem nil (h : g = f) : Remembers f [] g := by
  subst h
  refine ⟨rfl, rfl, fun p => ?_, fun _ _ _ => rfl⟩
  cases hp : g[p]? with
  | none => rw [remembered, hp]; rfl
  | some v => rw [remembered, hp]; rfl

/-- What is written is remembered. -/
theorem set (h : p ∈ f) : Remembers f [(p, v)] (f.set p v h) := by
  refine ⟨rfl, height_set h, fun q => ?_, fun x y hxy => ?_⟩
  · rw [getElem?_set, remembered, lastStored_single]
    by_cases hq : p = q
    · subst hq
      rw [if_pos rfl, if_pos rfl, getElem?_pos f p h]
      rfl
    · rw [if_neg hq, if_neg hq]
      cases f[q]? <;> rfl
  · rw [cell?_set, if_neg (hxy p h)]

/-- A store outside the field changes no square of it. -/
theorem outside (h : p ∉ f) : Remembers f [(p, v)] f := by
  refine ⟨rfl, rfl, fun q => ?_, fun _ _ _ => rfl⟩
  rw [remembered, lastStored_single]
  by_cases hq : p = q
  · subst hq
    rw [getElem?_eq_none_iff.mpr h]
    rfl
  · rw [if_neg hq]
    cases f[q]? <;> rfl

/-- Memories add up. -/
theorem trans {e : Playfield} (h : Remembers f stored g) (h' : Remembers g more e) :
    Remembers f (stored ++ more) e := by
  refine ⟨h'.width_eq.trans h.width_eq, h'.height_eq.trans h.height_eq, fun p => ?_,
    fun x y hxy => ?_⟩
  · rw [h'.getElem?_eq, remembered, h.getElem?_eq, remembered, remembered, lastStored_append, Option.map_map]
    refine Option.map_congr fun v _ => ?_
    show (lastStored p more).getD _ = _
    cases lastStored p more <;> rfl
  · have hxy' : ∀ p ∈ g, ¬ (p.col = x ∧ p.row = y) := fun p hp => hxy p (h.mem_iff.mp hp)
    rw [h'.cell?_eq x y hxy', h.cell?_eq x y hxy]

end Remembers

end Playfield

/-! ## One dispatch -/

namespace Exec

variable {m : Machine} {op : Char} {p : Position}

/-- Taking the top entry off a stack that is known to have one. -/
theorem ends_pop_cons {C : Cell → Machine → Prop} {F : Fault → Machine → Prop} {v : Cell}
    {rest : List Cell} (h : m.stack.entries = v :: rest) (hC : C v { m with stack := ⟨rest⟩ }) :
    Ends (pop op) C F m := by
  unfold Ends pop Stack.pop?
  rw [h]
  exact hC

/-- A store with its operands writes the value on the square, or the field has no such square. -/
theorem perform_store {v : Cell} (h : m.stack.storeOperands? = some (p, v)) :
    Ends (perform op .store) (fun _ m' => ∃ hp : p ∈ m.field, m'.field = m.field.set p v hp)
      (fun _ m' => m'.field = m.field ∧ p ∉ m.field) m := by
  obtain ⟨rest, hentries⟩ := Stack.storeOperands?_eq_some_iff.mp h
  refine ends_bind.mpr (ends_pop_cons hentries (ends_bind.mpr (ends_pop_cons rfl
    (ends_bind.mpr (ends_pop_cons rfl (ends_store.mpr ⟨fun hp => ⟨hp, rfl⟩, fun hp => ?_⟩))))))
  exact ⟨rfl, hp⟩

/-- Without them it faults, and the field stays. -/
theorem perform_store_none (h : m.stack.storeOperands? = none) :
    Ends (perform op .store) (fun _ _ => False) (fun _ m' => m'.field = m.field) m := by
  obtain ⟨field, ⟨_ | ⟨y, _ | ⟨x, _ | ⟨v, rest⟩⟩⟩⟩, cursor, console, chance⟩ := m
  case nil | cons.nil | cons.cons.nil => simp [perform, Stack.pop?]
  case cons.cons.cons => exact absurd h (Option.some_ne_none _)

/-- A load with its operands pushes the cell of the square, or the field has no such square. -/
theorem perform_load {rest : Stack} (h : m.stack.loadOperands? = some (p, rest)) :
    Ends (perform op .load) (fun _ m' => ∃ v, m.field[p]? = some v ∧ m'.stack = rest.push v)
      (fun _ _ => m.field[p]? = none) m := by
  have hentries := Stack.loadOperands?_eq_some_iff.mp h
  refine ends_bind.mpr (ends_pop_cons hentries (ends_bind.mpr (ends_pop_cons rfl
    (ends_bind.mpr (ends_load.mpr ⟨fun v hv => ⟨v, hv, rfl⟩, fun hp => ?_⟩)))))
  exact Playfield.getElem?_eq_none_iff.mpr hp

end Exec

namespace Machine

variable {m m' m₁ : Machine} {v : Cell}

/-- The field after a dispatch remembers it, whether it was obeyed or faulted. -/
theorem dispatch_remembers (hf : m.fetch? = some v) :
    Exec.Ends (Exec.dispatch v) (fun _ m' => m.field.Remembers (stores [m]) m'.field)
      (fun _ m' => m.field.Remembers (stores [m]) m'.field) m := by
  by_cases hstore : m.instruction? = some .store
  · rw [ends_dispatch_of_instruction? hstore hf]
    cases hoperands : m.stack.storeOperands? with
    | none =>
      have hstores : stores [m] = [] := by simp [stores, store?, hoperands]
      rw [hstores]
      exact (Exec.perform_store_none hoperands).mono (fun _ _ h => h.elim) fun _ _ h => .nil h
    | some operands =>
      obtain ⟨p, w⟩ := operands
      have hstores : stores [m] = [(p, w)] := by simp [stores, store?, hoperands, hstore]
      rw [hstores]
      refine (Exec.perform_store hoperands).mono ?_ ?_
      · rintro _ m' ⟨hp, hfield⟩
        rw [hfield]
        exact .set hp
      · rintro _ m' ⟨hfield, hp⟩
        rw [hfield]
        exact .outside hp
  · have hstores : stores [m] = [] := by simp [stores, store?, hstore]
    rw [hstores]
    exact (dispatch_keeps hf).mono (fun _ _ hm => .nil (hm.field_eq hstore))
      fun _ _ hm => .nil (hm.field_eq hstore)

/-- Dispatches are remembered. -/
theorem tally_remembers : Tally fun m log m' => m.field.Remembers (stores log) m'.field where
  nothing := fun hfield _ => .nil hfield
  obeyed := fun hf hd => (dispatch_remembers hf).of_ok hd
  faulted := fun hf hd => (dispatch_remembers hf).of_error hd
  trans := fun h h' => by
    rw [stores, List.filterMap_append]
    exact h.trans h'

/-- A load pushes the cell it names, if the field has it. -/
theorem step?_of_load? {p : Position} {rest : Stack} (h : m.load? = some (p, rest)) :
    m.step?.map Machine.stack = m.field[p]?.map rest.push := by
  have hload : m.instruction? = some .load ∧ m.stack.loadOperands? = some (p, rest) := by
    unfold load? at h
    split at h
    · rename_i hi
      exact ⟨hi, h⟩
    · nomatch h
  obtain ⟨-, v, hf, hdecode⟩ := instruction?_eq_some_iff.mp hload.1
  have hv : v ≠ Cell.halt := by
    rintro rfl
    rw [Instruction.decode_halt] at hdecode
    nomatch hdecode
  have hends : Exec.Ends (Exec.dispatch v)
      (fun _ m' => ∃ v, m.field[p]? = some v ∧ m'.stack = rest.push v)
      (fun _ _ => m.field[p]? = none) m :=
    (ends_dispatch_of_instruction? hload.1 hf).mpr (Exec.perform_load hload.2)
  cases hd : Exec.dispatch v m with
  | ok _ m' =>
    obtain ⟨w, hw, hstack⟩ := hends.of_ok hd
    rw [step?_eq_some_iff.mpr ⟨v, hf, hv, hd⟩, hw, Option.map_some, Option.map_some, hstack]
  | error fault m' =>
    rw [step?_eq_none_of_error hf hv hd, hends.of_error hd]
    rfl

/-- **The field is a memory.**  Whatever happened to a machine, its field remembers what was stored:
    the size is the same, every square has the value last stored there, over all runs, and where
    none was stored it has the one from the beginning.  At every moment of the next run, too, what
    is fetched under the cursor and what a load pushes is the value last stored there by then. -/
theorem history_remembers {events : List Event} (h : History m events m₁) :
    m.field.Remembers (stores (dispatchedIn events)) m₁.field ∧
      m₁.field.cells.length = m.field.width * m.field.height ∧
      ∀ n s, m₁.reset.after? n = some s →
        let stored := stores (dispatchedIn events ++ m₁.reset.dispatched n)
        m.field.Remembers stored s.field ∧ s.fetch? = m.field.remembered stored s.cursor.pos ∧
          ∀ p rest, s.load? = some (p, rest) →
            s.step?.map Machine.stack = (m.field.remembered stored p).map rest.push := by
  have hfield := tally_remembers.history h
  refine ⟨hfield, ?_, fun n s hs => ?_⟩
  · rw [Playfield.length_cells, hfield.width_eq, hfield.height_eq]
  · have hmoment := tally_remembers.moment h hs
    refine ⟨hmoment, hmoment.getElem?_eq _, fun p rest hload => ?_⟩
    rw [step?_of_load? hload, hmoment.getElem?_eq]

/-- The program `700p@` is run twice.  The first run stores a 7 in the first square.  The second one
    finds it there, so it pushes only the zeros, and its store lacks an operand. -/
theorem history_remembers_twice :
    let m := quiet "700p@"
    ∃ first second m₂,
      History m [.ran (some 9) (.ok ()) first,
        .ran (some 9) (.error (.stackUnderflow ⟨3, 0⟩ 'p')) second] m₂ ∧
      m.field.Remembers [(⟨0, 0⟩, 7)] m₂.field ∧ m₂.field[Position.origin]? = some 7 := by
  intro m
  obtain ⟨m₁, first, hrun, hlog, hstored, hfault, hnothing⟩ : ∃ m₁ first,
      m.run (some 9) = some (.ok (), m₁) ∧ m.Dispatches (some 9) first ∧
        stores first = [(⟨0, 0⟩, 7)] ∧
        (m₁.runFor 9).1 = .error (.stackUnderflow ⟨3, 0⟩ 'p') ∧
        stores (m₁.reset.dispatched 9) = [] :=
    ⟨_, _, run_some_of_runFor (by decide +kernel), rfl, by decide +kernel, by decide +kernel,
      by decide +kernel⟩
  have hhistory := (History.start.snoc (.ran hrun hlog)).snoc
    (.ran (run_some_of_runFor hfault) rfl)
  have hfield := (history_remembers hhistory).1
  rw [dispatchedIn_concat, dispatchedIn_concat] at hfield
  simp only [Event.dispatched, dispatchedIn_nil, List.nil_append] at hfield
  rw [stores, List.filterMap_append, ← stores, ← stores, hstored, hnothing] at hfield
  have hcell : m.field.remembered [(⟨0, 0⟩, 7)] Position.origin = some 7 := by decide +kernel
  exact ⟨_, _, _, hhistory, hfield, (hfield.getElem?_eq _).trans hcell⟩

end Machine

end Funge
