/-
  Cells that do nothing.

  Most cells are not the cell of any instruction.  The cursor passes over them, so it does not
  matter which of them a square holds, as long as the program does not look: in string mode it
  pushes the cells it passes, and a load pushes the cell it names.

  1. Fields that are `SameButIdle` have the same size and the same cells, but where one has a cell
     that does nothing the other may have another.  Writing keeps them so.
  2. Two machines with such fields and the same of all else stay so at every instruction but a load
     (`level_sameButIdle`), and at a load that finds the same cell (`perform_load_follows`).
  3. Without a quote there is no string mode (`stringMode_eq_false`), so every dispatch performs an
     instruction.  The halting cell, which is looked at before it is decoded, is an instruction, so
     it can be interchanged with no other cell (`halt_iff`).
  4. So each moment of the one run has a moment of the other (`moment_of_moment`).

  `run_idle` compares whole runs.
-/
import Funge.Proofs.Directions
import Funge.Proofs.Store

namespace Funge

/-! ## Fields -/

/-- The cells are the same, or neither of them does anything. -/
def Cell.Interchangeable (v w : Cell) : Prop :=
  w = v ∨ Instruction.decode v = .nothing ∧ Instruction.decode w = .nothing

namespace Cell.Interchangeable

variable {v w : Cell}

instance : Decidable (Interchangeable v w) := inferInstanceAs (Decidable (_ ∨ _))

theorem refl (v : Cell) : Interchangeable v v := Or.inl rfl

/-- A cell that does something is itself only. -/
theorem eq_iff {u : Cell} (h : Interchangeable v w) (hu : Instruction.decode u ≠ .nothing) :
    w = u ↔ v = u := by
  rcases h with rfl | ⟨hv, hw⟩
  · rfl
  · constructor
    · rintro rfl
      exact absurd hw hu
    · rintro rfl
      exact absurd hv hu

end Cell.Interchangeable

/-- The fields have the same size, and in each square cells that can be interchanged. -/
structure Playfield.SameButIdle (f g : Playfield) : Prop where
  width_eq : g.width = f.width
  height_eq : g.height = f.height
  cell : ∀ {x y v w}, f.cell? x y = some v → g.cell? x y = some w → Cell.Interchangeable v w

namespace Playfield.SameButIdle

variable {f g : Playfield} {p : Position} {v w : Cell}

/-- Only the squares of the fields have to be looked at. -/
theorem sameButIdle_iff :
    SameButIdle f g ↔ g.width = f.width ∧ g.height = f.height ∧
      ∀ x < f.width, ∀ y < f.height, (f.cell? x y).all (fun v =>
        (g.cell? x y).all fun w => decide (Cell.Interchangeable v w)) = true := by
  simp only [Option.all_eq_true, decide_eq_true_eq]
  constructor
  · exact fun h => ⟨h.width_eq, h.height_eq, fun _ _ _ _ _ hv _ hw => h.cell hv hw⟩
  · rintro ⟨hwidth, hheight, hcell⟩
    refine ⟨hwidth, hheight, fun {x y v w} hv hw => ?_⟩
    obtain ⟨hx, hy⟩ := lt_of_cell?_eq_some hv
    exact hcell x hx y hy v hv w hw

instance : Decidable (SameButIdle f g) := decidable_of_iff' _ sameButIdle_iff

theorem mem_iff (h : SameButIdle f g) : p ∈ g ↔ p ∈ f := by
  rw [mem_def, mem_def, h.width_eq, h.height_eq]

/-- What a position reads on the fields. -/
theorem getElem? (h : SameButIdle f g) (p : Position) :
    f[p]? = none ∧ g[p]? = none ∨
      ∃ v w, f[p]? = some v ∧ g[p]? = some w ∧ Cell.Interchangeable v w := by
  by_cases hp : p ∈ f
  · have hq := h.mem_iff.mpr hp
    have hv : f[p]? = some f[p] := getElem?_pos f p hp
    have hw : g[p]? = some g[p] := getElem?_pos g p hq
    exact Or.inr ⟨_, _, hv, hw,
      h.cell ((getElem?_eq_cell? hp).symm.trans hv) ((getElem?_eq_cell? hq).symm.trans hw)⟩
  · exact Or.inl ⟨getElem?_eq_none_iff.mpr hp, getElem?_eq_none_iff.mpr (mt h.mem_iff.mp hp)⟩

/-- The same cell is written to both. -/
theorem set (h : SameButIdle f g) (hp : p ∈ f) (hq : p ∈ g) (u : Cell) :
    SameButIdle (f.set p u hp) (g.set p u hq) := by
  constructor
  · exact h.width_eq
  · rw [height_set, height_set, h.height_eq]
  · intro x y v w hv hw
    rw [cell?_set] at hv hw
    split at hv
    · rename_i hxy
      rw [if_pos hxy] at hw
      obtain rfl := Option.some.inj hv
      obtain rfl := Option.some.inj hw
      exact .refl _
    · rename_i hxy
      rw [if_neg hxy] at hw
      exact h.cell hv hw

end Playfield.SameButIdle

/-! ## Machines -/

/-- The machines differ in nothing but in cells that do nothing. -/
structure Machine.SameButIdle (m n : Machine) : Prop where
  field : m.field.SameButIdle n.field
  stack_eq : n.stack = m.stack
  cursor_eq : n.cursor = m.cursor
  console_eq : n.console = m.console
  chance_eq : n.chance = m.chance

theorem Machine.sameButIdle_start {f g : Playfield} (h : f.SameButIdle g) (console : Console)
    (chance : Random.WordSource) :
    SameButIdle (start f console chance) (start g console chance) := ⟨h, rfl, rfl, rfl, rfl⟩

open Machine Exec

/-- Such machines stay so as long as nothing is loaded. -/
theorem level_sameButIdle : Level SameButIdle (fun _ => False) := by
  have hcall {α : Type} {m n : Machine} (h : SameButIdle m n)
      (call : Console → Except String α × Console) :
      Follows SameButIdle (fun _ => False) (consult call) (consult call) m n := by
    refine follows_consult (by rw [h.console_eq]) h.cursor_eq ?_
    exact ⟨h.field, h.stack_eq, h.cursor_eq, by rw [h.console_eq], h.chance_eq⟩
  constructor
  case cursor_eq => exact SameButIdle.cursor_eq
  case stack_eq => exact SameButIdle.stack_eq
  case set_cursor => exact fun h _ => ⟨h.field, h.stack_eq, rfl, h.console_eq, h.chance_eq⟩
  case set_stack => exact fun h _ => ⟨h.field, rfl, h.cursor_eq, h.console_eq, h.chance_eq⟩
  case store =>
    intro m n h p v
    refine ends_store.mpr ⟨fun hp => ?_, fun hp => Or.inr ⟨n, ?_, h⟩⟩
    · have hq := h.field.mem_iff.mpr hp
      refine ⟨{ n with field := n.field.set p v hq }, ?_, h.field.set hp hq v, h.stack_eq,
        h.cursor_eq, h.console_eq, h.chance_eq⟩
      simp only [Exec.store, Playfield.set?, dif_pos hq]
    · have hq := mt h.field.mem_iff.mp hp
      simp only [Exec.store, Playfield.set?_eq_none_iff.mpr hq, h.cursor_eq]
  case readLine =>
    intro m n h
    exact follows_readLine (fun _ _ h => h.cursor_eq) (hcall h _) fun _ _ h => hcall h _
  case writeInteger => exact fun h v => hcall h (·.writeInteger v)
  case writeChar => exact fun h c => hcall h (·.writeChar c)
  case flush =>
    intro m n h
    rw [h.console_eq]
    exact ⟨rfl, h.field, h.stack_eq, h.cursor_eq, rfl, h.chance_eq⟩

namespace Machine

variable {m m' n s t : Machine} {v w : Cell}

/-- A load that finds the same cell in both fields follows itself. -/
theorem SameButIdle.perform_load_follows (h : SameButIdle m n) (op : Char)
    (hcell : ∀ p rest, m.stack.loadOperands? = some (p, rest) → p ∈ m.field →
      n.field[p]? = m.field[p]?) :
    Follows SameButIdle (fun _ => False) (perform op .load) (perform op .load) m n := by
  obtain ⟨field, ⟨entries⟩, cursor, console, chance⟩ := m
  obtain ⟨field', stack', cursor', console', chance'⟩ := n
  obtain ⟨hfield, hstack, hcursor, hconsole, hchance⟩ := h
  dsimp only at hfield hstack hcursor hconsole hchance hcell
  subst hstack hcursor hconsole hchance
  rcases entries with _ | ⟨y, _ | ⟨x, entries⟩⟩
  · exact Or.inr ⟨_, rfl, hfield, rfl, rfl, rfl, rfl⟩
  · exact Or.inr ⟨_, rfl, hfield, rfl, rfl, rfl, rfl⟩
  · -- both operands are there, and the load itself is left
    show Follows SameButIdle (fun _ => False) (load ⟨x, y⟩ >>= push) (load ⟨x, y⟩ >>= push)
      ⟨field, ⟨entries⟩, cursor', console', chance'⟩ ⟨field', ⟨entries⟩, cursor', console', chance'⟩
    have hrest : SameButIdle ⟨field, ⟨entries⟩, cursor', console', chance'⟩
        ⟨field', ⟨entries⟩, cursor', console', chance'⟩ := ⟨hfield, rfl, rfl, rfl, rfl⟩
    refine Follows.bind ?_ fun v _ _ h => level_sameButIdle.push h v
    refine ends_load.mpr ⟨fun v hv => ⟨_, ?_, hrest⟩, fun hp => Or.inr ⟨_, ?_, hrest⟩⟩
    · have hsame := (hcell ⟨x, y⟩ ⟨entries⟩ rfl (Playfield.mem_of_getElem?_eq_some hv)).trans hv
      simp only [Exec.load, hsame]
    · have hq := Playfield.getElem?_eq_none_iff.mpr (mt hfield.mem_iff.mp hp)
      simp only [Exec.load, hq]

/-- Outside string mode two cells that can be interchanged do the same, if a load finds the same. -/
theorem SameButIdle.dispatch_follows (h : SameButIdle s t) (hmode : s.cursor.stringMode = false)
    (hvw : Cell.Interchangeable v w)
    (hload : Instruction.decode v = .load → ∀ p rest, s.stack.loadOperands? = some (p, rest) →
      p ∈ s.field → t.field[p]? = s.field[p]?) :
    Follows SameButIdle (fun _ => False) (dispatch v) (dispatch w) s t := by
  have hperform : Follows SameButIdle (fun _ => False) (perform v.toChar (Instruction.decode v))
      (perform w.toChar (Instruction.decode w)) s t := by
    rcases hvw with rfl | ⟨hv, hw⟩
    · by_cases hrandom : Instruction.decode w = .goRandom
      · rw [hrandom]
        exact follows_steerRandomly h h.chance_eq h.cursor_eq
          fun _ _ => ⟨h.field, h.stack_eq, rfl, h.console_eq, rfl⟩
      · refine level_sameButIdle.perform_follows w.toChar hrandom (fun hi => ?_) h
        exact h.perform_load_follows w.toChar (hload hi)
    · rw [hv, hw]
      exact follows_pure h
  have hdispatch := hperform.bind fun _ _ _ h => level_sameButIdle.steer h Cursor.advance
  unfold Follows Ends at hdispatch ⊢
  rw [dispatch_apply v s, dispatch_apply w t, h.cursor_eq, hmode, Bool.false_and, Bool.false_and,
    if_neg Bool.false_ne_true, if_neg Bool.false_ne_true]
  exact hdispatch

/-! ## String mode -/

/-- Outside string mode only a quote leads into it. -/
theorem stringMode_of_step? (hmode : m.cursor.stringMode = false)
    (hquote : m.fetch? ≠ some Cell.quote) (hs : m.step? = some m') :
    m'.cursor.stringMode = false := by
  obtain ⟨v, hf, -, hd⟩ := step?_eq_some_iff.mp hs
  have hi : Instruction.decode v ≠ .toggleString := by
    intro htoggle
    have hglyph : (Instruction.decode v).glyph? = some '"' := by
      rw [htoggle]
      rfl
    have hv : v = Cell.quote := Instruction.eq_of_glyph?_decode hglyph
    exact hquote (hv ▸ hf)
  have hkept : Ends (dispatch v) (fun _ m' => m'.cursor.stringMode = false) (fun _ _ => True) m := by
    rw [ends_dispatch_of_instruction? (instruction?_eq_some_iff.mpr ⟨hmode, v, hf, rfl⟩) hf]
    exact (perform_steers v.toChar (Instruction.decode v) m).mono
      (fun _ _ hsteers => (hsteers.2 hi).trans hmode) fun _ _ h => h
  exact hkept.of_ok hd

/-- A run that dispatches no quote is never in string mode. -/
theorem stringMode_eq_false {k : Nat}
    (hquote : ∀ j < k, ∀ s, m.reset.after? j = some s → s.fetch? ≠ some Cell.quote)
    (hs : m.reset.after? k = some s) : s.cursor.stringMode = false := by
  induction k generalizing s with
  | zero =>
    obtain rfl := Option.some.inj hs
    rfl
  | succ k ih =>
    obtain ⟨s₁, hs₁, hstep⟩ := after?_add_one_eq_some_iff.mp hs
    have hmode := ih (fun j hj => hquote j (Nat.lt_succ_of_lt hj)) hs₁
    exact stringMode_of_step? hmode (hquote k (Nat.lt_succ_self k) s₁ hs₁) hstep

/-! ## Moments of two runs -/

/-- What the next dispatch looks at is the same in both machines: it is not in string mode, and a load
    finds the same cell. -/
structure Looks (s t : Machine) : Prop where
  stringMode_eq : s.cursor.stringMode = false
  load_eq : ∀ p rest, s.load? = some (p, rest) → p ∈ s.field → t.field[p]? = s.field[p]?

namespace SameButIdle

theorem fetch? (h : SameButIdle s t) :
    s.fetch? = none ∧ t.fetch? = none ∨
      ∃ v w, s.fetch? = some v ∧ t.fetch? = some w ∧ Cell.Interchangeable v w := by
  rw [Machine.fetch?, Machine.fetch?, h.cursor_eq]
  exact h.field.getElem? s.cursor.pos

theorem halt_iff (hvw : Cell.Interchangeable v w) : w = Cell.halt ↔ v = Cell.halt :=
  hvw.eq_iff (by rw [Instruction.decode_halt]; exact nofun)

theorem dispatch_of_looks (h : SameButIdle s t) (hlooks : Looks s t) (hf : s.fetch? = some v)
    (hvw : Cell.Interchangeable v w) :
    Follows SameButIdle (fun _ => False) (dispatch v) (dispatch w) s t := by
  refine h.dispatch_follows hlooks.stringMode_eq hvw fun hi p rest hoperands => ?_
  refine hlooks.load_eq p rest ?_
  rw [load?, if_pos (instruction?_eq_some_iff.mpr ⟨hlooks.stringMode_eq, v, hf, hi⟩), hoperands]

/-- The next instruction. -/
theorem step? (h : SameButIdle s t) (hlooks : Looks s t) (hs : s.step? = some m) :
    ∃ n, t.step? = some n ∧ SameButIdle m n := by
  obtain ⟨v, hf, hv, hd⟩ := step?_eq_some_iff.mp hs
  rcases h.fetch? with ⟨hnone, -⟩ | ⟨v', w, hv', hw, hvw⟩
  · rw [hf] at hnone
    nomatch hnone
  · obtain rfl := Option.some.inj (hf.symm.trans hv')
    obtain ⟨n, hn, hR⟩ := (h.dispatch_of_looks hlooks hf hvw).of_ok hd
    exact ⟨n, step?_eq_some_iff.mpr ⟨w, hw, mt (halt_iff hvw).mp hv, hn⟩, hR⟩

/-- The stop, if there is one. -/
theorem stops {left : Nat} {stop : Stop} (h : SameButIdle s t) (hlooks : 0 < left → Looks s t)
    (hs : s.Stops left stop m) : ∃ n, t.Stops left stop n ∧ SameButIdle m n := by
  rcases h.fetch? with ⟨hnone, hnone'⟩ | ⟨v, w, hv, hw, hvw⟩
  · cases hs with
    | outside => exact ⟨t, h.cursor_eq ▸ .outside hnone', h⟩
    | halted hf | exhausted hf | faulted hf =>
      rw [hf] at hnone
      nomatch hnone
  · cases hs with
    | outside hf =>
      rw [hf] at hv
      nomatch hv
    | halted hf =>
      have hhalt := (halt_iff hvw).mpr (Option.some.inj (hv.symm.trans hf))
      exact ⟨t, .halted (hhalt ▸ hw), h⟩
    | exhausted hf hne =>
      obtain rfl := Option.some.inj (hf.symm.trans hv)
      exact ⟨t, .exhausted hw (mt (halt_iff hvw).mp hne), h⟩
    | faulted hf hne hd =>
      obtain rfl := Option.some.inj (hf.symm.trans hv)
      have hfollows := h.dispatch_of_looks (hlooks (Nat.succ_pos _)) hf hvw
      obtain ⟨n, hn, hR⟩ := (hfollows.of_error hd).resolve_left id
      exact ⟨n, .faulted hw (mt (halt_iff hvw).mp hne) hn, hR⟩

end SameButIdle

/-! ## Runs -/

section runs

variable {limit : Option Nat} (h : SameButIdle m n)
  (hquote : ∀ k s, (∀ most, limit = some most → k < most) → m.reset.after? k = some s →
    s.fetch? ≠ some Cell.quote)
  (hload : ∀ k s t p rest, (∀ most, limit = some most → k < most) → m.reset.after? k = some s →
    n.reset.after? k = some t → s.load? = some (p, rest) → p ∈ s.field →
    t.field[p]? = s.field[p]?)

include hquote hload in
/-- At every dispatch of the runs the machines look at the same. -/
theorem looks_of_moment {k : Nat} (hk : ∀ most, limit = some most → k < most)
    (hs : m.reset.after? k = some s) (ht : n.reset.after? k = some t) : Looks s t where
  stringMode_eq := stringMode_eq_false
    (fun j hj s hs => hquote j s (fun most hmost => Nat.lt_trans hj (hk most hmost)) hs) hs
  load_eq := fun p rest => hload k s t p rest hk hs ht

include h hquote hload

/-- Each moment of the first run has one of the second. -/
theorem moment_of_moment {k : Nat} (hk : ∀ most, limit = some most → k ≤ most)
    (hs : m.reset.after? k = some s) : ∃ t, n.reset.after? k = some t ∧ SameButIdle s t :=
  after?_follows_of_moments (level_sameButIdle.reset h)
    (fun _ _ _ _ hj hs ht hR hstep => hR.step? (looks_of_moment hquote hload hj hs ht) hstep) hk hs

/-- The dispatches until then. -/
theorem dispatched_of_moment {k : Nat} (hk : ∀ most, limit = some most → k ≤ most)
    (hs : m.reset.after? k = some s) :
    List.Forall₂ SameButIdle (m.reset.dispatched k) (n.reset.dispatched k) := by
  induction k generalizing s with
  | zero => exact .nil
  | succ k ih =>
    have hk' : ∀ most, limit = some most → k < most := fun most hmost => hk most hmost
    have hle : ∀ most, limit = some most → k ≤ most := fun most hmost =>
      Nat.le_of_lt (hk' most hmost)
    obtain ⟨s₁, hs₁, hstep⟩ := after?_add_one_eq_some_iff.mp hs
    obtain ⟨t₁, ht₁, hR⟩ := moment_of_moment h hquote hload hle hs₁
    obtain ⟨t, ht, -⟩ := hR.step? (looks_of_moment hquote hload hk' hs₁ ht₁) hstep
    rw [dispatched_add hs₁, dispatched_add ht₁, dispatched_of_step hstep, dispatched_of_step ht]
    exact List.rel_append (ih hle hs₁) (.cons hR .nil)

end runs

/-- **Cells that do nothing can be interchanged.**  Let two machines differ in nothing but in such
    cells.  If the run of the first, whatever its limit, dispatches no quote, and every load of it
    that succeeds names a square that has the same cell in both fields by then, the run of the second
    does the same: it ends or does not, with the same result, after as many dispatches, at machines
    that again differ in nothing but in such cells; and in nothing else do the machines differ that
    the runs leave. -/
theorem run_idle {limit : Option Nat} (h : SameButIdle m n)
    (hquote : ∀ k s, (∀ most, limit = some most → k < most) → m.reset.after? k = some s →
      s.fetch? ≠ some Cell.quote)
    (hload : ∀ k s t p rest, (∀ most, limit = some most → k < most) → m.reset.after? k = some s →
      n.reset.after? k = some t → s.load? = some (p, rest) → p ∈ s.field →
      t.field[p]? = s.field[p]?) :
    (m.run limit = none → n.run limit = none) ∧
      ∀ result m' log, m.run limit = some (result, m') → m.Dispatches limit log →
        ∃ n' log', n.run limit = some (result, n') ∧ n.Dispatches limit log' ∧
          List.Forall₂ SameButIdle log log' ∧ SameButIdle m' n' := by
  have hstops : ∀ k left stop s s' t, (limit = none ∧ left = 1 ∨ limit = some (k + left)) →
      m.reset.after? k = some s → n.reset.after? k = some t → SameButIdle s t →
      s.Stops left stop s' → ∃ t', t.Stops left stop t' ∧ SameButIdle s' t' := by
    intro k left stop s s' t hlimit hs ht hR hstop
    refine hR.stops (fun hleft => looks_of_moment hquote hload (fun most hmost => ?_) hs ht) hstop
    have hsum := add_left_eq hlimit hmost
    omega
  have hruns : RunFollows SameButIdle (fun _ => False) (m.run limit) (n.run limit) :=
    level_sameButIdle.run_follows_of_moments h
      (fun _ _ _ _ hj hs ht hR hstep => hR.step? (looks_of_moment hquote hload hj hs ht) hstep)
      fun k left stop s s' t hlimit hs ht hR hstop =>
        Or.inr (hstops k left stop s s' t hlimit hs ht hR hstop)
  refine ⟨fun hnone => ?_, fun result m' log hrun hlog => ?_⟩
  · rw [hnone] at hruns
    generalize n.run limit = second at hruns
    cases hruns
    rfl
  · rw [hrun] at hruns
    obtain ⟨n', hn', hR⟩ := hruns.of_first.resolve_left (by simp)
    obtain ⟨k, left, m₁, stop, m₂, hlimit, hk, hs, -⟩ := run_eq_some_iff.mp hrun
    obtain rfl := (dispatches_iff hlimit hk hs).mp hlog
    have hle : ∀ most, limit = some most → k ≤ most := fun most hmost =>
      add_left_eq hlimit hmost ▸ Nat.le_add_right k left
    obtain ⟨n₁, hn₁, h₁⟩ := moment_of_moment h hquote hload hle hk
    obtain ⟨n₂, hn₂, -⟩ := hstops k left stop m₁ m₂ n₁ hlimit hk hn₁ h₁ hs
    refine ⟨n', _, hn', (dispatches_iff hlimit hn₁ hn₂).mpr rfl, ?_, hR⟩
    refine List.rel_append (dispatched_of_moment h hquote hload hle hk) ?_
    cases left with
    | zero => exact .nil
    | succ left =>
      refine forall₂_dispatched h₁ hs.step?_eq_none hn₂.step?_eq_none (h₁.fetch?.imp id ?_)
      rintro ⟨v, w, hv, hw, hvw⟩
      exact ⟨v, w, hv, hw, SameButIdle.halt_iff hvw⟩

/-- The program `580p00g.ab@` stores a 5 over its `a`, loads the cell of its first square and writes it.
    So does `580p00g.(]@`. -/
theorem run_idle_storing :
    ∃ n', (quiet "580p00g.(]@").run (some 10) = some (.ok (), n') ∧ n'.console.output = "53" := by
  have hsame : SameButIdle (quiet "580p00g.ab@") (quiet "580p00g.(]@") :=
    sameButIdle_start (by decide +kernel) _ _
  have hfetched : ∀ k < 10,
      ((quiet "580p00g.ab@").reset.after? k).bind Machine.fetch? ≠ some Cell.quote := by
    decide +kernel
  have hloaded : ∀ k < 10, (((quiet "580p00g.ab@").reset.after? k).bind load?).all
      (fun operands => operands.1 == Position.origin) = true := by
    decide +kernel
  have hcell : ∀ k < 10,
      ((quiet "580p00g.ab@").reset.after? k).map (fun s => s.field[Position.origin]?)
        = ((quiet "580p00g.(]@").reset.after? k).map fun t => t.field[Position.origin]? := by
    decide +kernel
  have hquote : ∀ k s, (∀ most, some 10 = some most → k < most) →
      (quiet "580p00g.ab@").reset.after? k = some s → s.fetch? ≠ some Cell.quote := by
    intro k s hk hs hf
    refine hfetched k (hk 10 rfl) ?_
    rw [hs]
    exact hf
  have hload : ∀ k s t p rest, (∀ most, some 10 = some most → k < most) →
      (quiet "580p00g.ab@").reset.after? k = some s →
      (quiet "580p00g.(]@").reset.after? k = some t → s.load? = some (p, rest) → p ∈ s.field →
      t.field[p]? = s.field[p]? := by
    intro k s t p rest hk hs ht hloads _
    have horigin := hloaded k (hk 10 rfl)
    rw [hs, Option.bind_some, hloads] at horigin
    obtain rfl : p = Position.origin := beq_iff_eq.mp horigin
    have hcells := hcell k (hk 10 rfl)
    rw [hs, ht] at hcells
    exact (Option.some.inj hcells).symm
  obtain ⟨m', log, hrun, hlog, houtput⟩ : ∃ m' log,
      (quiet "580p00g.ab@").run (some 10) = some (.ok (), m') ∧
        (quiet "580p00g.ab@").Dispatches (some 10) log ∧ m'.console.output = "53" :=
    ⟨_, _, run_some_of_runFor (by decide +kernel), rfl, by decide +kernel⟩
  obtain ⟨n', -, hrun', -, -, hidle⟩ := (run_idle hsame hquote hload).2 _ _ _ hrun hlog
  exact ⟨n', hrun', by rw [hidle.console_eq, houtput]⟩

end Machine

end Funge
