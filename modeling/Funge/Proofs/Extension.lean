/-
  A larger field.

  `f.Extends g` says that field `g` is at least as wide and as high as `f` and has every cell of
  `f`.  A program cannot tell the two apart as long as it stays on `f`: what it reads there is the
  same, and what it writes there keeps the one field an extension of the other.  Only outside `f`
  do they differ.  So the two machines run in lockstep (`lockstep_enlarged`), where the fault of
  being outside is exempt.
-/
import Funge.Proofs.Lockstep

namespace Funge

/-! ## Fields -/

/-- Field `g` is at least as wide and as high as `f`, and has every cell of `f`. -/
structure Playfield.Extends (f g : Playfield) : Prop where
  width_le : f.width ≤ g.width
  height_le : f.height ≤ g.height
  cell?_eq : ∀ {x y : Nat} {v : Cell}, f.cell? x y = some v → g.cell? x y = some v

namespace Playfield.Extends

variable {f g : Playfield} {p : Position}

theorem mem (h : Extends f g) (hp : p ∈ f) : p ∈ g := by
  have hwidth := h.width_le
  have hheight := h.height_le
  rw [mem_def] at hp ⊢
  omega

/-- What a position reads on `f` it reads on `g`. -/
theorem getElem?_eq_some (h : Extends f g) {v : Cell} (hv : f[p]? = some v) : g[p]? = some v := by
  have hp := mem_of_getElem?_eq_some hv
  rw [getElem?_eq_cell? hp] at hv
  rw [getElem?_eq_cell? (h.mem hp)]
  exact h.cell?_eq hv

/-- Writing on `f` what is written on `g` keeps the extension. -/
theorem set (h : Extends f g) (hp : p ∈ f) (v : Cell) :
    Extends (f.set p v hp) (g.set p v (h.mem hp)) := by
  constructor
  · exact h.width_le
  · rw [height_set, height_set]
    exact h.height_le
  · intro x y w hw
    rw [cell?_set] at hw ⊢
    split at hw
    · rename_i hxy
      rw [if_pos hxy, hw]
    · rename_i hxy
      rw [if_neg hxy, h.cell?_eq hw]

end Playfield.Extends

/-! ## Machines -/

/-- Machine `n` is machine `m` on a larger field. -/
structure Machine.Enlarged (m n : Machine) : Prop where
  field : m.field.Extends n.field
  stack_eq : n.stack = m.stack
  cursor_eq : n.cursor = m.cursor
  console_eq : n.console = m.console
  chance_eq : n.chance = m.chance

/-- The fault of being outside the field. -/
def Fault.IsOutside (fault : Fault) : Prop := ∃ pos square, fault = .outOfField pos square

open Machine Exec

/-- A machine and the same on a larger field do the same, until the first is outside its field. -/
theorem lockstep_enlarged : Lockstep Enlarged Fault.IsOutside := by
  have hcall {α : Type} {m n : Machine} (h : Enlarged m n)
      (call : Console → Except String α × Console) :
      Follows Enlarged Fault.IsOutside (consult call) (consult call) m n := by
    refine follows_consult (by rw [h.console_eq]) h.cursor_eq ?_
    exact ⟨h.field, h.stack_eq, h.cursor_eq, by rw [h.console_eq], h.chance_eq⟩
  have hload {m n : Machine} (h : Enlarged m n) (p : Position) :
      Follows Enlarged Fault.IsOutside (load p) (load p) m n := by
    -- outside the smaller field the fault is exempt, whatever the larger one holds there
    refine ends_load.mpr ⟨fun v hv => ⟨n, ?_, h⟩, fun _ => Or.inl ⟨_, _, rfl⟩⟩
    simp only [Exec.load, h.field.getElem?_eq_some hv]
  constructor
  case toSteady =>
    refine ⟨?_, hload⟩
    constructor
    case cursor_eq => exact Enlarged.cursor_eq
    case stack_eq => exact Enlarged.stack_eq
    case set_cursor => exact fun h _ => ⟨h.field, h.stack_eq, rfl, h.console_eq, h.chance_eq⟩
    case set_stack => exact fun h _ => ⟨h.field, rfl, h.cursor_eq, h.console_eq, h.chance_eq⟩
    case store =>
      intro m n h p v
      refine ends_store.mpr ⟨fun hp => ?_, fun _ => Or.inl ⟨_, _, rfl⟩⟩
      have hset := h.field.set hp v
      refine ⟨{ n with field := n.field.set p v (h.field.mem hp) }, ?_, hset, h.stack_eq,
        h.cursor_eq, h.console_eq, h.chance_eq⟩
      simp only [Exec.store, Playfield.set?, dif_pos (h.field.mem hp)]
    case readLine =>
      intro m n h
      exact follows_readLine (fun _ _ h => h.cursor_eq) (hcall h _) fun _ _ h => hcall h _
    case writeInteger => exact fun h v => hcall h (·.writeInteger v)
    case writeChar => exact fun h c => hcall h (·.writeChar c)
    case flush =>
      intro m n h
      rw [h.console_eq]
      exact ⟨rfl, h.field, h.stack_eq, h.cursor_eq, rfl, h.chance_eq⟩
  case steerRandomly =>
    intro m n h
    exact follows_steerRandomly h h.chance_eq h.cursor_eq
      fun _ _ => ⟨h.field, h.stack_eq, rfl, h.console_eq, rfl⟩

end Funge
