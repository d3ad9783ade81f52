/-
  Where the cursor goes.

  Positions wrap around at 32 bits, and the cursor does not stop at the edges of the field.  Yet it
  never comes around:

  1. In integers a step changes one coordinate by one (`Position.Ahead`), as long as the coordinates
     are not the last 32-bit numbers.  From a square of a field that leaves two values of a coordinate
     free that holds of two steps in a row (`Playfield.ahead_of_mem`), and they end within reach of the
     field (`Playfield.Reaches.of_ahead`).
  2. Only a skip makes two steps, every other instruction makes one, in the direction the cursor has by
     then (`Machine.dispatch_skips`, `Machine.dispatch_travels`).
  3. Instructions are obeyed on squares only, so every iteration finds the cursor within reach, and the
     first one that finds it off the field is the last (`Machine.run_travels`).
-/
import Funge.Proofs.Store

namespace Funge

/-! ## Positions told in integers -/

namespace Position

variable {p q r : Position} {d : Direction}

/-- Position `q` is `k` squares from `p` in a direction, and no sum wraps around on the way. -/
structure Ahead (p : Position) (d : Direction) (k : Int) (q : Position) : Prop where
  x_eq : q.x.toInt = p.x.toInt + k * d.dx.toInt
  y_eq : q.y.toInt = p.y.toInt + k * d.dy.toInt

theorem Ahead.trans {j k : Int} (h : p.Ahead d j q) (h' : q.Ahead d k r) : p.Ahead d (j + k) r := by
  constructor
  · rw [h'.x_eq, h.x_eq, Int.add_mul, Int.add_assoc]
  · rw [h'.y_eq, h.y_eq, Int.add_mul, Int.add_assoc]

end Position

/-- A direction changes a coordinate by one at most. -/
theorem Direction.delta_le (d : Direction) :
    (-1 ≤ d.dx.toInt ∧ d.dx.toInt ≤ 1) ∧ -1 ≤ d.dy.toInt ∧ d.dy.toInt ≤ 1 := by
  cases d <;> decide

/-- A sum with a small cell wraps around at the ends only. -/
theorem Cell.toInt_add_of_le {a b : Cell} (ha : -2147483648 < a.toInt ∧ a.toInt < 2147483647)
    (hb : -1 ≤ b.toInt ∧ b.toInt ≤ 1) : (a + b).toInt = a.toInt + b.toInt := by
  rw [Int32.toInt_add]
  exact Int.bmod_eq_of_le (by omega) (by omega)

theorem Position.ahead_step {p : Position} (hx : -2147483648 < p.x.toInt ∧ p.x.toInt < 2147483647)
    (hy : -2147483648 < p.y.toInt ∧ p.y.toInt < 2147483647) (d : Direction) :
    p.Ahead d 1 (p.step d) := by
  constructor
  · rw [Int.one_mul]
    exact Cell.toInt_add_of_le hx d.delta_le.1
  · rw [Int.one_mul]
    exact Cell.toInt_add_of_le hy d.delta_le.2

namespace Playfield

variable {f : Playfield} {p q : Position} {d : Direction}

/-- The positions a cursor can come to: the squares, and those no more than two squares beyond one of
    the edges. -/
structure Reaches (f : Playfield) (p : Position) : Prop where
  x_bounds : -2 ≤ p.x.toInt ∧ p.x.toInt ≤ f.width + 1
  y_bounds : -2 ≤ p.y.toInt ∧ p.y.toInt ≤ f.height + 1
  /-- At most one of the coordinates is outside. -/
  beside : (0 ≤ p.x.toInt ∧ p.x.toInt < f.width) ∨ 0 ≤ p.y.toInt ∧ p.y.toInt < f.height

/-- Up to two squares on from a square is within reach. -/
theorem Reaches.of_ahead {k : Int} (hp : p ∈ f) (hk : 0 ≤ k ∧ k ≤ 2) (h : p.Ahead d k q) :
    f.Reaches q := by
  obtain ⟨hx, hy⟩ := mem_def.mp hp
  obtain ⟨hqx, hqy⟩ := h
  cases d with
  | north | south =>
    simp [Direction.dx, Direction.dy] at hqx hqy
    exact ⟨by omega, by omega, Or.inl (by omega)⟩
  | east | west =>
    simp [Direction.dx, Direction.dy] at hqx hqy
    exact ⟨by omega, by omega, Or.inr (by omega)⟩

theorem reaches_origin (h : 0 < f.height) : f.Reaches Position.origin := by
  have hx : Position.origin.x.toInt = 0 := rfl
  have hy : Position.origin.y.toInt = 0 := rfl
  exact ⟨by omega, by omega, Or.inr (by omega)⟩

/-- On a field that leaves two values of a coordinate free no sum wraps around on the way. -/
theorem ahead_of_mem (hwidth : f.width ≤ 2147483646) (hheight : f.height ≤ 2147483646) (hp : p ∈ f)
    (d : Direction) :
    p.Ahead d 1 (p.step d) ∧ (p.step d).Ahead d 1 ((p.step d).step d) := by
  obtain ⟨hx, hy⟩ := mem_def.mp hp
  have hone : p.Ahead d 1 (p.step d) := Position.ahead_step (by omega) (by omega) d
  refine ⟨hone, Position.ahead_step ?_ ?_ d⟩
  · have := hone.x_eq
    have := d.delta_le
    omega
  · have := hone.y_eq
    have := d.delta_le
    omega

end Playfield

/-! ## Where an instruction leads -/

namespace Machine

variable {m m' s : Machine} {v : Cell} {f : Playfield} {n : Nat}

/-- How many squares on the next instruction leads. -/
def stride (m : Machine) : Nat := if m.instruction? = some .skip then 2 else 1

theorem stride_le (m : Machine) : (0 : Int) ≤ m.stride ∧ (m.stride : Int) ≤ 2 := by
  unfold stride
  split <;> decide

/-- After a skip the cursor is two squares on, in its direction ... -/
theorem dispatch_skips (hi : m.instruction? = some .skip) (hf : m.fetch? = some v) :
    Exec.Ends (Exec.dispatch v)
      (fun _ m' => m'.cursor.pos = (m.cursor.pos.step m'.cursor.dir).step m'.cursor.dir)
      (fun _ _ => True) m := by
  rw [ends_dispatch_of_instruction? hi hf]
  exact Exec.ends_steer.mpr rfl

/-- ... and after any other instruction it is one square on, in the direction it has by then. -/
theorem dispatch_travels (hi : m.instruction? ≠ some .skip) (hf : m.fetch? = some v) :
    Exec.Ends (Exec.dispatch v) (fun _ m' => m'.cursor.pos = m.cursor.pos.step m'.cursor.dir)
      (fun _ _ => True) m := by
  rw [Exec.ends_dispatch]
  cases hquoted : m.cursor.stringMode && v != Cell.quote with
  | true => exact Exec.ends_push.mpr rfl
  | false =>
    have hstays : Instruction.decode v ≠ .skip := by
      intro hskip
      rcases instruction?_of_performed hf hquoted with hperformed | hquote
      · exact hi (hperformed.trans (congrArg some hskip))
      · nomatch hskip.symm.trans hquote
    rw [if_neg Bool.false_ne_true]
    exact (Exec.perform_steers v.toChar (Instruction.decode v) m).mono
      (fun _ m' hkept => congrArg (Position.step · m'.cursor.dir) (hkept.1 hstays)) fun _ _ h => h

/-- The step of the cursor on a field where nothing wraps around. -/
theorem ahead_of_step? (hwidth : f.width ≤ 2147483646) (hheight : f.height ≤ 2147483646)
    (hpos : m.cursor.pos ∈ f) (h : m.step? = some m') :
    m.cursor.pos.Ahead m'.cursor.dir m.stride m'.cursor.pos := by
  obtain ⟨v, hf, -, hd⟩ := step?_eq_some_iff.mp h
  obtain ⟨hone, htwo⟩ := Playfield.ahead_of_mem hwidth hheight hpos m'.cursor.dir
  unfold stride
  split
  · rename_i hskip
    rw [(dispatch_skips hskip hf).of_ok hd]
    exact hone.trans htwo
  · rename_i hskip
    rw [(dispatch_travels hskip hf).of_ok hd]
    exact hone

/-- Every dispatch of a run is made at a moment of it, on a square. -/
theorem exists_after?_of_mem_dispatches {limit : Option Nat} {log : List Machine}
    (hlog : m.Dispatches limit log) (hs : s ∈ log) :
    ∃ k, m.reset.after? k = some s ∧ s.cursor.pos ∈ s.field := by
  cases limit with
  | none =>
    obtain ⟨n, -, rfl⟩ := hlog
    obtain ⟨k, -, hk⟩ := exists_after?_of_mem_dispatched hs
    exact ⟨k, hk⟩
  | some n =>
    rw [show log = m.reset.dispatched n from hlog] at hs
    obtain ⟨k, -, hk⟩ := exists_after?_of_mem_dispatched hs
    exact ⟨k, hk⟩

/-- Off the field a run ends, if it is allowed to come there. -/
theorem run_of_outside {limit : Option Nat} (hs : m.reset.after? n = some s)
    (hlimit : ∀ k, limit = some k → n ≤ k) (hpos : s.cursor.pos ∉ s.field) :
    ∃ m', m.run limit = some (.error (.outOfField s.cursor.pos s.cursor.pos), m') := by
  have hf : s.fetch? = none := Playfield.getElem?_eq_none_iff.mpr hpos
  cases limit with
  | none => exact ⟨_, run_none_of_stops hs (.outside hf)⟩
  | some k =>
    have hk := hlimit k rfl
    have hstops : Stops (k - n) s (.faulted (.outOfField s.cursor.pos s.cursor.pos)) s := .outside hf
    exact ⟨_, congrArg some (runFor_of_stops hs hstops (by omega))⟩

/-- **The cursor does not get away.**  Let a source give a field of at most 2 ^ 31 - 2 columns and
    rows, so that two values of each coordinate are free, and let anything have happened to a machine
    with it.

    No run dispatches a cell off the field.  At every iteration of a run the cursor is within reach of
    the field, with one coordinate outside at most.  On the field no sum of a step wraps around, in
    whatever direction the cursor goes and whether it goes one square or two; off the field the run
    ends, in the fault that names this position.  And from one iteration to the next the cursor goes
    two squares in its direction after a skip, and one otherwise. -/
theorem run_travels {source : String} {console : Console} {chance : Random.WordSource}
    {events : List Event} (hwidth : (Playfield.ofSource source).width ≤ 2147483646)
    (hheight : (Playfield.ofSource source).height ≤ 2147483646)
    (h : History (start (Playfield.ofSource source) console chance) events m) :
    (∀ limit log s, m.Dispatches limit log → s ∈ log →
      s.cursor.pos ∈ Playfield.ofSource source) ∧
    ∀ n s, m.reset.after? n = some s →
      (Playfield.ofSource source).Reaches s.cursor.pos ∧
      (s.cursor.pos ∈ Playfield.ofSource source → ∀ d,
        s.cursor.pos.Ahead d 1 (s.cursor.pos.step d) ∧
          (s.cursor.pos.step d).Ahead d 1 ((s.cursor.pos.step d).step d)) ∧
      (s.cursor.pos ∉ Playfield.ofSource source →
        ∀ limit, (∀ k, limit = some k → n ≤ k) →
          ∃ m', m.run limit = some (.error (.outOfField s.cursor.pos s.cursor.pos), m')) ∧
      ∀ s', s.step? = some s' →
        s.cursor.pos ∈ Playfield.ofSource source ∧
          s.cursor.pos.Ahead s'.cursor.dir s.stride s'.cursor.pos := by
  -- the field keeps its squares
  have hmem : ∀ n s, m.reset.after? n = some s →
      ∀ p, p ∈ s.field ↔ p ∈ Playfield.ofSource source :=
    fun n s hs p => (tally_remembers.moment h hs).mem_iff
  have hstep : ∀ n s s', m.reset.after? n = some s → s.step? = some s' →
      s.cursor.pos ∈ Playfield.ofSource source ∧
        s.cursor.pos.Ahead s'.cursor.dir s.stride s'.cursor.pos := by
    intro n s s' hs hs'
    have hpos := (hmem n s hs _).mp (mem_of_step? hs')
    exact ⟨hpos, ahead_of_step? hwidth hheight hpos hs'⟩
  constructor
  · intro limit log s hlog hs
    obtain ⟨k, hk, hpos⟩ := exists_after?_of_mem_dispatches hlog hs
    exact (hmem k s hk _).mp hpos
  · intro n s hs
    refine ⟨?_, Playfield.ahead_of_mem hwidth hheight, ?_, fun s' => hstep n s s' hs⟩
    · -- the first iteration is at the origin, every other one was stepped to from a square
      cases n with
      | zero =>
        obtain rfl := Option.some.inj hs
        exact Playfield.reaches_origin (Playfield.height_ofSource_pos source)
      | succ n =>
        obtain ⟨t, ht⟩ := after?_of_le hs (Nat.le_succ n)
        rw [after?_succ_of_after? ht] at hs
        obtain ⟨hpos, hahead⟩ := hstep n t s ht hs
        exact .of_ahead hpos t.stride_le hahead
    · intro hpos limit hlimit
      exact run_of_outside hs hlimit fun h => hpos ((hmem n s hs _).mp h)

/-- The program `# <` skips to its last square, turns there, comes back and skips over the left edge:
    after four instructions it is two squares beyond, and its run ends. -/
theorem run_travels_skipping :
    let m := quiet "# <"
    ∃ s m', m.reset.after? 4 = some s ∧ s.cursor.pos = ⟨-2, 0⟩ ∧
      (Playfield.ofSource "# <").Reaches ⟨-2, 0⟩ ∧
      m.run none = some (.error (.outOfField ⟨-2, 0⟩ ⟨-2, 0⟩), m') := by
  intro m
  have hmoment : (m.reset.after? 4).map (fun s => s.cursor.pos) = some ⟨-2, 0⟩ := by decide +kernel
  obtain ⟨s, hs, hpos⟩ := Option.map_eq_some_iff.mp hmoment
  have houtside : s.cursor.pos ∉ Playfield.ofSource "# <" := by
    rw [hpos]
    decide +kernel
  obtain ⟨hreaches, -, hends, -⟩ :=
    (run_travels (by decide +kernel) (by decide +kernel) (History.start (m := m))).2 4 s hs
  obtain ⟨m', hm'⟩ := hends houtside none nofun
  rw [hpos] at hreaches hm'
  exact ⟨s, m', hs, hpos, hreaches, hm'⟩

end Machine

end Funge
