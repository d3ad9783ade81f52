/-
  What an action on the machine ends in.

  `Ends a Q F m` says of action `a`, started at `m`, that a result and the machine left with it
  satisfy `Q`, and a fault and the machine left with it satisfy `F`.  There is one rule for each
  way actions are made: the rule of the bind takes a sequence apart, the others say what a single
  action does.  Three instructions look at what they have before they push it, and have rules of their
  own.  With all these the effect of an instruction is found without running it.

  Where it is known how an action ends, equations run it: `bind_of_ok` takes its first part off,
  and `dispatch_of_perform_ok` leads from an instruction to the dispatch of its cell.
-/
import Funge.Machine.Perform
import Funge.Playfield.Lemmas

namespace Funge.Exec

variable {α β : Type} {Q : α → Machine → Prop} {U : Unit → Machine → Prop}
  {C : Cell → Machine → Prop} {F : Fault → Machine → Prop} {m : Machine}

/-- A result is in `Q`, a fault in `F`. -/
def Ends (a : Exec α) (Q : α → Machine → Prop) (F : Fault → Machine → Prop) (m : Machine) : Prop :=
  match a m with
  | .ok x m' => Q x m'
  | .error fault m' => F fault m'

theorem Ends.of_ok {a : Exec α} {x : α} {m' : Machine} (h : Ends a Q F m)
    (ha : a m = .ok x m') : Q x m' := by
  rwa [Ends, ha] at h

theorem Ends.of_error {a : Exec α} {fault : Fault} {m' : Machine} (h : Ends a Q F m)
    (ha : a m = .error fault m') : F fault m' := by
  rwa [Ends, ha] at h

/-- Weaker demands are met as well. -/
theorem Ends.mono {a : Exec α} {Q' : α → Machine → Prop} {F' : Fault → Machine → Prop}
    (h : Ends a Q F m) (hQ : ∀ x m', Q x m' → Q' x m')
    (hF : ∀ fault m', F fault m' → F' fault m') : Ends a Q' F' m := by
  unfold Ends at h ⊢
  split at h
  · exact hQ _ _ h
  · exact hF _ _ h

theorem ends_congr {a : Exec α} {Q' : α → Machine → Prop} (h : ∀ x m', Q x m' ↔ Q' x m') :
    Ends a Q F m ↔ Ends a Q' F m :=
  ⟨fun ha => ha.mono (fun x m' => (h x m').mp) fun _ _ hF => hF,
    fun ha => ha.mono (fun x m' => (h x m').mpr) fun _ _ hF => hF⟩

/-! ## Sequences -/

@[simp] theorem ends_pure {x : α} : Ends (pure x) Q F m ↔ Q x m := Iff.rfl

/-- The second action starts where the first one ended; a fault of the first is the fault of
    both. -/
@[simp] theorem ends_bind {a : Exec α} {k : α → Exec β} {Q : β → Machine → Prop} :
    Ends (a >>= k) Q F m ↔ Ends a (fun x => Ends (k x) Q F) F m := by
  show (match EStateM.bind a k m with | .ok x m' => Q x m' | .error fault m' => F fault m') ↔ _
  unfold EStateM.bind Ends
  cases a m <;> rfl

@[simp] theorem ends_map {a : Exec α} {f : α → β} {Q : β → Machine → Prop} :
    Ends (f <$> a) Q F m ↔ Ends a (fun x => Q (f x)) F m := by
  show (match EStateM.map f a m with | .ok x m' => Q x m' | .error fault m' => F fault m') ↔ _
  unfold EStateM.map Ends
  cases a m <;> rfl

/-- The result of the first action is handed on to the second, ... -/
theorem bind_of_ok {a : Exec α} {k : α → Exec β} {x : α} {m' : Machine} (h : a m = .ok x m') :
    (a >>= k) m = k x m' := by
  show EStateM.bind a k m = _
  rw [EStateM.bind, h]

/-- ... and after its fault there is no second. -/
theorem bind_of_error {a : Exec α} {k : α → Exec β} {fault : Fault} {m' : Machine}
    (h : a m = .error fault m') : (a >>= k) m = .error fault m' := by
  show EStateM.bind a k m = _
  rw [EStateM.bind, h]

/-! ## Single actions -/

@[simp] theorem ends_here {Q : Position → Machine → Prop} :
    Ends here Q F m ↔ Q m.cursor.pos m := Iff.rfl

@[simp] theorem ends_fail {fault : Fault} : Ends (fail fault) Q F m ↔ F fault m := Iff.rfl

@[simp] theorem ends_inString {Q : Bool → Machine → Prop} :
    Ends inString Q F m ↔ Q m.cursor.stringMode m := Iff.rfl

@[simp] theorem ends_push {v : Cell} :
    Ends (push v) U F m ↔ U () { m with stack := m.stack.push v } := Iff.rfl

@[simp] theorem ends_steer {change : Cursor → Cursor} :
    Ends (steer change) U F m ↔ U () { m with cursor := change m.cursor } := Iff.rfl

@[simp] theorem ends_pop {op : Char} :
    Ends (pop op) C F m ↔
      (∀ v rest, m.stack.pop? = some (v, rest) → C v { m with stack := rest }) ∧
        (m.stack.pop? = none → F (.stackUnderflow m.cursor.pos op) m) := by
  unfold Ends pop
  cases h : m.stack.pop? with
  | none => simp
  | some entry =>
    obtain ⟨v, rest⟩ := entry
    simp

theorem pop_of_push {op : Char} {s : Stack} {v : Cell} (h : m.stack = s.push v) :
    pop op m = .ok v { m with stack := s } := by
  rw [pop, h]
  rfl

@[simp] theorem ends_peek {op : Char} :
    Ends (peek op) C F m ↔
      (∀ v, m.stack.peek? = some v → C v m) ∧
        (m.stack.peek? = none → F (.stackUnderflow m.cursor.pos op) m) := by
  unfold Ends peek
  cases h : m.stack.peek? with
  | none => simp
  | some v => simp

@[simp] theorem ends_steerRandomly :
    Ends steerRandomly U F m ↔
      (∀ dir chance, m.chance.next? = some (dir, chance) →
        U () { m with cursor := m.cursor.turn dir, chance }) ∧
        (m.chance.next? = none → U () m) := by
  unfold Ends steerRandomly
  cases h : m.chance.next? with
  | none => simp
  | some draw =>
    obtain ⟨dir, chance⟩ := draw
    simp

@[simp] theorem ends_load {p : Position} :
    Ends (load p) C F m ↔
      (∀ v, m.field[p]? = some v → C v m) ∧
        (p ∉ m.field → F (.outOfField m.cursor.pos p) m) := by
  rw [← Playfield.getElem?_eq_none_iff]
  unfold Ends load
  cases h : m.field[p]? with
  | none => simp
  | some v => simp

@[simp] theorem ends_store {p : Position} {v : Cell} :
    Ends (store p v) U F m ↔
      (∀ h : p ∈ m.field, U () { m with field := m.field.set p v h }) ∧
        (p ∉ m.field → F (.outOfField m.cursor.pos p) m) := by
  unfold Ends store Playfield.set?
  by_cases h : p ∈ m.field
  · simp [h]
  · simp [h]

@[simp] theorem ends_consult {call : Console → Except String α × Console} :
    Ends (consult call) Q F m ↔
      (∀ x console, call m.console = (.ok x, console) → Q x { m with console }) ∧
        ∀ text console, call m.console = (.error text, console) →
          F (.console m.cursor.pos text) { m with console } := by
  unfold Ends consult
  rcases h : call m.console with ⟨_ | _, console⟩
  · simp
  · simp

theorem consult_of_ok {call : Console → Except String α × Console} {x : α} {c : Console}
    (h : call m.console = (.ok x, c)) : consult call m = .ok x { m with console := c } := by
  rw [consult, h]

/-- A line of input: the flush may fail, the read may fail, and there may be no line. -/
@[simp] theorem ends_readLine {Q : String → Machine → Prop} :
    Ends readLine Q F m ↔
      (∀ console, m.console.flush = (.ok (), console) →
        (∀ line console', console.readLine = (.ok (some line), console') →
          Q line { m with console := console' }) ∧
        (∀ console', console.readLine = (.ok none, console') →
          F (.malformedInput m.cursor.pos .endOfInput) { m with console := console' }) ∧
        ∀ text console', console.readLine = (.error text, console') →
          F (.console m.cursor.pos text) { m with console := console' }) ∧
        ∀ text console, m.console.flush = (.error text, console) →
          F (.console m.cursor.pos text) { m with console } := by
  simp only [readLine, ends_bind, ends_consult]
  refine and_congr ⟨fun h console hc => ?_, fun h x console hc => ?_⟩ Iff.rfl
  · obtain ⟨hok, herror⟩ := h () console hc
    exact ⟨fun line c hl => hok (some line) c hl, fun c hl => hok none c hl, herror⟩
  · obtain ⟨hline, hnone, herror⟩ := h console hc
    refine ⟨fun line c hl => ?_, herror⟩
    cases line with
    | some line => exact hline line c hl
    | none => exact hnone c hl

/-! ## Instructions that look at what they have -/

variable {op : Char}

/-- Two operands are popped, and there may be no result. -/
theorem ends_arith {a : Arith} :
    Ends (perform op (.arith a)) U F m ↔
      (∀ x rest, m.stack.pop? = some (x, rest) →
        (∀ y below, rest.pop? = some (y, below) →
          (∀ v, a.apply y x = some v → U () { m with stack := below.push v }) ∧
            (a.apply y x = none →
              F (.divisionByZero m.cursor.pos op) { m with stack := below })) ∧
          (rest.pop? = none → F (.stackUnderflow m.cursor.pos op) { m with stack := rest })) ∧
        (m.stack.pop? = none → F (.stackUnderflow m.cursor.pos op) m) := by
  refine ends_bind.trans (ends_pop.trans (and_congr (forall₃_congr fun x rest _ => ?_) Iff.rfl))
  refine ends_bind.trans (ends_pop.trans (and_congr (forall₃_congr fun y below _ => ?_) Iff.rfl))
  cases a.apply y x with
  | some v => simp
  | none => simp

/-- A line is read, and it may hold no integer. -/
theorem ends_readInteger :
    Ends (perform op .readInteger) U F m ↔
      Ends readLine (fun line m' =>
        (∀ v, Numeral.cell? (Text.trim line.toList) = some v →
          U () { m' with stack := m'.stack.push v }) ∧
        (Numeral.cell? (Text.trim line.toList) = none →
          F (.malformedInput m'.cursor.pos (.notAnInteger line)) m')) F m := by
  refine ends_bind.trans (ends_congr fun line m' => ?_)
  cases Numeral.cell? (Text.trim line.toList) with
  | some v => simp
  | none => simp

/-- A line is read, and it may be empty. -/
theorem ends_readChar :
    Ends (perform op .readChar) U F m ↔
      Ends readLine (fun line m' =>
        (∀ c rest, line.toList = c :: rest →
          U () { m' with stack := m'.stack.push (Cell.ofChar c) }) ∧
        (line.toList = [] → F (.malformedInput m'.cursor.pos .emptyLine) m')) F m := by
  refine ends_bind.trans (ends_congr fun line m' => ?_)
  cases line.toList with
  | cons c rest => simp
  | nil => simp

/-! ## Dispatch -/

/-- A dispatch pushes or performs, and then the cursor steps on. -/
theorem ends_dispatch {v : Cell} :
    Ends (dispatch v) U F m ↔
      Ends (if m.cursor.stringMode && v != Cell.quote then push v
          else perform v.toChar (Instruction.decode v))
        (fun _ m' => U () { m' with cursor := m'.cursor.advance }) F m := by
  simp only [dispatch, ends_bind, ends_inString]
  split
  · exact ends_bind
  · exact ends_bind

/-- What a dispatch does depends on the mode. -/
theorem dispatch_apply (v : Cell) (m : Machine) :
    dispatch v m
      = ((if m.cursor.stringMode && v != Cell.quote then push v
          else perform v.toChar (Instruction.decode v)) >>= fun _ => steer Cursor.advance) m := by
  show ((if m.cursor.stringMode && v != Cell.quote then (push v >>= fun _ => steer Cursor.advance)
    else perform v.toChar (Instruction.decode v) >>= fun _ => steer Cursor.advance) : Exec Unit) m
      = _
  split <;> rfl

section

variable {v : Cell} {i : Instruction} {m' : Machine} (hmode : m.cursor.stringMode = false)
  (hv : Instruction.decode v = i)

include hmode hv

/-- Outside string mode a cell is obeyed, and then the cursor steps on, ... -/
theorem dispatch_of_perform_ok (h : perform v.toChar i m = .ok () m') :
    dispatch v m = .ok () { m' with cursor := m'.cursor.advance } := by
  rw [dispatch_apply, hmode, Bool.false_and, if_neg Bool.false_ne_true, hv, bind_of_ok h]
  rfl

/-- ... unless the instruction faults. -/
theorem dispatch_of_perform_error {fault : Fault}
    (h : perform v.toChar i m = .error fault m') : dispatch v m = .error fault m' := by
  rw [dispatch_apply, hmode, Bool.false_and, if_neg Bool.false_ne_true, hv]
  exact bind_of_error h

end

end Funge.Exec
