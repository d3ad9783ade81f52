/-
  The linear stack machine.

  This machine reads a word from left to right, once.  It has a stack, a string flag, the lines
  still to be read and the text written, and no field, no cursor and no directions; what a character
  does is `table`, line by line as the instruction set is written down, with exact arithmetic on
  integers that is cut down to 32 bits only where a result is pushed.  A word means the fold of
  `State.step` over it.

  Its programs are, for one, the postfix forms of expressions: reading one pushes the value of the
  expression (`foldlM_word`).
-/
import Funge.Fault
import Funge.Instruction
import Funge.Numeral
import Funge.Text.Blank

namespace Funge

/-! ## Arithmetic -/

/-- The exact result of `b op a` on integers; there is none for a zero divisor. -/
def Arith.onInt (op : Arith) (b a : Int) : Option Int :=
  match op with
  | add => some (b + a)
  | subtract => some (b - a)
  | multiply => some (b * a)
  | divide => if a = 0 then none else some (b.tdiv a)
  | modulo => if a = 0 then none else some (b.tmod a)

/-- One quotient is out of range, that of the least number by -1, and it wraps around. -/
theorem Cell.div_eq_ofInt (b a : Cell) : b / a = Int32.ofInt (b.toInt.tdiv a.toInt) := by
  apply Int32.toInt_inj.mp
  rw [Int32.toInt_div, Int32.toInt_ofInt]

/-- No remainder is out of range. -/
theorem Cell.mod_eq_ofInt (b a : Cell) : b % a = Int32.ofInt (b.toInt.tmod a.toInt) := by
  rw [← Int32.toInt_mod, Int32.ofInt_toInt]

theorem Cell.toInt_eq_zero_iff {a : Cell} : a.toInt = 0 ↔ a = 0 := by
  rw [← Int32.toInt_zero, Int32.toInt_inj]

/-- Arithmetic on cells is exact arithmetic, cut down to 32 bits. -/
theorem Arith.apply_eq_onInt (op : Arith) (b a : Cell) :
    op.apply b a = (op.onInt b.toInt a.toInt).map Int32.ofInt := by
  cases op with
  | add => simp [apply, onInt, Int32.ofInt_add]
  | subtract => simp [apply, onInt, Int32.ofInt_sub]
  | multiply => simp [apply, onInt, Int32.ofInt_mul]
  | divide =>
    unfold apply onInt
    by_cases ha : a = 0
    · simp [ha]
    · simp only [if_neg ha, if_neg (mt Cell.toInt_eq_zero_iff.mp ha), Cell.div_eq_ofInt, Option.map_some]
  | modulo =>
    unfold apply onInt
    by_cases ha : a = 0
    · simp [ha]
    · simp only [if_neg ha, if_neg (mt Cell.toInt_eq_zero_iff.mp ha), Cell.mod_eq_ofInt, Option.map_some]

namespace Linear

/-! ## The machine -/

/-- What instructions work on. -/
structure Data where
  /-- The operands, top first. -/
  stack : List Cell
  /-- The lines still to be read. -/
  pending : List String
  /-- The text written. -/
  output : String

/-- Why a word cannot be read on. -/
inductive Failure where
  /-- The stack was empty. -/
  | underflow
  /-- The divisor was zero. -/
  | zeroDivisor
  /-- A line of input was refused. -/
  | refused (reason : InputFault)

/-- An action on the data. -/
abbrev Action (α : Type) := StateT Data (Except Failure) α

def fail {α : Type} (why : Failure) : Action α := fun _ => .error why

def push (v : Cell) : Action Unit := fun d => .ok ((), { d with stack := v :: d.stack })

def pop : Action Cell := fun d =>
  match d.stack with
  | [] => .error .underflow
  | v :: rest => .ok (v, { d with stack := rest })

def peek : Action Cell := fun d =>
  match d.stack with
  | [] => .error .underflow
  | v :: _ => .ok (v, d)

def write (text : String) : Action Unit := fun d => .ok ((), { d with output := d.output ++ text })

def read : Action String := fun d =>
  match d.pending with
  | [] => .error (.refused .endOfInput)
  | line :: rest => .ok (line, { d with pending := rest })

/-- Pop `a` and `b`, push `b op a`. -/
def calculate (op : Arith) : Action Unit := do
  let a ← pop
  let b ← pop
  match op.onInt b.toInt a.toInt with
  | some result => push (Int32.ofInt result)
  | none => fail .zeroDivisor

/-- What a character does outside string mode. -/
def table (c : Char) : Action Unit :=
  if c.isDigit then push (Int32.ofNat (c.toNat - '0'.toNat)) else
  match c with
  | '+' => calculate .add
  | '-' => calculate .subtract
  | '*' => calculate .multiply
  | '/' => calculate .divide
  | '%' => calculate .modulo
  | '!' => do
    let v ← pop
    push (if v = 0 then 1 else 0)
  | '\x60' => do
    let a ← pop
    let b ← pop
    push (if b.toInt > a.toInt then 1 else 0)
  | ':' => do
    let v ← peek
    push v
  | '\\' => do
    let a ← pop
    let b ← pop
    push a
    push b
  | '$' => do
    let _ ← pop
  | '.' => do
    let v ← pop
    write (toString v.toInt)
  | ',' => do
    let v ← pop
    write v.toChar.toString
  | '&' => do
    let line ← read
    match Numeral.cell? (Text.trim line.toList) with
    | some v => push v
    | none => fail (.refused (.notAnInteger line))
  | '~' => do
    let line ← read
    match line.toList with
    | c :: _ => push (Int32.ofNat c.toNat)
    | [] => fail (.refused .emptyLine)
  | _ => pure ()

/-- The data and the string flag. -/
structure State where
  /-- What instructions work on. -/
  data : Data
  /-- Whether characters are pushed. -/
  quoting : Bool

/-- Nothing on the stack, nothing written. -/
def State.init (lines : List String) : State := ⟨⟨[], lines, ""⟩, false⟩

/-- Read one character. -/
def State.step (s : State) (c : Char) : Except Failure State :=
  if c = '"' then .ok { s with quoting := !s.quoting }
  else if s.quoting then
    .ok { s with data.stack := Int32.ofNat c.toNat :: s.data.stack }
  else
    match table c s.data with
    | .ok ((), data) => .ok { s with data }
    | .error why => .error why

/-- The quotes read so far decide the flag. -/
theorem State.quoting_step {s s' : State} {c : Char} (h : s.step c = .ok s') :
    s'.quoting = (s.quoting != (c == '"')) := by
  unfold State.step at h
  split at h
  · rename_i hc
    cases h
    cases hs : s.quoting <;> simp [hc]
  · rename_i hc
    have hc' : (c == '"') = false := by simpa using hc
    rw [hc']
    split at h
    · cases h
      simp
    · split at h
      · cases h
        simp
      · nomatch h

/-- A fold that fails has read some characters and failed at the next one. -/
theorem exists_of_foldlM_error {w : List Char} {s : State} {why : Failure}
    (h : w.foldlM State.step s = .error why) :
    ∃ read c rest s', w = read ++ c :: rest ∧ read.foldlM State.step s = .ok s' ∧
      s'.step c = .error why := by
  induction w generalizing s with
  | nil => cases h
  | cons c w ih =>
    rw [List.foldlM_cons] at h
    cases hstep : s.step c with
    | error why' =>
      rw [hstep] at h
      cases h
      exact ⟨[], c, w, s, rfl, rfl, hstep⟩
    | ok s₁ =>
      rw [hstep] at h
      obtain ⟨read, c', rest, s', rfl, hread, hfails⟩ := ih h
      refine ⟨c :: read, c', rest, s', rfl, ?_, hfails⟩
      rw [List.foldlM_cons, hstep]
      exact hread

/-! ## Postfix expressions -/

/-- The character of an operator. -/
def symbol : Arith → Char
  | .add => '+'
  | .subtract => '-'
  | .multiply => '*'
  | .divide => '/'
  | .modulo => '%'

theorem table_symbol (op : Arith) : table (symbol op) = calculate op := by
  cases op <;> rfl

/-- An expression of digits and operators. -/
inductive Expr where
  | digit (d : Fin 10)
  | binary (op : Arith) (l r : Expr)

/-- The operands first, then the operator. -/
def Expr.word : Expr → List Char
  | digit d => [Nat.digitChar d]
  | binary op l r => Expr.word l ++ Expr.word r ++ [symbol op]

/-- The value, with every result cut down to 32 bits; there is none if a divisor is zero. -/
def Expr.eval : Expr → Option Cell
  | digit d => some (Int32.ofNat d)
  | binary op l r => do
    let b ← l.eval
    let a ← r.eval
    (op.onInt b.toInt a.toInt).map Int32.ofInt

/-- Outside string mode a character acts on the data. -/
theorem State.step_of_table {c : Char} {d d' : Data} (hquote : c ≠ '"')
    (h : table c d = .ok ((), d')) : State.step ⟨d, false⟩ c = .ok ⟨d', false⟩ := by
  simp only [State.step, if_neg hquote, Bool.false_eq_true, if_false, h]

/-- The digits, as characters. -/
theorem table_digitChar (n : Fin 10) :
    Nat.digitChar n ≠ '"' ∧ table (Nat.digitChar n) = push (Int32.ofNat n) := by
  have hchar : Nat.digitChar n ≠ '"' ∧ (Nat.digitChar n).isDigit ∧
      (Nat.digitChar n).toNat - '0'.toNat = n := by
    decide +revert
  obtain ⟨hquote, hdigit, hvalue⟩ := hchar
  refine ⟨hquote, ?_⟩
  unfold table
  rw [if_pos hdigit, hvalue]

/-- Reading the postfix form of an expression pushes the value of the expression. -/
theorem foldlM_word {e : Expr} {v : Cell} (h : e.eval = some v) (d : Data) :
    (Expr.word e).foldlM State.step ⟨d, false⟩
      = .ok ⟨{ d with stack := v :: d.stack }, false⟩ := by
  induction e generalizing v d with
  | digit n =>
    obtain rfl := Option.some.inj h
    obtain ⟨hquote, hpush⟩ := table_digitChar n
    have hstep : table (Nat.digitChar n) d
        = .ok ((), { d with stack := Int32.ofNat n :: d.stack }) := by
      rw [hpush]
      rfl
    rw [Expr.word, List.foldlM_cons, State.step_of_table hquote hstep]
    rfl
  | binary op l r ihl ihr =>
    obtain ⟨b, hb, h⟩ := Option.bind_eq_some_iff.mp h
    obtain ⟨a, ha, h⟩ := Option.bind_eq_some_iff.mp h
    obtain ⟨i, hi, rfl⟩ := Option.map_eq_some_iff.mp h
    rw [Expr.word, List.foldlM_append, List.foldlM_append, ihl hb]
    show ((Expr.word r).foldlM State.step _ >>= fun s => [symbol op].foldlM State.step s) = _
    rw [ihr ha]
    -- the operator finds the right operand on top of the left one
    have hop : table (symbol op) { d with stack := a :: b :: d.stack }
        = .ok ((), { d with stack := Int32.ofInt i :: d.stack }) := by
      rw [table_symbol]
      show (match op.onInt b.toInt a.toInt with
        | some result => push (Int32.ofInt result)
        | none => fail .zeroDivisor) d = _
      rw [hi]
      rfl
    show [symbol op].foldlM State.step ⟨{ d with stack := a :: b :: d.stack }, false⟩ = _
    rw [List.foldlM_cons, State.step_of_table (by cases op <;> decide) hop]
    rfl

end Linear

end Funge
