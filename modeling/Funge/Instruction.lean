/-
  What a cell does when it is obeyed.

  `Instruction.decode` gives every cell its instruction; a cell that stands for no character,
  or for one without a meaning, does nothing.  `Arith` holds the five binary operators: the
  entry popped first is the right operand, results wrap around, quotients are cut off towards
  zero and remainders take the sign of the dividend.
-/
import Funge.Cursor

namespace Funge

/-- A binary operator. -/
inductive Arith where
  | add | subtract | multiply | divide | modulo
deriving DecidableEq, Repr

/-- The result of `b op a`; there is none for a zero divisor. -/
def Arith.apply (op : Arith) (b a : Cell) : Option Cell :=
  match op with
  | add => some (b + a)
  | subtract => some (b - a)
  | multiply => some (b * a)
  | divide => if a = 0 then none else some (b / a)
  | modulo => if a = 0 then none else some (b % a)

/-- An instruction. -/
inductive Instruction where
  /-- Push a digit's value. -/
  | push (digit : Cell)
  /-- Pop `a` and `b`, push `b op a`. -/
  | arith (op : Arith)
  /-- Pop a value, push whether it is zero. -/
  | not
  /-- Pop `a` and `b`, push whether `b` is greater. -/
  | greater
  /-- Head that way. -/
  | go (dir : Direction)
  /-- Head a random way. -/
  | goRandom
  /-- Pop a value; head east if it is zero and west otherwise. -/
  | branchHorizontal
  /-- Pop a value; head south if it is zero and north otherwise. -/
  | branchVertical
  /-- Switch string mode. -/
  | toggleString
  /-- Push the top entry again. -/
  | duplicate
  /-- Exchange the two top entries. -/
  | swap
  /-- Pop a value. -/
  | discard
  /-- Pop a value, write it in decimal. -/
  | writeInteger
  /-- Pop a value, write the character it is shown as. -/
  | writeChar
  /-- Jump over the next square. -/
  | skip
  /-- Pop `y` and `x`, push the cell there. -/
  | load
  /-- Pop `y`, `x` and a value, store the value there. -/
  | store
  /-- Read a line, push the integer it holds. -/
  | readInteger
  /-- Read a line, push its first character. -/
  | readChar
  /-- End the run. -/
  | halt
  /-- Do nothing. -/
  | nothing
deriving DecidableEq, Repr

namespace Instruction

/-- The instruction a character stands for. -/
def ofChar (c : Char) : Instruction :=
  if c.isDigit then push (Cell.ofChar c - Cell.ofChar '0') else
  match c with
  | '+' => arith .add
  | '-' => arith .subtract
  | '*' => arith .multiply
  | '/' => arith .divide
  | '%' => arith .modulo
  | '!' => not
  | '\x60' => greater
  | '<' => go .west
  | '>' => go .east
  | '^' => go .north
  | 'v' => go .south
  | '?' => goRandom
  | '_' => branchHorizontal
  | '|' => branchVertical
  | '"' => toggleString
  | ':' => duplicate
  | '\\' => swap
  | '$' => discard
  | '.' => writeInteger
  | ',' => writeChar
  | '#' => skip
  | 'g' => load
  | 'p' => store
  | '&' => readInteger
  | '~' => readChar
  | '@' => halt
  | _ => nothing

/-- The instruction of a cell. -/
def decode (v : Cell) : Instruction := v.toChar?.elim nothing ofChar

/-- The character of an instruction.  Digits, which differ by their value, and doing nothing have
    none of their own. -/
def glyph? : Instruction → Option Char
  | push _ | nothing => none
  | arith .add => '+'
  | arith .subtract => '-'
  | arith .multiply => '*'
  | arith .divide => '/'
  | arith .modulo => '%'
  | not => '!'
  | greater => '\x60'
  | go .west => '<'
  | go .east => '>'
  | go .north => '^'
  | go .south => 'v'
  | goRandom => '?'
  | branchHorizontal => '_'
  | branchVertical => '|'
  | toggleString => '"'
  | duplicate => ':'
  | swap => '\\'
  | discard => '$'
  | writeInteger => '.'
  | writeChar => ','
  | skip => '#'
  | load => 'g'
  | store => 'p'
  | readInteger => '&'
  | readChar => '~'
  | halt => '@'

/-- A cell that holds a character has that character's instruction. -/
@[simp] theorem decode_ofChar (c : Char) : decode (Cell.ofChar c) = ofChar c := by
  simp [decode]

/-! ## The two cells a run looks at before it decodes -/

theorem decode_halt : decode Cell.halt = halt := by decide

theorem decode_quote : decode Cell.quote = toggleString := by decide

/-! ## Decoding goes one way only -/

/-- An instruction with a character is the instruction of that character alone. -/
theorem eq_of_glyph?_ofChar {c g : Char} (h : (ofChar c).glyph? = some g) : c = g := by
  unfold ofChar at h
  split at h
  · nomatch h
  · split at h
    case h_27 => nomatch h
    all_goals exact Option.some.inj h

/-- ... and of one cell. -/
theorem eq_of_glyph?_decode {v : Cell} {g : Char} (h : (decode v).glyph? = some g) :
    v = Cell.ofChar g := by
  unfold decode at h
  cases hc : v.toChar? with
  | none =>
    rw [hc] at h
    nomatch h
  | some c =>
    rw [hc] at h
    obtain rfl := eq_of_glyph?_ofChar h
    exact Cell.toChar?_eq_some_iff.mp hc

end Instruction

end Funge
