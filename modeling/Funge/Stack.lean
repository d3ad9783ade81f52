/-
  The operand stack.

  All operations work at the top.  The view is `toList`, from the bottom to the top: pushing
  appends to it and popping takes its last entry away.
-/
import Funge.Cell

namespace Funge

/-- A stack of cells. -/
structure Stack where
  /-- The entries, top first. -/
  entries : List Cell
deriving DecidableEq, Repr

namespace Stack

/-- The stack without entries. -/
def empty : Stack := ⟨[]⟩

instance : EmptyCollection Stack := ⟨empty⟩
instance : Inhabited Stack := ⟨empty⟩

/-- The entries from the bottom to the top. -/
def toList (s : Stack) : List Cell := s.entries.reverse

/-- The number of entries. -/
def size (s : Stack) : Nat := s.entries.length

/-- Whether there is no entry. -/
def isEmpty (s : Stack) : Bool := s.entries.isEmpty

/-- Put a cell on top. -/
def push (s : Stack) (v : Cell) : Stack := ⟨v :: s.entries⟩

/-- The top entry. -/
def peek? (s : Stack) : Option Cell := s.entries.head?

/-- The top entry and the stack below it. -/
def pop? (s : Stack) : Option (Cell × Stack) :=
  match s.entries with
  | [] => none
  | v :: rest => some (v, ⟨rest⟩)

/-- What is said about an entry wanted from the empty stack. -/
def underflowMessage : String := "stack underflow"

/-! ## The operations through the view -/

@[simp] theorem toList_empty : (∅ : Stack).toList = [] := rfl

@[simp] theorem toList_push (s : Stack) (v : Cell) : (s.push v).toList = s.toList ++ [v] := by
  simp [toList, push]

@[simp] theorem size_eq_length (s : Stack) : s.size = s.toList.length := by
  simp [size, toList]

@[simp] theorem peek?_eq_getLast? (s : Stack) : s.peek? = s.toList.getLast? := by
  simp [peek?, toList]

/-- Popping takes the last entry of the view away. -/
theorem pop?_eq_some_iff {s t : Stack} {v : Cell} :
    s.pop? = some (v, t) ↔ s.toList = t.toList ++ [v] := by
  rcases s with ⟨_ | ⟨w, r⟩⟩ <;> rcases t with ⟨t⟩
  · simp [pop?, toList]
  · simp [pop?, toList, and_comm]

/-- Only the empty stack cannot be popped. -/
theorem pop?_eq_none_iff {s : Stack} : s.pop? = none ↔ s.toList = [] := by
  rcases s with ⟨_ | ⟨w, r⟩⟩ <;> simp [pop?, toList]

end Stack

end Funge
