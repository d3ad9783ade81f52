/-
  Random directions.

  A `WordSource` is a stream of 64-bit words and the number of words already taken from it.  A
  direction is drawn by rejection: words whose bit 61 is set are dropped, the first other word
  selects one of the four directions by its two top bits.  `horizon` bounds the search: it is so
  many words that, if the next `horizon` words are all dropped, every later one is.  A
  source without any further direction answers `none`.
-/
import Funge.Cursor
import Funge.Random.ChaCha

namespace Funge.Random

/-- Whether a word selects a direction. -/
def accepts (w : UInt64) : Bool := (w >>> 61) &&& 1 == 0

/-- The direction a word selects. -/
def directionOf (w : UInt64) : Direction :=
  match (w >>> 62).toNat with
  | 0 => .north
  | 1 => .south
  | 2 => .east
  | _ => .west

/-- A stream of words with a place in it. -/
structure WordSource where
  /-- The words of the stream. -/
  word : Nat → UInt64
  /-- How many words a search looks at. -/
  horizon : Nat
  /-- How many words have been taken. -/
  used : Nat

namespace WordSource

/-- The first accepted word among the `n` words from index `i` on, as its index. -/
def firstAccepted? (word : Nat → UInt64) : (n i : Nat) → Option Nat
  | 0, _ => none
  | n + 1, i => if accepts (word i) then some i else firstAccepted? word n (i + 1)

/-- Draw a direction.  All words up to the accepted one are taken. -/
def next? (s : WordSource) : Option (Direction × WordSource) :=
  (firstAccepted? s.word s.horizon s.used).map fun i =>
    (directionOf (s.word i), { s with used := i + 1 })

/-- The stream of a seed. -/
def ofSeed (seed : UInt64) : WordSource :=
  let key := keyOfSeed seed
  ⟨streamWord key, streamPeriod, 0⟩

/-- Given words, and zeros after them.  A zero is accepted, so a search ends one word after
    the last of them at the latest. -/
def ofWords (words : Array UInt64) : WordSource := ⟨fun i => words.getD i 0, words.size + 1, 0⟩

/-- Draw until `total` words are taken, at most `draws` times: the directions, each with the
    number of words taken by then. -/
def drawUntil (total : Nat) : (draws : Nat) → WordSource → List (Direction × Nat)
  | 0, _ => []
  | draws + 1, s =>
    if total ≤ s.used then [] else
    match s.next? with
    | none => []
    | some (d, s') => (d, s'.used) :: drawUntil total draws s'

/-- All directions drawn from given words until every one of them is taken. -/
def directionsOf (words : Array UInt64) : List (Direction × Nat) :=
  drawUntil words.size words.size (ofWords words)

/-! ## Small laws -/

theorem firstAccepted?_succ (word : Nat → UInt64) (n i : Nat) :
    firstAccepted? word (n + 1) i
      = if accepts (word i) then some i else firstAccepted? word n (i + 1) := rfl

/-- What the search finds is accepted, and it is not before the start. -/
theorem of_firstAccepted?_eq_some {word : Nat → UInt64} {n i j : Nat}
    (h : firstAccepted? word n i = some j) : accepts (word j) ∧ i ≤ j := by
  induction n generalizing i with
  | zero => simp [firstAccepted?] at h
  | succ n ih =>
    rw [firstAccepted?_succ] at h
    split at h
    · obtain rfl := Option.some.inj h
      exact ⟨by assumption, Nat.le_refl _⟩
    · obtain ⟨ha, hle⟩ := ih h
      exact ⟨ha, by omega⟩

end WordSource

end Funge.Random
