/-
  The ChaCha stream with 12 rounds, as random access to 64-bit words.

  A block is sixteen 32-bit words made from a key, a 64-bit block counter and a zero nonce.
  The stream reads the blocks in order, two 32-bit words for each 64-bit word, the low one
  first; so word `i` comes from block `i / 8`.  A seed of 64 bits is stretched to the eight
  words of a key by a permuted congruential generator.
-/

namespace Funge.Random

/-- Sixteen words: the state of a block while it is mixed. -/
abbrev Block := Vector UInt32 16

/-- A word rotated to the left. -/
def rotateLeft (w n : UInt32) : UInt32 := (w <<< n) ||| (w >>> (32 - n))

/-- A word rotated to the right. -/
def rotateRight (w n : UInt32) : UInt32 := rotateLeft w (32 - n)

namespace Block

/-- One quarter round on four words of a block. -/
def quarterRound (s : Block) (a b c d : Fin 16) : Block :=
  let s := s.set a (s[a] + s[b])
  let s := s.set d (rotateLeft (s[d] ^^^ s[a]) 16)
  let s := s.set c (s[c] + s[d])
  let s := s.set b (rotateLeft (s[b] ^^^ s[c]) 12)
  let s := s.set a (s[a] + s[b])
  let s := s.set d (rotateLeft (s[d] ^^^ s[a]) 8)
  let s := s.set c (s[c] + s[d])
  s.set b (rotateLeft (s[b] ^^^ s[c]) 7)

/-- A round over the four columns and a round over the four diagonals. -/
def doubleRound (s : Block) : Block :=
  let s := s.quarterRound 0 4 8 12
  let s := s.quarterRound 1 5 9 13
  let s := s.quarterRound 2 6 10 14
  let s := s.quarterRound 3 7 11 15
  let s := s.quarterRound 0 5 10 15
  let s := s.quarterRound 1 6 11 12
  let s := s.quarterRound 2 7 8 13
  s.quarterRound 3 4 9 14

/-- Twelve rounds, and the words from before them added. -/
def mix (s : Block) : Block :=
  let mixed := Nat.repeat doubleRound 6 s
  Vector.zipWith (· + ·) mixed s

/-- The block with a given counter, before mixing. -/
def initial (key : Vector UInt32 8) (counter : Nat) : Block :=
  #v[0x61707865, 0x3320646e, 0x79622d32, 0x6b206574,
    key[0], key[1], key[2], key[3], key[4], key[5], key[6], key[7],
    UInt32.ofNat counter, UInt32.ofNat (counter / UInt32.size), 0, 0]

end Block

/-- Word `i` of the stream of a key. -/
def streamWord (key : Vector UInt32 8) (i : Nat) : UInt64 :=
  let block := (Block.initial key (i / 8)).mix
  let low := block[2 * (i % 8)]
  let high := block[2 * (i % 8) + 1]
  high.toUInt64 <<< 32 ||| low.toUInt64

/-- The block counter has 64 bits, so the stream repeats after this many words. -/
def streamPeriod : Nat := 8 * UInt64.size

/-! ## From a seed to a key -/

/-- The next state of the generator. -/
def nextState (state : UInt64) : UInt64 :=
  state * 6364136223846793005 + 11634580027462260723

/-- The word the generator gives in a state. -/
def stateWord (state : UInt64) : UInt32 :=
  rotateRight (((state >>> 18) ^^^ state) >>> 27).toUInt32 (state >>> 59).toUInt32

/-- The key of a seed: the words of the eight states after it. -/
def keyOfSeed (seed : UInt64) : Vector UInt32 8 :=
  Vector.ofFn fun i => stateWord (Nat.repeat nextState (i.val + 1) seed)

end Funge.Random
