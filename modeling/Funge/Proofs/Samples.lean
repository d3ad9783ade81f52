/-
  The directions of a stream of words.

  The words that select a direction are the samples of a stream: `IsSample word i d` says that the
  accepted word with `i` accepted ones before it selects `d`.  A source of directions finds them one
  after the other, however many words lie between them.

  Its search is bounded, and that loses nothing: the stream of a seed repeats after as many words as
  the search looks at (`cyclic_ofSeed`), so if it finds none there is none to be found
  (`next?_eq_none_iff`).  Hence draw number `i` gives sample number `i` (`heading?_drawn_iff`).
-/
import Funge.Random.WordSource
import Mathlib.Data.Nat.Periodic

namespace Funge.Random

/-- Accepted word number `i` of a stream, counted from zero, selects direction `d`. -/
def IsSample (word : Nat → UInt64) (i : Nat) (d : Direction) : Prop :=
  ∃ j, accepts (word j) = true ∧ Nat.count (fun k => accepts (word k) = true) j = i ∧
    directionOf (word j) = d

/-- No two directions are sample number `i`. -/
theorem IsSample.unique {word : Nat → UInt64} {i : Nat} {d d' : Direction}
    (h : IsSample word i d) (h' : IsSample word i d') : d = d' := by
  obtain ⟨j, hj, hcount, rfl⟩ := h
  obtain ⟨j', hj', hcount', rfl⟩ := h'
  have heq := hcount.trans hcount'.symm
  rw [Nat.count_injective (p := fun k => accepts (word k) = true) hj hj' heq]

/-! ## The stream of a seed repeats -/

/-- A word does not see multiples of its size. -/
theorem ofNat_add_mul_size (c k : Nat) : UInt32.ofNat (c + k * UInt32.size) = UInt32.ofNat c := by
  rw [← UInt32.ofNat_mod_size, UInt32.size, Nat.add_mul_mod_self_right, UInt32.ofNat_mod_size]

/-- Of its counter a block sees two words. -/
theorem initial_congr (key : Vector UInt32 8) {c d : Nat} (hlow : UInt32.ofNat c = UInt32.ofNat d)
    (hhigh : UInt32.ofNat (c / UInt32.size) = UInt32.ofNat (d / UInt32.size)) :
    Block.initial key c = Block.initial key d := by
  unfold Block.initial
  rw [hlow, hhigh]

/-- The counter starts again after its 64 bits are used up. -/
theorem initial_add (key : Vector UInt32 8) (c : Nat) :
    Block.initial key (c + UInt64.size) = Block.initial key c := by
  have hsize : UInt64.size = UInt32.size * UInt32.size := rfl
  have hdiv : (c + UInt64.size) / UInt32.size = c / UInt32.size + 1 * UInt32.size := by
    rw [hsize, Nat.one_mul, Nat.add_mul_div_right _ _ (Nat.two_pow_pos 32)]
  refine initial_congr key ?_ ?_
  · rw [hsize, ofNat_add_mul_size]
  · rw [hdiv]
    exact ofNat_add_mul_size _ 1

theorem periodic_streamWord (key : Vector UInt32 8) :
    Function.Periodic (streamWord key) streamPeriod := by
  intro i
  have hblock : (i + streamPeriod) / 8 = i / 8 + UInt64.size := by
    rw [streamPeriod, Nat.add_mul_div_left _ _ (by decide)]
  have hplace : (i + streamPeriod) % 8 = i % 8 := by
    rw [streamPeriod, Nat.add_mul_mod_self_left]
  unfold streamWord
  simp only [hblock, hplace, initial_add]

namespace WordSource

variable {s s' : WordSource} {d : Direction} {i j n : Nat} {word : Nat → UInt64}

/-- A search looks at one whole period of the stream. -/
structure Cyclic (s : WordSource) : Prop where
  horizon_pos : 0 < s.horizon
  periodic : Function.Periodic s.word s.horizon

theorem cyclic_ofSeed (seed : UInt64) : (ofSeed seed).Cyclic :=
  ⟨Nat.mul_pos (by decide) (by decide), periodic_streamWord _⟩

/-! ## Searches -/

theorem firstAccepted?_eq_none_iff :
    firstAccepted? word n i = none ↔ ∀ k < n, accepts (word (i + k)) = false := by
  induction n generalizing i with
  | zero => simp [firstAccepted?]
  | succ n ih =>
    rw [firstAccepted?_succ, Nat.forall_lt_succ_left]
    cases h : accepts (word i) with
    | true => simp
    | false =>
      rw [if_neg Bool.false_ne_true, ih]
      simp [Nat.add_assoc, Nat.add_comm 1]

/-- What the search finds is the first accepted word. -/
theorem not_accepts_of_firstAccepted? (h : firstAccepted? word n i = some j) :
    ∀ k, i ≤ k → k < j → ¬ accepts (word k) = true := by
  induction n generalizing i with
  | zero => nomatch h
  | succ n ih =>
    rw [firstAccepted?_succ] at h
    intro k hik hkj
    split at h
    · obtain rfl := Option.some.inj h
      omega
    · rename_i hi
      rcases Nat.eq_or_lt_of_le hik with rfl | hlt
      · exact hi
      · exact ih h k hlt hkj

/-- A search without a result shows that no word is accepted. -/
theorem next?_eq_none_iff (hs : s.Cyclic) : s.next? = none ↔ ∀ j, accepts (s.word j) = false := by
  rw [next?, Option.map_eq_none_iff, firstAccepted?_eq_none_iff]
  refine ⟨fun h j => ?_, fun h k _ => h _⟩
  -- the word `j` is met again among those looked at
  have hle : s.used ≤ j + s.used * s.horizon :=
    (Nat.le_mul_of_pos_right _ hs.horizon_pos).trans (Nat.le_add_left _ _)
  have hsplit := Nat.div_add_mod (j + s.used * s.horizon - s.used) s.horizon
  have hk := h _ (Nat.mod_lt (j + s.used * s.horizon - s.used) hs.horizon_pos)
  rw [← hs.periodic.nat_mul ((j + s.used * s.horizon - s.used) / s.horizon), Nat.add_assoc,
    Nat.add_comm (_ % _), Nat.mul_comm _ s.horizon] at hk
  simp only [Nat.cast_id, hsplit, Nat.add_sub_cancel' hle] at hk
  rwa [← hs.periodic.nat_mul s.used j]

/-! ## Draws -/

/-- The direction of the next draw. -/
def heading? (s : WordSource) : Option Direction := s.next?.map Prod.fst

/-- The source after a draw. -/
def draw (s : WordSource) : WordSource := s.next?.elim s Prod.snd

/-- The source after `n` draws. -/
def drawn : (n : Nat) → WordSource → WordSource
  | 0, s => s
  | n + 1, s => (drawn n s).draw

theorem drawn_add (m n : Nat) (s : WordSource) : s.drawn (m + n) = (s.drawn m).drawn n := by
  induction n with
  | zero => rfl
  | succ n ih => rw [← Nat.add_assoc, drawn, ih, drawn]

/-- A draw only moves on in the stream. -/
theorem draw_eq (s : WordSource) : s.draw = { s with used := s.draw.used } := by
  unfold draw next?
  cases firstAccepted? s.word s.horizon s.used <;> rfl

theorem drawn_eq (n : Nat) (s : WordSource) : s.drawn n = { s with used := (s.drawn n).used } := by
  induction n with
  | zero => rfl
  | succ n ih =>
    rw [drawn, draw_eq, ih]

theorem Cyclic.drawn (hs : s.Cyclic) (n : Nat) : (s.drawn n).Cyclic := by
  rw [drawn_eq]
  exact ⟨hs.horizon_pos, hs.periodic⟩

/-- Between two places without an accepted word the count stays. -/
theorem count_eq_of_not_accepts (hij : i ≤ j)
    (h : ∀ k, i ≤ k → k < j → ¬ accepts (word k) = true) :
    Nat.count (fun k => accepts (word k) = true) j
      = Nat.count (fun k => accepts (word k) = true) i := by
  induction j, hij using Nat.le_induction with
  | base => rfl
  | succ j hij ih =>
    rw [Nat.count_succ_eq_count (p := fun k => accepts (word k) = true) (h j hij (Nat.lt_succ_self j))]
    exact ih fun k hik hkj => h k hik (by omega)

/-- The next draw gives the next sample, and leaves the source right after it. -/
theorem isSample_of_next? (h : s.next? = some (d, s')) :
    IsSample s.word (Nat.count (fun k => accepts (s.word k) = true) s.used) d ∧
      Nat.count (fun k => accepts (s.word k) = true) s'.used
        = Nat.count (fun k => accepts (s.word k) = true) s.used + 1 := by
  obtain ⟨j, hj, heq⟩ := Option.map_eq_some_iff.mp h
  obtain ⟨rfl, rfl⟩ := Prod.mk.inj heq
  obtain ⟨haccepts, hle⟩ := of_firstAccepted?_eq_some hj
  have hcount := count_eq_of_not_accepts hle (not_accepts_of_firstAccepted? hj)
  refine ⟨⟨j, haccepts, hcount, rfl⟩, ?_⟩
  rw [Nat.count_succ_eq_succ_count (p := fun k => accepts (s.word k) = true) haccepts, hcount]

/-- After `i` draws there are `i` accepted words behind the source, if there are any at all. -/
theorem count_drawn (hs : s.Cyclic) (hstart : s.used = 0) (hj : accepts (s.word j) = true)
    (i : Nat) : Nat.count (fun k => accepts (s.word k) = true) (s.drawn i).used = i := by
  induction i with
  | zero => rw [drawn, hstart, Nat.count_zero]
  | succ i ih =>
    have hword : (s.drawn i).word = s.word := by rw [drawn_eq]
    cases hnext : (s.drawn i).next? with
    | none =>
      have hnone := (next?_eq_none_iff (hs.drawn i)).mp hnext j
      rw [hword, hj] at hnone
      nomatch hnone
    | some draw =>
      obtain ⟨d, s'⟩ := draw
      obtain ⟨-, hcount⟩ := isSample_of_next? hnext
      rw [hword, ih] at hcount
      rw [drawn, draw, hnext]
      exact hcount

/-- Draw number `i` of a source that is at its start gives sample number `i` of its stream. -/
theorem heading?_drawn_iff (hs : s.Cyclic) (hstart : s.used = 0) (i : Nat) :
    (s.drawn i).heading? = some d ↔ IsSample s.word i d := by
  have hword : (s.drawn i).word = s.word := by rw [drawn_eq]
  have hsample {d' s'} (hnext : (s.drawn i).next? = some (d', s')) {j}
      (hj : accepts (s.word j) = true) : IsSample s.word i d' := by
    have h := (isSample_of_next? hnext).1
    rwa [hword, count_drawn hs hstart hj] at h
  rw [heading?, Option.map_eq_some_iff]
  constructor
  · rintro ⟨⟨d', s'⟩, hnext, rfl⟩
    obtain ⟨j, hj, -⟩ := Option.map_eq_some_iff.mp hnext
    exact hsample hnext (hword ▸ (of_firstAccepted?_eq_some hj).1)
  · rintro ⟨j, hj, hd⟩
    cases hnext : (s.drawn i).next? with
    | none =>
      have hnone := (next?_eq_none_iff (hs.drawn i)).mp hnext j
      rw [hword, hj] at hnone
      nomatch hnone
    | some draw =>
      obtain ⟨d', s'⟩ := draw
      exact ⟨(d', s'), rfl, (hsample hnext hj).unique ⟨j, hj, hd⟩⟩

/-- A stream with one accepted word has a sample of every number. -/
theorem exists_isSample (hs : s.Cyclic) (hstart : s.used = 0) (hj : accepts (s.word j) = true)
    (i : Nat) : ∃ d, IsSample s.word i d := by
  cases hheading : (s.drawn i).heading? with
  | some d => exact ⟨d, (heading?_drawn_iff hs hstart i).mp hheading⟩
  | none =>
    have hnone := (next?_eq_none_iff (hs.drawn i)).mp (Option.map_eq_none_iff.mp hheading) j
    rw [drawn_eq] at hnone
    rw [hj] at hnone
    nomatch hnone

end WordSource

end Funge.Random
