/-
  Which words of a stream are chosen.

  A direction is drawn by rejection, so a draw takes as many words as it happens to need, and the
  last one may go on into the zeros behind the given words.

  1. `choice?` says of a single word what it stands for, by its value: nothing if bit 61 is set, else
     the direction numbered by the two bits above it.  That is what the search looks at
     (`choice?_eq`).
  2. The crux (`drawUntil_eq`): from any place on, the directions drawn are the choices of the words
     from there on, each with its number.  A draw steps over words without a choice only, so the
     induction goes on behind the word it found; only if there is none left is a zero drawn.
  3. The words that stand for one direction are `2 ^ 61` numbers in a row, as bit 61 is clear and the
     two bits above it are given (`ncard_choice?`).  Hence all four are chosen alike.
-/
import Mathlib.Data.Set.Card
import Funge.Proofs.Samples

namespace Funge

/-- The directions by their numbers. -/
def Direction.all : List Direction := [.north, .south, .east, .west]

namespace Random

/-! ## Single words -/

variable {w : UInt64} {d : Direction}

/-- The direction a word stands for, if it stands for one. -/
def choice? (w : UInt64) : Option Direction :=
  if w.toNat.testBit 61 then none else Direction.all[w.toNat >>> 62]?

theorem accepts_eq_true_iff : accepts w = true ↔ w.toNat.testBit 61 = false := by
  have hbit : ((w >>> 61) &&& 1).toNat = w.toNat / 2 ^ 61 % 2 := by
    rw [UInt64.toNat_and, UInt64.toNat_shiftRight, Nat.shiftRight_eq_div_pow]
    exact Nat.and_one_is_mod _
  rw [accepts, beq_iff_eq, ← UInt64.toNat_inj, hbit, Nat.testBit_eq_decide_div_mod_eq,
    decide_eq_false_iff_not, UInt64.toNat_zero]
  omega

/-- The number of a word is below four. -/
theorem all_getElem? (w : UInt64) : Direction.all[w.toNat >>> 62]? = some (directionOf w) := by
  have hnumber : (w >>> 62).toNat = w.toNat >>> 62 := by
    rw [UInt64.toNat_shiftRight]
    rfl
  have hlt : w.toNat >>> 62 < 4 := by
    have hw := w.toNat_lt
    rw [Nat.shiftRight_eq_div_pow]
    omega
  rw [directionOf, hnumber]
  generalize w.toNat >>> 62 = q at hlt
  match q, hlt with
  | 0, _ | 1, _ | 2, _ | 3, _ => rfl

/-- A word stands for the direction it selects when it is drawn. -/
theorem choice?_eq (w : UInt64) :
    choice? w = if accepts w then some (directionOf w) else none := by
  rw [choice?, all_getElem?]
  cases hbit : w.toNat.testBit 61 with
  | false => rw [if_neg Bool.false_ne_true, if_pos (accepts_eq_true_iff.mpr hbit)]
  | true =>
    have hno : ¬ accepts w = true := by simp [accepts_eq_true_iff, hbit]
    rw [if_pos rfl, if_neg hno]

/-! ## Counting -/

/-- The words that stand for a direction are those from its number on, as far as bit 61 is clear. -/
theorem choice?_eq_some_iff (q : Fin 4) :
    choice? w = some (Direction.all.get q) ↔ ∃ r < 2 ^ 61, w.toNat = q * 2 ^ 62 + r := by
  have hw := w.toNat_lt
  have hinj : Function.Injective Direction.all.get := List.nodup_iff_injective_get.mp (by decide)
  rw [choice?, Nat.testBit_eq_decide_div_mod_eq, Nat.shiftRight_eq_div_pow]
  have hlt : w.toNat / 2 ^ 62 < Direction.all.length := by
    show w.toNat / 2 ^ 62 < 4
    omega
  rw [List.getElem?_eq_getElem hlt]
  constructor
  · intro h
    split at h
    · nomatch h
    · rename_i hbit
      rw [decide_eq_true_eq] at hbit
      have hq : w.toNat / 2 ^ 62 = q := congrArg Fin.val (hinj (Option.some.inj h))
      exact ⟨w.toNat - q * 2 ^ 62, by omega, by omega⟩
  · rintro ⟨r, hr, hrw⟩
    have hq : (⟨w.toNat / 2 ^ 62, hlt⟩ : Fin 4) = q := Fin.ext (by dsimp only; omega)
    have hbit : ¬ decide (w.toNat / 2 ^ 61 % 2 = 1) = true := by
      rw [decide_eq_true_eq]
      omega
    rw [if_neg hbit, ← hq]
    rfl

/-- Every direction has the same number of words. -/
theorem ncard_choice? (d : Direction) : {w : UInt64 | choice? w = some d}.ncard = 2 ^ 61 := by
  obtain ⟨q, rfl⟩ : ∃ q : Fin 4, Direction.all.get q = d := by
    cases d with
    | north => exact ⟨0, rfl⟩
    | south => exact ⟨1, rfl⟩
    | east => exact ⟨2, rfl⟩
    | west => exact ⟨3, rfl⟩
  -- the words in a row, from the number of the direction on
  let word : Fin (2 ^ 61) → UInt64 := fun r => UInt64.ofNat (q * 2 ^ 62 + r)
  have hword : ∀ r, (word r).toNat = q * 2 ^ 62 + r := by
    intro r
    have hq := q.isLt
    have hr := r.isLt
    exact UInt64.toNat_ofNat_of_lt' (by show _ < 2 ^ 64; omega)
  have hinj : Function.Injective word := by
    intro r r' h
    have heq := congrArg UInt64.toNat h
    rw [hword, hword] at heq
    exact Fin.ext (Nat.add_left_cancel heq)
  have hrange : {w : UInt64 | choice? w = some (Direction.all.get q)} = Set.range word := by
    ext w
    rw [Set.mem_ofPred_eq, choice?_eq_some_iff, Set.mem_range]
    constructor
    · rintro ⟨r, hr, hw⟩
      exact ⟨⟨r, hr⟩, UInt64.toNat_inj.mp ((hword _).trans hw.symm)⟩
    · rintro ⟨r, rfl⟩
      exact ⟨r, r.isLt, hword r⟩
  rw [hrange, ← Nat.card_coe_set_eq, Nat.card_range_of_injective hinj, Nat.card_fin]

/-! ## Draws from given words -/

namespace WordSource

variable {words : Array UInt64} {u draws j : Nat}

/-- The choice of word `i`, with the number of words taken by then. -/
def chosen? (words : Array UInt64) (i : Nat) : Option (Direction × Nat) :=
  (choice? (words.getD i 0)).map (·, i + 1)

/-- Whether the last word is not chosen. -/
def dropsLast (words : Array UInt64) : Bool := words.back?.any fun w => w.toNat.testBit 61

/-- The number of a word that is chosen is one more than its index. -/
theorem chosen?_eq_some_iff {i : Nat} {drawn : Direction × Nat} :
    chosen? words i = some drawn ↔
      accepts (words.getD i 0) = true ∧ drawn = (directionOf (words.getD i 0), i + 1) := by
  rw [chosen?, choice?_eq]
  split
  · rename_i haccepts
    rw [Option.map_some, Option.some.injEq, and_iff_right haccepts, eq_comm]
  · rename_i hdropped
    exact iff_of_false nofun fun h => hdropped h.1

theorem chosen?_eq_none (h : ¬ accepts (words.getD j 0) = true) : chosen? words j = none := by
  rw [chosen?, choice?_eq, if_neg h, Option.map_none]

theorem dropsLast_iff (h : 0 < words.size) :
    dropsLast words = true ↔ ¬ accepts (words.getD (words.size - 1) 0) = true := by
  have hlast : words[words.size - 1]? = some words[words.size - 1] :=
    Array.getElem?_eq_getElem (by omega)
  rw [accepts_eq_true_iff, Bool.not_eq_false, dropsLast, Array.back?, Array.getD_eq_getD_getElem?,
    hlast, Option.any_some, Option.getD_some]

/-- A draw finds the next word that is chosen, or the first zero. -/
theorem exists_next?_eq (hu : u ≤ words.size) :
    ∃ j, u ≤ j ∧ j ≤ words.size ∧ accepts (words.getD j 0) = true ∧
      (∀ k, u ≤ k → k < j → ¬ accepts (words.getD k 0) = true) ∧
      { ofWords words with used := u }.next?
        = some (directionOf (words.getD j 0), { ofWords words with used := j + 1 }) := by
  have hzero : accepts (words.getD words.size 0) = true := by
    rw [Array.getD_eq_getD_getElem?, Array.getElem?_size]
    rfl
  cases hj : firstAccepted? (ofWords words).word (words.size + 1) u with
  | none =>
    have hnone := firstAccepted?_eq_none_iff.mp hj (words.size - u) (by omega)
    rw [Nat.add_sub_cancel' hu] at hnone
    exact absurd (hzero.symm.trans hnone) nofun
  | some j =>
    obtain ⟨haccepts, hle⟩ := of_firstAccepted?_eq_some hj
    have hbetween := not_accepts_of_firstAccepted? hj
    have hsize : j ≤ words.size := by
      by_contra hgt
      exact hbetween words.size hu (Nat.lt_of_not_le hgt) hzero
    refine ⟨j, hle, hsize, haccepts, hbetween, ?_⟩
    show (firstAccepted? (ofWords words).word (words.size + 1) u).map _ = _
    rw [hj]
    rfl

/-- From any place on, each word from there on is drawn that is chosen, and a zero behind the last word
    if that one is not. -/
theorem drawUntil_eq (hu : u ≤ words.size) (hdraws : words.size - u ≤ draws) :
    drawUntil words.size draws { ofWords words with used := u }
      = (List.range' u (words.size - u)).filterMap (chosen? words)
        ++ if u < words.size ∧ dropsLast words then [(.north, words.size + 1)] else [] := by
  induction draws generalizing u with
  | zero =>
    obtain rfl : u = words.size := by omega
    simp [drawUntil]
  | succ draws ih =>
    rw [drawUntil]
    by_cases hend : words.size ≤ u
    · obtain rfl : u = words.size := by omega
      simp
    · rw [if_neg hend]
      obtain ⟨j, hle, hsize, haccepts, hbetween, hnext⟩ := exists_next?_eq hu
      have hskipped : (List.range' u (j - u)).filterMap (chosen? words) = [] := by
        rw [List.filterMap_eq_nil_iff]
        intro k hk
        rw [List.mem_range'_1] at hk
        exact chosen?_eq_none (hbetween k hk.1 (by omega))
      have hsplit : words.size - u = (j - u) + (words.size - j) := by omega
      have hplace : u + (j - u) = j := by omega
      rw [hnext, hsplit, ← List.range'_append_1, hplace, List.filterMap_append, hskipped,
        List.nil_append]
      show _ :: drawUntil words.size draws { ofWords words with used := j + 1 } = _
      rcases Nat.lt_or_eq_of_le hsize with hlt | rfl
      · -- word `j` is chosen, and the draws behind it are those of the words behind it
        have hchosen := chosen?_eq_some_iff.mpr ⟨haccepts, rfl⟩
        have hrest : words.size - j = words.size - (j + 1) + 1 := by omega
        have hlast : j + 1 < words.size ∧ dropsLast words ↔ u < words.size ∧ dropsLast words := by
          constructor
          · rintro ⟨-, hdrops⟩
            exact ⟨by omega, hdrops⟩
          · rintro ⟨-, hdrops⟩
            refine ⟨?_, hdrops⟩
            by_contra hge
            obtain rfl : j = words.size - 1 := by omega
            exact (dropsLast_iff (by omega)).mp hdrops haccepts
        rw [hrest, List.range'_succ, List.filterMap_cons_some hchosen, ih hlt (by omega)]
        simp only [hlast, List.cons_append]
      · -- no word is left, and behind the zero there is nothing to draw
        have hdrops : u < words.size ∧ dropsLast words :=
          ⟨by omega, (dropsLast_iff (by omega)).mpr (hbetween _ (by omega) (by omega))⟩
        have hnorth : directionOf (words.getD words.size 0) = .north := by
          rw [Array.getD_eq_getD_getElem?, Array.getElem?_size]
          rfl
        rw [Nat.sub_self, if_pos hdrops, hnorth]
        cases draws with
        | zero => rfl
        | succ draws =>
          rw [drawUntil, if_pos (Nat.le_succ _)]
          rfl

theorem directionsOf_eq (words : Array UInt64) :
    directionsOf words = (List.range words.size).filterMap (chosen? words)
      ++ if dropsLast words then [(.north, words.size + 1)] else [] := by
  have hnonempty : 0 < words.size ∧ dropsLast words ↔ dropsLast words := by
    refine and_iff_right_of_imp fun hdrops => ?_
    by_contra hempty
    obtain rfl : words = #[] := Array.size_eq_zero_iff.mp (Nat.eq_zero_of_not_pos hempty)
    nomatch hdrops
  have hdrawn : directionsOf words = _ :=
    drawUntil_eq (Nat.zero_le words.size) (Nat.sub_le words.size 0)
  rw [hdrawn, Nat.sub_zero, List.range_eq_range']
  simp only [hnonempty]

/-- The words of a stream with their numbers, counted from one. -/
theorem zipIdx_toList (words : Array UInt64) :
    words.toList.zipIdx 1 = (List.range words.size).map fun i => (words.getD i 0, i + 1) := by
  refine List.ext_getElem (by simp) fun i hi hi' => ?_
  have hlt : i < words.size := by simpa using hi
  simp [Array.getD_eq_getD_getElem?, Array.getElem?_eq_getElem hlt, Nat.add_comm]

theorem filterMap_zipIdx (words : Array UInt64) :
    ((words.toList.zipIdx 1).filterMap fun (w, i) => (choice? w).map (·, i))
      = (List.range words.size).filterMap (chosen? words) := by
  rw [zipIdx_toList, List.filterMap_map]
  rfl

/-- A word is chosen on its own, or a zero is drawn behind it. -/
theorem directionsOf_single_iff (w : UInt64) (d : Direction) :
    directionsOf #[w] = [(d, 1)] ↔ choice? w = some d := by
  have hdrawn : directionsOf #[w] = [0].filterMap (chosen? #[w])
      ++ if dropsLast #[w] then [(.north, 2)] else [] := directionsOf_eq #[w]
  have hchosen : chosen? #[w] 0 = (choice? w).map (·, 1) := rfl
  have hdrops : dropsLast #[w] = w.toNat.testBit 61 := rfl
  rw [hdrawn, List.filterMap_cons, hchosen, hdrops, choice?_eq]
  by_cases haccepts : accepts w = true
  · rw [if_pos haccepts, accepts_eq_true_iff.mp haccepts]
    simp
  · have hbit : w.toNat.testBit 61 = true := by
      rwa [accepts_eq_true_iff, Bool.not_eq_false] at haccepts
    rw [if_neg haccepts, hbit]
    simp

/-- The numbers grow, so no word is taken twice. -/
theorem pairwise_directionsOf (words : Array UInt64) :
    ((directionsOf words).map Prod.snd).Pairwise (· < ·) := by
  rw [directionsOf_eq, List.pairwise_map, List.pairwise_append]
  refine ⟨?_, ?_, ?_⟩
  · refine List.pairwise_lt_range.filterMap _ fun i j hij drawn hdrawn drawn' hdrawn' => ?_
    obtain ⟨-, rfl⟩ := chosen?_eq_some_iff.mp hdrawn
    obtain ⟨-, rfl⟩ := chosen?_eq_some_iff.mp hdrawn'
    exact Nat.succ_lt_succ hij
  · split
    · exact List.pairwise_singleton _ _
    · exact List.Pairwise.nil
  · intro drawn hdrawn drawn' hdrawn'
    obtain ⟨i, hi, hchosen⟩ := List.mem_filterMap.mp hdrawn
    obtain ⟨-, rfl⟩ := chosen?_eq_some_iff.mp hchosen
    split at hdrawn'
    · rw [List.mem_singleton.mp hdrawn']
      exact Nat.succ_lt_succ (List.mem_range.mp hi)
    · nomatch hdrawn'

/-- Of the given words those are taken for a direction whose bit 61 is clear. -/
theorem mem_directionsOf_iff {i : Nat} (hi : i < words.size) :
    i + 1 ∈ (directionsOf words).map Prod.snd ↔ accepts (words.getD i 0) = true := by
  rw [directionsOf_eq, List.mem_map]
  constructor
  · rintro ⟨drawn, hmem, hnumber⟩
    rcases List.mem_append.mp hmem with hmem | hmem
    · obtain ⟨j, -, hchosen⟩ := List.mem_filterMap.mp hmem
      obtain ⟨haccepts, rfl⟩ := chosen?_eq_some_iff.mp hchosen
      obtain rfl : j = i := Nat.succ.inj hnumber
      exact haccepts
    · split at hmem
      · rw [List.mem_singleton.mp hmem] at hnumber
        obtain rfl : words.size = i := Nat.succ.inj hnumber
        exact absurd hi (Nat.lt_irrefl _)
      · nomatch hmem
  · intro haccepts
    have hchosen := chosen?_eq_some_iff.mpr ⟨haccepts, rfl⟩
    exact ⟨_, List.mem_append_left _ (List.mem_filterMap.mpr ⟨i, List.mem_range.mpr hi, hchosen⟩), rfl⟩

/-- **Drawing directions filters a stream.**  From given words with zeros behind them, each word whose
    bit 61 is clear gives the direction numbered by the bits above, in order, and exactly if the last
    word has that bit set a zero behind it gives one more.  Of the words taken none is taken twice, and
    a word gives no direction exactly if its bit is set.  Each of the four directions is given by
    `2 ^ 61` of all words. -/
theorem directionsOf_filters :
    (∀ words : Array UInt64,
      directionsOf words = (words.toList.zipIdx 1).filterMap (fun (w, i) => (choice? w).map (·, i))
          ++ (if dropsLast words then [(.north, words.size + 1)] else []) ∧
        ((directionsOf words).map Prod.snd).Pairwise (· < ·) ∧
        ∀ i, (∃ w, words[i]? = some w ∧ w.toNat.testBit 61) ↔
          i < words.size ∧ i + 1 ∉ (directionsOf words).map Prod.snd) ∧
    ∀ d, {w : UInt64 | directionsOf #[w] = [(d, 1)]}.ncard = 2 ^ 61 := by
  refine ⟨fun words => ⟨?_, pairwise_directionsOf words, fun i => ?_⟩, fun d => ?_⟩
  · rw [filterMap_zipIdx, directionsOf_eq]
  · by_cases hi : i < words.size
    · have hword : words.getD i 0 = words[i] := by
        rw [Array.getD_eq_getD_getElem?, Array.getElem?_eq_getElem hi, Option.getD_some]
      rw [mem_directionsOf_iff hi, hword, accepts_eq_true_iff, Bool.not_eq_false,
        Array.getElem?_eq_getElem hi, and_iff_right hi]
      simp only [Option.some.injEq, exists_eq_left']
    · refine iff_of_false ?_ fun h => hi h.1
      rintro ⟨w, hw, -⟩
      exact hi (Array.getElem?_eq_some_iff.mp hw).1
  · simp only [directionsOf_single_iff]
    exact ncard_choice? d

/-- The second word is dropped, and so is the last one. -/
example : directionsOf #[0xC000000000000000, 0x2000000000000000, 0x4000000000000000, 0xE000000000000000]
    = [(.west, 1), (.south, 3), (.north, 5)] := by
  decide

end WordSource

end Random

end Funge
