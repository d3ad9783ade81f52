/-
  Colours in hexadecimal.

  Behind its hash a colour has six bytes, which are measured and cut before anybody asks whether they
  are digits.  Said of the text itself, without cutting it:

  1. `Numeral.HexDigit c n` says which characters are digits, `Numeral.HexPair text b` which two
     characters stand for a byte: two digits, or a plus and one digit.  All of these are ASCII, so a
     group of two characters is one of two bytes (`Numeral.HexPair.byteLength_eq`).
  2. There is at most one cut at a byte offset, so three groups that are put together are what the two
     cuts find again (`Text.splitAtByte?_eq_some_iff`).
  3. The crux (`Color.ofHex?_eq_some_iff`): a text stands for a colour exactly if it is three groups.
     A character of two or three bytes can make up the six bytes, but it is in no group.

  `Color.ofValue?_groups` is the language of the values, and what it means for a file.
-/
import Funge.Proofs.SplitValues

namespace Funge

/-! ## Cuts -/

namespace Text

variable {n : Nat} {text before after : List Char}

/-- What is put together is cut again. -/
theorem splitAtByte?_append (before after : List Char) :
    splitAtByte? (byteLength before) (before ++ after) = some (before, after) := by
  induction before with
  | nil =>
    rw [byteLength_nil, splitAtByte?]
    rfl
  | cons c before ih =>
    have hpos : 0 < c.utf8Size := Char.utf8Size_pos c
    obtain ⟨k, hk⟩ : ∃ k, byteLength (c :: before) = k + 1 :=
      ⟨c.utf8Size + byteLength before - 1, by rw [byteLength_cons]; omega⟩
    have hrest : k + 1 - c.utf8Size = byteLength before := by
      rw [← hk, byteLength_cons]
      omega
    have hle : c.utf8Size ≤ k + 1 := by
      rw [← hk, byteLength_cons]
      omega
    rw [hk, List.cons_append, splitAtByte?, if_pos hle, hrest, ih, Option.map_some]

/-- There is one way to cut a text at an offset at most. -/
theorem splitAtByte?_eq_some_iff :
    splitAtByte? n text = some (before, after) ↔ before ++ after = text ∧ byteLength before = n := by
  constructor
  · exact of_splitAtByte?_eq_some
  · rintro ⟨rfl, rfl⟩
    exact splitAtByte?_append before after

/-- No character lies across an offset at which the text is cut. -/
theorem not_across_of_splitAtByte? (h : splitAtByte? n text = some (before, after)) :
    ¬ Across n text := by
  obtain ⟨happend, hlength⟩ := of_splitAtByte?_eq_some h
  have hle : n ≤ byteLength text := by
    rw [← happend, byteLength_append]
    omega
  rw [← splitAtByte?_eq_none_iff hle, h]
  nofun

end Text

/-! ## Digits and groups -/

namespace Numeral

variable {c high low : Char} {n h l : Nat} {text : List Char} {b : UInt8}

/-- A hexadecimal digit of either case, and what it stands for. -/
inductive HexDigit : Char → Nat → Prop
  | lower (d : Fin 16) : HexDigit (Nat.digitChar d) d
  | upper (d : Fin 16) : HexDigit (Nat.digitChar d).toUpper d

/-- Two digits, and the byte they stand for. -/
inductive HexByte : List Char → UInt8 → Prop
  | digits {high low : Char} {h l : Nat} (hhigh : HexDigit high h) (hlow : HexDigit low l) :
      HexByte [high, low] (UInt8.ofNat (16 * h + l))

/-- Two characters that stand for a byte: two digits, or a plus and one digit. -/
inductive HexPair : List Char → UInt8 → Prop
  | byte {text : List Char} {b : UInt8} (h : HexByte text b) : HexPair text b
  | plus {low : Char} {l : Nat} (hlow : HexDigit low l) : HexPair ['+', low] (UInt8.ofNat l)

/-- A character in a range, by its place there. -/
theorem exists_eq_ofNat_add (lo k : Nat) (hlow : lo ≤ c.toNat) (hhigh : c.toNat < lo + k) :
    ∃ d : Fin k, c.toNat = lo + d ∧ c = Char.ofNat (lo + d) := by
  refine ⟨⟨c.toNat - lo, by omega⟩, ?_⟩
  have hplace : lo + (c.toNat - lo) = c.toNat := by omega
  dsimp only
  rw [hplace]
  exact ⟨rfl, (Char.ofNat_toNat c).symm⟩

/-- The digits stand in three ranges. -/
theorem digitChar_ranges :
    (∀ d : Fin 10, Char.ofNat (48 + d) = Nat.digitChar d) ∧
    (∀ d : Fin 6, Char.ofNat (97 + d) = Nat.digitChar (d + 10)) ∧
    ∀ d : Fin 6, Char.ofNat (65 + d) = (Nat.digitChar (d + 10)).toUpper := by
  decide

/-- A character is read as a digit exactly if it is one. -/
theorem hexDigit?_eq_some_iff : hexDigit? c = some n ↔ HexDigit c n := by
  obtain ⟨hdecimal, hsmall, hcapital⟩ := digitChar_ranges
  constructor
  · intro h
    unfold hexDigit? at h
    split at h
    · rename_i hrange
      obtain rfl : c.toNat - 48 = n := Option.some.inj h
      obtain ⟨d, hd, rfl⟩ := exists_eq_ofNat_add 48 10 hrange.1 (Nat.lt_succ_of_le hrange.2)
      rw [hd, hdecimal, Nat.add_sub_cancel_left]
      exact .lower (d.castLE (by omega))
    · split at h
      · rename_i hrange
        obtain rfl : c.toNat - 97 + 10 = n := Option.some.inj h
        obtain ⟨d, hd, rfl⟩ := exists_eq_ofNat_add 97 6 hrange.1 (Nat.lt_succ_of_le hrange.2)
        rw [hd, hsmall, Nat.add_sub_cancel_left]
        exact .lower (d.addNat 10)
      · split at h
        · rename_i hrange
          obtain rfl : c.toNat - 65 + 10 = n := Option.some.inj h
          obtain ⟨d, hd, rfl⟩ := exists_eq_ofNat_add 65 6 hrange.1 (Nat.lt_succ_of_le hrange.2)
          rw [hd, hcapital, Nat.add_sub_cancel_left]
          exact .upper (d.addNat 10)
        · nomatch h
  · intro h
    cases h with
    | lower d => decide +revert
    | upper d => decide +revert

/-- A digit is one byte, and no plus. -/
theorem HexDigit.ascii (h : HexDigit c n) : c.utf8Size = 1 ∧ c ≠ '+' := by
  cases h with
  | lower d => decide +revert
  | upper d => decide +revert

theorem HexDigit.isBlank_eq (h : HexDigit c n) : Text.isBlank c = false ∧ c ≠ '"' := by
  cases h with
  | lower d => decide +revert
  | upper d => decide +revert

theorem hexPair?_eq_some_iff : hexPair? text = some b ↔ HexPair text b := by
  unfold hexPair?
  constructor
  · intro h
    split at h
    · rename_i low
      obtain ⟨l, hl, rfl⟩ := Option.map_eq_some_iff.mp h
      exact .plus (hexDigit?_eq_some_iff.mp hl)
    · rename_i high low _
      obtain ⟨h', hh, hrest⟩ := Option.bind_eq_some_iff.mp h
      obtain ⟨l, hl, hb⟩ := Option.bind_eq_some_iff.mp hrest
      obtain rfl := Option.some.inj hb
      exact .byte (.digits (hexDigit?_eq_some_iff.mp hh) (hexDigit?_eq_some_iff.mp hl))
    · nomatch h
  · intro h
    cases h with
    | plus hlow =>
      show (hexDigit? _).map UInt8.ofNat = _
      rw [hexDigit?_eq_some_iff.mpr hlow, Option.map_some]
    | byte h =>
      obtain ⟨hhigh, hlow⟩ := h
      split
      · rename_i heq
        exact absurd (List.cons.inj heq).1 hhigh.ascii.2
      · rename_i heq
        simp only [List.cons.injEq, and_true] at heq
        obtain ⟨rfl, rfl⟩ := heq
        rw [hexDigit?_eq_some_iff.mpr hhigh, hexDigit?_eq_some_iff.mpr hlow]
        rfl
      · rename_i hother
        exact absurd rfl (hother _ _)

theorem HexPair.byteLength_eq (h : HexPair text b) : Text.byteLength text = 2 := by
  cases h with
  | byte h =>
    obtain ⟨hhigh, hlow⟩ := h
    simp [hhigh.ascii.1, hlow.ascii.1]
  | plus hlow =>
    have hplus : '+'.utf8Size = 1 := rfl
    simp [hplus, hlow.ascii.1]

end Numeral

/-! ## Values -/

namespace Color

open Numeral

variable {value hex text : List Char} {r g b : UInt8} {c : Color} {found : Option Color}

/-- Three groups, one for each part of a colour. -/
def Groups (hex : List Char) (r g b : UInt8) : Prop :=
  ∃ first second third, hex = first ++ second ++ third ∧
    HexPair first r ∧ HexPair second g ∧ HexPair third b

theorem ofGroups?_eq_some_iff {first second third : List Char} :
    ofGroups? first second third = some c ↔
      ∃ r g b, c = .rgb r g b ∧ HexPair first r ∧ HexPair second g ∧ HexPair third b := by
  rw [ofGroups?]
  simp only [← hexPair?_eq_some_iff, Option.bind_eq_bind, Option.bind_eq_some_iff, Option.pure_def,
    Option.some.injEq]
  constructor
  · rintro ⟨r, hr, g, hg, b, hb, rfl⟩
    exact ⟨r, g, b, rfl, hr, hg, hb⟩
  · rintro ⟨r, g, b, rfl, hr, hg, hb⟩
    exact ⟨r, hr, g, hg, b, hb, rfl⟩

/-- A text stands for a colour exactly if it is three groups. -/
theorem ofHex?_eq_some_iff : ofHex? hex = .ok (some c) ↔ ∃ r g b, c = .rgb r g b ∧ Groups hex r g b := by
  unfold ofHex?
  constructor
  · intro h
    split at h
    · nomatch h
    · split at h
      · nomatch h
      · rename_i first rest hfirst
        split at h
        · nomatch h
        · rename_i second third hsecond
          obtain ⟨r, g, b, rfl, hr, hg, hb⟩ := ofGroups?_eq_some_iff.mp (Except.ok.inj h)
          obtain ⟨rfl, -⟩ := Text.of_splitAtByte?_eq_some hfirst
          obtain ⟨rfl, -⟩ := Text.of_splitAtByte?_eq_some hsecond
          exact ⟨r, g, b, rfl, first, second, third, (List.append_assoc _ _ _).symm, hr, hg, hb⟩
  · rintro ⟨r, g, b, rfl, first, second, third, rfl, hr, hg, hb⟩
    have hlength : Text.byteLength (first ++ second ++ third) = 6 := by
      rw [Text.byteLength_append, Text.byteLength_append, hr.byteLength_eq, hg.byteLength_eq,
        hb.byteLength_eq]
    have hfirst : Text.splitAtByte? 2 (first ++ second ++ third) = some (first, second ++ third) :=
      Text.splitAtByte?_eq_some_iff.mpr ⟨(List.append_assoc _ _ _).symm, hr.byteLength_eq⟩
    have hsecond : Text.splitAtByte? 2 (second ++ third) = some (second, third) :=
      Text.splitAtByte?_eq_some_iff.mpr ⟨rfl, hg.byteLength_eq⟩
    rw [if_neg (not_not_intro hlength), hfirst]
    dsimp only
    rw [hsecond]
    exact congrArg Except.ok (ofGroups?_eq_some_iff.mpr ⟨r, g, b, rfl, hr, hg, hb⟩)

/-- No name stands for a colour given by its parts. -/
theorem named?_ne_rgb (name : String) (r g b : UInt8) : named? name ≠ some (.rgb r g b) := by
  unfold named?
  split
  all_goals exact nofun

theorem ofValue?_of_hash (h : Text.trim value = '#' :: hex) : ofValue? value = ofHex? hex := by
  rw [ofValue?, h]
  rfl

theorem ofValue?_of_name (h : ∀ hex, Text.trim value ≠ '#' :: hex) :
    ofValue? value = .ok (named? (String.ofList ((Text.trim value).map Char.toLower))) := by
  rw [ofValue?]
  split
  · rename_i hex htrim
    exact absurd htrim (h hex)
  · rfl

/-- A value that splits no character can be read. -/
theorem exists_ofValue?_eq (h : ¬ Splits value) : ∃ found, ofValue? value = .ok found := by
  cases hvalue : ofValue? value with
  | ok found => exact ⟨found, rfl⟩
  | error why => exact absurd (ofValue?_eq_error_iff.mp ⟨why, hvalue⟩) h

end Color

/-- A setting of a colour is set by the values that stand for one. -/
theorem Setting.isSome_ofText? {s : Setting} (hs : s.scope = "colors") (text : List Char) :
    (s.ofText? text).isSome = (Color.ofValue? text).toOption.join.isSome := by
  cases s with
  | maxSteps | echoSource | seed => exact absurd hs (by decide)
  | error | caret | source | location => rfl

theorem Setting.ofText?_eq_none {s : Setting} (hs : s.scope = "colors") {text : List Char}
    (h : Color.ofValue? text = .ok none) : s.ofText? text = none := by
  have hnone := isSome_ofText? hs text
  rw [h] at hnone
  exact Option.isNone_iff_eq_none.mp (Option.isSome_eq_false_iff.mp hnone)

namespace Settings

/-- A file in which no colour is given a value that splits a character. -/
def Readable (content : String) : Prop :=
  ∀ s : Setting, s.scope = "colors" → ∀ i value,
    LastAssigns (Text.lines content.toList) s.scope.toList s.key.toList i value → ¬ Color.Splits value

/-- These are the files that can be read. -/
theorem readable_iff {content : String} :
    Readable content ↔ ∃ settings, parse content = .ok settings := by
  constructor
  · intro h
    cases hparse : parse content with
    | ok settings => exact ⟨settings, rfl⟩
    | error why =>
      obtain ⟨s, hs, value, hfound, hsplits⟩ := exists_parse_eq_error_iff.mp ⟨why, hparse⟩
      obtain ⟨i, hlast⟩ := Setting.found?_eq_some_iff.mp hfound
      exact absurd hsplits (h s hs i value hlast)
  · rintro ⟨settings, hparse⟩ s hs i value hlast hsplits
    obtain ⟨why, hwhy⟩ := exists_parse_eq_error_iff.mpr
      ⟨s, hs, value, Setting.found?_eq_some_iff.mpr ⟨i, hlast⟩, hsplits⟩
    rw [hparse] at hwhy
    nomatch hwhy

end Settings

namespace Color

/-- **The language of hexadecimal colours.**  Let a value be a hash and a text that has not six bytes,
    or has six and no character across one of the two cuts.  It can be read, and it stands for the
    colour of given parts exactly if the text is three groups of these parts.  If it is not three
    groups, there is no colour, and in a file that can be read the setting of the value stays as it is
    without a file.  A value without a hash can be read too, but no colour is given by its parts. -/
theorem ofValue?_groups (value : List Char) :
    (∀ hex, Text.trim value = '#' :: hex →
      Text.byteLength hex ≠ 6 ∨ ¬ Text.Across 2 hex ∧ ¬ Text.Across 4 hex →
        ∃ found, ofValue? value = .ok found ∧
          (∀ r g b, found = some (.rgb r g b) ↔ Groups hex r g b) ∧
          ((∀ r g b, ¬ Groups hex r g b) → found = none ∧
            ∀ content (s : Setting) i, Settings.Readable content → s.scope = "colors" →
              Settings.LastAssigns (Text.lines content.toList) s.scope.toList s.key.toList i value →
              ∃ settings, Settings.parse content = .ok settings ∧ s.of settings = s.standard)) ∧
    ((∀ hex, Text.trim value ≠ '#' :: hex) →
      ∃ found, ofValue? value = .ok found ∧ ∀ r g b, found ≠ some (.rgb r g b)) := by
  constructor
  · intro hex htrim hcuts
    have hwhole : ¬ Splits value := by
      rintro ⟨hex', htrim', hlength, hacross⟩
      obtain rfl := (List.cons.inj (htrim.symm.trans htrim')).2
      rcases hcuts with hcuts | ⟨htwo, hfour⟩
      · exact hcuts hlength
      · exact hacross.elim htwo hfour
    obtain ⟨found, hfound⟩ := exists_ofValue?_eq hwhole
    have hgroups : ∀ c, found = some c ↔ ∃ r g b, c = .rgb r g b ∧ Groups hex r g b := by
      intro c
      rw [← ofHex?_eq_some_iff, ← ofValue?_of_hash htrim, hfound, Except.ok.injEq]
    refine ⟨found, hfound, ?_, ?_⟩
    · intro r g b
      rw [hgroups]
      constructor
      · rintro ⟨r', g', b', heq, h⟩
        obtain ⟨rfl, rfl, rfl⟩ := Color.rgb.inj heq
        exact h
      · exact fun h => ⟨r, g, b, rfl, h⟩
    · intro hno
      have hnone : found = none := by
        refine Option.eq_none_iff_forall_ne_some.mpr fun c hc => ?_
        obtain ⟨r, g, b, -, h⟩ := (hgroups c).mp hc
        exact hno r g b h
      refine ⟨hnone, fun content s i hreadable hs hlast => ?_⟩
      obtain ⟨settings, hparse⟩ := Settings.readable_iff.mp hreadable
      have hvalue : s.found? content = some value := Setting.found?_eq_some_iff.mpr ⟨i, hlast⟩
      have htext : s.ofText? value = none := Setting.ofText?_eq_none hs (hnone ▸ hfound)
      refine ⟨settings, hparse, ?_⟩
      rw [Setting.of_parse hparse, hvalue, Option.bind_some, htext, Option.getD_none]
  · intro hname
    exact ⟨_, ofValue?_of_name hname, fun r g b => named?_ne_rgb _ r g b⟩

/-- A plus in a group, letters of both cases, two accented letters that make up the six bytes and are
    not cut, and a value without a hash. -/
theorem ofValue?_groups_accented :
    ofValue? " #+fA09c".toList = .ok (some (.rgb 15 160 156)) ∧
    (∃ settings, Settings.parse "[colors]\ncaret = #\u00e900\u00e9" = .ok settings ∧
      settings.palette.caret = Palette.standard.caret) ∧
    ∃ found, ofValue? "0a0b0c".toList = .ok found ∧ ∀ r g b, found ≠ some (.rgb r g b) := by
  refine ⟨?_, ?_, (ofValue?_groups "0a0b0c".toList).2 ?_⟩
  · have htwo : Text.splitAtByte? 2 "+fA09c".toList = some ("+f".toList, "A09c".toList) := by decide
    have hfour : Text.splitAtByte? 4 "+fA09c".toList = some ("+fA0".toList, "9c".toList) := by decide
    obtain ⟨found, hfound, hgroups, -⟩ :=
      (ofValue?_groups " #+fA09c".toList).1 "+fA09c".toList (by decide) (Or.inr
        ⟨Text.not_across_of_splitAtByte? htwo, Text.not_across_of_splitAtByte? hfour⟩)
    have hthree : Groups "+fA09c".toList 15 160 156 :=
      ⟨['+', 'f'], ['A', '0'], ['9', 'c'], rfl, Numeral.hexPair?_eq_some_iff.mp (by decide),
        Numeral.hexPair?_eq_some_iff.mp (by decide), Numeral.hexPair?_eq_some_iff.mp (by decide)⟩
    rw [hfound, (hgroups 15 160 156).mpr hthree]
  · have htwo : Text.splitAtByte? 2 "\u00e900\u00e9".toList
        = some ("\u00e9".toList, "00\u00e9".toList) := by decide
    have hfour : Text.splitAtByte? 4 "\u00e900\u00e9".toList
        = some ("\u00e900".toList, "\u00e9".toList) := by decide
    obtain ⟨found, hfound, -, hno⟩ := (ofValue?_groups "#\u00e900\u00e9".toList).1
      "\u00e900\u00e9".toList (by decide) (Or.inr
        ⟨Text.not_across_of_splitAtByte? htwo, Text.not_across_of_splitAtByte? hfour⟩)
    have hnone : ∀ r g b, ¬ Groups "\u00e900\u00e9".toList r g b := by
      intro r g b h
      have hread := ofHex?_eq_some_iff.mpr ⟨r, g, b, rfl, h⟩
      have hnot : ofHex? "\u00e900\u00e9".toList = .ok none := by decide
      rw [hnot] at hread
      nomatch hread
    have hvalue : Setting.caret.found? "[colors]\ncaret = #\u00e900\u00e9"
        = some "#\u00e900\u00e9".toList := rfl
    obtain ⟨i, hlast⟩ := Setting.found?_eq_some_iff.mp hvalue
    have hreadable : Settings.Readable "[colors]\ncaret = #\u00e900\u00e9" :=
      Settings.readable_iff.mpr ⟨Settings.standard, rfl⟩
    exact (hno hnone).2 _ .caret i hreadable rfl hlast
  · intro hex h
    nomatch (List.cons.inj h).1

end Color

end Funge
