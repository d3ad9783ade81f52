/-
  Colour values that cut a character.

  The six bytes of a colour are cut in three before they are looked at.  A settings file in which one
  of these cuts falls inside a character is not read at all.

  1. `Text.Across n text` says of a text that one of its characters lies across byte offset `n`.
     Within the length of the text that is the only way a cut can fail (`splitAtByte?_eq_none_iff`).
  2. So a colour value is at fault exactly if it is a hash and six bytes, with a character across the
     second cut or the first (`Color.ofValue?_eq_error_iff`).
  3. A file is at fault exactly if the last value of one of the four colours is, and every other
     value that stands for nothing leaves its setting as it is without a file (`parse_splits`).
-/
import Funge.Proofs.Assignments

namespace Funge

/-! ## Characters across an offset -/

namespace Text

/-- A character of the text lies across byte offset `n`. -/
def Across (n : Nat) (text : List Char) : Prop :=
  ∃ before c after, text = before ++ c :: after ∧
    byteLength before < n ∧ n < byteLength before + c.utf8Size

@[simp] theorem byteLength_nil : byteLength [] = 0 := rfl

@[simp] theorem byteLength_cons (c : Char) (text : List Char) :
    byteLength (c :: text) = c.utf8Size + byteLength text := rfl

@[simp] theorem byteLength_append (text more : List Char) :
    byteLength (text ++ more) = byteLength text + byteLength more := by
  induction text with
  | nil => simp
  | cons c text ih =>
    rw [List.cons_append, byteLength_cons, byteLength_cons, ih]
    omega

/-- Within the length of a text only a character across the offset prevents a cut. -/
theorem splitAtByte?_eq_none_iff {n : Nat} {text : List Char} (h : n ≤ byteLength text) :
    splitAtByte? n text = none ↔ Across n text := by
  induction text generalizing n with
  | nil =>
    obtain rfl : n = 0 := Nat.le_zero.mp h
    constructor
    · intro hnone
      nomatch hnone
    · rintro ⟨before, c, after, heq, -⟩
      simp at heq
  | cons c text ih =>
    cases n with
    | zero =>
      constructor
      · intro hnone
        nomatch hnone
      · rintro ⟨before, d, after, -, hlt, -⟩
        exact absurd hlt (Nat.not_lt_zero _)
    | succ n =>
      rw [byteLength_cons] at h
      rw [splitAtByte?]
      by_cases hc : c.utf8Size ≤ n + 1
      · -- the cut is behind the first character
        rw [if_pos hc, Option.map_eq_none_iff, ih (by omega)]
        constructor
        · rintro ⟨before, d, after, rfl, hlt, hgt⟩
          refine ⟨c :: before, d, after, rfl, ?_, ?_⟩
          · rw [byteLength_cons]
            omega
          · rw [byteLength_cons]
            omega
        · rintro ⟨before, d, after, heq, hlt, hgt⟩
          cases before with
          | nil =>
            obtain ⟨rfl, -⟩ := List.cons.inj heq
            rw [byteLength_nil] at hgt
            omega
          | cons b before =>
            obtain ⟨rfl, rfl⟩ := List.cons.inj heq
            rw [byteLength_cons] at hlt hgt
            exact ⟨before, d, after, rfl, by omega, by omega⟩
      · rw [if_neg hc]
        have hacross : Across (n + 1) (c :: text) := by
          refine ⟨[], c, text, rfl, ?_, ?_⟩
          · rw [byteLength_nil]
            omega
          · rw [byteLength_nil]
            omega
        exact iff_of_true rfl hacross

/-- Behind a cut the offsets begin again. -/
theorem across_append_iff (before : List Char) {n : Nat} {rest : List Char} :
    Across (byteLength before + n) (before ++ rest) ↔ Across n rest := by
  constructor
  · rintro ⟨front, c, after, heq, hlt, hgt⟩
    -- the character cannot be in front of the cut, as it ends behind it
    rcases List.append_eq_append_iff.mp heq with ⟨mid, rfl, hrest⟩ | ⟨mid, rfl, hmid⟩
    · rw [byteLength_append] at hlt hgt
      exact ⟨mid, c, after, hrest, by omega, by omega⟩
    · cases mid with
      | nil =>
        rw [List.nil_append] at hmid
        rw [List.append_nil] at hlt hgt
        exact ⟨[], c, after, hmid.symm, by rw [byteLength_nil]; omega, by rw [byteLength_nil]; omega⟩
      | cons d mid =>
        obtain ⟨rfl, rfl⟩ := List.cons.inj hmid
        rw [byteLength_append, byteLength_cons] at hgt
        omega
  · rintro ⟨front, c, after, rfl, hlt, hgt⟩
    refine ⟨before ++ front, c, after, (List.append_assoc _ _ _).symm, ?_, ?_⟩
    · rw [byteLength_append]
      omega
    · rw [byteLength_append]
      omega

end Text

/-! ## Values -/

namespace Color

/-- A colour value of a hash and six bytes, with a character across the cut behind the second byte or
    the one behind the fourth. -/
def Splits (value : List Char) : Prop :=
  ∃ hex, Text.trim value = '#' :: hex ∧ Text.byteLength hex = 6 ∧
    (Text.Across 2 hex ∨ Text.Across 4 hex)

theorem ofHex?_eq_error_iff {hex : List Char} :
    (∃ why, ofHex? hex = .error why) ↔
      Text.byteLength hex = 6 ∧ (Text.Across 2 hex ∨ Text.Across 4 hex) := by
  unfold ofHex?
  by_cases hlength : Text.byteLength hex = 6
  · rw [if_neg (not_not_intro hlength), and_iff_right hlength]
    have htwo : Text.splitAtByte? 2 hex = none ↔ Text.Across 2 hex :=
      Text.splitAtByte?_eq_none_iff (by omega)
    cases hcut : Text.splitAtByte? 2 hex with
    | none => exact iff_of_true ⟨_, rfl⟩ (Or.inl (htwo.mp hcut))
    | some parts =>
      obtain ⟨r, rest⟩ := parts
      obtain ⟨rfl, hr⟩ := Text.of_splitAtByte?_eq_some hcut
      rw [Text.byteLength_append] at hlength
      have hfour : Text.splitAtByte? 2 rest = none ↔ Text.Across 4 (r ++ rest) := by
        rw [Text.splitAtByte?_eq_none_iff (by omega), ← Text.across_append_iff r, hr]
      rw [← htwo, hcut, or_iff_right (Option.some_ne_none _), ← hfour]
      dsimp only
      cases Text.splitAtByte? 2 rest with
      | none => exact iff_of_true ⟨_, rfl⟩ rfl
      | some parts =>
        refine iff_of_false ?_ (Option.some_ne_none _)
        rintro ⟨why, h⟩
        nomatch h
  · rw [if_pos hlength]
    refine iff_of_false ?_ fun h => hlength h.1
    rintro ⟨why, h⟩
    nomatch h

/-- A value is at fault exactly if it splits a character. -/
theorem ofValue?_eq_error_iff {value : List Char} :
    (∃ why, ofValue? value = .error why) ↔ Splits value := by
  unfold ofValue?
  split
  · rename_i hex htrim
    rw [ofHex?_eq_error_iff]
    constructor
    · rintro ⟨hlength, hacross⟩
      exact ⟨hex, htrim, hlength, hacross⟩
    · rintro ⟨hex', htrim', hlength, hacross⟩
      obtain rfl := (List.cons.inj (htrim.symm.trans htrim')).2
      exact ⟨hlength, hacross⟩
  · rename_i hname
    refine iff_of_false ?_ ?_
    · rintro ⟨why, h⟩
      nomatch h
    · rintro ⟨hex, htrim, -⟩
      exact hname hex htrim

end Color

/-! ## Files -/

namespace Settings

variable {content : String}

/-- A colour is read, or the value found for its key splits a character. -/
theorem colorOr_ok_or_splits (all : List Assignment) (key : String) (otherwise : Color) :
    (∃ color, colorOr all key otherwise = .ok color) ∨
      ∃ text, lookup? all "colors" key = some text ∧ Color.Splits text := by
  cases h : colorOr all key otherwise with
  | ok color => exact Or.inl ⟨color, rfl⟩
  | error why =>
    obtain ⟨text, hfound, hwhy⟩ := colorOr_eq_error_iff.mp h
    exact Or.inr ⟨text, hfound, Color.ofValue?_eq_error_iff.mp ⟨why, hwhy⟩⟩

/-- ... and not both. -/
theorem not_splits_of_colorOr {all : List Assignment} {key : String} {otherwise color : Color}
    (h : colorOr all key otherwise = .ok color) {text : List Char}
    (hfound : lookup? all "colors" key = some text) : ¬ Color.Splits text := by
  intro hsplits
  obtain ⟨why, hwhy⟩ := Color.ofValue?_eq_error_iff.mpr hsplits
  rw [colorOr_eq_error_iff.mpr ⟨text, hfound, hwhy⟩] at h
  nomatch h

/-- A file is at fault exactly if the value found for one of its colours splits a character. -/
theorem exists_parse_eq_error_iff :
    (∃ why, parse content = .error why) ↔
      ∃ s : Setting, s.scope = "colors" ∧ ∃ text,
        s.found? content = some text ∧ Color.Splits text := by
  constructor
  · rintro ⟨why, h⟩
    by_contra hno
    -- with the four colours read the whole file would be
    have hread : ∀ s : Setting, s.scope = "colors" → ∀ otherwise, ∃ color,
        colorOr (assignments content.toList) s.key otherwise = .ok color := by
      intro s hs otherwise
      rcases colorOr_ok_or_splits (assignments content.toList) s.key otherwise with
        hok | ⟨text, hfound, hsplits⟩
      · exact hok
      · rw [← hs] at hfound
        exact absurd ⟨s, hs, text, hfound, hsplits⟩ hno
    obtain ⟨error, herror⟩ := hread .error rfl Palette.standard.error
    obtain ⟨caret, hcaret⟩ := hread .caret rfl Palette.standard.caret
    obtain ⟨source, hsource⟩ := hread .source rfl Palette.standard.source
    obtain ⟨location, hlocation⟩ := hread .location rfl Palette.standard.location
    have hok : parse content = .ok ⟨_, _, _, ⟨error, caret, source, location⟩⟩ :=
      parse_eq_ok_iff.mpr ⟨herror, hcaret, hsource, hlocation, rfl, rfl, rfl⟩
    rw [h] at hok
    nomatch hok
  · rintro ⟨s, hs, text, hfound, hsplits⟩
    cases hparse : parse content with
    | error why => exact ⟨why, rfl⟩
    | ok settings =>
      obtain ⟨herror, hcaret, hsource, hlocation, -⟩ := parse_eq_ok_iff.mp hparse
      refine absurd hsplits ?_
      cases s with
      | maxSteps | echoSource | seed => simp [Setting.scope] at hs
      | error => exact not_splits_of_colorOr herror hfound
      | caret => exact not_splits_of_colorOr hcaret hfound
      | source => exact not_splits_of_colorOr hsource hfound
      | location => exact not_splits_of_colorOr hlocation hfound

/-- **Which files can be read.**  A file is at fault exactly if the last value assigned to one of the
    four colours is a hash and six bytes with a character across one of the two cuts.  Every other
    file gives settings, and there a value that stands for nothing leaves its setting as it is
    without a file. -/
theorem parse_splits (content : String) :
    ((∃ why, parse content = .error why) ↔
      ∃ s : Setting, s.scope = "colors" ∧ ∃ i value,
        LastAssigns (Text.lines content.toList) s.scope.toList s.key.toList i value ∧
          Color.Splits value) ∧
    ∀ settings, parse content = .ok settings → ∀ (s : Setting) i value,
      LastAssigns (Text.lines content.toList) s.scope.toList s.key.toList i value →
        s.ofText? value = none → s.of settings = s.standard := by
  constructor
  · rw [exists_parse_eq_error_iff]
    simp only [Setting.found?_eq_some_iff]
    constructor
    · rintro ⟨s, hs, value, ⟨i, hlast⟩, hsplits⟩
      exact ⟨s, hs, i, value, hlast, hsplits⟩
    · rintro ⟨s, hs, i, value, hlast, hsplits⟩
      exact ⟨s, hs, value, ⟨i, hlast⟩, hsplits⟩
  · intro settings h s i value hlast hnone
    have hfound : s.found? content = some value := Setting.found?_eq_some_iff.mpr ⟨i, hlast⟩
    rw [Setting.of_parse h, hfound, Option.bind_some, hnone, Option.getD_none]

/-- Of two values of a colour the later one is the name of none, so the colour is the standard one. -/
theorem parse_splits_mauve :
    ∃ i settings, parse "[colors]\nerror = blue\nerror = mauve" = .ok settings ∧
      LastAssigns (Text.lines "[colors]\nerror = blue\nerror = mauve".toList) "colors".toList
        "error".toList i "mauve".toList ∧ settings.palette.error = Palette.standard.error := by
  have hparse : parse "[colors]\nerror = blue\nerror = mauve" = .ok standard := rfl
  have hfound : Setting.error.found? "[colors]\nerror = blue\nerror = mauve"
      = some "mauve".toList := rfl
  obtain ⟨i, hlast⟩ := Setting.found?_eq_some_iff.mp hfound
  have hbad : Setting.ofText? .error "mauve".toList = none := rfl
  exact ⟨i, standard, hparse, hlast, (parse_splits _).2 standard hparse .error i _ hlast hbad⟩

/-- An accented letter across the first cut: the file is not read at all. -/
theorem parse_accented : parse "[colors]\nerror = #a\u00e9bcd" = .error ⟨"a\u00e9bcd"⟩ := by
  rfl

end Settings

end Funge
