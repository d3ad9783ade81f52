/-
  How the values of settings are written.

  `Setting.Spells s value text` says that a text is a way to write a value of a setting: a number in
  decimal digits, a truth value as a word, a colour by one of its names in any case or by six hexadecimal
  digits behind a hash.  A number that is absent is not written at all.

  1. A name is met letter by letter, in either case; put into lower case it is the name again
     (`Color.Named.map_toLower`).
  2. So what is written is read (`Setting.Spells.ofText?_eq`).  And it has neither white space nor
     quotes in it, so it is found between these (`Setting.Spells.solid`).
-/
import Funge.Proofs.Decimals
import Funge.Proofs.HexColors

namespace Funge

/-! ## Solid texts -/

namespace Text

/-- What is said of every character of a text is decided on the text, not on all characters there are. -/
instance (priority := high) decidableForallMem (p : Char → Prop) [DecidablePred p] (text : List Char) :
    Decidable (∀ c ∈ text, p c) :=
  List.decidableBAll p text

/-- A text that is not empty and has neither white space nor quotes. -/
def Solid (text : List Char) : Prop := text ≠ [] ∧ ∀ c ∈ text, isBlank c = false ∧ c ≠ '"'

instance (text : List Char) : Decidable (Solid text) :=
  inferInstanceAs (Decidable (text ≠ [] ∧ ∀ c ∈ text, isBlank c = false ∧ c ≠ '"'))

variable {text : List Char}

theorem Solid.not_blank (h : Solid text) : ∀ c ∈ text, isBlank c = false := fun c hc => (h.2 c hc).1

end Text

/-! ## Numbers -/

namespace Numeral

variable {text : List Char} {n : Nat}

theorem Digits.solid (h : Digits text n) : Text.Solid text := by
  have hquote : ∀ d : Fin 10, Nat.digitChar d ≠ '"' := by decide
  refine ⟨(natural?_eq_some_iff_foldl.mp (natural?_eq_some_iff.mpr h)).1, fun c hc => ?_⟩
  obtain ⟨d, rfl⟩ := exists_digitChar (h.isDigit c hc)
  exact ⟨isBlank_digitChar d, hquote d⟩

/-- A number of 64 bits is read from its digits. -/
theorem word?_of_digits {w : UInt64} (h : Digits text w.toNat) : word? text = some w := by
  unfold word?
  dsimp only
  split
  · -- a plus is no digit
    exact absurd (h.isDigit '+' List.mem_cons_self) (by decide)
  · rw [natural?_eq_some_iff.mpr h, Option.bind_some, if_pos w.toNat_lt_size, UInt64.ofNat_toNat]

end Numeral

/-! ## Colours -/

namespace Color

variable {c : Color} {name : String} {text : List Char} {d l : Char}

/-- The names of a colour. -/
def names : Color → List String
  | black => ["black"]
  | red => ["red"]
  | green => ["green"]
  | yellow => ["yellow"]
  | blue => ["blue"]
  | purple => ["purple", "magenta"]
  | cyan => ["cyan"]
  | white => ["white"]
  | darkGray => ["gray", "grey", "darkgray", "dark_gray"]
  | lightRed => ["lightred", "light_red"]
  | lightGreen => ["lightgreen", "light_green"]
  | lightBlue => ["lightblue", "light_blue"]
  | lightCyan => ["lightcyan", "light_cyan"]
  | rgb _ _ _ => []

/-- The name of a colour, each letter in either case. -/
def Named (text : List Char) (name : String) : Prop :=
  List.Forall₂ (fun d l => d = l ∨ d = l.toUpper) text name.toList

/-- A way to write a colour. -/
inductive Spelled : Color → List Char → Prop
  | name {c : Color} {name : String} {text : List Char} (hname : name ∈ c.names)
      (hcase : Named text name) : Spelled c text
  | hex {r g b : UInt8} {first second third : List Char} (hr : Numeral.HexByte first r)
      (hg : Numeral.HexByte second g) (hb : Numeral.HexByte third b) :
      Spelled (.rgb r g b) ('#' :: (first ++ second ++ third))

theorem named?_of_mem_names (h : name ∈ c.names) : named? name = some c := by
  have hnames : ∀ name ∈ c.names, named? name = some c := by
    cases c with
    | rgb r g b => exact nofun
    | _ => decide
  exact hnames name h

/-- Names consist of small letters and underscores, and are not empty. -/
theorem letters_of_mem_names (h : name ∈ c.names) :
    name.toList ≠ [] ∧ ∀ l ∈ name.toList, l.isLower ∨ l = '_' := by
  have hnames : ∀ name ∈ c.names, name.toList ≠ [] ∧ ∀ l ∈ name.toList, l.isLower ∨ l = '_' := by
    cases c with
    | rgb r g b => exact nofun
    | _ => decide
  exact hnames name h

/-- Such a character in either case. -/
theorem letter_spec (hl : l.isLower ∨ l = '_') (hd : d = l ∨ d = l.toUpper) :
    d.toLower = l ∧ (Text.isBlank d = false ∧ d ≠ '"') ∧ d ≠ '#' := by
  have hletters : ∀ k : Fin 26, ∀ d ∈ [Char.ofNat (97 + k), (Char.ofNat (97 + k)).toUpper],
      d.toLower = Char.ofNat (97 + k) ∧ (Text.isBlank d = false ∧ d ≠ '"') ∧ d ≠ '#' := by
    decide
  rcases hl with hl | rfl
  · obtain ⟨hlow, hhigh⟩ := Bool.and_eq_true_iff.mp hl
    have ha : 97 ≤ l.toNat := UInt32.le_iff_toNat_le.mp (of_decide_eq_true hlow)
    have hz : l.toNat ≤ 122 := UInt32.le_iff_toNat_le.mp (of_decide_eq_true hhigh)
    obtain ⟨k, -, rfl⟩ := Numeral.exists_eq_ofNat_add 97 26 ha (Nat.lt_succ_of_le hz)
    refine hletters k d ?_
    simpa using hd
  · rcases hd with rfl | rfl
    · decide
    · decide

/-- A name in any case is that name in lower case, and has no hash in it. -/
theorem spec_of_forall₂ {letters : List Char} (hletters : ∀ l ∈ letters, l.isLower ∨ l = '_')
    (h : List.Forall₂ (fun d l => d = l ∨ d = l.toUpper) text letters) :
    text.map Char.toLower = letters ∧ ∀ d ∈ text, (Text.isBlank d = false ∧ d ≠ '"') ∧ d ≠ '#' := by
  induction h with
  | nil => exact ⟨rfl, nofun⟩
  | @cons d l text letters hd _ ih =>
    obtain ⟨hlower, hmem⟩ := ih fun l' hl' => hletters l' (List.mem_cons_of_mem _ hl')
    obtain ⟨hdl, hplain⟩ := letter_spec (hletters l List.mem_cons_self) hd
    refine ⟨?_, List.forall_mem_cons.mpr ⟨hplain, hmem⟩⟩
    rw [List.map_cons, hdl, hlower]

theorem Named.solid (hname : name ∈ c.names) (h : Named text name) : Text.Solid text := by
  obtain ⟨hne, hletters⟩ := letters_of_mem_names hname
  obtain ⟨hlower, hmem⟩ := spec_of_forall₂ hletters h
  refine ⟨?_, fun d hd => (hmem d hd).1⟩
  rintro rfl
  exact hne hlower.symm

theorem solid_of_hexByte {b : UInt8} (h : Numeral.HexByte text b) :
    ∀ d ∈ text, Text.isBlank d = false ∧ d ≠ '"' := by
  obtain ⟨hhigh, hlow⟩ := h
  exact List.forall_mem_cons.mpr ⟨hhigh.isBlank_eq, List.forall_mem_singleton.mpr hlow.isBlank_eq⟩

theorem Spelled.solid (h : Spelled c text) : Text.Solid text := by
  cases h with
  | name hname hcase => exact hcase.solid hname
  | hex hr hg hb =>
    refine ⟨List.cons_ne_nil _ _, List.forall_mem_cons.mpr ⟨by decide, fun d hd => ?_⟩⟩
    rcases List.mem_append.mp hd with hd | hd
    · rcases List.mem_append.mp hd with hd | hd
      · exact solid_of_hexByte hr d hd
      · exact solid_of_hexByte hg d hd
    · exact solid_of_hexByte hb d hd

/-- A colour is read however it is written. -/
theorem Spelled.ofValue?_eq (h : Spelled c text) : ofValue? text = .ok (some c) := by
  have htrim : Text.trim text = text := Text.trim_eq_self h.solid.not_blank
  cases h with
  | @name _ name _ hname hcase =>
    obtain ⟨-, hletters⟩ := letters_of_mem_names hname
    obtain ⟨hlower, hmem⟩ := spec_of_forall₂ hletters hcase
    have hhash : ∀ hex, Text.trim text ≠ '#' :: hex := by
      intro hex heq
      rw [htrim] at heq
      exact (hmem '#' (heq ▸ List.mem_cons_self)).2 rfl
    rw [ofValue?_of_name hhash, htrim, hlower, String.ofList_toList, named?_of_mem_names hname]
  | @hex r g b first second third hr hg hb =>
    rw [ofValue?_of_hash htrim]
    exact ofHex?_eq_some_iff.mpr
      ⟨r, g, b, rfl, first, second, third, rfl, .byte hr, .byte hg, .byte hb⟩

end Color

/-! ## Settings -/

namespace Setting

/-- A way to write a value of a setting; there is none for an absent number. -/
def Spells : (s : Setting) → s.Value → List Char → Prop
  | maxSteps, value, text | seed, value, text =>
    ∃ n : UInt64, value = some n ∧ Numeral.Digits text n.toNat
  | echoSource, value, text => text = (toString value).toList
  | error, color, text | caret, color, text | source, color, text | location, color, text =>
    color.Spelled text

variable {s : Setting} {value : s.Value} {text : List Char}

theorem Spells.solid (h : s.Spells value text) : Text.Solid text := by
  cases s with
  | maxSteps | seed =>
    obtain ⟨n, -, hdigits⟩ := h
    exact hdigits.solid
  | echoSource =>
    obtain rfl : text = _ := h
    cases value with
    | false => decide
    | true => decide
  | error | caret | source | location => exact Color.Spelled.solid h

/-- What is written is read. -/
theorem Spells.ofText?_eq (h : s.Spells value text) : s.ofText? text = some value := by
  cases s with
  | maxSteps | seed =>
    obtain ⟨n, rfl, hdigits⟩ := h
    exact congrArg (Option.map some) (Numeral.word?_of_digits hdigits)
  | echoSource =>
    obtain rfl : text = _ := h
    cases value with
    | false => rfl
    | true => rfl
  | error | caret | source | location =>
    show (Color.ofValue? text).toOption.join = some value
    rw [Color.Spelled.ofValue?_eq h]
    rfl

/-- A text that stands for a colour splits no character. -/
theorem not_splits_of_ofText? (hs : s.scope = "colors") (h : s.ofText? text = some value) :
    ¬ Color.Splits text := by
  intro hsplits
  obtain ⟨why, hwhy⟩ := Color.ofValue?_eq_error_iff.mpr hsplits
  have hsome := isSome_ofText? hs text
  rw [h, hwhy] at hsome
  exact absurd hsome.symm Bool.false_ne_true

end Setting

end Funge
