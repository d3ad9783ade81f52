/-
  What decides a setting.

  A settings file is read line by line, with a section that goes on until the next header, and what
  is assigned is looked at only at the end.  Said of the file as it stands, without following the
  reader:

  1. `IsHeader` and `IsAssignment` tell from the text of a line what it is.
  2. `Assigns` says that line number `i` gives a key a value and that the nearest header before it
     names the section; `LastAssigns`, that no later line does.
  3. The crux (`found?_eq_some_iff`): what is found for a key is the value of its last assignment.
     The induction takes lines off the end, because the section of a line is known from those before
     it and nothing behind it matters (`inScope_concat`, `lastAssigns_concat`).
  4. A `Setting` is a section, a key and a way to read a value.  A file that is read has each of the
     seven from what is found for its key (`Setting.of_parse`).
-/
import Funge.Settings.Basic
import Mathlib.Data.List.Induction
import Mathlib.Data.List.TakeDrop

namespace Funge

namespace Settings

/-! ## Lines by their text -/

/-- A header: the trimmed line stands in brackets, and the name is what is inside, trimmed. -/
def IsHeader (line name : List Char) : Prop :=
  ∃ inside, Text.trim line = '[' :: (inside ++ [']']) ∧ name = Text.trim inside

/-- A value as it is written, and the value without one pair of double quotes around it. -/
inductive Unquotes : (raw value : List Char) → Prop
  | quoted {value : List Char} : Unquotes ('"' :: (value ++ ['"'])) value
  | bare {raw : List Char} (h : ∀ value, raw ≠ '"' :: (value ++ ['"'])) : Unquotes raw raw

/-- An assignment: the trimmed line is no comment and no header, and it has an equals sign.  The key
    is what stands before the first one, the value what stands behind it. -/
structure IsAssignment (line key value : List Char) : Prop where
  not_comment : (Text.trim line).head? ≠ some '#'
  not_header : ∀ name, ¬ IsHeader line name
  parts : ∃ left right, Text.trim line = left ++ '=' :: right ∧ '=' ∉ left ∧ key = Text.trim left ∧
    Unquotes (Text.trim right) value

variable {line key value name scope : List Char} {ls : List (List Char)} {i : Nat}

theorem enclosed?_eq_some_iff {first last : Char} {text inside : List Char} :
    enclosed? first last text = some inside ↔ text = first :: (inside ++ [last]) := by
  cases text with
  | nil => simp [enclosed?]
  | cons c rest =>
    rw [enclosed?]
    constructor
    · intro h
      split at h
      · rename_i hc
        obtain ⟨front, rfl⟩ := List.getLast?_eq_some_iff.mp hc.2
        rw [List.dropLast_concat, Option.some.injEq] at h
        rw [hc.1, h]
      · nomatch h
    · intro h
      obtain ⟨rfl, rfl⟩ := List.cons.inj h
      rw [if_pos ⟨rfl, List.getLast?_concat⟩, List.dropLast_concat]

theorem enclosed?_eq_none_iff {first last : Char} {text : List Char} :
    enclosed? first last text = none ↔ ∀ inside, text ≠ first :: (inside ++ [last]) := by
  simp only [Option.eq_none_iff_forall_ne_some, ne_eq, enclosed?_eq_some_iff]

theorem unquote_eq_iff {raw : List Char} : unquote raw = value ↔ Unquotes raw value := by
  rw [unquote]
  constructor
  · intro h
    cases hinside : enclosed? '"' '"' raw with
    | some inside =>
      rw [hinside, Option.getD_some] at h
      rw [enclosed?_eq_some_iff.mp hinside, h]
      exact .quoted
    | none =>
      rw [hinside, Option.getD_none] at h
      exact h ▸ .bare (enclosed?_eq_none_iff.mp hinside)
  · intro h
    cases h with
    | quoted => rw [enclosed?_eq_some_iff.mpr rfl, Option.getD_some]
    | bare h => rw [enclosed?_eq_none_iff.mpr h, Option.getD_none]

/-- A text is cut at its first equals sign. -/
theorem span_eq_iff {text left right : List Char} :
    text.span (· != '=') = (left, '=' :: right) ↔ text = left ++ '=' :: right ∧ '=' ∉ left := by
  rw [List.span_eq_takeWhile_dropWhile, Prod.mk.injEq]
  constructor
  · rintro ⟨hleft, hright⟩
    constructor
    · rw [← hleft, ← hright, List.takeWhile_append_dropWhile]
    · intro hmem
      rw [← hleft] at hmem
      have hne := List.all_eq_true.mp List.all_takeWhile '=' hmem
      simp at hne
  · rintro ⟨rfl, hleft⟩
    have hpass : ∀ c ∈ left, (c != '=') = true := by
      intro c hc
      rw [bne_iff_ne]
      rintro rfl
      exact hleft hc
    rw [List.takeWhile_append_of_pos hpass, List.dropWhile_append_of_pos hpass]
    simp

theorem ofText_eq_header_iff : Line.ofText line = .header name ↔ IsHeader line name := by
  rw [Line.ofText]
  constructor
  · intro h
    split at h
    · nomatch h
    · split at h
      · rename_i inside hinside
        exact ⟨inside, enclosed?_eq_some_iff.mp hinside, (Line.header.inj h).symm⟩
      · split at h
        · nomatch h
        · nomatch h
  · rintro ⟨inside, htrim, rfl⟩
    have hinside : enclosed? '[' ']' (Text.trim line) = some inside :=
      enclosed?_eq_some_iff.mpr htrim
    rw [if_neg (by simp [htrim]), hinside]

theorem enclosed?_trim_eq_none_iff :
    enclosed? '[' ']' (Text.trim line) = none ↔ ∀ name, ¬ IsHeader line name := by
  rw [enclosed?_eq_none_iff]
  constructor
  · rintro h name ⟨inside, htrim, -⟩
    exact h inside htrim
  · intro h inside htrim
    exact h _ ⟨inside, htrim, rfl⟩

theorem ofText_eq_assign_iff : Line.ofText line = .assign key value ↔ IsAssignment line key value := by
  rw [Line.ofText]
  constructor
  · intro h
    split at h
    · nomatch h
    · rename_i hfirst
      split at h
      · nomatch h
      · rename_i hnone
        split at h
        · rename_i left right hspan
          obtain ⟨rfl, hvalue⟩ := Line.assign.inj h
          obtain ⟨htrim, hleft⟩ := span_eq_iff.mp hspan
          refine ⟨?_, enclosed?_trim_eq_none_iff.mp hnone, left, right, htrim, hleft, rfl,
            unquote_eq_iff.mp hvalue⟩
          intro hcomment
          exact hfirst (by simp [hcomment])
        · nomatch h
  · rintro ⟨hcomment, hheader, left, right, htrim, hleft, rfl, hvalue⟩
    have hfirst : ¬ ((Text.trim line).isEmpty || (Text.trim line).head? == some '#') = true := by
      have hne : Text.trim line ≠ [] := by simp [htrim]
      simp [hne, hcomment]
    rw [if_neg hfirst, enclosed?_trim_eq_none_iff.mpr hheader]
    simp only [span_eq_iff.mpr ⟨htrim, hleft⟩, unquote_eq_iff.mpr hvalue]

/-! ## Places in a file -/

/-- The section after some lines: the nearest header names it. -/
def InScope (before : List (List Char)) (scope : List Char) : Prop :=
  ∃ earlier header between, before = earlier ++ header :: between ∧ IsHeader header scope ∧
    ∀ line ∈ between, ∀ name, ¬ IsHeader line name

/-- Line number `i` gives a key of a section a value. -/
structure Assigns (ls : List (List Char)) (scope key : List Char) (i : Nat) (value : List Char) :
    Prop where
  at_line : ∃ line, ls[i]? = some line ∧ IsAssignment line key value
  in_scope : InScope (ls.take i) scope

/-- ... and no line behind it does. -/
structure LastAssigns (ls : List (List Char)) (scope key : List Char) (i : Nat)
    (value : List Char) : Prop extends Assigns ls scope key i value where
  last : ∀ j other, i < j → ¬ Assigns ls scope key j other

theorem inScope_concat :
    InScope (ls ++ [line]) scope ↔
      IsHeader line scope ∨ (∀ name, ¬ IsHeader line name) ∧ InScope ls scope := by
  constructor
  · rintro ⟨earlier, header, between, heq, hheader, hbetween⟩
    rcases List.eq_nil_or_concat between with rfl | ⟨front, last, hconcat⟩
    · obtain ⟨-, hlast⟩ := List.append_inj' heq rfl
      exact Or.inl ((List.cons.inj hlast).1 ▸ hheader)
    · rw [List.concat_eq_append] at hconcat
      subst hconcat
      have heq' : ls ++ [line] = (earlier ++ header :: front) ++ [last] := by
        rw [heq, List.append_assoc, List.cons_append]
      obtain ⟨hls, hlast⟩ := List.append_inj' heq' rfl
      obtain rfl : line = last := (List.cons.inj hlast).1
      refine Or.inr ⟨hbetween line (by simp), earlier, header, front, hls, hheader, ?_⟩
      intro line' hmem
      exact hbetween line' (List.mem_append_left _ hmem)
  · rintro (hheader | ⟨hno, earlier, header, between, rfl, hheader, hbetween⟩)
    · exact ⟨ls, line, [], rfl, hheader, by simp⟩
    · refine ⟨earlier, header, between ++ [line], by simp, hheader, ?_⟩
      intro line' hmem
      rcases List.mem_append.mp hmem with hmem | hmem
      · exact hbetween line' hmem
      · exact List.mem_singleton.mp hmem ▸ hno

theorem assigns_concat :
    Assigns (ls ++ [line]) scope key i value ↔
      Assigns ls scope key i value ∨
        i = ls.length ∧ IsAssignment line key value ∧ InScope ls scope := by
  rcases Nat.lt_trichotomy i ls.length with hi | hi | hi
  · -- a line before the last one has nothing to do with it
    have hline : (ls ++ [line])[i]? = ls[i]? := List.getElem?_append_left hi
    have htake : (ls ++ [line]).take i = ls.take i :=
      List.take_append_of_le_length (Nat.le_of_lt hi)
    have hne : i ≠ ls.length := Nat.ne_of_lt hi
    constructor
    · rintro ⟨h, hscope⟩
      rw [hline] at h
      rw [htake] at hscope
      exact Or.inl ⟨h, hscope⟩
    · rintro (⟨h, hscope⟩ | ⟨h, -⟩)
      · exact ⟨by rwa [hline], by rwa [htake]⟩
      · exact absurd h hne
  · subst hi
    have hline : (ls ++ [line])[ls.length]? = some line := List.getElem?_concat_length
    have htake : (ls ++ [line]).take ls.length = ls := List.take_left
    constructor
    · rintro ⟨⟨line', h, hassign⟩, hscope⟩
      obtain rfl := Option.some.inj (hline.symm.trans h)
      rw [htake] at hscope
      exact Or.inr ⟨rfl, hassign, hscope⟩
    · rintro (⟨⟨line', h, -⟩, -⟩ | ⟨-, hassign, hscope⟩)
      · simp at h
      · exact ⟨⟨line, hline, hassign⟩, by rwa [htake]⟩
  · have hnone : (ls ++ [line])[i]? = none := by
      rw [List.getElem?_eq_none_iff, List.length_append, List.length_singleton]
      omega
    constructor
    · rintro ⟨⟨line', h, -⟩, -⟩
      rw [hnone] at h
      nomatch h
    · rintro (⟨⟨line', h, -⟩, -⟩ | ⟨h, -⟩)
      · rw [List.getElem?_eq_none_iff.mpr (Nat.le_of_lt hi)] at h
        nomatch h
      · omega

theorem Assigns.lt_length (h : Assigns ls scope key i value) : i < ls.length := by
  obtain ⟨line, hline, -⟩ := h.at_line
  exact (List.getElem?_eq_some_iff.mp hline).1

/-- The last assignment is on the last line, or where it was without that line. -/
theorem lastAssigns_concat :
    LastAssigns (ls ++ [line]) scope key i value ↔
      (i = ls.length ∧ IsAssignment line key value ∧ InScope ls scope) ∨
        (∀ other, ¬ (IsAssignment line key other ∧ InScope ls scope)) ∧
          LastAssigns ls scope key i value := by
  constructor
  · rintro ⟨h, hlast⟩
    rcases assigns_concat.mp h with h | h
    · refine Or.inr ⟨fun other hother => ?_, h, fun j other hj hother => ?_⟩
      · exact hlast ls.length other h.lt_length (assigns_concat.mpr (Or.inr ⟨rfl, hother⟩))
      · exact hlast j other hj (assigns_concat.mpr (Or.inl hother))
    · exact Or.inl h
  · rintro (⟨rfl, h⟩ | ⟨hno, h, hlast⟩)
    · refine ⟨assigns_concat.mpr (Or.inr ⟨rfl, h⟩), fun j other hj hother => ?_⟩
      have hlt := hother.lt_length
      rw [List.length_append, List.length_singleton] at hlt
      omega
    · refine ⟨assigns_concat.mpr (Or.inl h), fun j other hj hother => ?_⟩
      rcases assigns_concat.mp hother with hother | ⟨-, hother⟩
      · exact hlast j other hj hother
      · exact hno other hother

/-! ## What is found for a key -/

/-- The section behind a line. -/
def Line.scopeAfter (scope : List Char) : Line → List Char
  | .header name => name
  | .ignored | .assign _ _ => scope

/-- What the lines assign, from a section on, is what the first of them assign and then what the
    others do. -/
theorem assignmentsFrom_append (scope : List Char) (ls ms : List Line) :
    assignmentsFrom scope (ls ++ ms)
      = assignmentsFrom scope ls ++ assignmentsFrom (ls.foldl Line.scopeAfter scope) ms := by
  induction ls generalizing scope with
  | nil => rfl
  | cons line ls ih =>
    cases line with
    | ignored => exact ih scope
    | header name => exact ih name
    | assign key value => exact congrArg (_ :: ·) (ih scope)

/-- The section in which the reader is behind some lines. -/
def sectionAfter (current : List Char) (ls : List (List Char)) : List Char :=
  (ls.map Line.ofText).foldl Line.scopeAfter current

/-- What is found for a key when some lines are read from a section on. -/
def found? (current : List Char) (ls : List (List Char)) (scope key : String) :
    Option (List Char) := lookup? (assignmentsFrom current (ls.map Line.ofText)) scope key

theorem sectionAfter_append (current : List Char) (ls ms : List (List Char)) :
    sectionAfter current (ls ++ ms) = sectionAfter (sectionAfter current ls) ms := by
  rw [sectionAfter, List.map_append, List.foldl_append]
  rfl

/-- A line that is no header leaves the reader in its section. -/
theorem scopeAfter_of_not_header {current : List Char} (h : ∀ name, ¬ IsHeader line name) :
    (Line.ofText line).scopeAfter current = current := by
  cases hline : Line.ofText line with
  | header name => exact absurd (ofText_eq_header_iff.mp hline) (h name)
  | ignored | assign => rfl

/-- The reader is in the section of the nearest header.  It begins in one without a name. -/
theorem inScope_iff (hscope : scope ≠ []) : InScope ls scope ↔ sectionAfter [] ls = scope := by
  induction ls using List.reverseRecOn with
  | nil =>
    constructor
    · rintro ⟨earlier, header, between, h, -⟩
      simp at h
    · intro h
      exact absurd h.symm hscope
  | append_singleton ls line ih =>
    rw [inScope_concat, sectionAfter_append]
    show _ ↔ (Line.ofText line).scopeAfter (sectionAfter [] ls) = scope
    by_cases hheader : ∃ name, IsHeader line name
    · obtain ⟨name, hname⟩ := hheader
      have hline := ofText_eq_header_iff.mpr hname
      have hscope' : IsHeader line scope ↔ name = scope := by
        rw [← ofText_eq_header_iff, hline, Line.header.injEq]
      rw [hline, hscope']
      exact or_iff_left fun h => h.1 name hname
    · have hno : ∀ name, ¬ IsHeader line name := fun name h => hheader ⟨name, h⟩
      rw [or_iff_right (hno scope), and_iff_right hno, ih, scopeAfter_of_not_header hno]

/-- The later lines count. -/
theorem found?_append (current : List Char) (ls ms : List (List Char)) (scope key : String) :
    found? current (ls ++ ms) scope key
      = (found? (sectionAfter current ls) ms scope key).or (found? current ls scope key) := by
  rw [found?, List.map_append, assignmentsFrom_append, lookup?, List.reverse_append,
    List.find?_append, Option.map_or]
  rfl

/-- One assignment is found for its own key in its own section. -/
theorem lookup?_single_eq_some_iff {scope key : String} {a : Assignment} :
    lookup? [a] scope key = some value ↔ a = ⟨scope.toList, key.toList, value⟩ := by
  obtain ⟨s, k, v⟩ := a
  rw [lookup?, List.reverse_singleton, List.find?_singleton]
  simp only [Bool.and_eq_true, beq_iff_eq, Assignment.mk.injEq]
  split
  · rename_i h
    simp [h]
  · rename_i h
    constructor
    · intro hnone
      nomatch hnone
    · rintro ⟨hs, hk, -⟩
      exact absurd ⟨hs, hk⟩ h

/-- What one line assigns is found for its key, in the section it stands in. -/
theorem found?_line_eq_some_iff {current : List Char} {scope key : String} :
    found? current [line] scope key = some value ↔
      IsAssignment line key.toList value ∧ current = scope.toList := by
  rw [found?, List.map_singleton, ← ofText_eq_assign_iff]
  cases Line.ofText line with
  | ignored => simp [assignmentsFrom, lookup?]
  | header => simp [assignmentsFrom, lookup?]
  | assign k v =>
    rw [assignmentsFrom, assignmentsFrom, lookup?_single_eq_some_iff, Assignment.mk.injEq,
      Line.assign.injEq]
    exact and_comm

theorem found?_line_eq_none_iff {current : List Char} {scope key : String} :
    found? current [line] scope key = none ↔
      ∀ other, ¬ (IsAssignment line key.toList other ∧ current = scope.toList) := by
  simp only [Option.eq_none_iff_forall_ne_some, ne_eq, found?_line_eq_some_iff]

/-- **What is found for a key is the value of its last assignment.** -/
theorem found?_eq_some_iff {scope key : String} (hscope : scope.toList ≠ []) :
    found? [] ls scope key = some value ↔
      ∃ i, LastAssigns ls scope.toList key.toList i value := by
  induction ls using List.reverseRecOn with
  | nil =>
    constructor
    · intro h
      nomatch h
    · rintro ⟨i, h⟩
      exact absurd h.lt_length (Nat.not_lt_zero i)
  | append_singleton ls line ih =>
    rw [found?_append, Option.or_eq_some_iff, found?_line_eq_some_iff, found?_line_eq_none_iff, ih]
    simp only [lastAssigns_concat, inScope_iff hscope, exists_or, exists_eq_left, exists_and_left]

end Settings

/-! ## The seven settings -/

/-- Something a settings file can set. -/
inductive Setting where
  | maxSteps | echoSource | seed | error | caret | source | location
deriving DecidableEq, Repr

namespace Setting

/-- The section it is set in. -/
def scope : Setting → String
  | maxSteps | echoSource | seed => "run"
  | error | caret | source | location => "colors"

/-- Its key there. -/
def key : Setting → String
  | maxSteps => "max_steps"
  | echoSource => "echo_source"
  | seed => "seed"
  | error => "error"
  | caret => "caret"
  | source => "source"
  | location => "location"

/-- What it can be. -/
abbrev Value : Setting → Type
  | maxSteps | seed => Option UInt64
  | echoSource => Bool
  | error | caret | source | location => Color

/-- What it is among some settings. -/
def of (settings : Settings) : (s : Setting) → s.Value
  | maxSteps => settings.maxSteps
  | echoSource => settings.echoSource
  | seed => settings.seed
  | error => settings.palette.error
  | caret => settings.palette.caret
  | source => settings.palette.source
  | location => settings.palette.location

/-- What it is without a file. -/
def standard (s : Setting) : s.Value := s.of Settings.standard

/-- The value a text stands for, if it stands for one. -/
def ofText? : (s : Setting) → List Char → Option s.Value
  | maxSteps, text | seed, text => (Numeral.word? text).map some
  | echoSource, text => Settings.flag? text
  | error, text | caret, text | source, text | location, text =>
    (Color.ofValue? text).toOption.join

theorem scope_ne_nil (s : Setting) : s.scope.toList ≠ [] := by
  cases s <;> simp [scope]

end Setting

/-- A sequence gives a result if its parts do. -/
theorem bind_eq_ok_iff {ε α β : Type} {x : Except ε α} {f : α → Except ε β} {b : β} :
    x >>= f = .ok b ↔ ∃ a, x = .ok a ∧ f a = .ok b := by
  cases x <;> simp [bind, Except.bind]

namespace Settings

/-- A colour that is set is read off what is found for its key. -/
theorem of_colorOr {all : List Assignment} {key : String} {otherwise color : Color}
    (h : colorOr all key otherwise = .ok color) :
    color = ((lookup? all "colors" key).bind fun text =>
      (Color.ofValue? text).toOption.join).getD otherwise := by
  unfold colorOr at h
  cases hfound : lookup? all "colors" key with
  | none =>
    rw [hfound] at h
    exact (Except.ok.inj h).symm
  | some text =>
    rw [hfound] at h
    rw [Option.bind_some]
    cases hvalue : Color.ofValue? text with
    | error why =>
      simp only [hvalue] at h
      nomatch h
    | ok color? =>
      simp only [hvalue] at h
      exact (Except.ok.inj h).symm

/-- A colour is at fault exactly if the value found for its key is. -/
theorem colorOr_eq_error_iff {all : List Assignment} {key : String} {otherwise : Color}
    {why : SplitCharacter} :
    colorOr all key otherwise = .error why ↔
      ∃ text, lookup? all "colors" key = some text ∧ Color.ofValue? text = .error why := by
  unfold colorOr
  cases lookup? all "colors" key with
  | none => simp
  | some text => cases hvalue : Color.ofValue? text <;> simp [hvalue, Except.map]

/-- A file is read if the four colours are, and then it gives each setting. -/
theorem parse_eq_ok_iff {content : String} {settings : Settings} :
    parse content = .ok settings ↔
      colorOr (assignments content.toList) "error" Palette.standard.error
          = .ok settings.palette.error ∧
        colorOr (assignments content.toList) "caret" Palette.standard.caret
          = .ok settings.palette.caret ∧
        colorOr (assignments content.toList) "source" Palette.standard.source
          = .ok settings.palette.source ∧
        colorOr (assignments content.toList) "location" Palette.standard.location
          = .ok settings.palette.location ∧
        settings.maxSteps
          = (lookup? (assignments content.toList) "run" "max_steps").bind Numeral.word? ∧
        settings.echoSource
          = ((lookup? (assignments content.toList) "run" "echo_source").bind flag?).getD false ∧
        settings.seed = (lookup? (assignments content.toList) "run" "seed").bind Numeral.word? := by
  obtain ⟨maxSteps, echoSource, seed, error, caret, source, location⟩ := settings
  simp only [parse, bind_eq_ok_iff, pure, Except.pure, Except.ok.injEq, mk.injEq, Palette.mk.injEq]
  constructor
  · rintro ⟨_, herror, _, hcaret, _, hsource, _, hlocation, hmax, hecho, hseed, rfl, rfl, rfl, rfl⟩
    exact ⟨herror, hcaret, hsource, hlocation, hmax.symm, hecho.symm, hseed.symm⟩
  · rintro ⟨herror, hcaret, hsource, hlocation, hmax, hecho, hseed⟩
    exact ⟨_, herror, _, hcaret, _, hsource, _, hlocation, hmax.symm, hecho.symm, hseed.symm, rfl,
      rfl, rfl, rfl⟩

end Settings

/-- A number that is not set and one that cannot be read come to the same. -/
theorem Setting.number_eq (found : Option (List Char)) :
    found.bind Numeral.word? = (found.bind fun text => (Numeral.word? text).map some).getD none := by
  cases found with
  | none => rfl
  | some text =>
    rw [Option.bind_some, Option.bind_some]
    cases Numeral.word? text <;> rfl

/-- What a file has for the key of a setting. -/
def Setting.found? (s : Setting) (content : String) : Option (List Char) :=
  Settings.found? [] (Text.lines content.toList) s.scope s.key

/-- It is the value of the last assignment. -/
theorem Setting.found?_eq_some_iff {s : Setting} {content : String} {value : List Char} :
    s.found? content = some value ↔ ∃ i,
      Settings.LastAssigns (Text.lines content.toList) s.scope.toList s.key.toList i value :=
  Settings.found?_eq_some_iff s.scope_ne_nil

/-- **Each setting is read off what the file has for its key.** -/
theorem Setting.of_parse {content : String} {settings : Settings}
    (h : Settings.parse content = .ok settings) (s : Setting) :
    s.of settings = ((s.found? content).bind s.ofText?).getD s.standard := by
  obtain ⟨herror, hcaret, hsource, hlocation, hmax, hecho, hseed⟩ := Settings.parse_eq_ok_iff.mp h
  cases s with
  | maxSteps => exact hmax.trans (number_eq _)
  | echoSource => exact hecho
  | seed => exact hseed.trans (number_eq _)
  | error => exact Settings.of_colorOr herror
  | caret => exact Settings.of_colorOr hcaret
  | source => exact Settings.of_colorOr hsource
  | location => exact Settings.of_colorOr hlocation

end Funge
