/-
  Settings files written from settings.

  `Settings.Written settings text` says that a text lists some settings, each once and under its section,
  in any layout the format leaves free: the order of the two sections and of the keys, white space,
  quotes, empty lines and comments, and both line ends.

  1. What a line says does not depend on its white space: a line is trimmed at its ends, and what stands
     before the first equals sign and behind it once more (`Text.trim_append_cons`).  So each kind of
     line says what it is meant to (`Idle.ofText_eq`, `Heads.ofText_eq`, `Enters.exists_ofText_eq`).
  2. The lines of a section have different keys, so what is found for a setting is the value of the one
     line that enters it, wherever it stands (`Section.found?_spec`).
  3. Hence a value found in the whole text is a way to write the setting, and one is found unless the
     number is absent (`Written.found?_cases`).

  `parse_written` says that such a text is read as the settings it was written from.
-/
import Mathlib.Data.List.DropRight
import Mathlib.Data.List.Nodup
import Funge.Proofs.Edits
import Funge.Proofs.Spellings

namespace Funge

/-! ## Trimming -/

namespace Text

variable {text before after left right line : List Char} {c : Char}

/-- White space. -/
def Blanks (pad : List Char) : Prop := ∀ c ∈ pad, isBlank c

instance (pad : List Char) : Decidable (Blanks pad) :=
  inferInstanceAs (Decidable (∀ c ∈ pad, isBlank c))

theorem dropWhile_append_cons (hc : isBlank c = false) (left right : List Char) :
    (left ++ c :: right).dropWhile isBlank = left.dropWhile isBlank ++ c :: right := by
  rw [List.dropWhile_append]
  split
  · rename_i hempty
    rw [List.isEmpty_iff.mp hempty, List.dropWhile_cons_of_neg (by simp [hc]), List.nil_append]
  · rfl

/-- A character that is not white space is in the way, so its two sides are trimmed on their own. -/
theorem trim_append_cons (hc : isBlank c = false) (left right : List Char) :
    trim (left ++ c :: right) = trimStart left ++ c :: trimEnd right := by
  rw [trim, trimStart, dropWhile_append_cons hc, trimEnd, List.reverse_append, List.reverse_cons,
    List.append_assoc, List.singleton_append, dropWhile_append_cons hc, List.reverse_append,
    List.reverse_cons, List.reverse_reverse, List.append_assoc]
  rfl

@[simp] theorem trim_trimEnd (text : List Char) : trim (trimEnd text) = trim text := by
  have hsplit : text = trimEnd text ++ (text.reverse.takeWhile isBlank).reverse := by
    rw [trimEnd, ← List.reverse_append, List.takeWhile_append_dropWhile, List.reverse_reverse]
  have hpad : Blanks (text.reverse.takeWhile isBlank).reverse :=
    fun c hc => List.mem_takeWhile_imp (List.mem_reverse.mp hc)
  conv_rhs => rw [hsplit, trim_append_blanks _ hpad]

theorem trimStart_append_cons (hbefore : Blanks before) (hc : isBlank c = false) (text : List Char) :
    trimStart (before ++ c :: text) = c :: text := by
  rw [trimStart, List.dropWhile_append_of_pos hbefore, List.dropWhile_cons_of_neg (by simp [hc])]

/-! ## Line ends -/

/-- A text of lines: each is ended by a newline, or by a carriage return and a newline, and the last one
    may have no end. -/
inductive Ended : (ls : List (List Char)) → (text : List Char) → Prop
  | nil : Ended [] []
  | last (line : List Char) : Ended [line] line
  | newline {ls : List (List Char)} {text : List Char} (line : List Char) (h : Ended ls text) :
      Ended (line :: ls) (line ++ '\n' :: text)
  | crlf {ls : List (List Char)} {text : List Char} (line : List Char) (h : Ended ls text) :
      Ended (line :: ls) (line ++ '\r' :: '\n' :: text)

end Text

namespace Settings

open Text (Blanks)

variable {settings : Settings} {s : Setting} {scope : String} {line text : List Char}
  {ls ms body : List (List Char)} {listed : List Setting}

/-- A carriage return at the end of a line does not count. -/
theorem ofText_append_return (line : List Char) :
    Line.ofText (line ++ ['\r']) = Line.ofText line := by
  have hreturn : Blanks ['\r'] := by decide
  rw [Line.ofText, Line.ofText, Text.trim_append_blanks line hreturn]

/-- A text says what the lines say that it was put together from; behind the last line end there is one
    more, which says nothing. -/
theorem map_ofText_ended (hended : Text.Ended ls text) (hls : ∀ line ∈ ls, '\n' ∉ line) :
    (Text.lines text).map Line.ofText = ls.map Line.ofText ∨
      (Text.lines text).map Line.ofText = ls.map Line.ofText ++ [.ignored] := by
  induction hended with
  | nil => exact Or.inr rfl
  | last line =>
    have hlines : Text.lines line = [line] := List.splitOn_eq_singleton (hls line (by simp))
    exact Or.inl (congrArg _ hlines)
  | @newline ls text line _ ih =>
    obtain ⟨hline, hls⟩ := List.forall_mem_cons.mp hls
    have hlines : Text.lines (line ++ '\n' :: text) = line :: Text.lines text :=
      List.splitOn_append_cons_self_of_not_mem hline text
    rw [hlines, List.map_cons, List.map_cons, List.cons_append]
    exact (ih hls).imp (congrArg _) (congrArg _)
  | @crlf ls text line _ ih =>
    obtain ⟨hline, hls⟩ := List.forall_mem_cons.mp hls
    have hreturn : '\n' ∉ line ++ ['\r'] := by simp [hline]
    have hlines : Text.lines (line ++ '\r' :: '\n' :: text) = (line ++ ['\r']) :: Text.lines text := by
      rw [← List.singleton_append, ← List.append_assoc]
      exact List.splitOn_append_cons_self_of_not_mem hreturn text
    rw [hlines, List.map_cons, List.map_cons, ofText_append_return, List.cons_append]
    exact (ih hls).imp (congrArg _) (congrArg _)

theorem found?_ended (hended : Text.Ended ls text) (hls : ∀ line ∈ ls, '\n' ∉ line)
    (current : List Char) (scope key : String) :
    found? current (Text.lines text) scope key = found? current ls scope key := by
  rw [found?, found?]
  rcases map_ofText_ended hended hls with h | h
  · rw [h]
  · rw [h, assignmentsFrom_append]
    exact congrArg (lookup? · scope key) (List.append_nil _)

/-! ## Kinds of lines -/

/-- A line that says nothing: white space only, or a comment. -/
inductive Idle : (line : List Char) → Prop
  | empty {line : List Char} (hline : Blanks line) : Idle line
  | comment (before comment : List Char) (hbefore : Blanks before) : Idle (before ++ '#' :: comment)

/-- A header of a section, with white space around the brackets and inside. -/
inductive Heads (scope : String) : (line : List Char) → Prop
  | intro (before gap gap' after : List Char) (hbefore : Blanks before) (hgap : Blanks gap)
      (hgap' : Blanks gap') (hafter : Blanks after) :
      Heads scope (before ++ '[' :: (gap ++ scope.toList ++ gap' ++ ']' :: after))

/-- A value as it stands in a line: plain or in double quotes. -/
def Quotes (raw value : List Char) : Prop := raw = value ∨ raw = '"' :: (value ++ ['"'])

/-- A line that enters a setting, with white space around the key and the value. -/
inductive Enters (settings : Settings) (s : Setting) : (line : List Char) → Prop
  | intro (before gap gap' after raw value : List Char) (hbefore : Blanks before) (hgap : Blanks gap)
      (hgap' : Blanks gap') (hafter : Blanks after) (hvalue : s.Spells (s.of settings) value)
      (hraw : Quotes raw value) :
      Enters settings s (before ++ s.key.toList ++ gap ++ '=' :: (gap' ++ raw ++ after))

theorem Idle.ofText_eq (h : Idle line) : Line.ofText line = .ignored := by
  cases h with
  | empty hline =>
    have htrim : Text.trim line = [] := by
      rw [← List.nil_append line, Text.trim_append_blanks [] hline]
      rfl
    rw [Line.ofText, htrim]
    rfl
  | comment before comment hbefore =>
    rw [Line.ofText, Text.trim_append_cons (by decide), Text.trimStart,
      ← List.append_nil before, List.dropWhile_append_of_pos hbefore]
    rfl

theorem Heads.ofText_eq (hscope : ∀ c ∈ scope.toList, Text.isBlank c = false)
    (h : Heads scope line) : Line.ofText line = .header scope.toList := by
  obtain ⟨before, gap, gap', after, hbefore, hgap, hgap', hafter⟩ := h
  refine ofText_eq_header_iff.mpr ⟨gap ++ scope.toList ++ gap', ?_, ?_⟩
  · have hbracket : Text.isBlank ']' = false := by decide
    rw [Text.trim, Text.trimStart_append_cons hbefore (by decide)]
    have hline : '[' :: (gap ++ scope.toList ++ gap' ++ ']' :: after)
        = ('[' :: (gap ++ scope.toList ++ gap')) ++ [']'] ++ after := by simp
    rw [hline, Text.trimEnd_append_blanks _ hafter, Text.trimEnd_append_singleton _ hbracket]
    rfl
  · exact (Text.trim_append_append hgap hgap' hscope).symm

/-- Quotes are taken off a solid value. -/
theorem Quotes.unquotes {raw value : List Char} (h : Quotes raw value) (hvalue : Text.Solid value) :
    Unquotes raw value ∧ ∀ c ∈ raw, Text.isBlank c = false := by
  rcases h with rfl | rfl
  · refine ⟨.bare fun value heq => ?_, hvalue.not_blank⟩
    exact (hvalue.2 '"' (heq ▸ List.mem_cons_self)).2 rfl
  · refine ⟨.quoted, List.forall_mem_cons.mpr ⟨by decide, fun c hc => ?_⟩⟩
    rcases List.mem_append.mp hc with hc | hc
    · exact hvalue.not_blank c hc
    · rw [List.mem_singleton.mp hc]
      decide

/-- A key has neither white space nor an equals sign, and does not begin like a comment or a header. -/
theorem key_spec (s : Setting) : ∃ k ks, s.key.toList = k :: ks ∧ k ≠ '#' ∧ k ≠ '[' ∧
    ∀ c ∈ k :: ks, Text.isBlank c = false ∧ c ≠ '=' := by
  cases s with
  | _ => exact ⟨_, _, rfl, by decide, by decide, by decide⟩

theorem Enters.exists_ofText_eq (h : Enters settings s line) :
    ∃ value, Line.ofText line = .assign s.key.toList value ∧ s.Spells (s.of settings) value := by
  obtain ⟨before, gap, gap', after, raw, value, hbefore, hgap, hgap', hafter, hvalue, hraw⟩ := h
  obtain ⟨k, ks, hkey, hcomment, hheader, hks⟩ := key_spec s
  obtain ⟨hunquotes, hblank⟩ := hraw.unquotes hvalue.solid
  refine ⟨value, ofText_eq_assign_iff.mpr ?_, hvalue⟩
  have hleft : Text.trimStart (before ++ s.key.toList ++ gap) = k :: (ks ++ gap) := by
    rw [hkey, List.append_assoc, List.cons_append]
    exact Text.trimStart_append_cons hbefore (hks k List.mem_cons_self).1 _
  have htrim : Text.trim (before ++ s.key.toList ++ gap ++ '=' :: (gap' ++ raw ++ after))
      = k :: (ks ++ gap) ++ '=' :: Text.trimEnd (gap' ++ raw ++ after) := by
    rw [Text.trim_append_cons (by decide), hleft]
  refine ⟨?_, ?_, k :: (ks ++ gap), Text.trimEnd (gap' ++ raw ++ after), htrim, ?_, ?_, ?_⟩
  · rw [htrim]
    exact fun h => hcomment (Option.some.inj h)
  · rintro name ⟨inside, hinside, -⟩
    rw [htrim] at hinside
    exact hheader (List.cons.inj hinside).1
  · rw [← List.cons_append, List.mem_append, not_or]
    refine ⟨fun hmem => (hks '=' hmem).2 rfl, fun hmem => ?_⟩
    exact absurd (hgap '=' hmem) (by decide)
  · rw [hkey, ← List.cons_append, Text.trim_append_blanks _ hgap,
      Text.trim_eq_self fun c hc => (hks c hc).1]
  · rw [Text.trim_trimEnd, Text.trim_append_append hgap' hafter hblank]
    exact hunquotes

/-- A line that says nothing is no header, ... -/
theorem Idle.not_isHeader (h : Idle line) (name : List Char) : ¬ IsHeader line name := by
  rw [← ofText_eq_header_iff, h.ofText_eq]
  exact nofun

/-- ... and it assigns nothing. -/
theorem Idle.not_isAssignment (h : Idle line) (key value : List Char) :
    ¬ IsAssignment line key value := by
  rw [← ofText_eq_assign_iff, h.ofText_eq]
  exact nofun

theorem Enters.not_isHeader (h : Enters settings s line) (name : List Char) :
    ¬ IsHeader line name := by
  obtain ⟨value, hvalue, -⟩ := h.exists_ofText_eq
  rw [← ofText_eq_header_iff, hvalue]
  exact nofun

/-- A line that enters a setting assigns to its key a way to write its value, and nothing else. -/
theorem Enters.spells_of_isAssignment (h : Enters settings s line) {key value : List Char}
    (hassign : IsAssignment line key value) :
    key = s.key.toList ∧ s.Spells (s.of settings) value := by
  obtain ⟨value', hvalue', hspells⟩ := h.exists_ofText_eq
  rw [← ofText_eq_assign_iff, hvalue'] at hassign
  obtain ⟨rfl, rfl⟩ := Line.assign.inj hassign
  exact ⟨rfl, hspells⟩

/-! ## Sections -/

/-- Lines that enter some settings one after the other, with others in between that say nothing. -/
inductive Lists (settings : Settings) : (listed : List Setting) → (ls : List (List Char)) → Prop
  | nil : Lists settings [] []
  | idle {listed : List Setting} {line : List Char} {ls : List (List Char)} (hline : Idle line)
      (h : Lists settings listed ls) : Lists settings listed (line :: ls)
  | enter {s : Setting} {listed : List Setting} {line : List Char} {ls : List (List Char)}
      (hline : Enters settings s line) (h : Lists settings listed ls) :
      Lists settings (s :: listed) (line :: ls)

/-- Whether a setting has a value to be written: numbers may be absent. -/
def given (settings : Settings) : Setting → Bool
  | .maxSteps => settings.maxSteps.isSome
  | .seed => settings.seed.isSome
  | .echoSource | .error | .caret | .source | .location => true

/-- The settings of a section that have a value. -/
def givenIn (settings : Settings) (scope : String) : List Setting :=
  [.maxSteps, .echoSource, .seed, .error, .caret, .source, .location].filter fun s =>
    s.scope == scope && settings.given s

/-- The lines of a section: its header, and each of its settings that have a value once, in any order. -/
inductive Section (settings : Settings) (scope : String) : (ls : List (List Char)) → Prop
  | intro {header : List Char} {listed : List Setting} {body : List (List Char)}
      (hheader : Heads scope header) (hlisted : listed.Perm (settings.givenIn scope))
      (hbody : Lists settings listed body) : Section settings scope (header :: body)

theorem mem_givenIn_iff : s ∈ settings.givenIn scope ↔ s.scope = scope ∧ settings.given s = true := by
  have hall : s ∈ [.maxSteps, .echoSource, .seed, .error, .caret, .source, .location] := by
    cases s <;> decide
  rw [givenIn, List.mem_filter, and_iff_right hall, Bool.and_eq_true, beq_iff_eq]

theorem nodup_givenIn (settings : Settings) (scope : String) : (settings.givenIn scope).Nodup :=
  List.Nodup.filter _ (by decide)

theorem key_injective : Function.Injective Setting.key := by
  intro s t h
  cases s <;> cases t <;> first | rfl | exact absurd h (by decide)

/-- A line of a section is no header. -/
theorem Lists.not_header (h : Lists settings listed body) :
    ∀ line ∈ body, ∀ name, ¬ IsHeader line name := by
  induction h with
  | nil => exact nofun
  | idle hline _ ih => exact List.forall_mem_cons.mpr ⟨hline.not_isHeader, ih⟩
  | enter hline _ ih => exact List.forall_mem_cons.mpr ⟨hline.not_isHeader, ih⟩

/-- What a line of a section assigns is a setting that is listed. -/
theorem Lists.exists_of_isAssignment (h : Lists settings listed body) {key value : List Char} :
    ∀ line ∈ body, IsAssignment line key value →
      ∃ s ∈ listed, key = s.key.toList ∧ s.Spells (s.of settings) value := by
  induction h with
  | nil => exact nofun
  | idle hline _ ih =>
    exact List.forall_mem_cons.mpr ⟨fun hassign => absurd hassign (hline.not_isAssignment _ _), ih⟩
  | @enter s listed line body hline _ ih =>
    refine List.forall_mem_cons.mpr ⟨fun hassign => ?_, fun line' hmem hassign => ?_⟩
    · exact ⟨s, List.mem_cons_self, hline.spells_of_isAssignment hassign⟩
    · obtain ⟨t, ht, hkey⟩ := ih line' hmem hassign
      exact ⟨t, List.mem_cons_of_mem _ ht, hkey⟩

/-- Every setting that is listed has its line. -/
theorem Lists.exists_isAssignment (h : Lists settings listed body) :
    ∀ s ∈ listed, ∃ line ∈ body, ∃ value, IsAssignment line s.key.toList value := by
  induction h with
  | nil => exact nofun
  | idle _ _ ih =>
    intro s hs
    obtain ⟨line, hmem, hassign⟩ := ih s hs
    exact ⟨line, List.mem_cons_of_mem _ hmem, hassign⟩
  | enter hline _ ih =>
    refine List.forall_mem_cons.mpr ⟨?_, fun s hs => ?_⟩
    · obtain ⟨value, hvalue, -⟩ := hline.exists_ofText_eq
      exact ⟨_, List.mem_cons_self, value, ofText_eq_assign_iff.mp hvalue⟩
    · obtain ⟨line, hmem, hassign⟩ := ih s hs
      exact ⟨line, List.mem_cons_of_mem _ hmem, hassign⟩

/-- No two lines of a section assign the same key. -/
theorem Lists.pairwise (h : Lists settings listed body) (hnodup : listed.Nodup) :
    body.Pairwise fun line line' => ∀ key value value',
      IsAssignment line key value → ¬ IsAssignment line' key value' := by
  induction h with
  | nil => exact .nil
  | idle hline _ ih =>
    exact (ih hnodup).cons fun _ _ key value _ hassign =>
      absurd hassign (hline.not_isAssignment key value)
  | @enter s listed line body hline hbody ih =>
    obtain ⟨hs, hnodup⟩ := List.nodup_cons.mp hnodup
    refine (ih hnodup).cons fun line' hmem key value value' hassign hassign' => ?_
    obtain ⟨hkey, -⟩ := hline.spells_of_isAssignment hassign
    obtain ⟨t, ht, hkey', -⟩ := hbody.exists_of_isAssignment line' hmem hassign'
    obtain rfl : s = t := key_injective (String.toList_injective (hkey.symm.trans hkey'))
    exact hs ht

/-- **What is found in a section** is a way to write a setting of that section, and one is found for
    each that has a value. -/
theorem Section.found?_spec (h : Section settings scope ls)
    (hscope : ∀ c ∈ scope.toList, Text.isBlank c = false) (current : List Char) (s : Setting) :
    (∀ value, found? current ls s.scope s.key = some value →
      s.scope = scope ∧ s.Spells (s.of settings) value) ∧
    (s.scope = scope → settings.given s = true →
      ∃ value, found? current ls s.scope s.key = some value) := by
  obtain @⟨header, listed, body, hheader, hlisted, hbody⟩ := h
  have hnodup : listed.Nodup := hlisted.nodup_iff.mpr (nodup_givenIn settings scope)
  have hfound : ∀ value, found? current (header :: body) s.scope s.key = some value ↔
      scope.toList = s.scope.toList ∧ ∃ line ∈ body, IsAssignment line s.key.toList value := by
    intro value
    rw [← found?_block_eq_some_iff hbody.not_header (hbody.pairwise hnodup), found?, found?,
      List.map_cons, hheader.ofText_eq hscope]
    rfl
  constructor
  · intro value hvalue
    obtain ⟨heq, line, hmem, hassign⟩ := (hfound value).mp hvalue
    obtain ⟨t, -, hkey, hspells⟩ := hbody.exists_of_isAssignment line hmem hassign
    obtain rfl : s = t := key_injective (String.toList_injective hkey)
    exact ⟨(String.toList_injective heq).symm, hspells⟩
  · intro hs hgiven
    have hmem : s ∈ listed := hlisted.mem_iff.mpr (mem_givenIn_iff.mpr ⟨hs, hgiven⟩)
    obtain ⟨line, hline, value, hassign⟩ := hbody.exists_isAssignment s hmem
    exact ⟨value, (hfound value).mpr ⟨congrArg String.toList hs.symm, line, hline, hassign⟩⟩

/-! ## Files -/

/-- A text that lists settings: sections `[run]` and `[colors]` in either order, before them lines that
    say nothing. -/
inductive Written (settings : Settings) : (text : List Char) → Prop
  | intro {first second : String} {before ls ms : List (List Char)} {text : List Char}
      (horder : [first, second].Perm ["run", "colors"]) (hbefore : ∀ line ∈ before, Idle line)
      (hfirst : Section settings first ls) (hsecond : Section settings second ms)
      (hlines : ∀ line ∈ before ++ ls ++ ms, '\n' ∉ line)
      (htext : Text.Ended (before ++ ls ++ ms) text) : Written settings text

theorem found?_idle (h : ∀ line ∈ ls, Idle line) (current : List Char) (scope key : String) :
    found? current ls scope key = none := by
  induction ls generalizing current with
  | nil => rfl
  | cons line ls ih =>
    obtain ⟨hline, hls⟩ := List.forall_mem_cons.mp h
    rw [found?, List.map_cons, hline.ofText_eq]
    exact ih hls current

/-- The names of the two sections have no white space in them, and the section of a setting is one of
    the two. -/
theorem scope_spec (s : Setting) :
    s.scope ∈ ["run", "colors"] ∧
      ∀ scope ∈ ["run", "colors"], ∀ c ∈ scope.toList, Text.isBlank c = false := by
  refine ⟨?_, by decide⟩
  cases s <;> decide

/-- **What is found in a text** is a way to write the setting; nothing is found only for an absent
    number. -/
theorem Written.found?_cases {content : String} (h : Written settings content.toList) (s : Setting) :
    (∃ value, s.found? content = some value ∧ s.Spells (s.of settings) value) ∨
      (s.found? content = none ∧ settings.given s = false) := by
  generalize htoList : content.toList = text at h
  obtain @⟨first, second, before, ls, ms, _, horder, hbefore, hfirst, hsecond, hlines, htext⟩ := h
  obtain ⟨hscope, hnames⟩ := scope_spec s
  have hmem (scope : String) (h : scope ∈ [first, second]) : ∀ c ∈ scope.toList, Text.isBlank c = false :=
    hnames scope (horder.mem_iff.mp h)
  have hsection := horder.mem_iff.mpr hscope
  have hfound : s.found? content
      = (found? (sectionAfter [] (before ++ ls)) ms s.scope s.key).or
          (found? (sectionAfter [] before) ls s.scope s.key) := by
    show found? [] (Text.lines content.toList) s.scope s.key = _
    rw [htoList, found?_ended htext hlines, found?_append, found?_append [] before, found?_idle hbefore,
      Option.or_none]
  obtain ⟨hls, hlsGiven⟩ := hfirst.found?_spec (hmem first (by simp)) (sectionAfter [] before) s
  obtain ⟨hms, hmsGiven⟩ := hsecond.found?_spec (hmem second (by simp))
    (sectionAfter [] (before ++ ls)) s
  cases hvalue : s.found? content with
  | some value =>
    refine Or.inl ⟨value, rfl, ?_⟩
    rw [hfound, Option.or_eq_some_iff] at hvalue
    rcases hvalue with hvalue | ⟨-, hvalue⟩
    · exact (hms value hvalue).2
    · exact (hls value hvalue).2
  | none =>
    refine Or.inr ⟨rfl, Bool.eq_false_iff.mpr fun hgiven => ?_⟩
    rw [hfound, Option.or_eq_none_iff] at hvalue
    -- the setting would be found in its own section
    rcases List.mem_pair.mp hsection with hs | hs
    · obtain ⟨value, h⟩ := hlsGiven hs hgiven
      rw [hvalue.2] at h
      nomatch h
    · obtain ⟨value, h⟩ := hmsGiven hs hgiven
      rw [hvalue.1] at h
      nomatch h

/-! ## Reading -/

/-- Where there is nothing to be written the setting has its default. -/
theorem of_eq_standard_of_given (h : settings.given s = false) : s.of settings = s.standard := by
  cases s with
  | maxSteps | seed => exact Option.isNone_iff_eq_none.mp (Option.isSome_eq_false_iff.mp h)
  | echoSource | error | caret | source | location => nomatch h

theorem ext_of {settings' : Settings} (h : ∀ s : Setting, s.of settings = s.of settings') :
    settings = settings' := by
  obtain ⟨maxSteps, echoSource, seed, error, caret, source, location⟩ := settings
  obtain ⟨maxSteps', echoSource', seed', error', caret', source', location'⟩ := settings'
  obtain rfl : maxSteps = maxSteps' := h .maxSteps
  obtain rfl : echoSource = echoSource' := h .echoSource
  obtain rfl : seed = seed' := h .seed
  obtain rfl : error = error' := h .error
  obtain rfl : caret = caret' := h .caret
  obtain rfl : source = source' := h .source
  obtain rfl : location = location' := h .location
  rfl

/-- **A file written from settings is read as those settings**, in whatever layout it is written:
    sections and keys in any order, with any white space, quotes, comments and line ends, and with each
    value in any of its spellings. -/
theorem parse_written {content : String} (h : Written settings content.toList) :
    parse content = .ok settings := by
  cases hparse : parse content with
  | error why =>
    obtain ⟨s, hs, text, hfound, hsplits⟩ := exists_parse_eq_error_iff.mp ⟨why, hparse⟩
    rcases h.found?_cases s with ⟨value, hvalue, hspells⟩ | ⟨hnone, -⟩
    · obtain rfl : text = value := Option.some.inj (hfound.symm.trans hvalue)
      exact absurd hsplits (Setting.not_splits_of_ofText? hs hspells.ofText?_eq)
    · rw [hfound] at hnone
      nomatch hnone
  | ok settings' =>
    refine congrArg Except.ok (ext_of fun s => ?_)
    rw [Setting.of_parse hparse]
    rcases h.found?_cases s with ⟨value, hvalue, hspells⟩ | ⟨hnone, hgiven⟩
    · rw [hvalue, Option.bind_some, hspells.ofText?_eq, Option.getD_some]
    · rw [hnone, Option.bind_none, Option.getD_none, of_eq_standard_of_given hgiven]

/-- Colours first, a comment before them, a name that is capitalized and another one with quotes around
    its digits, the largest seed, and no step limit. -/
theorem parse_written_shuffled :
    parse ("# theme\r\n[colors]\n caret = \"#0aFf10\"\nsource=Dark_Gray\n\nlocation = magenta\n" ++
        "error\t=\tred\r\n[ run ]\nseed = \"18446744073709551615\"\necho_source = true")
      = .ok ⟨none, true, some 18446744073709551615, ⟨.red, .rgb 10 255 16, .darkGray, .purple⟩⟩ := by
  refine parse_written (@Written.intro _ "colors" "run" ["# theme".toList]
    ["[colors]".toList, " caret = \"#0aFf10\"".toList, "source=Dark_Gray".toList, [],
      "location = magenta".toList, "error\t=\tred".toList]
    ["[ run ]".toList, "seed = \"18446744073709551615\"".toList, "echo_source = true".toList] _
    (by decide) ?_ ?_ ?_ (by decide) ?_)
  · intro line hline
    rw [List.mem_singleton.mp hline]
    exact .comment [] " theme".toList (by decide)
  · have hcaret : Color.Spelled (.rgb 10 255 16) "#0aFf10".toList :=
      .hex (.digits (.lower 0) (.lower 10)) (.digits (.upper 15) (.lower 15))
        (.digits (.lower 1) (.lower 0))
    have hsource : Color.Spelled .darkGray "Dark_Gray".toList :=
      .name (by decide : "dark_gray" ∈ Color.darkGray.names) (by unfold Color.Named; decide)
    have hlocation : Color.Spelled .purple "magenta".toList :=
      .name (by decide : "magenta" ∈ Color.purple.names) (by unfold Color.Named; decide)
    have herror : Color.Spelled .red "red".toList :=
      .name (by decide : "red" ∈ Color.red.names) (by unfold Color.Named; decide)
    refine @Section.intro _ _ _ [.caret, .source, .location, .error] _
      (.intro [] [] [] [] (by decide) (by decide) (by decide) (by decide)) (by decide)
      (.enter ?_ (.enter ?_ (.idle (.empty (by decide)) (.enter ?_ (.enter ?_ .nil)))))
    · exact @Enters.intro _ .caret [' '] [' '] [' '] [] _ "#0aFf10".toList (by decide) (by decide)
        (by decide) (by decide) (by exact hcaret) (Or.inr rfl)
    · exact @Enters.intro _ .source [] [] [] [] _ "Dark_Gray".toList (by decide) (by decide)
        (by decide) (by decide) (by exact hsource) (Or.inl rfl)
    · exact @Enters.intro _ .location [] [' '] [' '] [] _ "magenta".toList (by decide) (by decide)
        (by decide) (by decide) (by exact hlocation) (Or.inl rfl)
    · exact @Enters.intro _ .error [] ['\t'] ['\t'] [] _ "red".toList (by decide) (by decide)
        (by decide) (by decide) (by exact herror) (Or.inl rfl)
  · have hseed : Numeral.Digits "18446744073709551615".toList 18446744073709551615 :=
      Numeral.natural?_eq_some_iff.mp (by decide)
    refine @Section.intro _ _ _ [.seed, .echoSource] _
      (.intro [] [' '] [' '] [] (by decide) (by decide) (by decide) (by decide)) (by decide)
      (.enter ?_ (.enter ?_ .nil))
    · exact @Enters.intro _ .seed [] [' '] [' '] [] _ "18446744073709551615".toList (by decide)
        (by decide) (by decide) (by decide) (by exact ⟨18446744073709551615, rfl, hseed⟩) (Or.inr rfl)
    · exact @Enters.intro _ .echoSource [] [' '] [' '] [] _ "true".toList (by decide) (by decide)
        (by decide) (by decide) (by exact rfl) (Or.inl rfl)
  · simp only [String.toList_append, String.reduceToList]
    exact .crlf _ (.newline _ (.newline _ (.newline _ (.newline _ (.newline _ (.crlf _
      (.newline _ (.newline _ (.last _)))))))))

end Settings

end Funge
