/-
  Changes of a settings file that do not matter.

  A setting is decided by the last assignment of its key, so there is a lot one may do to a file
  without changing it: take out or put in other lines, rearrange the lines of different keys in a
  section, use other line ends.  `Edited scope key` lists these changes for one key of one section.

  1. A line that is no header leaves the section of every other line as it is, and what is found
     without it is what is found with it, unless it is the last assignment (`found?_without`).
  2. Among lines of different keys the order does not matter (`found?_block_eq_some_iff`).
  3. Carriage returns are white space, and white space at the end of a line is trimmed
     (`map_ofText_of_padded`, `found?_crlf`).
  4. So every such change, and every sequence of them, leaves what is found (`Edited.found?_eq`).

  `parse_decides` says what decides a setting and that these changes leave it.
-/
import Funge.Proofs.Assignments
import Funge.Proofs.InputLines
import Funge.Proofs.Padding

namespace Funge.Settings

variable {line value text text' : List Char} {ls : List (List Char)} {scope key : String}

/-! ## Changes -/

/-- Texts of settings files that differ in nothing that matters for a key of a section. -/
inductive Edited (scope key : List Char) : (text text' : List Char) → Prop
  /-- A line is taken out, neither a header nor the last assignment of the key. -/
  | removed {text : List Char} (i : Nat)
      (hheader : ∀ line name, (Text.lines text)[i]? = some line → ¬ IsHeader line name)
      (hlast : ∀ value, ¬ LastAssigns (Text.lines text) scope key i value) :
      Edited scope key text (Text.joinLines ((Text.lines text).eraseIdx i))
  /-- Lines that stand together, none of them a header and no two of one key, are rearranged. -/
  | rearranged {text : List Char} {before block block' after : List (List Char)}
      (hlines : Text.lines text = before ++ block ++ after) (hperm : block.Perm block')
      (hheader : ∀ line ∈ block, ∀ name, ¬ IsHeader line name)
      (hkeys : block.Pairwise fun line line' => ∀ key value value',
        IsAssignment line key value → ¬ IsAssignment line' key value') :
      Edited scope key text (Text.joinLines (before ++ block' ++ after))
  /-- Every newline gets a carriage return. -/
  | crlf {text : List Char} : Edited scope key text (Text.crlf text)
  /-- Any of this is undone; so lines are put in and carriage returns taken away ... -/
  | symm {text text' : List Char} (h : Edited scope key text text') : Edited scope key text' text
  /-- ... and one thing is done after the other. -/
  | trans {s t u : List Char} (h : Edited scope key s t) (h' : Edited scope key t u) :
      Edited scope key s u

/-! ## Taking out a line -/

/-- Without a line that is no header all is found that is found with it, unless it is the last
    assignment. -/
theorem found?_without (key : String) (before : List (List Char)) (hscope : scope.toList ≠ [])
    (hheader : ∀ name, ¬ IsHeader line name) (after : List (List Char)) :
    found? [] (before ++ line :: after) scope key = found? [] (before ++ after) scope key ∨
      ∃ value, LastAssigns (before ++ line :: after) scope.toList key.toList before.length value := by
  have hsection : ∀ rest, sectionAfter [] (before ++ line :: rest)
      = sectionAfter [] (before ++ rest) := by
    intro rest
    rw [sectionAfter_append, sectionAfter_append]
    show sectionAfter ((Line.ofText line).scopeAfter _) rest = _
    rw [scopeAfter_of_not_header hheader]
  induction after using List.reverseRecOn with
  | nil =>
    rw [List.append_nil, found?_append]
    cases hfound : found? (sectionAfter [] before) [line] scope key with
    | none => exact Or.inl (Option.none_or)
    | some value =>
      obtain ⟨hassign, hcurrent⟩ := found?_line_eq_some_iff.mp hfound
      exact Or.inr ⟨value, lastAssigns_concat.mpr
        (Or.inl ⟨rfl, hassign, (inScope_iff hscope).mpr hcurrent⟩)⟩
  | append_singleton after last ih =>
    have hwith : before ++ line :: (after ++ [last]) = (before ++ line :: after) ++ [last] := by simp
    have hwithout : before ++ (after ++ [last]) = (before ++ after) ++ [last] := by simp
    rw [hwith, hwithout, found?_append [] (before ++ line :: after),
      found?_append [] (before ++ after), hsection]
    cases hfound : found? (sectionAfter [] (before ++ after)) [last] scope key with
    | some value => exact Or.inl (by rw [Option.some_or, Option.some_or])
    | none =>
      rw [Option.none_or, Option.none_or]
      refine ih.imp_right ?_
      rintro ⟨value, hlast⟩
      refine ⟨value, lastAssigns_concat.mpr (Or.inr ⟨?_, hlast⟩)⟩
      rintro other ⟨hassign, hin⟩
      rw [inScope_iff hscope, hsection] at hin
      exact found?_line_eq_none_iff.mp hfound other ⟨hassign, hin⟩

/-! ## Rearranging lines -/

/-- No header, no new section. -/
theorem sectionAfter_of_not_header {current : List Char}
    (h : ∀ line ∈ ls, ∀ name, ¬ IsHeader line name) : sectionAfter current ls = current := by
  induction ls with
  | nil => rfl
  | cons line ls ih =>
    show sectionAfter ((Line.ofText line).scopeAfter current) ls = current
    rw [scopeAfter_of_not_header (h line List.mem_cons_self)]
    exact ih fun line' hmem => h line' (List.mem_cons_of_mem _ hmem)

/-- Among lines of different keys the one of a key is found wherever it stands. -/
theorem found?_block_eq_some_iff {current : List Char}
    (hheader : ∀ line ∈ ls, ∀ name, ¬ IsHeader line name)
    (hkeys : ls.Pairwise fun line line' => ∀ key value value',
      IsAssignment line key value → ¬ IsAssignment line' key value') :
    found? current ls scope key = some value ↔
      current = scope.toList ∧ ∃ line ∈ ls, IsAssignment line key.toList value := by
  induction ls generalizing value with
  | nil => simp [found?, assignmentsFrom, lookup?]
  | cons line ls ih =>
    obtain ⟨hfirst, hrest⟩ := List.pairwise_cons.mp hkeys
    have hfound (value : List Char) : found? current ls scope key = some value ↔
        current = scope.toList ∧ ∃ line ∈ ls, IsAssignment line key.toList value :=
      ih (fun line' hmem => hheader line' (List.mem_cons_of_mem _ hmem)) hrest
    have hsection : sectionAfter current [line] = current :=
      sectionAfter_of_not_header fun line' hmem => by
        obtain rfl := List.mem_singleton.mp hmem
        exact hheader line' List.mem_cons_self
    have hcons : found? current (line :: ls) scope key
        = (found? current ls scope key).or (found? current [line] scope key) := by
      rw [← List.singleton_append, found?_append, hsection]
    rw [hcons, Option.or_eq_some_iff, hfound, found?_line_eq_some_iff]
    constructor
    · rintro (⟨hcurrent, line', hmem, hassign⟩ | ⟨-, hassign, hcurrent⟩)
      · exact ⟨hcurrent, line', List.mem_cons_of_mem _ hmem, hassign⟩
      · exact ⟨hcurrent, line, List.mem_cons_self, hassign⟩
    · rintro ⟨hcurrent, line', hmem, hassign⟩
      rcases List.mem_cons.mp hmem with rfl | hmem
      · refine Or.inr ⟨?_, hassign, hcurrent⟩
        -- no other line has the key
        refine Option.eq_none_iff_forall_ne_some.mpr fun other hother => ?_
        obtain ⟨-, line, hmem, hassign'⟩ := (hfound other).mp hother
        exact hfirst line hmem _ _ _ hassign hassign'
      · exact Or.inl ⟨hcurrent, line', hmem, hassign⟩

/-! ## Line ends -/

/-- White space at the ends of the lines is not read. -/
theorem map_ofText_of_padded {ms : List (List Char)} (h : Text.PaddedLines ls ms)
    (hlength : ms.length = ls.length) : ms.map Line.ofText = ls.map Line.ofText := by
  induction h with
  | more => rw [List.length_eq_zero_iff.mp hlength]
  | @line line pad ls ms hpad _ ih =>
    have hline : Line.ofText (line ++ pad) = Line.ofText line := by
      rw [Line.ofText, Line.ofText, Text.trim_append_blanks line hpad]
    rw [List.map_cons, List.map_cons, hline, ih (Nat.succ.inj hlength)]

theorem length_lines_crlf (text : List Char) :
    (Text.lines (Text.crlf text)).length = (Text.lines text).length := by
  induction text with
  | nil => rfl
  | cons c text ih =>
    by_cases hc : c = '\n'
    · subst hc
      have hcrlf : Text.crlf ('\n' :: text) = '\r' :: '\n' :: Text.crlf text := rfl
      rw [hcrlf, Text.lines_cons, if_neg (by decide), List.length_modifyHead, Text.lines_cons,
        if_pos rfl, Text.lines_cons, if_pos rfl, List.length_cons, List.length_cons, ih]
    · have hcrlf : Text.crlf (c :: text) = c :: Text.crlf text := by
        simp [Text.crlf, hc]
      rw [hcrlf, Text.lines_cons, Text.lines_cons, if_neg hc, if_neg hc, List.length_modifyHead,
        List.length_modifyHead, ih]

/-- Carriage returns are not read either. -/
theorem found?_crlf (current : List Char) (text : List Char) (scope key : String) :
    found? current (Text.lines (Text.crlf text)) scope key
      = found? current (Text.lines text) scope key := by
  rw [found?, found?, map_ofText_of_padded (Text.paddedLines_crlf text) (length_lines_crlf text)]

/-! ## All changes -/

/-- Lines that were put together are found again.  Nothing put together is an empty line, which says
    nothing. -/
theorem found?_joinLines (h : ∀ line ∈ ls, '\n' ∉ line) (scope key : String) :
    found? [] (Text.lines (Text.joinLines ls)) scope key = found? [] ls scope key := by
  by_cases hls : ls = []
  · subst hls
    rfl
  · rw [Text.lines_joinLines hls h]

/-- **None of these changes matters.** -/
theorem Edited.found?_eq (hscope : scope.toList ≠ [])
    (h : Edited scope.toList key.toList text text') :
    found? [] (Text.lines text') scope key = found? [] (Text.lines text) scope key := by
  induction h with
  | @removed text i hheader hlast =>
    have hnewline : ∀ line ∈ (Text.lines text).eraseIdx i, '\n' ∉ line := fun line hmem =>
      Text.newline_not_mem_of_mem_lines (List.mem_of_mem_eraseIdx hmem)
    rw [found?_joinLines hnewline]
    rcases Nat.lt_or_ge i (Text.lines text).length with hi | hi
    · have hline : (Text.lines text)[i]? = some (Text.lines text)[i] :=
        List.getElem?_eq_getElem hi
      have hlines : Text.lines text
          = (Text.lines text).take i ++ (Text.lines text)[i] :: (Text.lines text).drop (i + 1) := by
        rw [List.getElem_cons_drop, List.take_append_drop]
      have hwithout := found?_without key ((Text.lines text).take i) hscope
        (fun name => hheader _ name hline) ((Text.lines text).drop (i + 1))
      rw [← hlines, List.length_take_of_le (Nat.le_of_lt hi), ← List.eraseIdx_eq_take_drop_succ]
        at hwithout
      refine (hwithout.resolve_right ?_).symm
      rintro ⟨value, h⟩
      exact hlast value h
    · rw [List.eraseIdx_of_length_le hi]
  | @rearranged text before block block' after hlines hperm hheader hkeys =>
    have hmem : ∀ line, line ∈ before ++ block' ++ after → line ∈ Text.lines text := by
      intro line
      rw [hlines]
      simp only [List.mem_append, hperm.mem_iff, imp_self]
    have hheader' : ∀ line ∈ block', ∀ name, ¬ IsHeader line name := fun line hmem =>
      hheader line (hperm.mem_iff.mpr hmem)
    have hkeys' := hkeys.perm hperm fun hno key value value' h h' => hno key value' value h' h
    have hblock (current : List Char) :
        found? current block' scope key = found? current block scope key := by
      refine Option.ext fun value => ?_
      rw [found?_block_eq_some_iff hheader hkeys, found?_block_eq_some_iff hheader' hkeys']
      simp only [hperm.mem_iff]
    rw [found?_joinLines fun line h => Text.newline_not_mem_of_mem_lines (hmem line h), hlines,
      found?_append, found?_append, found?_append, found?_append, sectionAfter_append,
      sectionAfter_append, sectionAfter_of_not_header hheader, sectionAfter_of_not_header hheader',
      hblock]
  | crlf => exact found?_crlf _ _ _ _
  | symm _ ih => exact ih.symm
  | trans _ _ ih ih' => exact ih'.trans ih

/-- **The last assignment of a key decides its setting, and nothing else does.**  In a file that can
    be read a setting is the value of the last assignment of its key, in the section of the setting.
    If that value cannot be read, whatever was assigned before, or if there is no assignment, it is
    what it is without a file.  So in every other file that can be read and differs in nothing that
    matters for this key, the setting is the same. -/
theorem parse_decides {content : String} {settings : Settings}
    (h : parse content = .ok settings) (s : Setting) :
    (∀ i value, LastAssigns (Text.lines content.toList) s.scope.toList s.key.toList i value →
      s.of settings = (s.ofText? value).getD s.standard) ∧
    ((∀ i value, ¬ Assigns (Text.lines content.toList) s.scope.toList s.key.toList i value) →
      s.of settings = s.standard) ∧
    ∀ content' settings', parse content' = .ok settings' →
      Edited s.scope.toList s.key.toList content.toList content'.toList →
        s.of settings' = s.of settings := by
  refine ⟨fun i value hlast => ?_, fun hno => ?_, fun content' settings' h' hedited => ?_⟩
  · have hfound : s.found? content = some value := Setting.found?_eq_some_iff.mpr ⟨i, hlast⟩
    rw [Setting.of_parse h, hfound, Option.bind_some]
  · have hfound : s.found? content = none := by
      refine Option.eq_none_iff_forall_ne_some.mpr fun value hvalue => ?_
      obtain ⟨i, hlast⟩ := Setting.found?_eq_some_iff.mp hvalue
      exact hno i value hlast.toAssigns
    rw [Setting.of_parse h, hfound, Option.bind_none, Option.getD_none]
  · have hfound : s.found? content' = s.found? content := hedited.found?_eq s.scope_ne_nil
    rw [Setting.of_parse h, Setting.of_parse h', hfound]

/-- Of two limits the later one counts, so the earlier one may go, and the newlines may get carriage
    returns. -/
theorem parse_decides_later :
    ∃ i settings settings',
      parse "[run]\nmax_steps = 9\nmax_steps = \"5\"" = .ok settings ∧
      LastAssigns (Text.lines "[run]\nmax_steps = 9\nmax_steps = \"5\"".toList)
        "run".toList "max_steps".toList i ['5'] ∧ settings.maxSteps = some 5 ∧
      parse "[run]\r\nmax_steps = \"5\"" = .ok settings' ∧ settings'.maxSteps = some 5 := by
  have hparse : parse "[run]\nmax_steps = 9\nmax_steps = \"5\""
      = .ok ⟨some 5, false, none, Palette.standard⟩ := rfl
  have hparse' : parse "[run]\r\nmax_steps = \"5\""
      = .ok ⟨some 5, false, none, Palette.standard⟩ := rfl
  have hfive : Setting.maxSteps.found? "[run]\nmax_steps = 9\nmax_steps = \"5\"" = some ['5'] := rfl
  obtain ⟨i, hlast⟩ := Setting.found?_eq_some_iff.mp hfive
  have hheader : ∀ line name,
      (Text.lines "[run]\nmax_steps = 9\nmax_steps = \"5\"".toList)[1]? = some line →
        ¬ IsHeader line name := by
    intro line name hline hheader
    obtain rfl := Option.some.inj hline
    exact nomatch ofText_eq_header_iff.mpr hheader
  have hearlier : ∀ value, ¬ LastAssigns
      (Text.lines "[run]\nmax_steps = 9\nmax_steps = \"5\"".toList)
      "run".toList "max_steps".toList 1 value := by
    intro value hlast'
    obtain ⟨line, hline, hassign⟩ := hlast'.at_line
    obtain rfl := Option.some.inj hline
    have hnine : ['9'] = value := (Line.assign.inj (ofText_eq_assign_iff.mpr hassign)).2
    have hfound : Setting.maxSteps.found? "[run]\nmax_steps = 9\nmax_steps = \"5\"" = some value :=
      Setting.found?_eq_some_iff.mpr ⟨1, hlast'⟩
    rw [hfive, ← hnine] at hfound
    simp at hfound
  have hedited : Edited "run".toList "max_steps".toList
      "[run]\nmax_steps = 9\nmax_steps = \"5\"".toList "[run]\r\nmax_steps = \"5\"".toList :=
    (Edited.removed 1 hheader hearlier).trans .crlf
  obtain ⟨hdecides, -, hsame⟩ := parse_decides hparse .maxSteps
  exact ⟨i, _, _, hparse, hlast, hdecides i _ hlast, hparse',
    (hsame _ _ hparse' hedited).trans (hdecides i _ hlast)⟩

end Funge.Settings
