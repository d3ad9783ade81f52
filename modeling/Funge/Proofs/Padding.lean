/-
  Room around a program.

  White space at the ends of lines, further lines and carriage returns give a program more room and
  leave its cells where they are: `Text.Padded` says of two texts that the second is the first with
  such additions.  Line by line this is `Text.PaddedLines`, because trimming does not see the
  additions; the field of the one text then extends the field of the other, and every run that
  stays on the smaller field is the same on the larger one (`run_enlarged`).
-/
import Funge.Proofs.Extension

namespace Funge

namespace Text

/-- Turn every newline into a carriage return and a newline. -/
def crlf (text : List Char) : List Char :=
  text.flatMap fun c => if c = '\n' then ['\r', '\n'] else [c]

/-- The second text is the first with more room. -/
inductive Padded : List Char → List Char → Prop
  /-- White space at the end of a line, which ends with the text or at a newline. -/
  | endOfLine {before pad after : List Char} (hpad : ∀ c ∈ pad, isBlank c ∧ c ≠ '\n')
      (hafter : after = [] ∨ ∃ rest, after = '\n' :: rest) :
      Padded (before ++ after) (before ++ (pad ++ after))
  /-- Further lines. -/
  | moreLines {text more : List Char} : Padded text (text ++ '\n' :: more)
  /-- Carriage returns. -/
  | crlf {text : List Char} : Padded text (crlf text)
  /-- Several of these. -/
  | trans {s t u : List Char} (h : Padded s t) (h' : Padded t u) : Padded s u

/-- The same, line by line: every line may go on with white space, and there may be more lines. -/
inductive PaddedLines : List (List Char) → List (List Char) → Prop
  | more {ms : List (List Char)} : PaddedLines [] ms
  | line {line pad : List Char} {ls ms : List (List Char)} (hpad : ∀ c ∈ pad, isBlank c)
      (h : PaddedLines ls ms) : PaddedLines (line :: ls) ((line ++ pad) :: ms)

namespace PaddedLines

variable {ls ms ks : List (List Char)}

/-- A line may stay as it is. -/
theorem keep (line : List Char) (h : PaddedLines ls ms) :
    PaddedLines (line :: ls) (line :: ms) := by
  have hnil : ∀ c ∈ ([] : List Char), isBlank c := by simp
  have hline : PaddedLines (line :: ls) ((line ++ []) :: ms) := .line hnil h
  rwa [List.append_nil] at hline

theorem refl (ls : List (List Char)) : PaddedLines ls ls := by
  induction ls with
  | nil => exact .more
  | cons line ls ih => exact ih.keep line

theorem trans (h : PaddedLines ls ms) (h' : PaddedLines ms ks) : PaddedLines ls ks := by
  induction h generalizing ks with
  | more => exact .more
  | line hpad _ ih =>
    cases h' with
    | line hpad' h' =>
      rw [List.append_assoc]
      refine .line (fun c hc => ?_) (ih h')
      rcases List.mem_append.mp hc with hc | hc
      · exact hpad c hc
      · exact hpad' c hc

/-- One more character in front of both first lines. -/
theorem modifyHead_cons (c : Char) (h : PaddedLines ls ms) :
    PaddedLines (ls.modifyHead (c :: ·)) (ms.modifyHead (c :: ·)) := by
  cases h with
  | more => exact .more
  | line hpad h => exact .line hpad h

end PaddedLines

/-- A common beginning does not matter. -/
theorem PaddedLines.append_left {s t : List Char} (h : PaddedLines (lines s) (lines t))
    (before : List Char) : PaddedLines (lines (before ++ s)) (lines (before ++ t)) := by
  induction before with
  | nil => exact h
  | cons c before ih =>
    rw [List.cons_append, List.cons_append, lines_cons, lines_cons]
    by_cases hc : c = '\n'
    · rw [if_pos hc, if_pos hc]
      exact ih.keep []
    · rw [if_neg hc, if_neg hc]
      exact ih.modifyHead_cons c

theorem paddedLines_crlf (text : List Char) :
    PaddedLines (lines text) (lines (crlf text)) := by
  induction text with
  | nil => exact .refl _
  | cons c text ih =>
    by_cases hc : c = '\n'
    · subst hc
      have hcrlf : crlf ('\n' :: text) = '\r' :: '\n' :: crlf text := rfl
      have hlines : lines (crlf ('\n' :: text)) = ([] ++ ['\r']) :: lines (crlf text) := by
        rw [hcrlf, lines_cons, if_neg (by decide), lines_cons, if_pos rfl]
        rfl
      have hblank : ∀ c ∈ ['\r'], isBlank c := by
        intro c hc
        obtain rfl := List.mem_singleton.mp hc
        decide
      rw [hlines, lines_cons, if_pos rfl]
      exact .line hblank ih
    · have hcrlf : crlf (c :: text) = c :: crlf text := by
        simp [crlf, hc]
      rw [hcrlf, lines_cons, lines_cons, if_neg hc, if_neg hc]
      exact ih.modifyHead_cons c

/-- Padding a text pads its lines. -/
theorem Padded.paddedLines {s t : List Char} (h : Padded s t) :
    PaddedLines (lines s) (lines t) := by
  induction h with
  | endOfLine hpad hafter =>
    -- what stands before the padding is the same in both, and what stands after starts a line
    rename_i before pad after
    refine PaddedLines.append_left ?_ before
    have hblank : ∀ c ∈ pad, isBlank c := fun c hc => (hpad c hc).1
    have hnewline : '\n' ∉ pad := fun hc => (hpad _ hc).2 rfl
    rcases hafter with rfl | ⟨rest, rfl⟩
    · have hlines : lines (pad ++ []) = [[] ++ pad] := by
        rw [List.append_nil, lines, List.splitOn_eq_singleton hnewline]
        rfl
      rw [hlines]
      exact .line hblank .more
    · have hlines : lines (pad ++ '\n' :: rest) = ([] ++ pad) :: lines rest :=
        List.splitOn_append_cons_self_of_not_mem hnewline rest
      rw [hlines, lines_cons, if_pos rfl]
      exact .line hblank (.refl _)
  | moreLines =>
    rename_i text more
    have hmore : PaddedLines (lines []) (lines ('\n' :: more)) := by
      rw [lines_cons, if_pos rfl]
      exact PaddedLines.keep [] .more
    have happend := hmore.append_left text
    rwa [List.append_nil] at happend
  | crlf => exact paddedLines_crlf _
  | trans _ _ ih ih' => exact ih.trans ih'

/-- A line is found again with white space after it. -/
theorem PaddedLines.getElem?_eq_some {ls ms : List (List Char)} (h : PaddedLines ls ms) {y : Nat}
    {line : List Char} (hy : ls[y]? = some line) :
    ∃ pad, (∀ c ∈ pad, isBlank c) ∧ ms[y]? = some (line ++ pad) := by
  induction h generalizing y with
  | more => nomatch hy
  | line hpad _ ih =>
    cases y with
    | zero =>
      obtain rfl := Option.some.inj hy
      exact ⟨_, hpad, rfl⟩
    | succ y => exact ih hy

theorem PaddedLines.length_le {ls ms : List (List Char)} (h : PaddedLines ls ms) :
    ls.length ≤ ms.length := by
  induction h with
  | more => exact Nat.zero_le _
  | line _ _ ih => exact Nat.succ_le_succ ih

end Text

/-! ## Fields of padded texts -/

namespace Playfield

variable {ls ms : List (List Char)}

theorem width_ofLines_le (h : Text.PaddedLines ls ms) :
    (ofLines ls).width ≤ (ofLines ms).width := by
  induction h with
  | more => exact Nat.zero_le _
  | line _ _ ih =>
    rw [width_ofLines_cons, width_ofLines_cons, List.length_append]
    omega

/-- More room is an extension of the field. -/
theorem ofLines_extends (h : Text.PaddedLines ls ms) : (ofLines ls).Extends (ofLines ms) := by
  have hwidth := width_ofLines_le h
  refine ⟨hwidth, ?_, ?_⟩
  · rw [height_ofLines, height_ofLines]
    exact h.length_le
  · intro x y v hv
    rw [cell?_ofLines] at hv ⊢
    obtain ⟨line, hline, hcell⟩ := Option.bind_eq_some_iff.mp hv
    obtain ⟨pad, hpad, hms⟩ := h.getElem?_eq_some hline
    split at hcell
    · rename_i hx
      -- trimming does not see the white space after the line
      have htrim : cellOfLine (line ++ pad) x = cellOfLine line x := by
        rw [cellOfLine, Text.trimEnd_append_blanks line hpad, cellOfLine]
      rw [hms, Option.bind_some, if_pos (by omega), htrim]
      exact hcell
    · nomatch hcell

end Playfield

/-! ## Runs with more room -/

namespace Machine

/-- **Enlarging the field.**  A run that stays on its field is the same on every field that extends
    it: the same result, and what is left is the same but for the field, which extends the other.
    So it is for the fields of a program text and of the same text with more room. -/
theorem run_enlarged :
    (∀ (m n : Machine) (limit : Option Nat), m.Enlarged n →
      RunFollows Enlarged Fault.IsOutside (m.run limit) (n.run limit)) ∧
    ∀ (s t : String) (console : Console) (chance : Random.WordSource) (limit : Option Nat),
      Text.Padded s.toList t.toList →
        RunFollows Enlarged Fault.IsOutside
          ((Machine.start (Playfield.ofSource s) console chance).run limit)
          ((Machine.start (Playfield.ofSource t) console chance).run limit) := by
  constructor
  · intro m n limit h
    exact lockstep_enlarged.run_follows h limit
  · intro s t console chance limit h
    have hfield : (Playfield.ofSource s).Extends (Playfield.ofSource t) :=
      Playfield.ofLines_extends h.paddedLines
    have hstart : Enlarged (Machine.start (Playfield.ofSource s) console chance)
        (Machine.start (Playfield.ofSource t) console chance) := ⟨hfield, rfl, rfl, rfl, rfl⟩
    exact lockstep_enlarged.run_follows hstart limit

/-- The program `1.@` runs as well with two blanks and a further line. -/
theorem run_enlarged_printing :
    (quiet "1.@").run (some 5) = some (.ok (), ((quiet "1.@").runFor 5).2) ∧
      ∃ left, (quiet "1.@  \nv").run (some 5) = some (.ok (), left) ∧
        Enlarged ((quiet "1.@").runFor 5).2 left := by
  have hok : ((quiet "1.@").runFor 5).1 = .ok () := by decide +kernel
  have hrun := run_some_of_runFor hok
  refine ⟨hrun, ?_⟩
  have hpad : ∀ c ∈ [' ', ' '], Text.isBlank c ∧ c ≠ '\n' := by
    intro c hc
    obtain rfl : c = ' ' := by simpa using hc
    decide
  have hblanks : Text.Padded (['1', '.', '@'] ++ []) (['1', '.', '@'] ++ ([' ', ' '] ++ [])) :=
    .endOfLine hpad (Or.inl rfl)
  have hpadded : Text.Padded "1.@".toList "1.@  \nv".toList := hblanks.trans .moreLines
  obtain ⟨-, htexts⟩ := run_enlarged
  have hfollows := htexts "1.@" "1.@  \nv" (Console.ofLines [] Failures.none)
    (Random.WordSource.ofWords #[]) (some 5) hpadded
  have hleft := hfollows.of_ok hrun
  exact hleft

end Machine

end Funge
