/-
  White space.

  `isBlank` is the Unicode property White_Space: the tab to carriage-return group, the space,
  the separators and a few more.  The information separators U+001C to U+001F, the zero-width
  space and the byte-order mark are not white space.  `trim` takes white space off both ends
  of a text, `trimEnd` off its end only.
-/

namespace Funge.Text

/-- The property White_Space. -/
def isBlank (c : Char) : Bool :=
  let n := c.toNat
  (0x09 ≤ n && n ≤ 0x0d) || n == 0x20 || n == 0x85 || n == 0xa0 || n == 0x1680 ||
    (0x2000 ≤ n && n ≤ 0x200a) || n == 0x2028 || n == 0x2029 || n == 0x202f || n == 0x205f ||
    n == 0x3000

/-- The text without the white space at its start. -/
def trimStart (text : List Char) : List Char := text.dropWhile isBlank

/-- The text without the white space at its end. -/
def trimEnd (text : List Char) : List Char := (text.reverse.dropWhile isBlank).reverse

/-- The text without the white space at its ends. -/
def trim (text : List Char) : List Char := trimEnd (trimStart text)

/-! ## What trimming keeps -/

/-- Trimming the end keeps a beginning of the text. -/
theorem trimEnd_isPrefix (text : List Char) : trimEnd text <+: text := by
  have h := (List.dropWhile_suffix (l := text.reverse) isBlank).reverse
  simpa [trimEnd] using h

/-- White space at the end of a text is not seen after trimming. -/
theorem trimEnd_append_blanks (text : List Char) {pad : List Char} (h : ∀ c ∈ pad, isBlank c) :
    trimEnd (text ++ pad) = trimEnd text := by
  rw [trimEnd, List.reverse_append, List.dropWhile_append_of_pos]
  · rfl
  · intro c hc
    exact h c (List.mem_reverse.mp hc)

/-- ... and neither does it count when both ends are trimmed. -/
theorem trim_append_blanks (text : List Char) {pad : List Char} (h : ∀ c ∈ pad, isBlank c) :
    trim (text ++ pad) = trim text := by
  have hpad : pad.dropWhile isBlank = [] := by
    rw [← List.append_nil pad, List.dropWhile_append_of_pos h, List.dropWhile_nil]
  rw [trim, trim, trimStart, trimStart, List.dropWhile_append]
  split
  · rename_i hblank
    rw [hpad, List.isEmpty_iff.mp hblank]
  · exact trimEnd_append_blanks _ h

/-- A text that does not end in white space is left as it is. -/
theorem trimEnd_append_singleton (text : List Char) {c : Char} (h : isBlank c = false) :
    trimEnd (text ++ [c]) = text ++ [c] := by
  rw [trimEnd, List.reverse_append, List.reverse_singleton, List.singleton_append,
    List.dropWhile_cons_of_neg (by simp [h]), List.reverse_cons, List.reverse_reverse]

/-- The text after trimming its end: nothing, or its last character is not white space. -/
theorem getLast?_trimEnd (text : List Char) : ∀ c ∈ (trimEnd text).getLast?, isBlank c = false := by
  intro c hc
  have h := List.head?_dropWhile_not isBlank text.reverse
  simp only [trimEnd, List.getLast?_reverse] at hc
  rw [Option.mem_def] at hc
  rw [hc] at h
  exact h

/-- Trimming twice is trimming once. -/
@[simp] theorem trimEnd_trimEnd (text : List Char) : trimEnd (trimEnd text) = trimEnd text := by
  have hlast := getLast?_trimEnd text
  rcases List.eq_nil_or_concat (trimEnd text) with hnil | ⟨before, c, hconcat⟩
  · rw [hnil]
    rfl
  · rw [List.concat_eq_append] at hconcat
    rw [hconcat] at hlast ⊢
    exact trimEnd_append_singleton before (hlast c (by simp))

end Funge.Text
