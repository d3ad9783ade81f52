/-
  The lines of an input text.

  The command cuts the bytes of its input and turns each piece into a line.  If the input is the UTF-8
  of a text, the lines are those of the text: `inputLines` cuts it at its newlines, takes a carriage
  return off the end of each line that had a newline, and keeps what follows the last newline as it
  is, unless that is nothing.

  1. No other character has the byte of a newline in it, so cutting bytes and cutting characters is
     the same (`pieces_bytes`).
  2. The pieces are the lines with their newlines, and taking the line end off such a piece leaves
     the line (`map_withoutLineEnd_pieces`).
  3. A piece is text again, so every read succeeds (`map_line?_pieces`).
-/
import Funge.Command.Feed

namespace Funge

/-! ## The lines of a text -/

namespace Text

/-- A line without one carriage return at its end. -/
def withoutReturn (line : List Char) : List Char :=
  if line.getLast? = some '\r' then line.dropLast else line

/-- The lines to be read, from the parts of a text between its newlines: what follows the last
    newline is one only if it is something, and it is kept as it is. -/
def readableLines : List (List Char) → List (List Char)
  | [] => []
  | [rest] => if rest = [] then [] else [rest]
  | line :: ls => withoutReturn line :: readableLines ls

/-- The pieces of a text, from the parts between its newlines. -/
def piecesOfLines : List (List Char) → List (List Char)
  | [] => []
  | [rest] => if rest = [] then [] else [rest]
  | line :: ls => (line ++ ['\n']) :: piecesOfLines ls

theorem exists_lines_eq_cons (text : List Char) : ∃ line ls, lines text = line :: ls := by
  cases h : lines text with
  | nil => exact absurd h (List.splitOn_ne_nil _ _)
  | cons line ls => exact ⟨line, ls, rfl⟩

/-- No line has a newline in it. -/
theorem newline_not_mem_of_mem_lines {text line : List Char} (h : line ∈ lines text) :
    '\n' ∉ line := by
  induction text generalizing line with
  | nil =>
    obtain rfl := List.mem_singleton.mp h
    exact List.not_mem_nil
  | cons c text ih =>
    rw [lines_cons] at h
    obtain ⟨first, ls, hlines⟩ := exists_lines_eq_cons text
    split at h
    · rcases List.mem_cons.mp h with rfl | h
      · exact List.not_mem_nil
      · exact ih h
    · rename_i hc
      rw [hlines, List.modifyHead_cons] at h
      rcases List.mem_cons.mp h with rfl | h
      · intro hmem
        rcases List.mem_cons.mp hmem with rfl | hmem
        · exact hc rfl
        · exact ih (hlines ▸ List.mem_cons_self) hmem
      · exact ih (hlines ▸ List.mem_cons_of_mem _ h)

/-- An entry other than the mark goes in front of the first piece. -/
theorem consPiece_of_ne {α : Type} [BEq α] {mark a : α} (h : (a == mark) = false)
    (ps : List (List α)) : consPiece mark a ps = (a :: ps.headD []) :: ps.tail := by
  unfold consPiece
  rw [if_neg (by rw [h]; exact Bool.false_ne_true)]
  cases ps <;> rfl

/-- A text is cut after its newlines. -/
theorem pieces_eq_piecesOfLines (text : List Char) :
    pieces '\n' text = piecesOfLines (lines text) := by
  induction text with
  | nil => rfl
  | cons c text ih =>
    obtain ⟨first, ls, hlines⟩ := exists_lines_eq_cons text
    show consPiece '\n' c (pieces '\n' text) = _
    rw [ih, lines_cons, hlines]
    by_cases hc : c = '\n'
    · subst hc
      rfl
    · rw [if_neg hc, consPiece_of_ne (beq_eq_false_iff_ne.mpr hc), List.modifyHead_cons]
      cases ls with
      | nil =>
        -- the last part is a piece now, whether it was one before or not
        cases first <;> rfl
      | cons second ls => rfl

theorem withoutLineEnd_concat (line : List Char) :
    withoutLineEnd (line ++ ['\n']) = withoutReturn line := by
  rcases List.eq_nil_or_concat line with rfl | ⟨before, c, rfl⟩
  · rfl
  · by_cases hc : c = '\r'
    · simp [withoutLineEnd, withoutReturn, hc]
    · simp [withoutLineEnd, withoutReturn, hc]

theorem withoutLineEnd_of_not_mem {line : List Char} (h : '\n' ∉ line) :
    withoutLineEnd line = line := by
  have hhead : ∀ rest, line.reverse ≠ '\n' :: rest := fun rest heq =>
    h (List.mem_reverse.mp (heq ▸ List.mem_cons_self))
  unfold withoutLineEnd
  split
  · rename_i heq
    exact absurd heq (hhead _)
  · rename_i heq
    exact absurd heq (hhead _)
  · rfl

/-- Taking the line end off each piece of a text leaves its readable lines. -/
theorem map_withoutLineEnd_pieces (text : List Char) :
    (pieces '\n' text).map withoutLineEnd = readableLines (lines text) := by
  have hmap : ∀ ls : List (List Char), (∀ line ∈ ls, '\n' ∉ line) →
      (piecesOfLines ls).map withoutLineEnd = readableLines ls := by
    intro ls hls
    induction ls with
    | nil => rfl
    | cons line ls ih =>
      cases ls with
      | nil =>
        unfold piecesOfLines readableLines
        split
        · rfl
        · rw [List.map_singleton, withoutLineEnd_of_not_mem (hls line List.mem_cons_self)]
      | cons second ls =>
        rw [piecesOfLines, readableLines, List.map_cons, withoutLineEnd_concat,
          ih fun line h => hls line (List.mem_cons_of_mem _ h)]
        · exact List.cons_ne_nil _ _
        · exact List.cons_ne_nil _ _
  rw [pieces_eq_piecesOfLines]
  exact hmap _ fun _ => newline_not_mem_of_mem_lines

/-! ## The bytes of a text -/

/-- The bytes of a text. -/
def bytes (text : List Char) : List UInt8 := text.flatMap String.utf8EncodeChar

/-- Only a newline has its byte in it. -/
theorem newline_not_mem_utf8EncodeChar {c : Char} (hc : c ≠ '\n') :
    ∀ b ∈ String.utf8EncodeChar c, (b == 10) = false := by
  have hval : c.val.toNat ≠ 10 := fun h => hc (Char.ext (UInt32.toNat_inj.mp h))
  have hbyte : ∀ n : Nat, n % 256 ≠ 10 → UInt8.ofNat n ≠ 10 := fun n hn h =>
    hn (UInt8.toNat_ofNat'.symm.trans (congrArg UInt8.toNat h))
  intro b hb
  rw [beq_eq_false_iff_ne]
  -- a single byte is the character's number, and every byte of several is 128 or more
  unfold String.utf8EncodeChar at hb
  simp only at hb
  split at hb
  · rw [List.mem_singleton.mp hb]
    exact hbyte _ (by omega)
  · split at hb
    · simp only [List.mem_cons, List.not_mem_nil, or_false] at hb
      rcases hb with rfl | rfl
      · exact hbyte _ (by omega)
      · exact hbyte _ (by omega)
    · split at hb
      · simp only [List.mem_cons, List.not_mem_nil, or_false] at hb
        rcases hb with rfl | rfl | rfl
        · exact hbyte _ (by omega)
        · exact hbyte _ (by omega)
        · exact hbyte _ (by omega)
      · simp only [List.mem_cons, List.not_mem_nil, or_false] at hb
        rcases hb with rfl | rfl | rfl | rfl
        · exact hbyte _ (by omega)
        · exact hbyte _ (by omega)
        · exact hbyte _ (by omega)
        · exact hbyte _ (by omega)

/-- Entries other than the mark go in front of the first piece. -/
theorem foldr_consPiece {α : Type} [BEq α] {mark : α} {block : List α} (hne : block ≠ [])
    (h : ∀ a ∈ block, (a == mark) = false) (ps : List (List α)) :
    block.foldr (consPiece mark) ps = (block ++ ps.headD []) :: ps.tail := by
  induction block with
  | nil => exact absurd rfl hne
  | cons a block ih =>
    rw [List.foldr_cons, consPiece_of_ne (h a List.mem_cons_self)]
    cases block with
    | nil => rfl
    | cons b block =>
      rw [ih (List.cons_ne_nil _ _) fun a ha => h a (List.mem_cons_of_mem _ ha)]
      rfl

/-- Cutting the bytes of a text is cutting the text. -/
theorem pieces_bytes (text : List Char) :
    pieces 10 (bytes text) = (pieces '\n' text).map bytes := by
  induction text with
  | nil => rfl
  | cons c text ih =>
    show (String.utf8EncodeChar c ++ bytes text).foldr (consPiece 10) []
      = (consPiece '\n' c (pieces '\n' text)).map bytes
    rw [List.foldr_append]
    show (String.utf8EncodeChar c).foldr (consPiece 10) (pieces 10 (bytes text)) = _
    rw [ih]
    by_cases hc : c = '\n'
    · subst hc
      rfl
    · rw [foldr_consPiece String.utf8EncodeChar_ne_nil (newline_not_mem_utf8EncodeChar hc),
        consPiece_of_ne (beq_eq_false_iff_ne.mpr hc)]
      cases pieces '\n' text with
      | nil => simp [bytes]
      | cons piece ps => simp [bytes]

end Text

/-! ## What is read -/

namespace Command

/-- The lines of an input text. -/
def inputLines (input : String) : List String :=
  (Text.readableLines (Text.lines input.toList)).map String.ofList

/-- The bytes of a text are text. -/
theorem fromUTF8?_bytes (text : List Char) :
    String.fromUTF8? ⟨(Text.bytes text).toArray⟩ = some (String.ofList text) := by
  have hbytes : (⟨(Text.bytes text).toArray⟩ : ByteArray) = text.utf8Encode :=
    congrArg ByteArray.mk List.data_toByteArray.symm
  rw [hbytes, String.fromUTF8?, dif_pos ByteArray.isValidUTF8_utf8Encode]
  refine congrArg some (String.toByteArray_inj.mp ?_)
  rw [String.toByteArray_ofList]
  rfl

/-- Every piece of the UTF-8 of a text is read, and gives the line of that text. -/
theorem map_line?_pieces (input : String) :
    (Text.pieces 10 input.toUTF8.data.toList).map Feed.line? = (inputLines input).map some := by
  have hbytes : input.toUTF8.data.toList = Text.bytes input.toList := by
    rw [String.toUTF8_eq_toByteArray, ← String.utf8Encode_toList]
    exact List.toList_data_toByteArray
  have hline : ∀ piece : List Char, Feed.line? (Text.bytes piece)
      = some (String.ofList (Text.withoutLineEnd piece)) := by
    intro piece
    rw [Feed.line?, fromUTF8?_bytes, Option.map_some, String.toList_ofList]
  rw [hbytes, Text.pieces_bytes, List.map_map, inputLines, ← Text.map_withoutLineEnd_pieces,
    List.map_map, List.map_map]
  exact List.map_congr_left fun piece _ => hline piece

end Command

end Funge
