/-
  Texts made of lines.

  `lines` cuts a text at every newline and drops the newlines; a text has one line more than it
  has newlines, so no text is without lines.  `joinLines` puts lines together again.  `pieces` cuts
  after every newline instead and keeps it: that is what reading a stream line by line
  delivers, `firstPiece` one piece at a time.  `withoutLineEnd` takes the terminator off a piece.
-/

namespace Funge.Text

/-- The lines of a text. -/
def lines (text : List Char) : List (List Char) := text.splitOn '\n'

/-- The lines of a text with one more character. -/
theorem lines_cons (c : Char) (text : List Char) :
    lines (c :: text) = if c = '\n' then [] :: lines text
      else (lines text).modifyHead (c :: ·) := by
  rw [lines, List.splitOn_cons_eq_if_modifyHead]
  simp only [beq_iff_eq]
  rfl

/-- A text has one line more than it has newlines. -/
theorem length_lines (text : List Char) : (lines text).length = text.count '\n' + 1 := by
  induction text with
  | nil => rfl
  | cons c text ih =>
    rw [lines_cons]
    by_cases hc : c = '\n'
    · rw [if_pos hc, hc, List.length_cons, List.count_cons_self, ih]
    · rw [if_neg hc, List.length_modifyHead, List.count_cons_of_ne hc, ih]

/-- Lines separated by newlines. -/
def joinLines (ls : List (List Char)) : List Char := ['\n'].intercalate ls

/-- Lines that were put together are the lines of that text. -/
theorem lines_joinLines {ls : List (List Char)} (hne : ls ≠ []) (h : ∀ line ∈ ls, '\n' ∉ line) :
    lines (joinLines ls) = ls :=
  List.splitOn_intercalate '\n' h hne

/-- One more entry in front of a sequence that has been cut after every `mark`. -/
def consPiece {α : Type} [BEq α] (mark a : α) (ps : List (List α)) : List (List α) :=
  if a == mark then [a] :: ps else
  match ps with
  | [] => [[a]]
  | p :: ps => (a :: p) :: ps

/-- A sequence cut after every `mark`; what follows the last one is a piece unless it is empty. -/
def pieces {α : Type} [BEq α] (mark : α) (seq : List α) : List (List α) :=
  seq.foldr (consPiece mark) []

/-- Cutting loses nothing. -/
theorem flatten_pieces {α : Type} [BEq α] (mark : α) (seq : List α) :
    (pieces mark seq).flatten = seq := by
  have hcons : ∀ (a : α) (ps : List (List α)), (consPiece mark a ps).flatten = a :: ps.flatten := by
    intro a ps
    unfold consPiece
    split
    · rfl
    · cases ps <;> rfl
  induction seq with
  | nil => rfl
  | cons a rest ih => exact (hcons a _).trans (congrArg (a :: ·) ih)

/-- The first piece of a sequence that is cut after every `mark`, and what follows it. -/
def firstPiece {α : Type} [BEq α] (mark : α) : List α → List α × List α
  | [] => ([], [])
  | a :: rest =>
    if a == mark then ([a], rest) else
    let (piece, rest) := firstPiece mark rest
    (a :: piece, rest)

theorem firstPiece_cons {α : Type} [BEq α] (mark a : α) (rest : List α) :
    firstPiece mark (a :: rest)
      = if a == mark then ([a], rest)
        else (a :: (firstPiece mark rest).1, (firstPiece mark rest).2) := rfl

/-- The pieces of a sequence that is not empty are the first one and those of what follows it. -/
theorem pieces_eq_cons {α : Type} [BEq α] (mark a : α) (rest : List α) :
    pieces mark (a :: rest)
      = (firstPiece mark (a :: rest)).1 :: pieces mark (firstPiece mark (a :: rest)).2 := by
  induction rest generalizing a with
  | nil =>
    show consPiece mark a [] = _
    rw [firstPiece_cons, consPiece]
    split
    · rfl
    · rfl
  | cons b rest ih =>
    show consPiece mark a (pieces mark (b :: rest)) = _
    rw [firstPiece_cons]
    unfold consPiece
    split
    · rfl
    · rw [ih b]

/-- A piece of a stream without its newline, and without one carriage return before that. -/
def withoutLineEnd (piece : List Char) : List Char :=
  match piece.reverse with
  | '\n' :: '\r' :: rest => rest.reverse
  | '\n' :: rest => rest.reverse
  | _ => piece

end Funge.Text
