/-
  Texts measured in bytes.

  The length of a text in UTF-8, and the cut of a text at a byte offset, which exists where
  the offset is not inside a character.
-/

namespace Funge.Text

/-- The number of bytes of a text in UTF-8. -/
def byteLength (text : List Char) : Nat := text.foldr (fun c n => c.utf8Size + n) 0

/-- A text cut after its first `n` bytes; `none` if that is inside a character, or if the text
    is too short. -/
def splitAtByte? : (n : Nat) → List Char → Option (List Char × List Char)
  | 0, text => some ([], text)
  | _ + 1, [] => none
  | n + 1, c :: text =>
    if c.utf8Size ≤ n + 1 then
      (splitAtByte? (n + 1 - c.utf8Size) text).map fun (before, after) => (c :: before, after)
    else none

/-- A cut loses nothing, and its first part has the bytes asked for. -/
theorem of_splitAtByte?_eq_some {n : Nat} {text before after : List Char}
    (h : splitAtByte? n text = some (before, after)) :
    before ++ after = text ∧ byteLength before = n := by
  induction text generalizing n before with
  | nil =>
    cases n with
    | zero =>
      obtain ⟨rfl, rfl⟩ := Prod.mk.inj (Option.some.inj h)
      exact ⟨rfl, rfl⟩
    | succ n => exact nomatch h
  | cons c text ih =>
    cases n with
    | zero =>
      obtain ⟨rfl, rfl⟩ := Prod.mk.inj (Option.some.inj h)
      exact ⟨rfl, rfl⟩
    | succ n =>
      rw [splitAtByte?] at h
      split at h
      · rename_i hle
        obtain ⟨⟨b, a⟩, hs, he⟩ := Option.map_eq_some_iff.mp h
        obtain ⟨rfl, rfl⟩ := Prod.mk.inj he
        obtain ⟨happ, hlen⟩ := ih hs
        refine ⟨by rw [List.cons_append, happ], ?_⟩
        show c.utf8Size + byteLength b = n + 1
        omega
      · exact nomatch h

end Funge.Text
