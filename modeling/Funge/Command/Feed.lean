/-
  Standard input as lines.

  The bytes are cut after every newline; each piece is a line by itself, without its line end.
  A piece that is not UTF-8 cannot be read: the read that would deliver it fails, and since a
  run ends there, no piece after it matters.
-/
import Funge.Console
import Funge.FileTree
import Funge.Text.Lines

namespace Funge.Command

/-- The lines that can be read, and whether the read after the last of them fails. -/
structure Feed where
  /-- The lines. -/
  lines : List String
  /-- Whether input goes on with something that is not text. -/
  broken : Bool
deriving DecidableEq, Repr

namespace Feed

/-- The line in a piece of the input. -/
def line? (piece : List UInt8) : Option String :=
  (String.fromUTF8? ⟨piece.toArray⟩).map fun text =>
    String.ofList (Text.withoutLineEnd text.toList)

/-- The lines of pieces, up to the first that is not text. -/
def ofPieces : List (List UInt8) → Feed
  | [] => ⟨[], false⟩
  | piece :: rest =>
    match line? piece with
    | none => ⟨[], true⟩
    | some line =>
      let feed := ofPieces rest
      { feed with lines := line :: feed.lines }

/-- The lines of the input. -/
def ofBytes (input : ByteArray) : Feed := ofPieces (Text.pieces 10 input.data.toList)

/-- The console that delivers a feed. -/
def console (feed : Feed) : Console :=
  Console.ofLines feed.lines fun channel k =>
    if channel = .read ∧ k = feed.lines.length ∧ feed.broken then some notUtf8 else none

end Feed

end Funge.Command
