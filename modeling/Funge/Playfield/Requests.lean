/-
  What a field is asked for.

  A field can be read and written, asked whether a position is one of its squares, and turned back into
  text, by the row or as a whole.  `serve` answers one `Request`, and `answers` those that are made one
  after the other.  Only a write to one of its squares changes the field; a position that is none is
  named in the answer.
-/
import Funge.Playfield.Basic

namespace Funge

/-- What can be asked of a field. -/
inductive Request where
  /-- The cell of a square. -/
  | read (p : Position)
  /-- Another cell for a square. -/
  | write (p : Position) (v : Cell)
  /-- Whether a position is a square. -/
  | has (p : Position)
  /-- The text of a row, counted from the top. -/
  | row (y : Nat)
  /-- The text of the field. -/
  | text
deriving DecidableEq, Repr

/-- What a request is answered with. -/
inductive Answer where
  /-- The cell that was read. -/
  | cell (v : Cell)
  /-- The square was written. -/
  | written
  /-- There is no such square. -/
  | outside (p : Position)
  /-- Whether there is one. -/
  | truth (b : Bool)
  /-- The text of a row, if there is that row. -/
  | row (text? : Option (List Char))
  /-- The text of the field. -/
  | text (text : List Char)
deriving DecidableEq, Repr

/-- The answers to requests that are made one after the other, and what is left after them. -/
def answers {σ : Type} (serve : σ → Request → Answer × σ) : σ → List Request → List Answer × σ
  | s, [] => ([], s)
  | s, request :: rest =>
    let (answer, s) := serve s request
    let (more, s) := answers serve s rest
    (answer :: more, s)

/-- If every request is answered alike by two sides, and what it leaves of the one is still what the
    other stands for, then so it is for all requests. -/
theorem answers_eq_of_serve {σ τ : Type} {serve : σ → Request → Answer × σ}
    {serve' : τ → Request → Answer × τ} {view : σ → τ}
    (h : ∀ s request, serve' (view s) request = ((serve s request).1, view (serve s request).2))
    (s : σ) (requests : List Request) :
    answers serve' (view s) requests
      = ((answers serve s requests).1, view (answers serve s requests).2) := by
  induction requests generalizing s with
  | nil => rfl
  | cons request rest ih =>
    simp only [answers, h, ih]

namespace Playfield

/-- Answer a request. -/
def serve (f : Playfield) : Request → Answer × Playfield
  | .read p =>
    match f[p]? with
    | some v => (.cell v, f)
    | none => (.outside p, f)
  | .write p v =>
    match f.set? p v with
    | some g => (.written, g)
    | none => (.outside p, f)
  | .has p => (.truth (decide (p ∈ f)), f)
  | .row y => (.row (f.rowText? y), f)
  | .text => (.text f.text, f)

theorem serve_read (f : Playfield) (p : Position) :
    f.serve (.read p) = (f[p]?.elim (.outside p) .cell, f) := by
  rw [serve]
  cases f[p]? <;> rfl

theorem serve_write (f : Playfield) (p : Position) (v : Cell) :
    f.serve (.write p v) = if h : p ∈ f then (.written, f.set p v h) else (.outside p, f) := by
  rw [serve, set?]
  by_cases h : p ∈ f
  · rw [dif_pos h, dif_pos h]
  · rw [dif_neg h, dif_neg h]

/-- The field after requests made one after the other. -/
def after (f : Playfield) (requests : List Request) : Playfield := (answers serve f requests).2

/-- What every write to a square keeps is kept by all requests. -/
theorem after_induction {motive : Playfield → Prop} {f : Playfield}
    (set : ∀ (g : Playfield) (p : Position) (v : Cell) (h : p ∈ g), motive g → motive (g.set p v h))
    (start : motive f) (requests : List Request) : motive (f.after requests) := by
  have hserve : ∀ (g : Playfield) (request : Request), motive g → motive (g.serve request).2 := by
    intro g request hg
    cases request with
    | write p v =>
      rw [serve_write]
      by_cases h : p ∈ g
      · rw [dif_pos h]
        exact set g p v h hg
      · rw [dif_neg h]
        exact hg
    | read p =>
      rw [serve_read]
      exact hg
    | has _ | row _ | text => exact hg
  induction requests generalizing f with
  | nil => exact start
  | cons request rest ih => exact ih (hserve f request start)

end Playfield

end Funge
