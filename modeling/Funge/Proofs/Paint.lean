/-
  Diagnostics in colours.

  A terminal takes escape sequences out of a text and shows the rest of it.

  1. `Terminal.tokens` reads a text as a terminal does: an escape character and a bracket begin a
     sequence, and the next `m` ends it.  Nothing is lost (`Terminal.written_tokens`).  `strip` keeps the
     characters, `sequences` the sequences, and `passages` what stands between a sequence that opens
     a colour and the one that resets it.
  2. A text without escape characters is read as it stands and a painted one as one passage, whatever
     follows; `Terminal.Seen` says what is read of a text, and texts that are put together are
     read one after the other (`Terminal.Seen.append`).
  3. A diagnostic is put together from the same texts with colours and without.  So it reads the same
     (`Diagnostic.render_strips`); only the headline and the window can bring a newline into a passage.
-/
import Funge.Proofs.DiagnosticLines

namespace Funge

/-! ## Texts on a terminal -/

namespace Terminal

/-- What a terminal sees of a text. -/
inductive Token where
  | char (c : Char)
  /-- An escape sequence with its parameters. -/
  | sequence (parameters : List Char)
deriving DecidableEq, Repr

/-- The tokens of a text, in a sequence of which some parameters have been read or outside of one.  A
    sequence without an end is no sequence. -/
def tokensFrom : (begun : Option (List Char)) → List Char → List Token
  | none, [] => []
  | some parameters, [] => ('\x1b' :: '[' :: parameters).map .char
  | some parameters, c :: rest =>
    if c = 'm' then .sequence parameters :: tokensFrom none rest
    else tokensFrom (some (parameters ++ [c])) rest
  | none, '\x1b' :: '[' :: rest => tokensFrom (some []) rest
  | none, c :: rest => .char c :: tokensFrom none rest

/-- The tokens of a text. -/
def tokens (text : List Char) : List Token := tokensFrom none text

/-- A token as it is written. -/
def Token.written : Token → List Char
  | .char c => [c]
  | .sequence parameters => '\x1b' :: '[' :: parameters ++ ['m']

/-- The character of a token that is one. -/
def Token.char? : Token → Option Char
  | .char c => some c
  | .sequence _ => none

/-- The parameters of a token that is a sequence. -/
def Token.parameters? : Token → Option (List Char)
  | .char _ => none
  | .sequence parameters => some parameters

/-- What stands between a sequence that opens a colour and one that resets it, in a passage of which
    some has been read or outside of one. -/
def passagesFrom : (opened : Option (List Char)) → List Token → List (List Char)
  | _, [] => []
  | none, .char _ :: rest => passagesFrom none rest
  | some passage, .char c :: rest => passagesFrom (some (passage ++ [c])) rest
  | opened, .sequence parameters :: rest =>
    if parameters = ['0'] then opened.toList ++ passagesFrom none rest
    else passagesFrom (some []) rest

/-- A text without its escape sequences. -/
def strip (text : String) : String := String.ofList ((tokens text.toList).filterMap Token.char?)

/-- The parameters of the escape sequences of a text. -/
def sequences (text : String) : List (List Char) := (tokens text.toList).filterMap Token.parameters?

/-- The parts of a text that are in a colour. -/
def passages (text : String) : List (List Char) := passagesFrom none (tokens text.toList)

variable {c : Char} {text more parameters : List Char} {s t bare bare' : String}
  {codes codes' parts parts' : List (List Char)}

/-! ## Reading -/

theorem tokensFrom_char (h : c ≠ '\x1b') (rest : List Char) :
    tokensFrom none (c :: rest) = .char c :: tokensFrom none rest := by
  rw [tokensFrom]
  intro rest' hc
  exact absurd hc h

/-- What has been read of a sequence is not lost, nor is anything else. -/
theorem written_tokensFrom (begun : Option (List Char)) (text : List Char) :
    (tokensFrom begun text).flatMap Token.written
      = begun.elim [] (fun parameters => '\x1b' :: '[' :: parameters) ++ text := by
  have hchars : ∀ l : List Char, (l.map Token.char).flatMap Token.written = l := by
    intro l
    rw [List.flatMap_map]
    exact List.flatMap_singleton' l
  fun_induction tokensFrom begun text with
  | case1 => rfl
  | case2 parameters => simpa using hchars ('\x1b' :: '[' :: parameters)
  | case3 parameters rest ih => simp [Token.written, ih]
  | case4 parameters c rest hc ih => simp [ih]
  | case5 rest ih => simp [ih]
  | case6 c rest _ ih => simp [Token.written, ih]

/-- Tokens are the text they were read from. -/
theorem written_tokens (text : List Char) : (tokens text).flatMap Token.written = text :=
  written_tokensFrom none text

/-- Without escape characters a text is read as it stands. -/
theorem tokens_append (h : '\x1b' ∉ text) (rest : List Char) :
    tokens (text ++ rest) = text.map .char ++ tokens rest := by
  induction text with
  | nil => rfl
  | cons c text ih =>
    rw [List.mem_cons, not_or] at h
    have hrest := ih h.2
    rw [tokens] at hrest ⊢
    rw [List.cons_append, tokensFrom_char (Ne.symm h.1), hrest]
    rfl

/-- A sequence ends with the first `m`. -/
theorem tokensFrom_parameters (h : 'm' ∉ more) (begun rest : List Char) :
    tokensFrom (some begun) (more ++ 'm' :: rest) = .sequence (begun ++ more) :: tokens rest := by
  induction more generalizing begun with
  | nil =>
    rw [List.append_nil, List.nil_append, tokensFrom, if_pos rfl]
    rfl
  | cons c more ih =>
    rw [List.mem_cons, not_or] at h
    rw [List.cons_append, tokensFrom, if_neg (Ne.symm h.1), ih h.2, List.append_assoc]
    rfl

theorem tokens_sequence (h : 'm' ∉ parameters) (rest : List Char) :
    tokens ('\x1b' :: '[' :: (parameters ++ 'm' :: rest)) = .sequence parameters :: tokens rest := by
  rw [tokens, tokensFrom, tokensFrom_parameters h, List.nil_append]

/-! ## Passages -/

theorem passagesFrom_chars (text : List Char) (ts : List Token) :
    passagesFrom none (text.map .char ++ ts) = passagesFrom none ts := by
  induction text with
  | nil => rfl
  | cons c text ih => exact ih

/-- A passage goes on to its reset. -/
theorem passagesFrom_passage (begun text : List Char) (ts : List Token) :
    passagesFrom (some begun) (text.map .char ++ .sequence ['0'] :: ts)
      = (begun ++ text) :: passagesFrom none ts := by
  induction text generalizing begun with
  | nil =>
    rw [List.append_nil]
    rfl
  | cons c text ih =>
    show passagesFrom (some (begun ++ [c])) (text.map .char ++ .sequence ['0'] :: ts) = _
    rw [ih, List.append_assoc]
    rfl

/-! ## Texts by their parts -/

/-- A text without escape characters. -/
def Plain (text : String) : Prop := '\x1b' ∉ text.toList

instance (text : String) : Decidable (Plain text) :=
  inferInstanceAs (Decidable ('\x1b' ∉ text.toList))

@[simp] theorem plain_append_iff : Plain (s ++ t) ↔ Plain s ∧ Plain t := by
  rw [Plain, String.toList_append, List.mem_append, not_or]
  rfl

/-- What a terminal reads of a text, whatever follows: the characters it shows, the sequences, and the
    passages in a colour. -/
structure Seen (text bare : String) (codes parts : List (List Char)) : Prop where
  exists_tokens : ∃ ts, (∀ rest, tokens (text.toList ++ rest) = ts ++ tokens rest) ∧
    ts.filterMap Token.char? = bare.toList ∧ ts.filterMap Token.parameters? = codes ∧
    ∀ us, passagesFrom none (ts ++ us) = parts ++ passagesFrom none us

@[simp] theorem filterMap_char? (text : List Char) :
    (text.map Token.char).filterMap Token.char? = text := by
  rw [List.filterMap_map]
  exact List.filterMap_some

@[simp] theorem filterMap_parameters? (text : List Char) :
    (text.map Token.char).filterMap Token.parameters? = [] := by
  rw [List.filterMap_map]
  exact List.filterMap_eq_nil_iff.mpr fun _ _ => rfl

/-- A text without escape characters is read as it stands. -/
theorem Plain.seen (h : Plain s) : Seen s s [] [] :=
  ⟨s.toList.map .char, tokens_append h, filterMap_char? _, filterMap_parameters? _,
    passagesFrom_chars _⟩

/-- One text is read after the other. -/
theorem Seen.append (h : Seen s bare codes parts) (h' : Seen t bare' codes' parts') :
    Seen (s ++ t) (bare ++ bare') (codes ++ codes') (parts ++ parts') := by
  obtain ⟨ts, htokens, hbare, rfl, hparts⟩ := h
  obtain ⟨us, htokens', hbare', rfl, hparts'⟩ := h'
  refine ⟨ts ++ us, fun rest => ?_, ?_, List.filterMap_append, fun vs => ?_⟩
  · rw [String.toList_append, List.append_assoc, htokens, htokens', List.append_assoc]
  · rw [List.filterMap_append, hbare, hbare', String.toList_append]
  · rw [List.append_assoc, hparts, hparts', List.append_assoc]

/-- Nothing need follow. -/
theorem Seen.eq (h : Seen s bare codes parts) :
    strip s = bare ∧ sequences s = codes ∧ passages s = parts := by
  obtain ⟨ts, htokens, hbare, rfl, hparts⟩ := h
  have hs : tokens s.toList = ts := by
    have htokens := htokens []
    rwa [List.append_nil, show tokens [] = [] from rfl, List.append_nil] at htokens
  have hend := hparts []
  rw [List.append_nil, show passagesFrom none [] = [] from rfl, List.append_nil] at hend
  refine ⟨?_, ?_, ?_⟩
  · rw [strip, hs, hbare, String.ofList_toList]
  · rw [sequences, hs]
  · rw [passages, hs, hend]

end Terminal

/-! ## Painted texts -/

namespace Color

/-- The parameters of a colour are digits and semicolons, and not those of the reset. -/
theorem code_plain (c : Color) : 'm' ∉ c.code.toList ∧ c.code.toList ≠ ['0'] := by
  have hnumber : ∀ n : Nat, 'm' ∉ Nat.toDigits 10 n := by
    intro n hm
    exact absurd (Nat.isDigit_of_mem_toDigits (by decide) (by decide) hm) (by decide)
  cases c with
  | rgb r g b =>
    rw [code]
    simp [hnumber]
  | _ => decide

/-- A painted text is read as one passage between two sequences. -/
theorem seen_paint (c : Color) {text : String} (h : Terminal.Plain text) :
    Terminal.Seen (paint (some c) text) text [c.code.toList, ['0']] [text.toList] := by
  obtain ⟨hm, hopens⟩ := c.code_plain
  refine ⟨.sequence c.code.toList :: (text.toList.map .char ++ [.sequence ['0']]), ?_, ?_, ?_, ?_⟩
  · intro rest
    have hpaint : (paint (some c) text).toList ++ rest = '\x1b' :: '[' :: (c.code.toList ++
        'm' :: (text.toList ++ '\x1b' :: '[' :: (['0'] ++ 'm' :: rest))) := by
      simp [paint, escape]
    rw [hpaint, Terminal.tokens_sequence hm, Terminal.tokens_append h,
      Terminal.tokens_sequence (by decide)]
    simp
  · rw [List.filterMap_cons_none rfl, List.filterMap_append, Terminal.filterMap_char?]
    exact List.append_nil _
  · have hsequence : Terminal.Token.parameters? (.sequence c.code.toList) = some c.code.toList := rfl
    rw [List.filterMap_cons_some hsequence, List.filterMap_append, Terminal.filterMap_parameters?]
    rfl
  · intro us
    rw [List.cons_append, List.append_assoc, Terminal.passagesFrom, if_neg hopens]
    exact Terminal.passagesFrom_passage [] text.toList us

end Color

/-! ## Diagnostics -/

namespace Diagnostic

open Terminal

variable {program : Option String} {f : Playfield} {fault : Fault} {pos : Position} {row : List Char}

/-- A diagnostic without a position is its headline, ... -/
theorem render_of_unplaced (h : fault.position? = none) (palette : Option Palette) :
    render program f fault palette
      = Color.paint (palette.map (·.error)) (titled program (headline f fault)) ++ "\n" := by
  rw [render, h]

/-- ... and every other one has the position and the lines of the row. -/
theorem render_of_placed (h : fault.position? = some pos) (palette : Option Palette) :
    render program f fault palette
      = Color.paint (palette.map (·.error)) (titled program (headline f fault)) ++ " at "
        ++ Color.paint (palette.map (·.location)) pos.text ++ "\n" ++ context f pos palette := by
  rw [render, h]

theorem seen_unplaced (h : fault.position? = none) (palette : Palette)
    (hplain : Plain (render program f fault none)) :
    Seen (render program f fault (some palette)) (render program f fault none)
      [palette.error.code.toList, ['0']] [(titled program (headline f fault)).toList] := by
  rw [render_of_unplaced h] at hplain ⊢
  rw [render_of_unplaced h]
  obtain ⟨htitle, hbreak⟩ := plain_append_iff.mp hplain
  exact (Color.seen_paint palette.error htitle).append hbreak.seen

/-- The first line has the headline and the position in colours. -/
theorem seen_firstLine (palette : Palette) (hplain : Plain (firstLine program f fault pos)) :
    Seen (Color.paint (some palette.error) (titled program (headline f fault)) ++ " at "
        ++ Color.paint (some palette.location) pos.text ++ "\n")
      (firstLine program f fault pos ++ "\n")
      [palette.error.code.toList, ['0'], palette.location.code.toList, ['0']]
      [(titled program (headline f fault)).toList, pos.text.toList] := by
  have hbreak : Plain "\n" := by decide
  rw [firstLine, plain_append_iff, plain_append_iff] at hplain
  obtain ⟨⟨htitle, hat⟩, hpos⟩ := hplain
  exact (((Color.seen_paint palette.error htitle).append hat.seen).append
    (Color.seen_paint palette.location hpos)).append hbreak.seen

/-- The lines of a row have the window and the caret line in colours. -/
theorem seen_context (hx : 0 ≤ pos.x.toInt) (hy : 0 ≤ pos.y.toInt)
    (hrow : f.rowText? pos.row = some row) (palette : Palette) (hplain : Plain (context f pos none)) :
    Seen (context f pos (some palette)) (context f pos none)
      [palette.source.code.toList, ['0'], palette.caret.code.toList, ['0']]
      [window pos.col row, caretLine pos.col] := by
  have hindent : Plain "  " := by decide
  have hbreak : Plain "\n" := by decide
  rw [context_eq_of_rowText? hx hy hrow] at hplain ⊢
  rw [context_eq_of_rowText? hx hy hrow]
  simp only [plain_append_iff] at hplain
  obtain ⟨⟨⟨⟨⟨-, hwindow⟩, -⟩, -⟩, hline⟩, -⟩ := hplain
  have hsource : Seen _ (String.ofList (window pos.col row)) _ _ :=
    Color.seen_paint palette.source hwindow
  have hcaret : Seen _ (String.ofList (caretLine pos.col)) _ _ :=
    Color.seen_paint palette.caret hline
  rw [String.toList_ofList] at hsource hcaret
  exact ((((hindent.seen.append hsource).append hbreak.seen).append hindent.seen).append
    hcaret).append hbreak.seen

theorem seen_outside (h : fault.position? = some pos)
    (hpos : pos.x.toInt < 0 ∨ pos.y.toInt < 0 ∨ f.height ≤ pos.y.toInt) (palette : Palette)
    (hplain : Plain (render program f fault none)) :
    Seen (render program f fault (some palette)) (render program f fault none)
      [palette.error.code.toList, ['0'], palette.location.code.toList, ['0']]
      [(titled program (headline f fault)).toList, pos.text.toList] := by
  rw [render_of_placed h, context_eq_empty hpos, String.append_empty]
  rw [render_eq h, context_eq_empty hpos, String.append_empty] at hplain ⊢
  exact seen_firstLine palette (plain_append_iff.mp hplain).1

theorem seen_inside (h : fault.position? = some pos) (hx : 0 ≤ pos.x.toInt) (hy : 0 ≤ pos.y.toInt)
    (hrow : f.rowText? pos.row = some row) (palette : Palette)
    (hplain : Plain (render program f fault none)) :
    Seen (render program f fault (some palette)) (render program f fault none)
      [palette.error.code.toList, ['0'], palette.location.code.toList, ['0'],
        palette.source.code.toList, ['0'], palette.caret.code.toList, ['0']]
      [(titled program (headline f fault)).toList, pos.text.toList, window pos.col row,
        caretLine pos.col] := by
  rw [render_of_placed h]
  rw [render_eq h] at hplain ⊢
  rw [plain_append_iff, plain_append_iff] at hplain
  obtain ⟨⟨hfirst, -⟩, hcontext⟩ := hplain
  exact (seen_firstLine palette hfirst).append (seen_context hx hy hrow palette hcontext)

theorem newline_not_mem_caretLine (x : Nat) : '\n' ∉ caretLine x := by
  simp [caretLine]

/-- **Colours only add escape sequences.**  If a diagnostic without colours has no escape characters,
    then with colours, whatever they are, a terminal shows the same text.  Its escape sequences are
    those that open the colours of the headline, the position, the window and the caret line, as far
    as the diagnostic has these, each with a reset behind it: two without a position, four with one in
    no row, and else eight.  In colour are just these parts, so a newline is in colour only if the
    headline or the row has one. -/
theorem render_strips (program : Option String) (f : Playfield) (fault : Fault) (palette : Palette)
    (h : '\x1b' ∉ (render program f fault none).toList) :
    let text := render program f fault (some palette)
    let title := titled program (headline f fault)
    strip text = render program f fault none ∧
    (fault.position? = none →
      sequences text = [palette.error.code.toList, ['0']] ∧ passages text = [title.toList]) ∧
    (∀ pos, fault.position? = some pos →
      (pos.x.toInt < 0 ∨ pos.y.toInt < 0 ∨ f.height ≤ pos.y.toInt →
        sequences text = [palette.error.code.toList, ['0'], palette.location.code.toList, ['0']] ∧
          passages text = [title.toList, pos.text.toList]) ∧
      (0 ≤ pos.x.toInt ∧ 0 ≤ pos.y.toInt ∧ pos.y.toInt < f.height →
        sequences text = [palette.error.code.toList, ['0'], palette.location.code.toList, ['0'],
          palette.source.code.toList, ['0'], palette.caret.code.toList, ['0']] ∧
          ∃ row, f.rowText? pos.row = some row ∧ passages text
            = [title.toList, pos.text.toList, window pos.col row, caretLine pos.col])) ∧
    ∀ part ∈ passages text, '\n' ∈ part → '\n' ∈ title.toList ∨
      ∃ pos row, fault.position? = some pos ∧ f.rowText? pos.row = some row ∧ '\n' ∈ row := by
  intro text title
  cases hplace : fault.position? with
  | none =>
    obtain ⟨hstrip, hsequences, hpassages⟩ := (seen_unplaced hplace palette h).eq
    refine ⟨hstrip, fun _ => ⟨hsequences, hpassages⟩, nofun, fun part hpart hbreak => ?_⟩
    rw [hpassages, List.mem_singleton] at hpart
    exact Or.inl (hpart ▸ hbreak)
  | some pos =>
    by_cases hpos : pos.x.toInt < 0 ∨ pos.y.toInt < 0 ∨ f.height ≤ pos.y.toInt
    · obtain ⟨hstrip, hsequences, hpassages⟩ := (seen_outside hplace hpos palette h).eq
      refine ⟨hstrip, nofun, fun pos' hpos' => ?_, fun part hpart hbreak => ?_⟩
      · obtain rfl := Option.some.inj hpos'
        exact ⟨fun _ => ⟨hsequences, hpassages⟩, fun hinside => by omega⟩
      · rw [hpassages, List.mem_cons, List.mem_singleton] at hpart
        rcases hpart with rfl | rfl
        · exact Or.inl hbreak
        · exact absurd hbreak (Text.oneLine_position pos)
    · obtain ⟨hx, hy, hheight⟩ : 0 ≤ pos.x.toInt ∧ 0 ≤ pos.y.toInt ∧ pos.y.toInt < f.height := by omega
      obtain ⟨row, hrow⟩ := exists_rowText?_eq hy hheight
      obtain ⟨hstrip, hsequences, hpassages⟩ := (seen_inside hplace hx hy hrow palette h).eq
      refine ⟨hstrip, nofun, fun pos' hpos' => ?_, fun part hpart hbreak => ?_⟩
      · obtain rfl := Option.some.inj hpos'
        exact ⟨fun houtside => absurd houtside hpos, fun _ => ⟨hsequences, row, hrow, hpassages⟩⟩
      · rw [hpassages] at hpart
        simp only [List.mem_cons, List.not_mem_nil, or_false] at hpart
        rcases hpart with rfl | rfl | rfl | rfl
        · exact Or.inl hbreak
        · exact absurd hbreak (Text.oneLine_position pos)
        · exact Or.inr ⟨pos, row, rfl, hrow, List.mem_of_mem_take (List.mem_of_mem_drop hbreak)⟩
        · exact absurd hbreak (newline_not_mem_caretLine pos.col)

/-- Without its colours an underflow reads as it is written without any, and it has eight sequences; the
    step limit has two. -/
theorem render_strips_underflow :
    let f := Playfield.ofSource "12\n  . @"
    let colored := render (some "befunge") f (.stackUnderflow ⟨2, 1⟩ '.') (some Palette.standard)
    strip colored = "befunge: Runtime error: stack underflow (op=.) at (2, 1)\n    . @\n    ^\n" ∧
    (sequences colored).length = 8 ∧
    (sequences (render none f (.stepLimit 7) (some Palette.standard))).length = 2 := by
  intro f colored
  obtain ⟨hstrip, -, hplaced, -⟩ := render_strips (some "befunge") f (.stackUnderflow ⟨2, 1⟩ '.')
    Palette.standard (by decide +kernel)
  obtain ⟨-, hunplaced, -⟩ := render_strips none f (.stepLimit 7) Palette.standard (by decide +kernel)
  refine ⟨hstrip.trans (by decide +kernel), ?_, ?_⟩
  · rw [((hplaced ⟨2, 1⟩ rfl).2 (by decide +kernel)).1]
    rfl
  · rw [(hunplaced rfl).1]
    rfl

end Diagnostic

end Funge
