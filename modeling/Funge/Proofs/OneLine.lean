/-
  Programs of one line.

  A text without newlines in which nothing steers is read from left to right, once: the program of
  such a word followed by `@` does what the linear stack machine does with the word.

  1. One dispatch reads one character (`dispatch_step`): in string mode it is pushed, else its
     instruction mirrors its entry in the table.
  2. `Reading` is the invariant of a word half read.  One character is one instruction
     (`Reading.step`, `Reading.stops`), so many characters are as many (`Reading.word`).
  3. The run of the program then is the fold over the word (`run_oneLine`).
-/
import Funge.Proofs.Alike
import Funge.Proofs.Faults
import Funge.Proofs.Mirrors
import Funge.Proofs.Steps

namespace Funge

namespace Linear

/-! ## Characters and words -/

section

variable {field : Playfield} {s : State} {m : Machine} {c : Char} {w : List Char}

/-- The cursor on the character with index `k` of a line. -/
def cursorAt (k : Nat) (quoting : Bool) : Cursor := ⟨⟨Int32.ofNat k, 0⟩, .east, quoting⟩

theorem advance_cursorAt (k : Nat) (quoting : Bool) :
    (cursorAt k quoting).advance = cursorAt (k + 1) quoting := by
  have hx : Int32.ofNat k + 1 = Int32.ofNat (k + 1) := by
    rw [Int32.ofNat_add]
    rfl
  show Cursor.mk ⟨Int32.ofNat k + 1, 0 + 0⟩ .east quoting = _
  rw [hx]
  rfl

theorem ofChar_bne_quote (hc : c ≠ '"') : (Cell.ofChar c != Cell.quote) = true := by
  rw [bne_iff_ne, show Cell.quote = Cell.ofChar '"' from rfl, Ne, Cell.ofChar_inj]
  exact hc

/-- One dispatch reads one character. -/
theorem dispatch_step {k : Nat} (hm : Shows field (cursorAt k s.quoting) s.data m)
    (hsteer : c ∈ steering → s.quoting = true) :
    Exec.Ends (Exec.dispatch (Cell.ofChar c))
      (fun _ m' => ∃ s', s.step c = .ok s' ∧ Shows field (cursorAt (k + 1) s'.quoting) s'.data m')
      (fun fault _ => ∃ why, s.step c = .error why ∧ fault = why.fault ⟨Int32.ofNat k, 0⟩ c) m := by
  have hmode : m.cursor.stringMode = s.quoting := by
    rw [hm.cursor_eq]
    rfl
  rw [Exec.ends_dispatch, Cell.toChar_ofChar, Instruction.decode_ofChar, hmode]
  by_cases hquote : c = '"'
  · -- the quote is obeyed in both modes
    subst hquote
    rw [show (Cell.ofChar '"' != Cell.quote) = false from rfl, Bool.and_false,
      if_neg Bool.false_ne_true]
    refine ⟨{ s with quoting := !s.quoting }, if_pos rfl, hm.field_eq, ?_, hm.stack_eq,
      hm.pending_eq, hm.output_eq, hm.unfailing⟩
    rw [← advance_cursorAt]
    show (m.cursor.toggle).advance = _
    rw [hm.cursor_eq]
    rfl
  · rw [ofChar_bne_quote hquote, Bool.and_true]
    obtain ⟨d, quoting⟩ := s
    cases quoting with
    | true =>
      rw [if_pos rfl]
      have hstep : State.step ⟨d, true⟩ c
          = .ok ⟨{ d with stack := Int32.ofNat c.toNat :: d.stack }, true⟩ := by
        simp only [State.step, if_neg hquote, if_true]
      refine ⟨_, hstep, hm.field_eq, ?_, ?_, hm.pending_eq, hm.output_eq, hm.unfailing⟩
      · rw [← advance_cursorAt]
        exact congrArg Cursor.advance hm.cursor_eq
      · show Stack.push m.stack _ = _
        rw [hm.stack_eq]
        rfl
    | false =>
      rw [if_neg Bool.false_ne_true]
      have hplain : c ∉ steering := fun hc => Bool.false_ne_true (hsteer hc)
      refine (perform_mirrors rfl hplain hquote d m hm).mono ?_ ?_
      · rintro _ m' ⟨d', hr, hm'⟩
        refine ⟨⟨d', false⟩, State.step_of_table hquote hr, hm'.field_eq, ?_, hm'.stack_eq,
          hm'.pending_eq, hm'.output_eq, hm'.unfailing⟩
        rw [← advance_cursorAt]
        exact congrArg Cursor.advance hm'.cursor_eq
      · rintro fault _ ⟨why, hr, rfl⟩
        refine ⟨why, ?_, rfl⟩
        simp only [State.step, if_neg hquote, Bool.false_eq_true, if_false, hr]

/-- A word that is read once: on one line, short enough for positions to name its characters (there
    are 2 ^ 31 columns), and with nothing in it that steers outside a string. -/
structure Straight (w : List Char) : Prop where
  length_lt : w.length < 2147483648
  newline_notMem : '\n' ∉ w
  halt_notMem : '@' ∉ w
  /-- A character that steers comes after an odd number of quotes. -/
  quoted : ∀ (k : Nat) (h : k < w.length), w[k] ∈ steering → (w.take k).count '"' % 2 = 1

theorem Straight.count_quotes {pre post : List Char} (hw : Straight w)
    (hpre : w = pre ++ c :: post) (hc : c ∈ steering) : pre.count '"' % 2 = 1 := by
  have hlt : pre.length < w.length := by
    rw [hpre, List.length_append, List.length_cons]
    omega
  have hquoted := hw.quoted pre.length hlt
  simp only [hpre, List.getElem_append_right, Nat.le_refl, Nat.sub_self, List.getElem_cons_zero,
    List.take_left] at hquoted
  exact hquoted hc

/-- A word in which nothing steers at all. -/
theorem straight_of_plain (hlength : w.length < 2147483648)
    (hplain : ∀ c ∈ w, c ∉ '\n' :: '@' :: steering) : Straight w := by
  refine ⟨hlength, fun h => ?_, fun h => ?_, fun k hk hc => ?_⟩
  · exact hplain _ h List.mem_cons_self
  · exact hplain _ h (List.mem_cons_of_mem _ List.mem_cons_self)
  · exact absurd (List.mem_cons_of_mem _ (List.mem_cons_of_mem _ hc))
      (hplain _ (List.getElem_mem hk))

/-- The field of a word. -/
def fieldOf (w : List Char) : Playfield := Playfield.ofSource (String.ofList (w ++ ['@']))

/-- The field of a word holds its characters, and then the halting one. -/
theorem getElem?_fieldOf (hlength : w.length < 2147483648) (hnewline : '\n' ∉ w) {k : Nat}
    (hk : (w ++ ['@'])[k]? = some c) :
    (fieldOf w)[(⟨Int32.ofNat k, 0⟩ : Position)]? = some (Cell.ofChar c) := by
  have hlines : Text.lines (String.ofList (w ++ ['@'])).toList = [w ++ ['@']] := by
    rw [String.toList_ofList]
    refine List.splitOn_eq_singleton ?_
    simp [hnewline]
  have hfield : fieldOf w = Playfield.ofLines [w ++ ['@']] := by
    rw [fieldOf, Playfield.ofSource, hlines]
  have hlt : k < w.length + 1 := by
    obtain ⟨hlt, -⟩ := List.getElem?_eq_some_iff.mp hk
    simpa using hlt
  have hx : (Int32.ofNat k).toInt = k := Int32.toInt_ofNat_of_lt (by omega)
  have hwidth : (Playfield.ofLines [w ++ ['@']]).width = w.length + 1 := by
    rw [Playfield.width_ofLines_cons, Playfield.width_ofLines_nil, List.length_append]
    rfl
  have hmem : (⟨Int32.ofNat k, 0⟩ : Position) ∈ Playfield.ofLines [w ++ ['@']] := by
    rw [Playfield.mem_def, hwidth, Playfield.height_ofLines, hx]
    show (0 ≤ (k : Int) ∧ (k : Int) < ((w.length + 1 : Nat) : Int)) ∧ 0 ≤ (0 : Int) ∧ (0 : Int) < 1
    omega
  have hcol : (⟨Int32.ofNat k, 0⟩ : Position).col = k := by
    rw [Position.col, hx]
    rfl
  -- the halting character at the end is what keeps the white space before it
  have hcell : Playfield.cellOfLine (w ++ ['@']) k = Cell.ofChar c := by
    rw [Playfield.cellOfLine, Text.trimEnd_append_singleton w (by decide), hk]
    rfl
  rw [hfield, Playfield.getElem?_eq_cell? hmem, Playfield.cell?_ofLines, hcol, hwidth]
  show (if k < w.length + 1 then some (Playfield.cellOfLine (w ++ ['@']) k) else none) = _
  rw [if_pos hlt, hcell]

/-- The invariant of reading a word.  With `pre` read, the machine shows the data of the linear
    machine, its cursor is on the character that is next, and the quotes in `pre` decide the string
    flag. -/
structure Reading (w pre : List Char) (s : State) (m : Machine) : Prop where
  shows : Shows (fieldOf w) (cursorAt pre.length s.quoting) s.data m
  quoting_eq : s.quoting = (pre.count '"' % 2 == 1)

variable {pre post : List Char}

/-- There is a next instruction, and it does not halt. -/
theorem Reading.fetch?_eq_some (hw : Straight w) (hpre : w = pre ++ c :: post)
    (h : Reading w pre s m) :
    m.fetch? = some (Cell.ofChar c) ∧ Cell.ofChar c ≠ Cell.halt := by
  constructor
  · rw [Machine.fetch?, h.shows.field_eq, h.shows.cursor_eq]
    refine getElem?_fieldOf hw.length_lt hw.newline_notMem ?_
    rw [hpre]
    simp
  · rw [show Cell.halt = Cell.ofChar '@' from rfl, Ne, Cell.ofChar_inj]
    rintro rfl
    exact hw.halt_notMem (by rw [hpre]; simp)

theorem Reading.dispatch (hw : Straight w) (hpre : w = pre ++ c :: post) (h : Reading w pre s m) :
    Exec.Ends (Exec.dispatch (Cell.ofChar c))
      (fun _ m' => ∃ s', s.step c = .ok s' ∧
        Shows (fieldOf w) (cursorAt (pre.length + 1) s'.quoting) s'.data m')
      (fun fault _ => ∃ why, s.step c = .error why ∧
        fault = why.fault ⟨Int32.ofNat pre.length, 0⟩ c) m := by
  refine dispatch_step h.shows fun hc => ?_
  rw [h.quoting_eq, hw.count_quotes hpre hc]
  rfl

/-- One more character changes the parity of the quotes if it is one. -/
theorem odd_quotes_append (pre : List Char) (c : Char) :
    ((pre ++ [c]).count '"' % 2 == 1) = ((pre.count '"' % 2 == 1) != (c == '"')) := by
  rw [List.count_append, List.count_singleton]
  cases c == '"' with
  | false => simp
  | true =>
    rcases Nat.mod_two_eq_zero_or_one (pre.count '"') with h | h
    · simp [h, Nat.add_mod]
    · simp [h, Nat.add_mod]

/-- A character the linear machine reads is one instruction ... -/
theorem Reading.step {s' : State} (hw : Straight w) (hpre : w = pre ++ c :: post)
    (h : Reading w pre s m) (hstep : s.step c = .ok s') :
    ∃ m', m.step? = some m' ∧ Reading w (pre ++ [c]) s' m' := by
  have hends := h.dispatch hw hpre
  obtain ⟨hfetch, hhalt⟩ := h.fetch?_eq_some hw hpre
  cases hd : Exec.dispatch (Cell.ofChar c) m with
  | error fault m' =>
    obtain ⟨why, hfails, -⟩ := hends.of_error hd
    rw [hstep] at hfails
    cases hfails
  | ok u m' =>
    obtain ⟨s₁, hstep₁, hm'⟩ := hends.of_ok hd
    rw [hstep] at hstep₁
    cases hstep₁
    refine ⟨m', Machine.step?_eq_some_iff.mpr ⟨_, hfetch, hhalt, hd⟩, ?_, ?_⟩
    · rwa [List.length_append]
    · rw [State.quoting_step hstep, h.quoting_eq, odd_quotes_append]

/-- ... and where it fails the program stops with that failure, and has written nothing since. -/
theorem Reading.stops {why : Failure} (hw : Straight w) (hpre : w = pre ++ c :: post)
    (h : Reading w pre s m) (hfails : s.step c = .error why) :
    ∃ m', m.Stops 1 (.faulted (why.fault ⟨Int32.ofNat pre.length, 0⟩ c)) m' ∧
      m'.console.output = s.data.output := by
  have hends := h.dispatch hw hpre
  obtain ⟨hfetch, hhalt⟩ := h.fetch?_eq_some hw hpre
  cases hd : Exec.dispatch (Cell.ofChar c) m with
  | ok u m' =>
    obtain ⟨s', hstep, -⟩ := hends.of_ok hd
    rw [hfails] at hstep
    cases hstep
  | error fault m' =>
    obtain ⟨why', hfails', rfl⟩ := hends.of_error hd
    rw [hfails] at hfails'
    cases hfails'
    obtain ⟨-, huntouched, -⟩ := Exec.dispatch_raises hd
    exact ⟨m', .faulted hfetch hhalt hd, huntouched.output_eq.trans h.shows.output_eq⟩

/-- Reading on takes one instruction for each character.  By induction on what is read. -/
theorem Reading.word (hw : Straight w) {read : List Char} {s' : State}
    (hpre : w = pre ++ (read ++ post)) (h : Reading w pre s m)
    (hfold : read.foldlM State.step s = .ok s') :
    ∃ m', m.after? read.length = some m' ∧ Reading w (pre ++ read) s' m' := by
  induction read generalizing pre s m with
  | nil =>
    obtain rfl : s = s' := Except.ok.inj hfold
    rw [List.append_nil]
    exact ⟨m, rfl, h⟩
  | cons c read ih =>
    rw [List.foldlM_cons] at hfold
    cases hstep : s.step c with
    | error why =>
      rw [hstep] at hfold
      cases hfold
    | ok s₁ =>
      rw [hstep] at hfold
      obtain ⟨m₁, hnext, h₁⟩ := h.step hw hpre hstep
      have happend : (pre ++ [c]) ++ read = pre ++ c :: read := List.append_cons .. |>.symm
      have hpre₁ : w = (pre ++ [c]) ++ (read ++ post) := by simp [hpre]
      obtain ⟨m', hafter, h'⟩ := ih hpre₁ h₁ hfold
      rw [happend] at h'
      exact ⟨m', Machine.after?_succ_eq_some_iff.mpr ⟨m₁, hnext, hafter⟩, h'⟩

end

/-! ## Words of expressions -/

theorem plain_of_mem_word {e : Expr} {c : Char} (hc : c ∈ Expr.word e) :
    c ∉ '\n' :: '@' :: steering := by
  induction e with
  | digit d =>
    obtain rfl := List.mem_singleton.mp hc
    decide +revert
  | binary op l r ihl ihr =>
    rcases List.mem_append.mp hc with hc | hc
    · rcases List.mem_append.mp hc with hc | hc
      · exact ihl hc
      · exact ihr hc
    · obtain rfl := List.mem_singleton.mp hc
      cases op <;> decide

/-- An expression that is printed is a word that is read once. -/
theorem straight_word {e : Expr} (hlength : (Expr.word e).length + 1 < 2147483648) :
    Straight (Expr.word e ++ ['.']) := by
  refine straight_of_plain (by simpa using hlength) fun c hc => ?_
  rcases List.mem_append.mp hc with hc | hc
  · exact plain_of_mem_word hc
  · obtain rfl := List.mem_singleton.mp hc
    decide

/-! ## Whole runs -/

/-- A machine that has just been given the program of a word. -/
def machineOf (w : List Char) (lines : List String) (chance : Random.WordSource) : Machine :=
  Machine.start (fieldOf w) (Console.ofLines lines Failures.none) chance

/-- The run of a word is the fold over it.  If the fold succeeds, as many instructions as there are
    characters lead to the halting cell with the stack and the flag of the fold, and the run ends
    there with its output, the lines it did not read still queued.  If it fails, the run ends with
    that failure at the character that failed, and with the output before it. -/
def RunsAsFold (w : List Char) (lines : List String) (m : Machine) : Prop :=
  match w.foldlM State.step (State.init lines) with
  | .ok s =>
    (∃ last, m.reset.after? w.length = some last ∧ last.fetch? = some Cell.halt ∧
      last.stack = ⟨s.data.stack⟩ ∧ last.cursor.stringMode = s.quoting) ∧
    ∃ left, m.run none = some (.ok (), left) ∧ left.console.output = s.data.output ∧
      left.console.pending = s.data.pending
  | .error why =>
    ∃ read c rest s left, w = read ++ c :: rest ∧
      read.foldlM State.step (State.init lines) = .ok s ∧ s.step c = .error why ∧
      m.run none = some (.error (why.fault ⟨Int32.ofNat read.length, 0⟩ c), left) ∧
      left.console.output = s.data.output

theorem run_word {w : List Char} (hw : Straight w) (lines : List String)
    (chance : Random.WordSource) : RunsAsFold w lines (machineOf w lines chance) := by
  have hstart : Reading w [] (State.init lines) (machineOf w lines chance).reset :=
    ⟨⟨rfl, rfl, rfl, rfl, rfl, rfl⟩, rfl⟩
  unfold RunsAsFold
  cases hfold : w.foldlM State.step (State.init lines) with
  | ok s =>
    have hpre : w = [] ++ (w ++ []) := by rw [List.append_nil, List.nil_append]
    obtain ⟨last, hafter, hlast, -⟩ := hstart.word hw hpre hfold
    have hfetch : last.fetch? = some Cell.halt := by
      rw [Machine.fetch?, hlast.field_eq, hlast.cursor_eq]
      exact getElem?_fieldOf hw.length_lt hw.newline_notMem List.getElem?_concat_length
    -- the last flush succeeds, and shows in neither the output nor the lines
    have hflush := (Console.Alike.refl hlast.unfailing).flush_right
    have hrun := Machine.run_none_of_stops hafter (.halted hfetch)
    rw [Machine.finish_halted, hflush.1] at hrun
    refine ⟨⟨last, hafter, hfetch, hlast.stack_eq, ?_⟩, _, hrun, ?_, ?_⟩
    · rw [hlast.cursor_eq]
      rfl
    · exact hflush.2.output_eq.trans hlast.output_eq
    · exact hflush.2.pending_eq.trans hlast.pending_eq
  | error why =>
    obtain ⟨read, c, rest, s, hpre, hread, hfails⟩ := exists_of_foldlM_error hfold
    have hpre' : w = [] ++ (read ++ c :: rest) := hpre
    obtain ⟨m₁, hafter, h₁⟩ := hstart.word hw hpre' hread
    obtain ⟨m', hstops, houtput⟩ := h₁.stops hw hpre hfails
    have hrun := Machine.run_none_of_stops hafter hstops
    rw [Machine.finish_faulted] at hrun
    exact ⟨read, c, rest, s, _, hpre, hread, hfails, hrun,
      (Console.output_flush _).trans houtput⟩

end Linear

namespace Machine

open Linear

/-- **One line.**  The program of a word runs as the fold of the linear machine over the word, for
    all lines of input; and an expression that is printed prints its value. -/
theorem run_oneLine :
    (∀ (w : List Char), Straight w → ∀ (lines : List String) (chance : Random.WordSource),
      RunsAsFold w lines (machineOf w lines chance)) ∧
    ∀ (e : Expr) (v : Cell), e.eval = some v → (Expr.word e).length + 1 < 2147483648 →
      ∀ (lines : List String) (chance : Random.WordSource), ∃ left,
        (machineOf (Expr.word e ++ ['.']) lines chance).run none = some (.ok (), left) ∧
          left.console.output = v.decimal := by
  refine ⟨fun w hw lines chance => run_word hw lines chance, ?_⟩
  intro e v hv hlength lines chance
  have hfold : (Expr.word e ++ ['.']).foldlM State.step (State.init lines)
      = .ok ⟨⟨[], lines, "" ++ v.decimal⟩, false⟩ := by
    rw [List.foldlM_append, State.init, foldlM_word hv]
    rfl
  have hrun := run_word (straight_word hlength) lines chance
  rw [RunsAsFold, hfold] at hrun
  obtain ⟨-, left, hrun, houtput, -⟩ := hrun
  exact ⟨left, hrun, houtput.trans String.empty_append⟩

/-- The word `"v",` writes the character it quotes, though it would steer outside the string, and
    the word of `3*4` prints the product. -/
theorem run_oneLine_quoted :
    Straight ['"', 'v', '"', ','] ∧
      (∃ left, (machineOf ['"', 'v', '"', ','] [] (Random.WordSource.ofWords #[])).run none
        = some (.ok (), left) ∧ left.console.output = "v") ∧
      ∃ left, (machineOf (Expr.word (.binary .multiply (.digit 3) (.digit 4)) ++ ['.']) []
        (Random.WordSource.ofWords #[])).run none = some (.ok (), left) ∧
          left.console.output = Cell.decimal 12 := by
  have hstraight : Straight ['"', 'v', '"', ','] :=
    ⟨by decide, by decide, by decide, by decide⟩
  have hword := run_oneLine.1 _ hstraight [] (Random.WordSource.ofWords #[])
  have hfold : ['"', 'v', '"', ','].foldlM State.step (State.init [])
      = .ok ⟨⟨[], [], "v"⟩, false⟩ := rfl
  rw [RunsAsFold, hfold] at hword
  obtain ⟨-, left, hrun, houtput, -⟩ := hword
  exact ⟨hstraight, ⟨left, hrun, houtput⟩, run_oneLine.2 _ _ rfl (by decide) [] _⟩

end Machine

end Funge
