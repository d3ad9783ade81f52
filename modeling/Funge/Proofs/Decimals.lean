/-
  Decimal integers.

  `Numeral.Signed text i` says what a decimal integer is: digits, the value of which grows by the factor
  ten from one to the next, and in front of them one sign or none.  `Numeral.Holds line i` says that a
  line holds one, between white space or on its own.

  1. A text is read as a cell exactly if it is a decimal integer in the range of a cell
     (`Numeral.cell?_eq_some_iff`).  The induction is on the digits from the right, as that is the end
     the value is told from.
  2. Neither a sign nor a digit is white space, so trimming a line finds the decimal integer in it and
     nothing else (`Numeral.holds_iff`).
  3. A cell is written as a decimal integer of its value (`Numeral.signed_decimal`), so the least and the
     greatest are read again like any other, and no two cells are written alike
     (`Exec.dispatch_rereads`).
-/
import Mathlib.Data.List.Induction
import Mathlib.Data.List.TakeWhile
import Mathlib.Logic.Function.Basic
import Funge.Proofs.Conservation

namespace Funge

/-! ## White space at the ends -/

namespace Text

variable {text before after : List Char}

/-- A line is what trimming leaves of it, between white space. -/
theorem exists_eq_append_trim (line : List Char) :
    ∃ before after, line = before ++ trim line ++ after ∧ (∀ c ∈ before, isBlank c) ∧
      ∀ c ∈ after, isBlank c := by
  let rest := (trimStart line).reverse
  refine ⟨line.takeWhile isBlank, (rest.takeWhile isBlank).reverse, ?_, ?_, ?_⟩
  · have hend : trim line ++ (rest.takeWhile isBlank).reverse = trimStart line := by
      rw [trim, trimEnd, ← List.reverse_append, List.takeWhile_append_dropWhile, List.reverse_reverse]
    rw [List.append_assoc, hend, trimStart, List.takeWhile_append_dropWhile]
  · exact fun c hc => List.mem_takeWhile_imp hc
  · exact fun c hc => List.mem_takeWhile_imp (List.mem_reverse.mp hc)

/-- A text without white space is left as it is. -/
theorem trim_eq_self (h : ∀ c ∈ text, isBlank c = false) : trim text = text := by
  have hkept : ∀ {l : List Char}, (∀ c ∈ l, isBlank c = false) → l.dropWhile isBlank = l := by
    intro l hl
    cases l with
    | nil => rfl
    | cons c l => exact List.dropWhile_cons_of_neg (by simp [hl c List.mem_cons_self])
  rw [trim, trimStart, hkept h, trimEnd, hkept fun c hc => h c (List.mem_reverse.mp hc),
    List.reverse_reverse]

/-- ... and it is found between white space. -/
theorem trim_append_append (hbefore : ∀ c ∈ before, isBlank c) (hafter : ∀ c ∈ after, isBlank c)
    (h : ∀ c ∈ text, isBlank c = false) : trim (before ++ text ++ after) = text := by
  rw [trim_append_blanks _ hafter, trim, trimStart, List.dropWhile_append_of_pos hbefore]
  exact trim_eq_self h

end Text

/-! ## Decimal integers -/

namespace Numeral

variable {text : List Char} {n : Nat} {i : Int} {c : Char} {v w : Cell}

/-- One or more digits, and the number they stand for. -/
inductive Digits : List Char → Nat → Prop
  /-- A digit stands for itself. -/
  | single (d : Fin 10) : Digits [Nat.digitChar d] d
  /-- With a digit behind them the others count ten times as much. -/
  | snoc {text : List Char} {n : Nat} (h : Digits text n) (d : Fin 10) :
      Digits (text ++ [Nat.digitChar d]) (10 * n + d)

/-- Digits with a sign in front or none. -/
inductive Signed : List Char → Int → Prop
  | plain {text : List Char} {n : Nat} (h : Digits text n) : Signed text n
  | plus {text : List Char} {n : Nat} (h : Digits text n) : Signed ('+' :: text) n
  | minus {text : List Char} {n : Nat} (h : Digits text n) : Signed ('-' :: text) (-n)

/-- A line holds an integer: between white space, if there is any, there is nothing else. -/
def Holds (line : List Char) (i : Int) : Prop :=
  ∃ before text after, line = before ++ text ++ after ∧ (∀ c ∈ before, Text.isBlank c) ∧
    (∀ c ∈ after, Text.isBlank c) ∧ Signed text i

/-! ## Reading digits -/

theorem digitChar_spec (d : Fin 10) :
    (Nat.digitChar d).isDigit ∧ (Nat.digitChar d).toNat - '0'.toNat = d := by
  decide +revert

/-- The ten digits are all there are. -/
theorem exists_digitChar (h : c.isDigit) : ∃ d : Fin 10, c = Nat.digitChar d := by
  have hc : 48 ≤ c.toNat ∧ c.toNat ≤ 57 := by
    simpa [Char.isDigit, UInt32.le_iff_toNat_le] using h
  refine ⟨⟨c.toNat - 48, by omega⟩, Char.toNat_inj.mp ?_⟩
  show c.toNat = (Nat.digitChar (c.toNat - 48)).toNat
  rw [Nat.toNat_digitChar_of_lt_ten (by omega)]
  omega

theorem natural?_eq_some_iff_foldl :
    natural? text = some n ↔ text ≠ [] ∧ (∀ c ∈ text, c.isDigit) ∧ Nat.ofDigitChars 10 text 0 = n := by
  simp [natural?, and_assoc]

/-- A digit behind a number. -/
theorem natural?_concat (h : natural? text = some n) (d : Fin 10) :
    natural? (text ++ [Nat.digitChar d]) = some (10 * n + d) := by
  obtain ⟨-, hdigits, hn⟩ := natural?_eq_some_iff_foldl.mp h
  obtain ⟨hdigit, hvalue⟩ := digitChar_spec d
  refine natural?_eq_some_iff_foldl.mpr ⟨by simp, ?_, ?_⟩
  · intro c hc
    rcases List.mem_append.mp hc with hc | hc
    · exact hdigits c hc
    · rw [List.mem_singleton.mp hc]
      exact hdigit
  · rw [Nat.ofDigitChars_append, hn, Nat.ofDigitChars_cons, hvalue, Nat.ofDigitChars_nil]

/-- A number is read exactly if it stands there in digits. -/
theorem natural?_eq_some_iff : natural? text = some n ↔ Digits text n := by
  constructor
  · intro h
    obtain ⟨hne, hdigits, hn⟩ := natural?_eq_some_iff_foldl.mp h
    clear h
    -- the last digit is taken off
    induction text using List.reverseRecOn generalizing n with
    | nil => exact absurd rfl hne
    | append_singleton text c ih =>
      obtain ⟨d, rfl⟩ := exists_digitChar (hdigits c (by simp))
      obtain ⟨-, hvalue⟩ := digitChar_spec d
      rw [Nat.ofDigitChars_append, Nat.ofDigitChars_cons, hvalue, Nat.ofDigitChars_nil] at hn
      subst hn
      by_cases htext : text = []
      · subst htext
        have hsingle := Digits.single d
        simpa using hsingle
      · exact (ih htext (fun c hc => hdigits c (by simp [hc])) rfl).snoc d
  · intro h
    induction h with
    | single d => decide +revert
    | snoc _ d ih => exact natural?_concat ih d

theorem Digits.isDigit (h : Digits text n) : ∀ c ∈ text, c.isDigit :=
  (natural?_eq_some_iff_foldl.mp (natural?_eq_some_iff.mpr h)).2.1

/-! ## Reading integers -/

/-- An integer is read exactly if it is one. -/
theorem integer?_eq_some_iff : integer? text = some i ↔ Signed text i := by
  unfold integer?
  constructor
  · intro h
    split at h
    · obtain ⟨n, hn, rfl⟩ := Option.map_eq_some_iff.mp h
      exact .plus (natural?_eq_some_iff.mp hn)
    · obtain ⟨n, hn, rfl⟩ := Option.map_eq_some_iff.mp h
      exact .minus (natural?_eq_some_iff.mp hn)
    · obtain ⟨n, hn, rfl⟩ := Option.map_eq_some_iff.mp h
      exact .plain (natural?_eq_some_iff.mp hn)
  · intro h
    cases h with
    | plus h =>
      show (natural? _).map _ = _
      rw [natural?_eq_some_iff.mpr h]
      rfl
    | minus h =>
      show (natural? _).map _ = _
      rw [natural?_eq_some_iff.mpr h]
      rfl
    | plain h =>
      -- a sign is no digit
      split
      · exact absurd (h.isDigit '+' List.mem_cons_self) (by decide)
      · exact absurd (h.isDigit '-' List.mem_cons_self) (by decide)
      · rw [natural?_eq_some_iff.mpr h]
        rfl

/-- A cell is read exactly if there is an integer of its value. -/
theorem cell?_eq_some_iff : cell? text = some v ↔ Signed text v.toInt := by
  rw [← integer?_eq_some_iff, cell?, Option.bind_eq_some_iff]
  constructor
  · rintro ⟨i, hi, h⟩
    split at h
    · rename_i hrange
      obtain rfl := Option.some.inj h
      rw [hi, Int32.toInt_ofInt_of_le hrange.1 (Int.lt_add_one_of_le hrange.2)]
    · nomatch h
  · intro h
    refine ⟨v.toInt, h, ?_⟩
    rw [if_pos ⟨v.minValue_le_toInt, v.toInt_le⟩, Int32.ofInt_toInt]

/-- None is read exactly if there is no integer, or it is out of range. -/
theorem cell?_eq_none_iff :
    cell? text = none ↔ ∀ i, Signed text i → i < -2147483648 ∨ 2147483647 < i := by
  constructor
  · intro h i hi
    by_contra hrange
    have hv : cell? text = some (Int32.ofInt i) := by
      rw [cell?_eq_some_iff, Int32.toInt_ofInt_of_le (by omega) (by omega)]
      exact hi
    rw [h] at hv
    nomatch hv
  · intro h
    cases hv : cell? text with
    | none => rfl
    | some v =>
      have hrange := h _ (cell?_eq_some_iff.mp hv)
      have := v.le_toInt
      have := v.toInt_lt
      omega

/-! ## Reading lines -/

theorem isBlank_digitChar (d : Fin 10) : Text.isBlank (Nat.digitChar d) = false := by
  decide +revert

/-- Signs and digits are no white space. -/
theorem Signed.not_blank (h : Signed text i) : ∀ c ∈ text, Text.isBlank c = false := by
  have hdigits : ∀ {text n}, Digits text n → ∀ c ∈ text, Text.isBlank c = false := by
    intro text n h c hc
    obtain ⟨d, rfl⟩ := exists_digitChar (h.isDigit c hc)
    exact isBlank_digitChar d
  cases h with
  | plain h => exact hdigits h
  | plus h => exact List.forall_mem_cons.mpr ⟨by decide, hdigits h⟩
  | minus h => exact List.forall_mem_cons.mpr ⟨by decide, hdigits h⟩

/-- A line holds what it holds when it is trimmed. -/
theorem holds_iff {line : List Char} : Holds line i ↔ Signed (Text.trim line) i := by
  constructor
  · rintro ⟨before, text, after, rfl, hbefore, hafter, h⟩
    rw [Text.trim_append_append hbefore hafter h.not_blank]
    exact h
  · intro h
    obtain ⟨before, after, hline, hbefore, hafter⟩ := Text.exists_eq_append_trim line
    exact ⟨before, _, after, hline, hbefore, hafter, h⟩

/-! ## Writing -/

/-- A cell is written as an integer of its value. -/
theorem signed_decimal (v : Cell) : Signed v.decimal.toList v.toInt := by
  have hdigits : ∀ n : Nat, Digits n.repr.toList n := by
    intro n
    rw [Nat.toList_repr]
    exact natural?_eq_some_iff.mp (natural?_toDigits n)
  show Signed v.toInt.repr.toList v.toInt
  cases v.toInt with
  | ofNat n => exact .plain (hdigits n)
  | negSucc n =>
    show Signed ("-" ++ n.succ.repr).toList (Int.negSucc n)
    rw [String.toList_append]
    exact .minus (hdigits n.succ)

/-- No two cells are written alike. -/
theorem decimal_injective : Function.Injective Cell.decimal := by
  intro v w h
  have hv := cell?_eq_some_iff.mpr (signed_decimal v)
  rw [h, cell?_eq_some_iff.mpr (signed_decimal w)] at hv
  exact (Option.some.inj hv).symm

end Numeral

/-! ## Dispatch -/

namespace Exec

variable {m : Machine} {c c' : Console} {line : String} {s : Stack} {v : Cell}

/-- The line the console gives after a flush. -/
theorem readLine_eq (hflush : m.console.flush = (.ok (), c))
    (hread : c.readLine = (.ok (some line), c')) :
    readLine m = .ok line { m with console := c' } := by
  have hflushed : consult Console.flush m = .ok () { m with console := c } := consult_of_ok hflush
  have htaken : consult Console.readLine { m with console := c }
      = .ok (some line) { m with console := c' } := consult_of_ok hread
  rw [readLine, bind_of_ok hflushed, bind_of_ok htaken]
  rfl

theorem perform_readInteger (hflush : m.console.flush = (.ok (), c))
    (hread : c.readLine = (.ok (some line), c')) (op : Char) :
    perform op .readInteger m = match Numeral.cell? (Text.trim line.toList) with
      | some v => .ok () { m with stack := m.stack.push v, console := c' }
      | none => .error (.malformedInput m.cursor.pos (.notAnInteger line)) { m with console := c' } := by
  rw [perform, bind_of_ok (readLine_eq hflush hread)]
  show (match Numeral.cell? (Text.trim line.toList) with
    | some v => push v
    | none => here >>= fun pos => fail (.malformedInput pos (.notAnInteger line))) _ = _
  cases Numeral.cell? (Text.trim line.toList) with
  | some v => rfl
  | none => rfl

theorem perform_writeInteger (hstack : m.stack = s.push v)
    (hwrite : m.console.writeInteger v = (.ok (), c)) (op : Char) :
    perform op .writeInteger m = .ok () { m with stack := s, console := c } := by
  rw [perform, bind_of_ok (pop_of_push hstack)]
  exact consult_of_ok hwrite

section

variable (hmode : m.cursor.stringMode = false) (hflush : m.console.flush = (.ok (), c))
  (hread : c.readLine = (.ok (some line), c'))

include hmode hflush hread

/-- What becomes of the line. -/
theorem dispatch_readInteger :
    dispatch (Cell.ofChar '&') m = match Numeral.cell? (Text.trim line.toList) with
      | some v =>
        .ok () { m with stack := m.stack.push v, cursor := m.cursor.advance, console := c' }
      | none => .error (.malformedInput m.cursor.pos (.notAnInteger line)) { m with console := c' } := by
  have hinstruction : Instruction.decode (Cell.ofChar '&') = .readInteger := by decide
  have hperform := perform_readInteger hflush hread (Cell.ofChar '&').toChar
  cases hcell : Numeral.cell? (Text.trim line.toList) with
  | some v =>
    rw [hcell] at hperform
    exact dispatch_of_perform_ok hmode hinstruction hperform
  | none =>
    rw [hcell] at hperform
    exact dispatch_of_perform_error hmode hinstruction hperform

/-- A line is taken for the cell it holds, and for no other. -/
theorem dispatch_readInteger_eq_ok_iff :
    dispatch (Cell.ofChar '&') m
        = .ok () { m with stack := m.stack.push v, cursor := m.cursor.advance, console := c' } ↔
      Numeral.Holds line.toList v.toInt := by
  rw [dispatch_readInteger hmode hflush hread, Numeral.holds_iff, ← Numeral.cell?_eq_some_iff]
  cases Numeral.cell? (Text.trim line.toList) with
  | none => exact ⟨nofun, nofun⟩
  | some w =>
    constructor
    · intro h
      injection h with _ h
      have hentries : (m.stack.push w).entries = (m.stack.push v).entries :=
        congrArg (fun m => m.stack.entries) h
      rw [List.head_eq_of_cons_eq hentries]
    · intro h
      rw [Option.some.inj h]

/-- A line that holds no cell is refused as it came. -/
theorem dispatch_readInteger_eq_error_iff :
    dispatch (Cell.ofChar '&') m
        = .error (.malformedInput m.cursor.pos (.notAnInteger line)) { m with console := c' } ↔
      ∀ i, Numeral.Holds line.toList i → i < -2147483648 ∨ 2147483647 < i := by
  simp only [Numeral.holds_iff]
  rw [dispatch_readInteger hmode hflush hread, ← Numeral.cell?_eq_none_iff]
  cases Numeral.cell? (Text.trim line.toList) with
  | none => exact ⟨fun _ => rfl, fun _ => rfl⟩
  | some w => exact ⟨nofun, nofun⟩

end

/-- **Integers are read as they are written.**  If the console gives a line, it is taken for the cell
    that it holds between white space, in decimal digits with one sign or none in front; if there is
    no such cell, the fault quotes the line as it came and nothing is pushed.  What is written of a
    cell is such a line, with white space around it or without, and no two cells are written alike. -/
theorem dispatch_rereads :
    (∀ (m : Machine) (c c' : Console) (line : String), m.cursor.stringMode = false →
      m.console.flush = (.ok (), c) → c.readLine = (.ok (some line), c') →
        (∀ v, dispatch (Cell.ofChar '&') m
            = .ok () { m with stack := m.stack.push v, cursor := m.cursor.advance, console := c' } ↔
          Numeral.Holds line.toList v.toInt) ∧
        (dispatch (Cell.ofChar '&') m
            = .error (.malformedInput m.cursor.pos (.notAnInteger line)) { m with console := c' } ↔
          ∀ i, Numeral.Holds line.toList i → i < -2147483648 ∨ 2147483647 < i) ∧
        ∀ before v after, (∀ b ∈ before, Text.isBlank b) → (∀ b ∈ after, Text.isBlank b) →
          line.toList = before ++ (Cell.decimal v).toList ++ after →
            dispatch (Cell.ofChar '&') m
              = .ok () { m with stack := m.stack.push v, cursor := m.cursor.advance, console := c' }) ∧
    (∀ (m : Machine) (c : Console) (s : Stack) (v : Cell), m.cursor.stringMode = false →
      m.stack = s.push v → m.console.writeInteger v = (.ok (), c) →
        dispatch (Cell.ofChar '.') m
            = .ok () { m with stack := s, cursor := m.cursor.advance, console := c } ∧
          c.output = m.console.output ++ v.decimal) ∧
    Function.Injective Cell.decimal := by
  refine ⟨fun m c c' line hmode hflush hread => ⟨fun v => ?_, ?_, ?_⟩, ?_, Numeral.decimal_injective⟩
  · exact dispatch_readInteger_eq_ok_iff hmode hflush hread
  · exact dispatch_readInteger_eq_error_iff hmode hflush hread
  · intro before v after hbefore hafter hline
    have hholds : Numeral.Holds line.toList v.toInt :=
      ⟨before, _, after, hline, hbefore, hafter, Numeral.signed_decimal v⟩
    exact (dispatch_readInteger_eq_ok_iff hmode hflush hread).mpr hholds
  · intro m c s v hmode hstack hwrite
    have hinstruction : Instruction.decode (Cell.ofChar '.') = .writeInteger := by decide
    exact ⟨dispatch_of_perform_ok hmode hinstruction (perform_writeInteger hstack hwrite _),
      (Console.transcript_of_writeInteger hwrite).output_eq⟩

/-- The least cell between blanks, the first integer that is no cell, and a cell that is written. -/
theorem dispatch_rereads_limits :
    let reads (line : String) := { Machine.quiet "&" with console := .ofLines [line] Failures.none }
    let heard (line : String) := (reads line).console.flush.2.readLine.2
    let writes := { Machine.quiet "." with stack := (∅ : Stack).push (-5) }
    let said := (writes.console.writeInteger (-5)).2
    dispatch (Cell.ofChar '&') (reads " -2147483648 ")
      = .ok () { reads " -2147483648 " with
        stack := (∅ : Stack).push (-2147483648)
        cursor := ⟨⟨1, 0⟩, .east, false⟩
        console := heard " -2147483648 " } ∧
    dispatch (Cell.ofChar '&') (reads " 2147483648")
      = .error (.malformedInput ⟨0, 0⟩ (.notAnInteger " 2147483648"))
        { reads " 2147483648" with console := heard " 2147483648" } ∧
    dispatch (Cell.ofChar '.') writes
      = .ok () { writes with stack := ∅, cursor := ⟨⟨1, 0⟩, .east, false⟩, console := said } ∧
    said.output = "-5" := by
  intro reads heard writes said
  obtain ⟨hreads, hwrites, -⟩ := dispatch_rereads
  have hblank : ∀ b ∈ [' '], Text.isBlank b := List.forall_mem_singleton.mpr (by decide)
  refine ⟨?_, ?_, hwrites writes said ∅ (-5) rfl rfl rfl⟩
  · exact (hreads (reads " -2147483648 ") _ (heard " -2147483648 ") _ rfl rfl rfl).2.2
      [' '] (-2147483648) [' '] hblank hblank (by decide)
  · refine (hreads (reads " 2147483648") _ (heard " 2147483648") _ rfl rfl rfl).2.1.mpr fun i hi => ?_
    have hi : Numeral.integer? ['2', '1', '4', '7', '4', '8', '3', '6', '4', '8'] = some i :=
      Numeral.integer?_eq_some_iff.mpr (Numeral.holds_iff.mp hi)
    refine Or.inr ?_
    rw [← Option.some.inj hi]
    decide

end Exec

end Funge
