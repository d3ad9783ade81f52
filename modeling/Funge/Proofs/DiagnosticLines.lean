/-
  The lines of a diagnostic.

  A fault whose square is in the field is meant for three lines: the first line, the window and the
  caret.  Two of them never break, and the window breaks where it shows a newline.

  1. `OneLine` texts stay such when they are put together.  Numbers are written without a newline, and
     so is a refused line, as it is quoted (`Text.oneLine_quoted`).
  2. The operator of a fault is the one character taken from the field as it is.  It is no newline,
     as the cell of a newline is obeyed by doing nothing (`Exec.dispatch_newline`); so the headline of
     an instruction that failed does not break (`Machine.Fails.oneLine_headline`).
  3. The window is taken from the field as it is too, and here a newline may have been stored.  There
     are three lines exactly if none was, in the columns that are shown (`Machine.run_renders`).
-/
import Funge.Proofs.Aftermath
import Funge.Proofs.Carets

namespace Funge

/-! ## Texts without a newline -/

namespace Text

variable {s t : String} {c : Char}

/-- A text without a newline. -/
def OneLine (s : String) : Prop := '\n' ∉ s.toList

instance (s : String) : Decidable (OneLine s) := inferInstanceAs (Decidable ('\n' ∉ s.toList))

theorem OneLine.append (hs : OneLine s) (ht : OneLine t) : OneLine (s ++ t) := by
  rw [OneLine, String.toList_append, List.mem_append, not_or]
  exact ⟨hs, ht⟩

theorem oneLine_char (h : c ≠ '\n') : OneLine c.toString := by
  simp [OneLine, Char.toString, h.symm]

/-- The digits of a number, in any base up to sixteen. -/
theorem newline_not_mem_toDigits {b : Nat} (hb : 1 < b) (hle : b ≤ 16) (n : Nat) :
    '\n' ∉ Nat.toDigits b n := by
  have hdigit : ∀ d : Fin 16, '\n' ≠ Nat.digitChar d := by decide
  -- the digits in front of the last one are those of a smaller number
  induction n using Nat.strongRecOn with
  | ind n ih =>
    rw [Nat.toDigits_eq_if hb]
    split
    · rename_i hlt
      rw [List.mem_singleton]
      exact hdigit ⟨n, by omega⟩
    · rename_i hlt
      have hsmaller : n / b < n := Nat.div_lt_self (by omega) hb
      have hmod : n % b < b := Nat.mod_lt n (by omega)
      rw [List.mem_append, List.mem_singleton, not_or]
      exact ⟨ih _ hsmaller, hdigit ⟨n % b, by omega⟩⟩

theorem oneLine_repr (n : Nat) : OneLine n.repr := by
  rw [OneLine, Nat.toList_repr]
  exact newline_not_mem_toDigits (by decide) (by decide) n

theorem oneLine_decimal (v : Cell) : OneLine v.decimal := by
  show OneLine v.toInt.repr
  cases v.toInt with
  | ofNat n => exact oneLine_repr n
  | negSucc n => exact OneLine.append (by decide) (oneLine_repr n.succ)

theorem oneLine_position (pos : Position) : OneLine pos.text := by
  show OneLine ("(" ++ pos.x.decimal ++ ", " ++ pos.y.decimal ++ ")")
  refine (OneLine.append ?_ (oneLine_decimal pos.y)).append (by decide)
  exact (OneLine.append (by decide) (oneLine_decimal pos.x)).append (by decide)

/-- A newline is quoted by two other characters. -/
theorem newline_not_mem_quotedChar (c : Char) : '\n' ∉ quotedChar c := by
  unfold quotedChar
  split
  case h_7 hnewline _ _ _ =>
    split
    · simp only [hexadecimal, List.mem_append, not_or]
      exact ⟨⟨by decide, newline_not_mem_toDigits (by decide) (by decide) _⟩, by decide⟩
    · rw [List.mem_singleton]
      exact fun h => hnewline h.symm
  all_goals decide

theorem oneLine_quoted (text : List Char) : OneLine (String.ofList (quoted text)) := by
  have hchars : '\n' ∉ text.flatMap quotedChar := by
    intro h
    obtain ⟨c, -, hc⟩ := List.mem_flatMap.mp h
    exact newline_not_mem_quotedChar c hc
  simp [OneLine, quoted, hchars]

end Text

/-! ## First lines -/

namespace Diagnostic

variable {f : Playfield} {fault : Fault} {pos : Position} {program : Option String}

/-- What may break a headline is the operator of the fault or the text of the console. -/
theorem oneLine_headline (f : Playfield)
    (hop : ∀ pos op, fault = .stackUnderflow pos op ∨ fault = .divisionByZero pos op → op ≠ '\n')
    (hconsole : ∀ pos text, fault ≠ .console pos text) : Text.OneLine (headline f fault) := by
  have hnumber (n : Nat) : Text.OneLine (toString n) := Text.oneLine_repr n
  cases fault with
  | stackUnderflow pos op =>
    have hchar := Text.oneLine_char (hop pos op (Or.inl rfl))
    exact (Text.OneLine.append (by decide) hchar).append (by decide)
  | divisionByZero pos op =>
    have hchar := Text.oneLine_char (hop pos op (Or.inr rfl))
    exact (Text.OneLine.append (by decide) hchar).append (by decide)
  | outOfField pos square =>
    refine (Text.OneLine.append ?_ (hnumber f.height)).append (by decide)
    refine (Text.OneLine.append ?_ (hnumber f.width)).append (by decide)
    exact (Text.OneLine.append (by decide) (Text.oneLine_position square)).append (by decide)
  | malformedInput pos reason =>
    refine Text.OneLine.append (by decide) ?_
    cases reason with
    | endOfInput | emptyLine =>
      show Text.OneLine _
      decide
    | notAnInteger line => exact Text.OneLine.append (by decide) (Text.oneLine_quoted line.toList)
  | console pos text => exact absurd rfl (hconsole pos text)
  | stepLimit limit =>
    exact (Text.OneLine.append (by decide) (hnumber limit)).append (by decide)

theorem oneLine_firstLine (h : Text.OneLine (headline f fault))
    (hname : ∀ name ∈ program, Text.OneLine name) : Text.OneLine (firstLine program f fault pos) := by
  have htitled : Text.OneLine (titled program (headline f fault)) := by
    cases program with
    | none => exact h
    | some name =>
      have hcolon : Text.OneLine ": " := by decide
      exact ((hname name rfl).append hcolon).append h
  have hat : Text.OneLine " at " := by decide
  exact (htitled.append hat).append (Text.oneLine_position pos)

end Diagnostic

/-- A newline in the field is no instruction, so it cannot fail. -/
theorem Exec.dispatch_newline {m m' : Machine} {fault : Fault} :
    Exec.dispatch 10 m ≠ .error fault m' := by
  intro h
  obtain ⟨hmode, -, -⟩ := Exec.dispatch_raises h
  have hinstruction : Instruction.decode 10 = .nothing := by decide
  rw [Exec.dispatch_of_perform_ok hmode hinstruction rfl] at h
  nomatch h

namespace Machine

variable {m m' : Machine} {fault : Fault} {pos : Position} {op : Char} {program : Option String}

/-- So the operator of a fault is no newline. -/
theorem Fails.op_ne_newline (h : m.Fails fault m')
    (hop : fault = .stackUnderflow pos op ∨ fault = .divisionByZero pos op) : op ≠ '\n' := by
  cases h with
  | outside => rcases hop with hop | hop <;> nomatch hop
  | flush => rcases hop with hop | hop <;> nomatch hop
  | @dispatch _ v _ _ _ hd =>
    obtain ⟨-, -, hraises⟩ := Exec.dispatch_raises hd
    have hchar : op = v.toChar := by
      generalize Instruction.decode v = i at hraises
      rcases hop with rfl | rfl
      · cases hraises
        rfl
      · cases hraises
        rfl
    rintro rfl
    obtain rfl : v = 10 := Cell.eq_ofChar_of_toChar hchar.symm (by decide)
    exact Exec.dispatch_newline hd

theorem Fails.oneLine_headline (h : m.Fails fault m') (f : Playfield)
    (hconsole : ∀ pos text, fault ≠ .console pos text) :
    Text.OneLine (Diagnostic.headline f fault) :=
  Diagnostic.oneLine_headline f (fun _ _ => h.op_ne_newline) hconsole

end Machine

/-! ## Windows -/

namespace Diagnostic

variable {f : Playfield} {row : List Char} {x y : Nat}

/-- A row shows a newline where a cell stands for one. -/
theorem getElem?_eq_newline_iff (hrow : f.rowText? y = some row) :
    row[x]? = some '\n' ↔ x < row.length ∧ f.cell? x y = some 10 := by
  constructor
  · intro h
    obtain ⟨hlt, -⟩ := List.getElem?_eq_some_iff.mp h
    rw [Playfield.getElem?_of_rowText? hrow hlt] at h
    obtain ⟨v, hcell, hchar⟩ := Option.map_eq_some_iff.mp h
    have hten : v = 10 := Cell.eq_ofChar_of_toChar hchar (by decide)
    exact ⟨hlt, hten ▸ hcell⟩
  · rintro ⟨hlt, hcell⟩
    rw [Playfield.getElem?_of_rowText? hrow hlt, hcell, Option.map_some]
    decide

/-- There is a newline in a window where there is one in the columns it shows. -/
theorem newline_mem_window_iff (hrow : f.rowText? y = some row) :
    '\n' ∈ window x row ↔
      ∃ col, col < row.length ∧ x ≤ col + 32 ∧ col ≤ x + 32 ∧ f.cell? col y = some 10 := by
  have hshows := window_shows row x
  rw [List.mem_iff_getElem?]
  constructor
  · rintro ⟨i, hi⟩
    rw [hshows.getElem?_eq] at hi
    split at hi
    · obtain ⟨hlt, hcell⟩ := (getElem?_eq_newline_iff hrow).mp hi
      exact ⟨_, hlt, by omega, by omega, hcell⟩
    · nomatch hi
  · rintro ⟨col, hlt, hleft, hright, hcell⟩
    have hindex : x - min x 32 + (col - (x - min x 32)) = col := by omega
    refine ⟨col - (x - min x 32), ?_⟩
    rw [hshows.getElem?_eq, if_pos (by omega), hindex]
    exact (getElem?_eq_newline_iff hrow).mpr ⟨hlt, hcell⟩

end Diagnostic

/-! ## Diagnostics of runs -/

namespace Machine

variable {m m' : Machine} {limit : Option Nat} {fault : Fault} {pos : Position}
  {program : Option String}

open Diagnostic

/-- **A diagnostic has three lines, unless a newline was stored in the row it shows.**  Whatever the
    program and its input, the diagnostic of a run that fails on a square of the field, and not in the
    console, consists of the first line, the window and the caret line.  No newline is in the first or
    the last of them; so there are three newlines, and those of the window. -/
theorem run_renders (h : m.run limit = some (.error fault, m'))
    (hconsole : ∀ pos text, fault ≠ .console pos text) (hpos : fault.position? = some pos)
    (hmem : pos ∈ m'.field) (hname : ∀ name ∈ program, Text.OneLine name) :
    ∃ row, m'.field.rowText? pos.row = some row ∧
      let first := firstLine program m'.field fault pos
      let shown := window pos.col row
      let text := render program m'.field fault none
      text = first ++ "\n" ++ "  " ++ String.ofList shown ++ "\n"
        ++ "  " ++ String.ofList (List.replicate (min pos.col 32) ' ' ++ ['^']) ++ "\n" ∧
      Text.OneLine first ∧ text.toList.count '\n' = 3 + shown.count '\n' ∧
      (text.toList.count '\n' = 3 ↔ ∀ x < row.length, pos.col ≤ x + 32 → x ≤ pos.col + 32 →
        m'.field.cell? x pos.row ≠ some 10) := by
  have hlimit : ∀ n, fault ≠ .stepLimit n := by
    rintro n rfl
    nomatch hpos
  obtain ⟨k, m₁, m₂, -, hfails, -⟩ := run_fails h hlimit
  have hfirst : Text.OneLine (firstLine program m'.field fault pos) :=
    oneLine_firstLine (hfails.oneLine_headline m'.field hconsole) hname
  obtain ⟨⟨hx, -⟩, hy, hheight⟩ := Playfield.mem_def.mp hmem
  obtain ⟨row, hrow, hrender⟩ := exists_render_eq program hpos hx hy hheight
  have hcount : (render program m'.field fault none).toList.count '\n'
      = 3 + (window pos.col row).count '\n' := by
    have hbefore : (firstLine program m'.field fault pos).toList.count '\n' = 0 :=
      List.count_eq_zero_of_not_mem hfirst
    have hcaret : (List.replicate (min pos.col 32) ' ' ++ ['^']).count '\n' = 0 := by
      rw [List.count_append, List.count_replicate]
      rfl
    have hindent : "  ".toList.count '\n' = 0 := by decide
    have hbreak : "\n".toList.count '\n' = 1 := by decide
    rw [hrender]
    simp only [String.toList_append, String.toList_ofList, List.count_append, hbefore, hcaret, hindent,
      hbreak]
    omega
  refine ⟨row, hrow, hrender, hfirst, hcount, ?_⟩
  rw [hcount, Nat.add_eq_left, List.count_eq_zero, newline_mem_window_iff hrow]
  constructor
  · exact fun hnone x hx hleft hright hcell => hnone ⟨x, hx, hleft, hright, hcell⟩
  · rintro hnone ⟨x, hx, hleft, hright, hcell⟩
    exact hnone x hx hleft hright hcell

/-- The program stores a newline behind its last character, where the row is not shown any more. -/
theorem run_renders_trimmed :
    ∃ m', (quiet "55+70p$ ").run (some 20) = some (.error (.stackUnderflow ⟨6, 0⟩ '$'), m') ∧
      m'.field.cell? 7 0 = some 10 ∧
      (render (some "befunge") m'.field (.stackUnderflow ⟨6, 0⟩ '$') none).toList.count '\n' = 3 := by
  have hfault : ((quiet "55+70p$ ").runFor 20).1 = .error (.stackUnderflow ⟨6, 0⟩ '$') := by
    decide +kernel
  have hrow : ((quiet "55+70p$ ").runFor 20).2.field.rowText? 0 = some "55+70p$".toList := by
    decide +kernel
  have hcells : ∀ x < 7, ((quiet "55+70p$ ").runFor 20).2.field.cell? x 0 ≠ some 10 := by
    decide +kernel
  have hrun := run_some_of_runFor hfault
  refine ⟨_, hrun, by decide +kernel, ?_⟩
  have hname : ∀ name ∈ some "befunge", Text.OneLine name := by decide
  obtain ⟨row, hrow', -, -, -, hthree⟩ := run_renders hrun nofun rfl (by decide +kernel) hname
  obtain rfl : "55+70p$".toList = row := Option.some.inj (hrow.symm.trans hrow')
  exact hthree.mpr fun x hx _ _ => hcells x hx

/-- The program stores a newline over its first character and fails behind it: the window is broken,
    there are four newlines, and the caret is not below the square any more. -/
theorem run_breaks_window :
    ∃ m', (quiet "55+00p$").run (some 20) = some (.error (.stackUnderflow ⟨6, 0⟩ '$'), m') ∧
      (⟨6, 0⟩ : Position) ∈ m'.field ∧
      let text := render (some "befunge") m'.field (.stackUnderflow ⟨6, 0⟩ '$') none
      text = "befunge: Runtime error: stack underflow (op=$) at (6, 0)\n  \n5+00p$\n        ^\n" ∧
      text.toList.count '\n' = 4 := by
  have hfault : ((quiet "55+00p$").runFor 20).1 = .error (.stackUnderflow ⟨6, 0⟩ '$') := by
    decide +kernel
  exact ⟨_, run_some_of_runFor hfault, by decide +kernel, by decide +kernel, by decide +kernel⟩

end Machine

end Funge
