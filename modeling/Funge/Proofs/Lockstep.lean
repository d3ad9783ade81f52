/-
  Two machines side by side.

  Many facts about runs compare two of them: on a larger field, with more input queued, on a console
  with another past.  Each such fact names a relation `R` between the two machines and shows that it
  lasts.  `Follows R E a b m n` says that action `b` at `n` does what action `a` at `m` does: it
  gives the same result or raises the same fault, and `R` holds of what they leave.  The faults in
  `E` are exempt: where `a` raises one of them nothing is said about `b`.

  A `Lockstep R E` is what is particular about `R`: that it knows the cursor and the stack, and that
  the few actions which touch anything else follow themselves.  From these facts instructions
  (`perform_follows`), iterations (`step?_follows`) and whole runs (`run_follows`) follow, once for
  every relation.  A `Steady R E` is the same without the random turn.  That is all there is to say
  of machines with different sources of directions, and it is enough for every other instruction.
  A `Level R E` goes without the loads as well, as machines with different fields have to; there
  the loads of a run are looked at one by one (`run_follows_of_moments`).
  Where the machines differ in nothing but their consoles, the console calls are all there is to look
  at (`lockstep_of_consoles`).
-/
import Funge.Proofs.Action
import Funge.Proofs.Steps

namespace Funge

namespace Exec

variable {α β : Type} {R : Machine → Machine → Prop} {E : Fault → Prop} {m n : Machine}

/-- Action `b` at `n` does what action `a` at `m` does, up to the faults in `E`. -/
def Follows (R : Machine → Machine → Prop) (E : Fault → Prop) (a b : Exec α) (m n : Machine) :
    Prop :=
  Ends a (fun x m' => ∃ n', b n = .ok x n' ∧ R m' n')
    (fun fault m' => E fault ∨ ∃ n', b n = .error fault n' ∧ R m' n') m

theorem follows_pure {x : α} (h : R m n) : Follows R E (pure x) (pure x) m n := ⟨n, rfl, h⟩

theorem follows_fail {fault : Fault} (h : R m n) :
    Follows R E (fail fault : Exec α) (fail fault) m n := Or.inr ⟨n, rfl, h⟩

/-- Sequences follow each other part by part. -/
theorem Follows.bind {a b : Exec α} {j k : α → Exec β} (h : Follows R E a b m n)
    (hk : ∀ x m' n', R m' n' → Follows R E (j x) (k x) m' n') :
    Follows R E (a >>= j) (b >>= k) m n := by
  unfold Follows
  rw [ends_bind]
  refine h.mono ?_ ?_
  · rintro x m' ⟨n', hb, hR⟩
    rw [bind_of_ok hb]
    exact hk x m' n' hR
  · rintro fault m' (hE | ⟨n', hb, hR⟩)
    · exact Or.inl hE
    · exact Or.inr ⟨n', bind_of_error hb, hR⟩

/-- A console call follows itself if it gives the same result on both consoles. -/
theorem follows_consult {call : Console → Except String α × Console}
    (hcall : (call n.console).1 = (call m.console).1) (hcursor : n.cursor = m.cursor)
    (h : R { m with console := (call m.console).2 } { n with console := (call n.console).2 }) :
    Follows R E (consult call) (consult call) m n := by
  refine ends_consult.mpr ⟨fun x console hc => ?_, fun text console hc => Or.inr ?_⟩
  · rw [hc] at hcall h
    refine ⟨{ n with console := (call n.console).2 }, ?_, h⟩
    rw [consult, show call n.console = (.ok x, (call n.console).2) from Prod.ext hcall rfl]
  · rw [hc] at hcall h
    refine ⟨{ n with console := (call n.console).2 }, ?_, h⟩
    rw [consult, show call n.console = (.error text, (call n.console).2) from Prod.ext hcall rfl,
      hcursor]

/-- What reading a line does after the flush. -/
def lineRead : Exec String := do
  match ← consult Console.readLine with
  | some line => return line
  | none => fail (.malformedInput (← here) .endOfInput)

/-- What follows the flush follows itself if the read does. -/
theorem follows_lineRead (hcursor : ∀ m n, R m n → n.cursor = m.cursor)
    (hread : Follows R E (consult Console.readLine) (consult Console.readLine) m n) :
    Follows R E lineRead lineRead m n := by
  refine hread.bind fun line m₂ n₂ h₂ => ?_
  cases line with
  | some line => exact follows_pure h₂
  | none =>
    have hhere : Follows R E here here m₂ n₂ := ⟨n₂, by rw [here, hcursor m₂ n₂ h₂], h₂⟩
    exact hhere.bind fun _ _ _ h => follows_fail h

/-- Reading a line follows itself if the flush and the read do. -/
theorem follows_readLine (hcursor : ∀ m n, R m n → n.cursor = m.cursor)
    (hflush : Follows R E (consult Console.flush) (consult Console.flush) m n)
    (hread : ∀ m n, R m n →
      Follows R E (consult Console.readLine) (consult Console.readLine) m n) :
    Follows R E readLine readLine m n :=
  hflush.bind fun _ m₁ n₁ h₁ => follows_lineRead hcursor (hread m₁ n₁ h₁)

/-- A load follows itself if both machines have the same field. -/
theorem follows_load (hR : R m n) (hfield : n.field = m.field) (hcursor : n.cursor = m.cursor)
    (p : Position) : Follows R E (load p) (load p) m n := by
  refine ends_load.mpr ⟨fun v hv => ⟨n, ?_, hR⟩, fun hp => Or.inr ⟨n, ?_, hR⟩⟩
  · simp only [load, hfield, hv]
  · simp only [load, hfield, hcursor, Playfield.getElem?_eq_none_iff.mpr hp]

/-- So does a store. -/
theorem follows_store (hR : R m n) (hfield : n.field = m.field) (hcursor : n.cursor = m.cursor)
    (h : ∀ field, R { m with field } { n with field }) (p : Position) (v : Cell) :
    Follows R E (store p v) (store p v) m n := by
  refine ends_store.mpr ⟨fun hp => ⟨_, ?_, h (m.field.set p v hp)⟩, fun hp => Or.inr ⟨n, ?_, hR⟩⟩
  · simp only [store, hfield, Playfield.set?, dif_pos hp]
  · simp only [store, hfield, hcursor, Playfield.set?_eq_none_iff.mpr hp]

/-- Drawing a direction follows itself if both machines have the same source of directions. -/
theorem follows_steerRandomly (hR : R m n) (hchance : n.chance = m.chance)
    (hcursor : n.cursor = m.cursor)
    (h : ∀ cursor chance, R { m with cursor, chance } { n with cursor, chance }) :
    Follows R E steerRandomly steerRandomly m n := by
  refine ends_steerRandomly.mpr ⟨fun dir chance hd => ?_, fun hd => ?_⟩
  · refine ⟨{ n with cursor := m.cursor.turn dir, chance }, ?_, h _ chance⟩
    simp only [steerRandomly, hchance, hd, hcursor]
  · exact ⟨n, by simp only [steerRandomly, hchance, hd], hR⟩

end Exec

/-- What the second of two runs comes to, given the first. -/
inductive RunFollows (R : Machine → Machine → Prop) (E : Fault → Prop) :
    (first second : Option (Except Fault Unit × Machine)) → Prop
  /-- Neither run ends. -/
  | endless : RunFollows R E none none
  /-- Both end with the same result and leave related machines. -/
  | same {result : Except Fault Unit} {left left' : Machine} (h : R left left') :
      RunFollows R E (some (result, left)) (some (result, left'))
  /-- The first ends with a fault in `E`; then nothing is said about the second. -/
  | exempt {fault : Fault} {left : Machine} {second : Option (Except Fault Unit × Machine)}
      (h : E fault) : RunFollows R E (some (.error fault, left)) second

/-- A run that ends is followed to its end, unless its fault is exempt ... -/
theorem RunFollows.of_first {R : Machine → Machine → Prop} {E : Fault → Prop}
    {second : Option (Except Fault Unit × Machine)} {result : Except Fault Unit} {left : Machine}
    (h : RunFollows R E (some (result, left)) second) :
    (∃ fault, result = .error fault ∧ E fault) ∨
      ∃ left', second = some (result, left') ∧ R left left' := by
  cases h with
  | same h => exact Or.inr ⟨_, rfl, h⟩
  | exempt h => exact Or.inl ⟨_, rfl, h⟩

/-- ... and one that follows has been led, unless the fault of the first is exempt. -/
theorem RunFollows.of_second {R : Machine → Machine → Prop} {E : Fault → Prop}
    {first : Option (Except Fault Unit × Machine)} {result : Except Fault Unit} {left' : Machine}
    (h : RunFollows R E first (some (result, left'))) :
    (∃ fault left, first = some (.error fault, left) ∧ E fault) ∨
      ∃ left, first = some (result, left) ∧ R left left' := by
  cases h with
  | same h => exact Or.inr ⟨_, rfl, h⟩
  | exempt h => exact Or.inl ⟨_, _, rfl, h⟩

/-- A run that halts is followed to its end. -/
theorem RunFollows.of_ok {R : Machine → Machine → Prop} {E : Fault → Prop}
    {first second : Option (Except Fault Unit × Machine)} {left : Machine}
    (h : RunFollows R E first second) (hfirst : first = some (.ok (), left)) :
    ∃ left', second = some (.ok (), left') ∧ R left left' := by
  subst hfirst
  exact h.of_first.resolve_left nofun

/-- Machines that are related at first stay so, if every instruction follows itself; of the moments of
    both everything may be used. -/
theorem after?_follows_of_moments {R : Machine → Machine → Prop} {m m' n : Machine} {k : Nat}
    {limit : Option Nat} (h : R m n)
    (hstep : ∀ k s s' t, (∀ most, limit = some most → k < most) → m.after? k = some s →
      n.after? k = some t → R s t → s.step? = some s' → ∃ t', t.step? = some t' ∧ R s' t')
    (hk : ∀ most, limit = some most → k ≤ most) (hs : m.after? k = some m') :
    ∃ n', n.after? k = some n' ∧ R m' n' := by
  induction k generalizing m' with
  | zero =>
    obtain rfl := Option.some.inj hs
    exact ⟨n, rfl, h⟩
  | succ k ih =>
    obtain ⟨s, hs, hs'⟩ := Machine.after?_add_one_eq_some_iff.mp hs
    obtain ⟨t, ht, hR⟩ := ih (fun most hmost => Nat.le_of_succ_le (hk most hmost)) hs
    obtain ⟨t', ht', hR'⟩ := hstep k s m' t hk hs ht hR hs'
    exact ⟨t', Machine.after?_add_one_eq_some_iff.mpr ⟨t, ht, ht'⟩, hR'⟩

open Exec

/-- What makes related machines stay related, as long as nothing is loaded and no direction is
    drawn. -/
structure Level (R : Machine → Machine → Prop) (E : Fault → Prop) : Prop where
  /-- Related machines have the same cursor ... -/
  cursor_eq : ∀ {m n}, R m n → n.cursor = m.cursor
  /-- ... and the same stack. -/
  stack_eq : ∀ {m n}, R m n → n.stack = m.stack
  /-- The cursor may be changed in both ... -/
  set_cursor : ∀ {m n}, R m n → ∀ cursor, R { m with cursor } { n with cursor }
  /-- ... and so may the stack. -/
  set_stack : ∀ {m n}, R m n → ∀ stack, R { m with stack } { n with stack }
  store : ∀ {m n}, R m n → ∀ p v, Follows R E (Exec.store p v) (Exec.store p v) m n
  readLine : ∀ {m n}, R m n → Follows R E Exec.readLine Exec.readLine m n
  writeInteger : ∀ {m n}, R m n → ∀ v,
    Follows R E (consult (·.writeInteger v)) (consult (·.writeInteger v)) m n
  writeChar : ∀ {m n}, R m n → ∀ c,
    Follows R E (consult (·.writeChar c)) (consult (·.writeChar c)) m n
  flush : ∀ {m n}, R m n → n.console.flush.1 = m.console.flush.1 ∧
    R { m with console := m.console.flush.2 } { n with console := n.console.flush.2 }

namespace Level

variable {R : Machine → Machine → Prop} {E : Fault → Prop} (L : Level R E)
  {m m' n : Machine} {stop : Stop} {left : Nat}

include L

/-! ## Actions on the cursor and the stack -/

theorem here (h : R m n) : Follows R E Exec.here Exec.here m n :=
  ⟨n, by rw [Exec.here, L.cursor_eq h], h⟩

theorem steer (h : R m n) (change : Cursor → Cursor) :
    Follows R E (Exec.steer change) (Exec.steer change) m n :=
  ⟨{ n with cursor := change m.cursor }, by rw [Exec.steer, L.cursor_eq h], L.set_cursor h _⟩

theorem push (h : R m n) (v : Cell) : Follows R E (Exec.push v) (Exec.push v) m n :=
  ⟨{ n with stack := m.stack.push v }, by rw [Exec.push, L.stack_eq h], L.set_stack h _⟩

theorem pop (h : R m n) (op : Char) : Follows R E (Exec.pop op) (Exec.pop op) m n := by
  refine ends_pop.mpr ⟨fun v rest hv => ?_, fun hv => Or.inr ?_⟩
  · exact ⟨{ n with stack := rest }, by simp only [Exec.pop, L.stack_eq h, hv], L.set_stack h rest⟩
  · exact ⟨n, by simp only [Exec.pop, L.stack_eq h, L.cursor_eq h, hv], h⟩

theorem peek (h : R m n) (op : Char) : Follows R E (Exec.peek op) (Exec.peek op) m n := by
  refine ends_peek.mpr ⟨fun v hv => ?_, fun hv => Or.inr ?_⟩
  · exact ⟨n, by simp only [Exec.peek, L.stack_eq h, hv], h⟩
  · exact ⟨n, by simp only [Exec.peek, L.stack_eq h, L.cursor_eq h, hv], h⟩

/-- A fault at the cursor follows itself. -/
theorem fail_here (h : R m n) {α : Type} (fault : Position → Fault) :
    Follows R E (do fail (fault (← Exec.here)) : Exec α) (do fail (fault (← Exec.here))) m n :=
  (L.here h).bind fun _ _ _ h => follows_fail h

/-! ## Instructions -/

/-- Every instruction but the random turn follows itself, if a load does. -/
theorem perform_follows (op : Char) {i : Instruction} (hi : i ≠ .goRandom)
    (hload : i = .load → Follows R E (perform op .load) (perform op .load) m n) (h : R m n) :
    Follows R E (perform op i) (perform op i) m n := by
  cases i with
  | push digit => exact L.push h digit
  | arith a =>
    refine (L.pop h op).bind fun x _ _ h => (L.pop h op).bind fun y _ _ h => ?_
    cases a.apply y x with
    | some v => exact L.push h v
    | none => exact L.fail_here h _
  | not => exact (L.pop h op).bind fun v _ _ h => L.push h _
  | greater => exact (L.pop h op).bind fun a _ _ h => (L.pop h op).bind fun b _ _ h => L.push h _
  | go dir => exact L.steer h (·.turn dir)
  | goRandom => exact absurd rfl hi
  | branchHorizontal => exact (L.pop h op).bind fun v _ _ h => L.steer h _
  | branchVertical => exact (L.pop h op).bind fun v _ _ h => L.steer h _
  | toggleString => exact L.steer h _
  | duplicate => exact (L.peek h op).bind fun v _ _ h => L.push h v
  | swap =>
    exact (L.pop h op).bind fun a _ _ h => (L.pop h op).bind fun b _ _ h =>
      (L.push h a).bind fun _ _ _ h => L.push h b
  | discard => exact (L.pop h op).bind fun _ _ _ h => follows_pure h
  | writeInteger => exact (L.pop h op).bind fun v _ _ h => L.writeInteger h v
  | writeChar => exact (L.pop h op).bind fun v _ _ h => L.writeChar h _
  | skip => exact L.steer h _
  | load => exact hload rfl
  | store =>
    exact (L.pop h op).bind fun y _ _ h => (L.pop h op).bind fun x _ _ h =>
      (L.pop h op).bind fun v _ _ h => L.store h _ v
  | readInteger =>
    refine (L.readLine h).bind fun line _ _ h => ?_
    cases Numeral.cell? (Text.trim line.toList) with
    | some v => exact L.push h v
    | none => exact L.fail_here h _
  | readChar =>
    refine (L.readLine h).bind fun line _ _ h => ?_
    cases line.toList with
    | cons c _ => exact L.push h _
    | nil => exact L.fail_here h _
  | halt | nothing => exact follows_pure h

/-- A dispatch follows itself if its instruction does, or is not performed. -/
theorem dispatch_of_perform (v : Cell) (h : R m n)
    (hperform : (m.cursor.stringMode && v != Cell.quote) = false →
      Follows R E (perform v.toChar (Instruction.decode v)) (perform v.toChar (Instruction.decode v))
        m n) :
    Follows R E (dispatch v) (dispatch v) m n := by
  have hbody : Follows R E
      (if m.cursor.stringMode && v != Cell.quote then Exec.push v
        else perform v.toChar (Instruction.decode v))
      (if m.cursor.stringMode && v != Cell.quote then Exec.push v
        else perform v.toChar (Instruction.decode v)) m n := by
    cases hquoted : m.cursor.stringMode && v != Cell.quote with
    | true => exact L.push h v
    | false => exact hperform hquoted
  have hdispatch := hbody.bind fun _ _ _ h => L.steer h Cursor.advance
  unfold Follows Ends at hdispatch ⊢
  rw [dispatch_apply v m, dispatch_apply v n, L.cursor_eq h]
  exact hdispatch

/-! ## The ends of runs -/

theorem reset (h : R m n) : R m.reset n.reset :=
  L.set_stack (L.set_cursor h Cursor.start) ∅

theorem finish_follows (h : R m n) (limit : Nat) (stop : Stop) :
    ∃ n', n.finish limit stop = ((m.finish limit stop).1, n') ∧ R (m.finish limit stop).2 n' := by
  obtain ⟨hresult, hR⟩ := L.flush h
  cases stop with
  | faulted fault => exact ⟨_, rfl, hR⟩
  | exhausted => exact ⟨_, rfl, hR⟩
  | halted =>
    rw [Machine.finish_halted, Machine.finish_halted, hresult]
    cases m.console.flush.1 with
    | ok _ => exact ⟨_, rfl, L.reset hR⟩
    | error text =>
      refine ⟨{ n with console := n.console.flush.2 }, ?_, hR⟩
      simp only [L.cursor_eq h]

/-! ## Runs, moment by moment -/

/-- If every instruction of a run follows itself, and its stop does, the runs do the same, up to the
    faults in `E`; in particular both end or neither does. -/
theorem run_follows_of_moments {limit : Option Nat} (h : R m n)
    (hstep : ∀ k s s' t, (∀ most, limit = some most → k < most) → m.reset.after? k = some s →
      n.reset.after? k = some t → R s t → s.step? = some s' → ∃ t', t.step? = some t' ∧ R s' t')
    (hstops : ∀ k left stop s s' t, (limit = none ∧ left = 1 ∨ limit = some (k + left)) →
      m.reset.after? k = some s → n.reset.after? k = some t → R s t → s.Stops left stop s' →
      (∃ fault, stop = .faulted fault ∧ E fault) ∨ ∃ t', t.Stops left stop t' ∧ R s' t') :
    RunFollows R E (m.run limit) (n.run limit) := by
  cases hrun : m.run limit with
  | none =>
    cases limit with
    | some limit => nomatch hrun
    | none =>
      -- a run that never ends has a next instruction after any number of them
      have hm := Machine.goOn_eq_none_iff.mp (Option.map_eq_none_iff.mp hrun)
      have hn : n.reset.goOn = none := by
        refine Machine.goOn_eq_none_iff.mpr fun k => ?_
        obtain ⟨m', hm'⟩ := hm k
        obtain ⟨n', hn', -⟩ := after?_follows_of_moments (L.reset h) hstep nofun hm'
        exact ⟨n', hn'⟩
      rw [show n.run none = none from Option.map_eq_none_iff.mpr hn]
      exact .endless
  | some outcome =>
    obtain ⟨result, m'⟩ := outcome
    obtain ⟨k, left, m₁, stop, m₂, hlimit, hk, hs, hfin⟩ := Machine.run_eq_some_iff.mp hrun
    have hwithin : ∀ most, limit = some most → k ≤ most := fun most hmost =>
      Machine.add_left_eq hlimit hmost ▸ Nat.le_add_right k left
    obtain ⟨n₁, hn₁, h₁⟩ := after?_follows_of_moments (L.reset h) hstep hwithin hk
    rcases hstops k left stop m₁ m₂ n₁ hlimit hk hn₁ h₁ hs with
      ⟨fault, rfl, hE⟩ | ⟨n₂, hn₂, h₂⟩
    · -- the last flush does not change the fault, so it is still exempt
      obtain rfl : result = .error fault := (Prod.mk.inj hfin).1.symm
      exact .exempt hE
    · obtain ⟨n', hn', hR⟩ := L.finish_follows h₂ (limit.getD 0) stop
      rw [hfin] at hn' hR
      have hn : n.run limit = some (result, n') :=
        Machine.run_eq_some_iff.mpr ⟨k, left, n₁, stop, n₂, hlimit, hn₁, hn₂, hn'⟩
      rw [hn]
      exact .same hR

end Level

/-- What makes related machines stay related, as long as no direction is drawn. -/
structure Steady (R : Machine → Machine → Prop) (E : Fault → Prop) : Prop extends Level R E where
  load : ∀ {m n}, R m n → ∀ p, Follows R E (Exec.load p) (Exec.load p) m n

namespace Steady

variable {R : Machine → Machine → Prop} {E : Fault → Prop} (L : Steady R E)
  {m m' n : Machine} {stop : Stop} {left : Nat}

include L

/-- Every instruction but the random turn follows itself. -/
theorem perform_follows (op : Char) {i : Instruction} (hi : i ≠ .goRandom) (h : R m n) :
    Follows R E (perform op i) (perform op i) m n := by
  refine L.toLevel.perform_follows op hi (fun _ => ?_) h
  exact (L.pop h op).bind fun y _ _ h => (L.pop h op).bind fun x _ _ h =>
    (L.load h _).bind fun v _ _ h => L.push h v

/-! ## Iterations -/

theorem fetch?_eq_some (h : R m n) {v : Cell} (hf : m.fetch? = some v) : n.fetch? = some v := by
  obtain ⟨n', hn, -⟩ := (ends_load.mp (L.load h m.cursor.pos)).1 v hf
  unfold Machine.fetch?
  rw [L.cursor_eq h]
  unfold Exec.load at hn
  split at hn
  · rename_i w hw
    injection hn with hwv
    rw [hw, hwv]
  · nomatch hn

/-- Outside the field both machines are outside, unless that is exempt. -/
theorem fetch?_eq_none (h : R m n) (hf : m.fetch? = none) :
    E (.outOfField m.cursor.pos m.cursor.pos) ∨ n.fetch? = none := by
  refine ((ends_load.mp (L.load h m.cursor.pos)).2 (Playfield.getElem?_eq_none_iff.mp hf)).imp id ?_
  rintro ⟨n', hn, -⟩
  unfold Machine.fetch?
  rw [L.cursor_eq h]
  unfold Exec.load at hn
  split at hn
  · nomatch hn
  · assumption

/-- Where the first machine stops the second does, if the dispatch that may have stopped it follows
    itself. -/
theorem stops_of_dispatch (h : R m n)
    (hdispatch : ∀ v fault, m.fetch? = some v → dispatch v m = .error fault m' →
      Follows R E (dispatch v) (dispatch v) m n)
    (hs : m.Stops left stop m') :
    (∃ fault, stop = .faulted fault ∧ E fault) ∨ ∃ n', n.Stops left stop n' ∧ R m' n' := by
  cases hs with
  | outside hf =>
    rcases L.fetch?_eq_none h hf with hE | hn
    · exact Or.inl ⟨_, rfl, hE⟩
    · exact Or.inr ⟨n, L.cursor_eq h ▸ .outside hn, h⟩
  | halted hf => exact Or.inr ⟨n, .halted (L.fetch?_eq_some h hf), h⟩
  | exhausted hf hv => exact Or.inr ⟨n, .exhausted (L.fetch?_eq_some h hf) hv, h⟩
  | faulted hf hv hd =>
    rcases (hdispatch _ _ hf hd).of_error hd with hE | ⟨n', hn, hR⟩
    · exact Or.inl ⟨_, rfl, hE⟩
    · exact Or.inr ⟨n', .faulted (L.fetch?_eq_some h hf) hv hn, hR⟩

end Steady

/-- What makes related machines stay related. -/
structure Lockstep (R : Machine → Machine → Prop) (E : Fault → Prop) : Prop extends Steady R E where
  steerRandomly : ∀ {m n}, R m n → Follows R E Exec.steerRandomly Exec.steerRandomly m n

namespace Lockstep

variable {R : Machine → Machine → Prop} {E : Fault → Prop} (L : Lockstep R E)
  {m m' n : Machine} {stop : Stop} {left : Nat}

include L

/-! ## Iterations and runs -/

/-- Every dispatch follows itself. -/
theorem dispatch_follows (v : Cell) (h : R m n) :
    Follows R E (dispatch v) (dispatch v) m n := by
  refine L.dispatch_of_perform v h fun _ => ?_
  by_cases hi : Instruction.decode v = .goRandom
  · rw [hi]
    exact L.steerRandomly h
  · exact L.perform_follows v.toChar hi h

theorem step?_follows (h : R m n) (hs : m.step? = some m') :
    ∃ n', n.step? = some n' ∧ R m' n' := by
  obtain ⟨v, hf, hv, hd⟩ := Machine.step?_eq_some_iff.mp hs
  obtain ⟨n', hn, hR⟩ := (L.dispatch_follows v h).of_ok hd
  exact ⟨n', Machine.step?_eq_some_iff.mpr ⟨v, L.fetch?_eq_some h hf, hv, hn⟩, hR⟩

theorem after?_follows {k : Nat} (h : R m n) (hs : m.after? k = some m') :
    ∃ n', n.after? k = some n' ∧ R m' n' := by
  have hk : ∀ most, (none : Option Nat) = some most → k ≤ most := nofun
  exact after?_follows_of_moments h (fun _ _ _ _ _ _ _ hR hstep => L.step?_follows hR hstep) hk hs

theorem stops_follows (h : R m n) (hs : m.Stops left stop m') :
    (∃ fault, stop = .faulted fault ∧ E fault) ∨ ∃ n', n.Stops left stop n' ∧ R m' n' :=
  L.stops_of_dispatch h (fun v _ _ _ => L.dispatch_follows v h) hs

/-- Allowed the same number of instructions, related machines stop for the same reason. -/
theorem go_follows {k : Nat} (h : R m n) (hgo : m.go k = (stop, m')) :
    (∃ fault, stop = .faulted fault ∧ E fault) ∨ ∃ n', n.go k = (stop, n') ∧ R m' n' := by
  obtain ⟨i, left, m₁, hk, hi, hs⟩ := Machine.go_eq_iff.mp hgo
  obtain ⟨n₁, hn₁, h₁⟩ := L.after?_follows h hi
  refine (L.stops_follows h₁ hs).imp id ?_
  rintro ⟨n', hn', hR⟩
  exact ⟨n', Machine.go_eq_iff.mpr ⟨i, left, n₁, hk, hn₁, hn'⟩, hR⟩

/-- Runs of related machines do the same, up to the faults in `E`; in particular both end or
    neither does. -/
theorem run_follows (h : R m n) (limit : Option Nat) :
    RunFollows R E (m.run limit) (n.run limit) :=
  L.run_follows_of_moments h (fun _ _ _ _ _ _ _ hR hs => L.step?_follows hR hs)
    fun _ _ _ _ _ _ _ _ _ hR hs => L.stops_follows hR hs

end Lockstep

/-! ## Machines that differ in their consoles -/

section consoles

variable {C : Console → Console → Prop} {R : Machine → Machine → Prop} {E : Fault → Prop}
  (hR : ∀ m n, R m n ↔ n.field = m.field ∧ n.stack = m.stack ∧ n.cursor = m.cursor ∧
    n.chance = m.chance ∧ C m.console n.console)

include hR

/-- A call follows itself if it gives the same result and keeps the relation of the consoles. -/
theorem follows_call {m n : Machine} (h : R m n) {α : Type}
    {call : Console → Except String α × Console}
    (hcall : (call n.console).1 = (call m.console).1 ∧ C (call m.console).2 (call n.console).2) :
    Follows R E (consult call) (consult call) m n := by
  obtain ⟨hfield, hstack, hcursor, hchance, -⟩ := (hR m n).mp h
  exact follows_consult hcall.1 hcursor ((hR _ _).mpr ⟨hfield, hstack, hcursor, hchance, hcall.2⟩)

/-- A relation between the consoles alone lasts if the calls keep it. -/
theorem lockstep_of_consoles
    (hread : ∀ {m n}, R m n → Follows R E Exec.readLine Exec.readLine m n)
    (hinteger : ∀ {c d} v, C c d →
      (d.writeInteger v).1 = (c.writeInteger v).1 ∧ C (c.writeInteger v).2 (d.writeInteger v).2)
    (hchar : ∀ {c d} ch, C c d →
      (d.writeChar ch).1 = (c.writeChar ch).1 ∧ C (c.writeChar ch).2 (d.writeChar ch).2)
    (hflush : ∀ {c d}, C c d → d.flush.1 = c.flush.1 ∧ C c.flush.2 d.flush.2) :
    Lockstep R E := by
  have hcursor {m n : Machine} (h : R m n) : n.cursor = m.cursor := ((hR m n).mp h).2.2.1
  have hconsole {m n : Machine} (h : R m n) : C m.console n.console := ((hR m n).mp h).2.2.2.2
  constructor
  case toSteady =>
    refine ⟨?_, fun h p => follows_load h ((hR _ _).mp h).1 (hcursor h) p⟩
    constructor
    case cursor_eq => exact hcursor
    case stack_eq => exact fun h => ((hR _ _).mp h).2.1
    case set_cursor =>
      intro m n h cursor
      obtain ⟨hfield, hstack, -, hchance, hc⟩ := (hR m n).mp h
      exact (hR _ _).mpr ⟨hfield, hstack, rfl, hchance, hc⟩
    case set_stack =>
      intro m n h stack
      obtain ⟨hfield, -, hcursor, hchance, hc⟩ := (hR m n).mp h
      exact (hR _ _).mpr ⟨hfield, rfl, hcursor, hchance, hc⟩
    case store =>
      intro m n h
      obtain ⟨hfield, hstack, hcursor, hchance, hc⟩ := (hR m n).mp h
      exact follows_store h hfield hcursor
        fun _ => (hR _ _).mpr ⟨rfl, hstack, hcursor, hchance, hc⟩
    case readLine => exact hread
    case writeInteger => exact fun h v => follows_call hR h (hinteger v (hconsole h))
    case writeChar => exact fun h ch => follows_call hR h (hchar ch (hconsole h))
    case flush =>
      intro m n h
      obtain ⟨hfield, hstack, hcursor, hchance, hc⟩ := (hR m n).mp h
      exact ⟨(hflush hc).1, (hR _ _).mpr ⟨hfield, hstack, hcursor, hchance, (hflush hc).2⟩⟩
  case steerRandomly =>
    intro m n h
    obtain ⟨hfield, hstack, hcursor, hchance, hc⟩ := (hR m n).mp h
    exact follows_steerRandomly h hchance hcursor
      fun _ _ => (hR _ _).mpr ⟨hfield, hstack, rfl, rfl, hc⟩

end consoles

end Funge
