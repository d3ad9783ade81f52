/-
  Running again.

  A run starts from a reset machine, reads lines from the front of its queue and writes behind what is
  there.  So what it does is told by the field, the source of directions and the lines it reads:

  1. Cut off in front of the lines it does not read, and from the text of before, a machine does the
     same in a run (`run_cut`).  It would differ only where a line is missing, and there the run has
     taken one more (`Framed.ne_endOfInput`).
  2. Machines with the same field are alike once they are cut off, but for their sources, and a run
     without random turns does not see these (`Drawn.run`).  So it is done again on every machine with
     its field and its lines (`run_again`).
  3. If it leaves the field as it was it can be done again as often as its lines are there
     (`runTimes_again`), whatever else happens in between (`run_repeats`).
-/
import Funge.Proofs.Alike
import Funge.Proofs.Conservation
import Funge.Proofs.Conversation
import Funge.Proofs.Directions
import Funge.Proofs.Locality

namespace Funge

/-! ## The schedule of failures -/

/-- The schedule lasts over instructions ... -/
theorem Machine.failure_of_after? {m m' : Machine} {n : Nat} (h : m.after? n = some m') :
    m'.console.failure = m.console.failure := by
  obtain ⟨calls, hcalls, -⟩ := transcript_of_after? h
  exact hcalls.failure_eq

/-- ... over runs ... -/
theorem Machine.failure_of_run {m m' : Machine} {limit : Option Nat} {result : Except Fault Unit}
    (h : m.run limit = some (result, m')) : m'.console.failure = m.console.failure := by
  obtain ⟨calls, hcalls, -⟩ := transcript_of_run h
  exact hcalls.failure_eq

/-- ... and over whatever else is done to a machine. -/
theorem History.failure_eq {m m' : Machine} {events : List Event} (h : History m events m') :
    m'.console.failure = m.console.failure := by
  induction h with
  | start => rfl
  | snoc _ hlast ih =>
    rw [← ih]
    cases hlast with
    | ran hrun => exact Machine.failure_of_run hrun
    | queued | took => rfl

/-! ## Lines that are missed -/

namespace Exec

variable {m : Machine} {v : Cell} {line : String} {more : List String}

/-- On a console that does not fail, reading takes the line that is queued ... -/
theorem readLine_takes (hfailure : m.console.failure = Failures.none)
    (hpending : m.console.pending = line :: more) :
    Ends readLine (fun _ m' => m'.console.pending = more) (fun _ _ => False) m := by
  have hflush : m.console.flush = (.ok (), m.console.record .flush .flushed) := by
    rw [Console.flush, Console.attempt_eq_of_failure hfailure]
  have hread : (m.console.record .flush .flushed).readLine
      = (.ok (some line), { m.console.record .flush .flushed with pending := more }.record .read
          (.read (some line))) := by
    rw [Console.readLine, Console.attempt_eq_of_failure ((Console.failure_record _ _ _).trans hfailure),
      Console.pending_record, hpending]
    rfl
  refine ends_readLine.mpr ⟨fun c hc => ?_, fun text c hc => ?_⟩
  · rw [hflush] at hc
    obtain rfl := (Prod.mk.inj hc).2
    rw [hread]
    refine ⟨fun l d hd => ?_, by simp, by simp⟩
    rw [← (Prod.mk.inj hd).2]
    exact Console.pending_record _ _ _
  · rw [hflush] at hc
    simp at hc

/-- ... and so does a reading instruction, whether it likes the line or not. -/
theorem dispatch_takes (hi : m.instruction? = some .readInteger ∨ m.instruction? = some .readChar)
    (hf : m.fetch? = some v) (hfailure : m.console.failure = Failures.none)
    (hpending : m.console.pending = line :: more) :
    Ends (dispatch v) (fun _ m' => m'.console.pending = more)
      (fun _ m' => m'.console.pending = more) m := by
  have htakes := readLine_takes hfailure hpending
  rcases hi with h | h
  · rw [Machine.ends_dispatch_of_instruction? h hf]
    exact ends_readInteger.mpr
      (htakes.mono (fun _ _ hm => ⟨fun _ _ => hm, fun _ => hm⟩) fun _ _ hm => hm.elim)
  · rw [Machine.ends_dispatch_of_instruction? h hf]
    exact ends_readChar.mpr
      (htakes.mono (fun _ _ hm => ⟨fun _ _ _ => hm, fun _ => hm⟩) fun _ _ hm => hm.elim)

end Exec

namespace Machine

variable {m m' n n' s : Machine} {limit : Option Nat} {result : Except Fault Unit}
  {lines ahead : List String} {text : String}

/-- A run reads from the front of the queue. -/
theorem pending_of_goWithin {stop : Stop} (h : m.goWithin limit = some (stop, m')) :
    m'.console.pending <:+ m.console.pending := by
  obtain ⟨k, left, m₁, hk, hs⟩ : ∃ k left m₁, m.after? k = some m₁ ∧ Stops left m₁ stop m' := by
    cases limit with
    | none =>
      obtain ⟨k, m₁, hk, hs⟩ := goOn_eq_some_iff.mp h
      exact ⟨k, 1, m₁, hk, hs⟩
    | some limit =>
      obtain ⟨k, left, m₁, -, hk, hs⟩ := go_eq_iff.mp (Option.some.inj h)
      exact ⟨k, left, m₁, hk, hs⟩
  obtain ⟨calls, hcalls, -⟩ := transcript_of_after? hk
  obtain ⟨last, hlast, -⟩ := (hs.hears 0).exists_transcript
  exact ⟨_, (hcalls.append hlast).lines_eq.symm⟩

/-- After some instructions a run goes on as any other. -/
theorem exists_goWithin_of_after? {k : Nat} (h : m.after? k = some s)
    (hk : ∀ n, limit = some n → k ≤ n) : ∃ left, m.goWithin limit = s.goWithin left := by
  induction k generalizing m limit with
  | zero =>
    obtain rfl := Option.some.inj h
    exact ⟨limit, rfl⟩
  | succ k ih =>
    obtain ⟨m₁, hstep, h⟩ := after?_succ_eq_some_iff.mp h
    cases limit with
    | none =>
      obtain ⟨left, hleft⟩ := @ih m₁ none h fun _ hj => nomatch hj
      exact ⟨left, (goWithin_none_of_step hstep).trans hleft⟩
    | some n =>
      obtain ⟨n, rfl⟩ : ∃ j, n = j + 1 := ⟨n - 1, by have := hk n rfl; omega⟩
      obtain ⟨left, hleft⟩ := @ih m₁ (some n) h fun j hj => by
        have := hk (n + 1) rfl
        have := Option.some.inj hj
        omega
      exact ⟨left, (goWithin_succ_of_step hstep).trans hleft⟩

/-- At every moment of a run the lines it will leave are the last ones queued. -/
theorem pending_of_run {k : Nat} (hrun : m.run limit = some (result, m'))
    (h : m.reset.after? k = some s) (hk : ∀ n, limit = some n → k ≤ n) :
    m'.console.pending <:+ s.console.pending := by
  obtain ⟨left, hleft⟩ := exists_goWithin_of_after? h hk
  rw [run_eq_goWithin, hleft] at hrun
  obtain ⟨⟨stop, t⟩, hgo, hfinish⟩ := Option.map_eq_some_iff.mp hrun
  have hpending : m'.console.pending = t.console.pending := by
    rw [← Console.pending_flush t.console, ← console_finish (limit.getD 0) stop, hfinish]
  rw [hpending]
  exact pending_of_goWithin hgo

/-- So a run leaves less than what one of its instructions, obeyed or not, left. -/
theorem pending_of_takes {v : Cell} {k left : Nat} (hrun : m.run limit = some (result, m'))
    (hlimit : limit = none ∧ left + 1 = 1 ∨ limit = some (k + (left + 1)))
    (hs : m.reset.after? k = some s) (hf : s.fetch? = some v) (hv : v ≠ Cell.halt)
    (htakes : Exec.Ends (Exec.dispatch v) (fun _ s' => s'.console.pending = ahead)
      (fun _ s' => s'.console.pending = ahead) s) : m'.console.pending <:+ ahead := by
  cases hd : Exec.dispatch v s with
  | ok _ s' =>
    have hs' : m.reset.after? (k + 1) = some s' :=
      (after?_succ_of_after? hs).trans (step?_eq_some_iff.mpr ⟨v, hf, hv, hd⟩)
    rw [← htakes.of_ok hd]
    refine pending_of_run hrun hs' fun n hn => ?_
    rcases hlimit with ⟨rfl, -⟩ | rfl
    · nomatch hn
    · have := Option.some.inj hn
      omega
  | error fault s' =>
    have hlast : m.run limit = some (s'.finish (limit.getD 0) (.faulted fault)) :=
      run_eq_some_iff.mpr ⟨k, left + 1, s, _, s', hlimit, hs, .faulted hf hv hd, rfl⟩
    have hm' : m' = (s'.finish (limit.getD 0) (.faulted fault)).2 :=
      congrArg Prod.snd (Option.some.inj (hrun.symm.trans hlast))
    rw [hm', console_finish, Console.pending_flush, htakes.of_error hd]

/-- A run that does not read beyond its own lines does not miss them: cut off from the lines behind
    them, it does not meet the end of its input. -/
theorem Framed.ne_endOfInput {calls : List Call} (h : m.Framed ahead text calls n)
    (hahead : ahead ≠ []) (hfailure : n.console.failure = Failures.none)
    (hrun : n.run limit = some (result, n')) (hleft : n'.console.pending = ahead) (pos : Position)
    (m' : Machine) : m.run limit ≠ some (.error (.malformedInput pos .endOfInput), m') := by
  intro hmissed
  obtain ⟨k, left, s, stop, m₂, hlimit, hk, hs, hfin⟩ := run_eq_some_iff.mp hmissed
  have hfault := finish_eq_malformedInput_iff.mp (congrArg Prod.fst hfin)
  cases hs with
  | outside | halted | exhausted => simp [Stop.fault?] at hfault
  | @faulted left _ _ v fault hf hv hd =>
    obtain rfl := Option.some.inj hfault
    -- the instruction that finds no line in the first machine takes one in the second ...
    obtain ⟨hempty, hi⟩ := wantsLine_eq_true_iff.mp (wantsLine_of_dispatch hf hd ⟨pos, rfl⟩)
    obtain ⟨t, ht, hR⟩ := (lockstep_framed ahead text calls).after?_follows
      ((lockstep_framed ahead text calls).reset h) hk
    have hpending : t.console.pending = ahead := by
      rw [hR.console.pending_eq, hempty, List.nil_append]
    obtain ⟨line, more, rfl⟩ := List.exists_cons_of_ne_nil hahead
    have htunfailing : t.console.failure = Failures.none := (failure_of_after? ht).trans hfailure
    have hft : t.fetch? = some v := (lockstep_framed _ text calls).fetch?_eq_some hR hf
    have hit : t.instruction? = s.instruction? := by
      rw [instruction?, instruction?, hft, hf, hR.cursor_eq]
    have htakes := Exec.dispatch_takes (hit ▸ hi) hft htunfailing hpending
    -- ... and the rest of the run gives none back
    have hmore := pending_of_takes hrun hlimit ht hft hv htakes
    rw [hleft] at hmore
    simpa using hmore.length_le

/-! ## Machines cut off -/

/-- The reset machine with some lines queued and nothing written. -/
def cut (m : Machine) (lines : List String) : Machine :=
  { m.reset with console := { m.console with pending := lines, output := "" } }

theorem run_reset (limit : Option Nat) (m : Machine) : m.reset.run limit = m.run limit := by
  cases limit <;> rfl

/-- What was cut off is a frame. -/
theorem framed_cut (h : m.console.pending = lines ++ ahead) :
    (m.cut lines).Framed ahead m.console.output [] m.reset := by
  refine ⟨rfl, rfl, rfl, rfl, h, String.append_empty.symm, rfl, rfl, fun channel => ?_⟩
  cases channel <;> rfl

/-- Machines with the same field and the same source are alike once they are cut off. -/
theorem alike_cut (hm : m.console.failure = Failures.none) (hn : n.console.failure = Failures.none)
    (hfield : n.field = m.field) (hchance : n.chance = m.chance) (lines : List String) :
    Alike (m.cut lines) (n.cut lines) :=
  ⟨hfield, rfl, rfl, hchance, rfl, rfl, hm, hn⟩

/-- A machine cut off in front of the lines it does not read does the same. -/
theorem run_cut (hfailure : m.console.failure = Failures.none)
    (hrun : m.run limit = some (result, m'))
    (hlines : m.console.pending = lines ++ m'.console.pending) :
    ∃ l, (m.cut lines).run limit = some (result, l) ∧
      l.Framed m'.console.pending m.console.output [] m' := by
  have hframed := framed_cut hlines
  have hfollows := (lockstep_framed _ _ _).run_follows hframed limit
  rw [run_reset, hrun] at hfollows
  refine hfollows.of_second.resolve_left ?_
  rintro ⟨fault, l, hcut, hahead, pos, rfl⟩
  exact hframed.ne_endOfInput hahead hfailure ((run_reset limit m).trans hrun) rfl pos l hcut

/-- What a machine that was cut off does is done with any lines ahead. -/
theorem run_of_cut (hrun : (m.cut lines).run limit = some (result, m'))
    (hlines : m.console.pending = lines ++ ahead)
    (hinput : ∀ pos, result ≠ .error (.malformedInput pos .endOfInput)) :
    ∃ n, m.run limit = some (result, n) ∧ m'.Framed ahead m.console.output [] n := by
  have hfollows := (lockstep_framed _ _ _).run_follows (framed_cut hlines) limit
  rw [run_reset, hrun] at hfollows
  refine hfollows.of_first.resolve_left ?_
  rintro ⟨fault, rfl, -, pos, rfl⟩
  exact hinput pos rfl

/-! ## Runs again -/

/-- From machine `n` a run left `n'`: it read the lines in front of `rest`, wrote `text`, and left the
    stack, the cursor and the field of `m'`. -/
structure Redone (m' : Machine) (rest : List String) (text : String) (n n' : Machine) : Prop where
  stack_eq : n'.stack = m'.stack
  cursor_eq : n'.cursor = m'.cursor
  field_eq : n'.field = m'.field
  pending_eq : n'.console.pending = rest
  output_eq : n'.console.output = n.console.output ++ text

/-- The results of so many runs, one right after the other, if they all end. -/
def runTimes (limit : Option Nat) :
    (k : Nat) → Machine → Option (List (Except Fault Unit) × Machine)
  | 0, m => some ([], m)
  | k + 1, m => (m.run limit).bind fun (result, m) =>
      (runTimes limit k m).map fun (results, m) => (result :: results, m)

theorem runTimes_succ {k : Nat} {results : List (Except Fault Unit)} {s : Machine}
    (h : m.run limit = some (result, s)) (hs : s.runTimes limit k = some (results, m')) :
    m.runTimes limit (k + 1) = some (result :: results, m') := by
  simp only [runTimes, h, Option.bind_some, hs, Option.map_some]

/-- A run without random turns is the same on every machine with its field and its lines. -/
theorem run_again {log : List Machine} (hm : m.console.failure = Failures.none)
    (hrun : m.run limit = some (result, m')) (hlog : m.Dispatches limit log) (hdraws : draws log = 0)
    (hlines : m.console.pending = lines ++ m'.console.pending)
    (htext : m'.console.output = m.console.output ++ text)
    (hinput : ∀ pos, result ≠ .error (.malformedInput pos .endOfInput))
    (hn : n.console.failure = Failures.none) (hfield : n.field = m.field)
    (hpending : n.console.pending = lines ++ ahead) :
    ∃ n', n.run limit = some (result, n') ∧ Redone m' ahead text n n' := by
  -- with the source of the second machine the first run is the same
  have hdrawn : Drawn m.chance n.chance 0 m { m with chance := n.chance } :=
    ⟨⟨rfl, rfl, rfl, rfl⟩, rfl, rfl⟩
  obtain ⟨a, -, hrun, -, -, hsame, -⟩ :=
    hdrawn.run (k := 0) (fun i hi => absurd hi (Nat.not_lt_zero i)) hrun hlog (by omega)
  rw [← hsame.console_eq] at hlines htext
  -- it is that of the machine cut off, which is like the second machine cut off
  obtain ⟨b, hb, hba⟩ := run_cut (m := { m with chance := n.chance }) hm hrun hlines
  have hfollows := lockstep_alike.run_follows
    (alike_cut (m := { m with chance := n.chance }) hm hn hfield rfl lines) limit
  rw [hb] at hfollows
  obtain ⟨c, hc, hbc⟩ := hfollows.of_first.resolve_left nofun
  obtain ⟨n', hn', hcn⟩ := run_of_cut hc hpending hinput
  have hwrote : b.console.output = text := by
    have houtput := hba.console.output_eq
    rw [htext] at houtput
    exact (String.append_right_inj _).mp houtput.symm
  have hread : b.console.pending = [] := by
    have hqueue := hba.console.pending_eq
    simpa using hqueue
  refine ⟨n', hn', ?_, ?_, ?_, ?_, ?_⟩
  · rw [hcn.stack_eq, hbc.stack_eq, ← hba.stack_eq, hsame.stack_eq]
  · rw [hcn.cursor_eq, hbc.cursor_eq, ← hba.cursor_eq, hsame.cursor_eq]
  · rw [hcn.field_eq, hbc.field_eq, ← hba.field_eq, hsame.field_eq]
  · rw [hcn.console.pending_eq, hbc.console.pending_eq, hread, List.nil_append]
  · rw [hcn.console.output_eq, hbc.console.output_eq, hwrote]

/-- A run that can be done again on every machine with its lines and the field it leaves can be done any
    number of times, one right after the other. -/
theorem runTimes_again
    (hagain : ∀ n ahead, n.console.failure = Failures.none → n.field = m'.field →
      n.console.pending = lines ++ ahead →
      ∃ n', n.run limit = some (result, n') ∧ Redone m' ahead text n n')
    (k : Nat) (hn : n.console.failure = Failures.none) (hfield : n.field = m'.field)
    (hpending : n.console.pending = (List.replicate (k + 1) lines).flatten ++ ahead) :
    ∃ n', n.runTimes limit (k + 1) = some (List.replicate (k + 1) result, n') ∧
      Redone m' ahead (String.join (List.replicate (k + 1) text)) n n' := by
  induction k generalizing n with
  | zero =>
    obtain ⟨n', hn', hredone⟩ := hagain n ahead hn hfield (by simpa using hpending)
    refine ⟨n', runTimes_succ hn' rfl, ?_⟩
    simpa using hredone
  | succ k ih =>
    rw [List.replicate_succ, List.flatten_cons, List.append_assoc] at hpending
    obtain ⟨s, hs, hfirst⟩ := hagain n _ hn hfield hpending
    obtain ⟨n', hn', hrest⟩ := ih ((failure_of_run hs).trans hn) hfirst.field_eq hfirst.pending_eq
    refine ⟨n', runTimes_succ hs hn', hrest.stack_eq, hrest.cursor_eq, hrest.field_eq,
      hrest.pending_eq, ?_⟩
    rw [hrest.output_eq, hfirst.output_eq, String.append_assoc, List.replicate_succ (n := k + 1),
      String.join_cons]

variable {m m₁ m₂ : Machine} {events : List Event} {limit : Option Nat}
  {result : Except Fault Unit} {log : List Machine} {lines : List String}

/-- **Runs can be repeated.**  Let anything have happened to a machine whose console does not fail, and
    let the next run take no random turn, leave the field as it was and not meet the end of its input.
    Then whatever happens after it, runs with any limits and results among it: where the field is the
    same and the lines this run read are in front of the queue, a run with the same limit has the same
    result, reads these lines, writes the same text and leaves the same stack, cursor and field.  And
    where the lines are there several times, so it is as often, one run right after the other. -/
theorem run_repeats (hm : m.console.failure = Failures.none) (h : History m events m₁)
    (hrun : m₁.run limit = some (result, m₂)) (hlog : m₁.Dispatches limit log) (hdraws : draws log = 0)
    (hlines : m₁.console.pending = lines ++ m₂.console.pending) (hfield : m₂.field = m₁.field)
    (hinput : ∀ pos, result ≠ .error (.malformedInput pos .endOfInput)) :
    ∃ text, m₂.console.output = m₁.console.output ++ text ∧
      ∀ later n, History m₂ later n → n.field = m₁.field →
        (∀ ahead, n.console.pending = lines ++ ahead →
          ∃ n', n.run limit = some (result, n') ∧ Redone m₂ ahead text n n') ∧
        ∀ k ahead, n.console.pending = (List.replicate (k + 1) lines).flatten ++ ahead →
          ∃ n', n.runTimes limit (k + 1) = some (List.replicate (k + 1) result, n') ∧
            Redone m₂ ahead (String.join (List.replicate (k + 1) text)) n n' := by
  have hm₁ : m₁.console.failure = Failures.none := h.failure_eq.trans hm
  obtain ⟨calls, hcalls, -⟩ := transcript_of_run hrun
  have hagain : ∀ n ahead, n.console.failure = Failures.none → n.field = m₂.field →
      n.console.pending = lines ++ ahead →
      ∃ n', n.run limit = some (result, n') ∧ Redone m₂ ahead (textWritten calls) n n' :=
    fun n ahead hn hsame hpending =>
      run_again hm₁ hrun hlog hdraws hlines hcalls.output_eq hinput hn (hsame.trans hfield) hpending
  refine ⟨textWritten calls, hcalls.output_eq, fun later n hlater hsame => ?_⟩
  have hn : n.console.failure = Failures.none :=
    hlater.failure_eq.trans ((failure_of_run hrun).trans hm₁)
  have hsame : n.field = m₂.field := hsame.trans hfield.symm
  exact ⟨fun ahead => hagain n ahead hn hsame, fun k ahead => runTimes_again hagain k hn hsame⟩

/-- The program `1&.@` reads `7` and writes it.  Then `x` and two more of these lines are queued, and a
    run refuses the `x` and leaves its stack behind.  After that the first run can be repeated twice. -/
theorem run_repeats_refused :
    let m := start (Playfield.ofSource "1&.@") (Console.ofLines ["7"] Failures.none)
      (Random.WordSource.ofWords #[])
    ∃ m₂ n n' log, m.run (some 9) = some (.ok (), m₂) ∧
      History m₂ [.queued ["x", "7", "7"],
        .ran (some 9) (.error (.malformedInput ⟨1, 0⟩ (.notAnInteger "x"))) log] n ∧
      n.stack ≠ ∅ ∧ n.runTimes (some 9) 2 = some ([.ok (), .ok ()], n') ∧ n'.stack = m₂.stack ∧
      n'.console.output = "777" := by
  intro m
  obtain ⟨m₂, hrun, hdraws, hread, hwritten, hfield, hrefused, hstack, hsame, hpending, houtput⟩ :
      ∃ m₂, m.run (some 9) = some (.ok (), m₂) ∧ draws (m.reset.dispatched 9) = 0 ∧
        m₂.console.pending = [] ∧ m₂.console.output = "7" ∧ m₂.field = m.field ∧
        ((m₂.queue ["x", "7", "7"]).runFor 9).1
          = .error (.malformedInput ⟨1, 0⟩ (.notAnInteger "x")) ∧
        ((m₂.queue ["x", "7", "7"]).runFor 9).2.stack ≠ ∅ ∧
        ((m₂.queue ["x", "7", "7"]).runFor 9).2.field = m.field ∧
        ((m₂.queue ["x", "7", "7"]).runFor 9).2.console.pending = ["7", "7"] ∧
        ((m₂.queue ["x", "7", "7"]).runFor 9).2.console.output = "7" :=
    ⟨_, run_some_of_runFor (by decide +kernel), by decide +kernel, by decide +kernel,
      by decide +kernel, by decide +kernel, by decide +kernel, by decide +kernel, by decide +kernel,
      by decide +kernel, by decide +kernel⟩
  have hlines : m.console.pending = ["7"] ++ m₂.console.pending := by
    rw [hread]
    rfl
  obtain ⟨text, htext, hrepeats⟩ := run_repeats (m := m) rfl .start hrun rfl hdraws hlines hfield nofun
  have hlater := (History.start.snoc (.queued (m := m₂) ["x", "7", "7"])).snoc
    (.ran (run_some_of_runFor hrefused) rfl)
  obtain ⟨n', htwice, hredone⟩ := (hrepeats _ _ hlater hsame).2 1 [] hpending
  rw [hwritten] at htext
  obtain rfl : text = "7" := (htext.trans String.empty_append).symm
  have hwrote := hredone.output_eq
  rw [houtput] at hwrote
  exact ⟨m₂, _, n', _, hrun, hlater, hstack, htwice, hredone.stack_eq, hwrote⟩

end Machine

end Funge
