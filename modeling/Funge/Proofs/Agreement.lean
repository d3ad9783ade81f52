/-
  The command agrees with the run it stands for.

  A call that runs a program is, beside its messages and its status, the run of a fresh machine on
  a console that holds the lines of the input: `Job.run`.  There are two accounts of the command, the
  function `answer`, which has the whole input beforehand, and `Job.converse`, which asks for it; both
  give the `verdict` on that run.

  1. Read from a text, the input breaks nowhere and its lines are those of the text, so `answer` uses
     the very console of `Job.run` (`console_ofBytes`).
  2. Enough patience is as good as no limit, and none is enough for a program that never stops
     (`exists_enough`, `runFor_exceeds`).
  3. The conversation comes to the same as the run (`Session.play_eq`), and so does its end
     (`converse_eq`).
-/
import Funge.Proofs.Conversation
import Funge.Proofs.InputLines
import Funge.Proofs.StepLimit

namespace Funge

/-- The end of a run writes nothing. -/
theorem Machine.output_finish (limit : Nat) (stop : Stop) (m : Machine) :
    (m.finish limit stop).2.console.output = m.console.output := by
  rw [console_finish, Console.output_flush]

namespace Command

/-! ## The run and what is said of it -/

/-- The run of a job: a fresh machine, on a console that holds the lines of the input. -/
def Job.run (job : Job) (input : String) (entropy : UInt64) :
    Option (Except Fault Unit × Machine) :=
  (job.machine (Console.ofLines (inputLines input) Failures.none) entropy).run
    (job.maxSteps.map UInt64.toNat)

/-- What the command is to do, from the result of the run and the machine it leaves. -/
def Job.verdict (program : String) (job : Job) (result : Except Fault Unit) (m : Machine) :
    Outcome :=
  let out := (if job.echo then job.source ++ "\n" else "") ++ m.console.output ++ "\n"
  match result with
  | .ok () => .exited 0 out ""
  | .error fault => .exited 1 out (Diagnostic.render (some program) m.field fault none)

variable {w : World} {job : Job} {result : Except Fault Unit} {m : Machine} {input : String}

theorem verdict_eq (program : String) (job : Job) (result : Except Fault Unit) (m : Machine) :
    job.verdict program result m
      = .exited (report program m.field result).1 (job.preamble ++ m.console.output ++ "\n")
          (report program m.field result).2 := by
  cases result <;> rfl

/-- A job with a limit has its run. -/
theorem run_of_maxSteps {limit : UInt64} {entropy : UInt64} (h : job.maxSteps = some limit) :
    job.run input entropy
      = some ((job.machine (Console.ofLines (inputLines input) Failures.none) entropy).runFor
          limit.toNat) := by
  rw [Job.run, h]
  rfl

/-! ## Having the input -/

theorem Feed.ofPieces_eq {ps : List (List UInt8)} {lines : List String}
    (h : ps.map Feed.line? = lines.map some) : Feed.ofPieces ps = ⟨lines, false⟩ := by
  induction ps generalizing lines with
  | nil =>
    obtain rfl : lines = [] := List.map_eq_nil_iff.mp h.symm
    rfl
  | cons piece ps ih =>
    cases lines with
    | nil => simp at h
    | cons line lines =>
      obtain ⟨hline, hrest⟩ := List.cons.inj h
      rw [Feed.ofPieces, hline, ih hrest]

/-- The console of an input that is text. -/
theorem console_ofBytes (input : String) :
    (Feed.ofBytes input.toUTF8).console = Console.ofLines (inputLines input) Failures.none := by
  rw [Feed.ofBytes, Feed.ofPieces_eq (map_line?_pieces input), Feed.console]
  refine congrArg (Console.ofLines _) (funext fun channel => funext fun k => if_neg ?_)
  rintro ⟨-, -, hbroken⟩
  cases hbroken

/-- A run that was not cut off is answered with the verdict. -/
theorem answer_of_runFor {patience : Nat} (hinput : w.input = input.toUTF8)
    (h : (job.machine (Console.ofLines (inputLines input) Failures.none) w.entropy).runFor
      ((job.maxSteps.map UInt64.toNat).getD patience) = (result, m))
    (hcut : job.maxSteps = none → ∀ k, result ≠ .error (.stepLimit k)) :
    job.answer patience w = job.verdict w.program result m := by
  rw [Job.answer, hinput, console_ofBytes, h]
  dsimp only
  split
  · rename_i hnone
    exact absurd rfl (hcut hnone _)
  · exact (verdict_eq _ _ _ _).symm

/-- What is answered is the verdict on the run, if there is one and patience is enough. -/
theorem answer_eq (hinput : w.input = input.toUTF8)
    (h : job.run input w.entropy = some (result, m)) :
    ∃ enough, (job.maxSteps ≠ none → enough = 0) ∧
      ∀ patience, enough ≤ patience → job.answer patience w = job.verdict w.program result m := by
  cases hmax : job.maxSteps with
  | some limit =>
    rw [run_of_maxSteps hmax] at h
    refine ⟨0, fun _ => rfl, fun patience _ => answer_of_runFor hinput ?_ ?_⟩
    · rw [hmax]
      exact Option.some.inj h
    · rw [hmax]
      exact fun hnone => absurd hnone (by simp)
  | none =>
    rw [Job.run, hmax] at h
    obtain ⟨enough, henough⟩ := Machine.exists_enough h
    refine ⟨enough, fun hne => absurd rfl hne, fun patience hpatience => ?_⟩
    obtain ⟨hrun, hcut⟩ := henough patience hpatience
    refine answer_of_runFor hinput ?_ fun _ => hcut
    rw [hmax]
    exact hrun

/-- A run that never ends is never answered. -/
theorem answer_unfinished (hinput : w.input = input.toUTF8) (h : job.run input w.entropy = none)
    (patience : Nat) : job.answer patience w = .unfinished := by
  cases hmax : job.maxSteps with
  | some limit =>
    rw [run_of_maxSteps hmax] at h
    cases h
  | none =>
    rw [Job.run, hmax] at h
    have hexceeds := Machine.runFor_exceeds h patience
    rw [Job.answer, hinput, console_ofBytes, hmax, Option.map_none, Option.getD_none]
    generalize Machine.runFor patience _ = r at hexceeds
    obtain ⟨result, m⟩ := r
    obtain rfl : result = .error (.stepLimit patience) := hexceeds
    rfl

/-! ## Asking for the input -/

/-- A conversation comes to the verdict on the run, and to nothing if there is none. -/
theorem converse_eq (hinput : w.input = input.toUTF8) :
    job.converse w = (job.run input w.entropy).map fun (result, m) =>
      job.verdict w.program result m := by
  have hreads : Reads w.input.data.toList (inputLines input) := hinput ▸ map_line?_pieces input
  have hwithin : (Session.start job w.entropy).machine.Within (inputLines input) ""
      (job.machine (Console.ofLines (inputLines input) Failures.none) w.entropy).reset :=
    ⟨[], rfl, rfl, rfl, rfl, rfl, rfl, rfl, rfl, fun channel => by cases channel <;> rfl⟩
  rw [Job.converse, Job.run, Machine.run_eq_goWithin]
  rcases Session.play_eq hreads hwithin with ⟨hplay, hgo⟩ |
    ⟨told, stop, m, n', lines', hplay, hgo, hshown, calls, hframed⟩
  · rw [hplay, show Machine.goWithin (job.maxSteps.map UInt64.toNat) _ = none from hgo]
    rfl
  · rw [hplay, show Machine.goWithin (job.maxSteps.map UInt64.toNat) _ = _ from hgo]
    obtain ⟨n'', hfin, hframed'⟩ := (lockstep_framed lines' told calls).finish_follows hframed
      ((job.maxSteps.map UInt64.toNat).getD 0) stop
    have hout : n''.console.output = told := by
      rw [hframed'.console.output_eq, Machine.output_finish, hshown, String.append_empty]
    simp only [Option.map_some, hfin, verdict_eq, hout, hframed'.field_eq, Job.conclude]

/-! ## Calls of the command -/

/-- A call that runs a program: the command line is understood, asks for no help, names the
    program once, and its text and the settings can be had. -/
structure World.Runs (w : World) (source : String) (o : RunOptions) (settings : Settings) :
    Prop where
  parse_eq : Arguments.parse w.arguments = .ok ⟨false, some o⟩
  help_eq : o.help = false
  source_eq : (o.path = none ∧ o.code = some source) ∨
    ∃ path, o.path = some path ∧ o.code = none ∧ w.files.readText path = .ok source
  settings_eq : w.settings = .ok settings

/-- A call that was understood and runs no program, with its status and its message. -/
inductive World.Idle (w : World) : Arguments → (status : Nat) → (err : String) → Prop
  /-- There is no subcommand. -/
  | usage : Idle w ⟨false, none⟩ 2 (usage w.program)
  /-- Help is asked for before any subcommand. -/
  | help {run : Option RunOptions} : Idle w ⟨true, run⟩ 0 (Command.usage w.program)
  /-- Help is asked for after `run`. -/
  | runHelp {o : RunOptions} (h : o.help = true) : Idle w ⟨false, some o⟩ 0 (runUsage w.program)
  /-- There is no program. -/
  | neither {o : RunOptions} (h : o.help = false) (hpath : o.path = none) (hcode : o.code = none) :
      Idle w ⟨false, some o⟩ 2 (runUsage w.program)
  /-- There are two. -/
  | both {o : RunOptions} {path code : String} (h : o.help = false) (hpath : o.path = some path)
      (hcode : o.code = some code) : Idle w ⟨false, some o⟩ 2
        (w.program ++ ": cannot use PATH together with --code\n" ++ runUsage w.program)
  /-- The program cannot be read. -/
  | unreadable {o : RunOptions} {path : String} {why : ReadFailure} (h : o.help = false)
      (hpath : o.path = some path) (hcode : o.code = none)
      (hwhy : w.files.readText path = .error why) : Idle w ⟨false, some o⟩ 1
        (w.program ++ ": failed to read " ++ path ++ " as UTF-8: " ++ why.message ++ "\n")

theorem source_of_readText {path source : String} (h : w.files.readText path = .ok source) :
    w.source (.file path) = .ok source := by
  rw [World.source, h]
  rfl

theorem source_of_unreadable {path : String} {why : ReadFailure}
    (h : w.files.readText path = .error why) : w.source (.file path) = .error ⟨path, why⟩ := by
  rw [World.source, h]
  rfl

/-- The settings are those of the file that is named, if it can be read. -/
theorem settings_of_readText {path content : String} (hpath : w.env.settingsPath? = some path)
    (hread : w.files.readText path = .ok content) : w.settings = Settings.parse content := by
  rw [World.settings, hpath, Option.map_some, hread]

/-- A call that runs a program answers with its job. -/
theorem answer_of_runs {source : String} {o : RunOptions} {settings : Settings}
    (h : w.Runs source o settings) (patience : Nat) :
    answer patience w = (Job.of source o w.env settings).answer patience w := by
  have hplan : Plan.of w.program w.arguments = Plan.ofRun w.program o := by
    rw [Plan.of, h.parse_eq]
  rw [answer, hplan, Plan.ofRun, if_neg (by rw [h.help_eq]; exact Bool.false_ne_true)]
  rcases h.source_eq with ⟨hpath, hcode⟩ | ⟨path, hpath, hcode, hread⟩
  · simp only [hpath, hcode, World.source, h.settings_eq]
  · simp only [hpath, hcode, source_of_readText hread, h.settings_eq]

/-- With a program to be read, only the settings can prevent the run. -/
theorem runs_or_badSettings {source : String} {o : RunOptions} {origin : Origin}
    (hplan : Plan.of w.program w.arguments = .run origin o) (hsource : w.source origin = .ok source)
    (hruns : ∀ settings, w.settings = .ok settings → w.Runs source o settings) :
    (∃ source o settings, w.Runs source o settings) ∨
      ∃ why, w.settings = .error why ∧ ∀ patience, answer patience w = .badSettings why := by
  cases hsettings : w.settings with
  | ok settings => exact Or.inl ⟨source, o, settings, hruns settings hsettings⟩
  | error why => exact Or.inr ⟨why, rfl, fun _ => by simp only [answer, hplan, hsource, hsettings]⟩

/-- Every call that was understood runs a program, has settings that cannot be used, or says why it
    does neither. -/
theorem answer_cases {a : Arguments} (h : Arguments.parse w.arguments = .ok a) :
    ((∃ source o settings, w.Runs source o settings) ∨
      ∃ why, w.settings = .error why ∧ ∀ patience, answer patience w = .badSettings why) ∨
      ∃ status err, w.Idle a status err ∧ ∀ patience, answer patience w = .exited status "" err := by
  have hexplain {text : String} {status : Nat}
      (hplan : Plan.of w.program w.arguments = .explain text status) (patience : Nat) :
      answer patience w = .exited status "" text := by
    rw [answer, hplan]
  obtain ⟨help, run⟩ := a
  cases help with
  | true =>
    refine Or.inr ⟨0, _, .help, hexplain ?_⟩
    rw [Plan.of, h]
    cases run <;> rfl
  | false =>
    cases run with
    | none => exact Or.inr ⟨2, _, .usage, hexplain (by rw [Plan.of, h]; rfl)⟩
    | some o =>
      have hplan : Plan.of w.program w.arguments = Plan.ofRun w.program o := by rw [Plan.of, h]
      cases hhelp : o.help with
      | true =>
        refine Or.inr ⟨0, _, .runHelp hhelp, hexplain ?_⟩
        rw [hplan, Plan.ofRun, hhelp, if_pos rfl]
      | false =>
        rw [Plan.ofRun, hhelp, if_neg Bool.false_ne_true] at hplan
        cases hpath : o.path with
        | none =>
          cases hcode : o.code with
          | none =>
            refine Or.inr ⟨2, _, .neither hhelp hpath hcode, hexplain ?_⟩
            rw [hplan, hpath, hcode]
          | some code =>
            rw [hpath, hcode] at hplan
            exact Or.inl (runs_or_badSettings hplan rfl
              fun _ hsettings => ⟨h, hhelp, Or.inl ⟨hpath, hcode⟩, hsettings⟩)
        | some path =>
          cases hcode : o.code with
          | some code =>
            refine Or.inr ⟨2, _, .both hhelp hpath hcode, hexplain ?_⟩
            rw [hplan, hpath, hcode]
          | none =>
            rw [hpath, hcode] at hplan
            cases hread : w.files.readText path with
            | ok source =>
              exact Or.inl (runs_or_badSettings hplan (source_of_readText hread)
                fun _ hsettings => ⟨h, hhelp, Or.inr ⟨path, hpath, hcode, hread⟩, hsettings⟩)
            | error why =>
              refine Or.inr ⟨1, _, .unreadable hhelp hpath hcode hread, fun patience => ?_⟩
              simp only [answer, hplan, source_of_unreadable hread]
              rfl

/-! ## The command and the library -/

/-- **The command agrees with the library.**  A call that runs a program, with a text as its input:
    if the run of the job ends, the conversation of the command ends with the verdict on it, and so
    does the answer, for all patience if there is a limit and for enough patience if there is none;
    if the run never ends, neither do the conversation and the answer.  A call that was understood
    and runs no program writes nothing but the message of its case and leaves with the status of
    that case; or the settings cannot be used. -/
theorem answer_agrees (w : World) :
    (∀ source o settings input, w.Runs source o settings → w.input = input.toUTF8 →
      let job := Job.of source o w.env settings
      (∀ result m, job.run input w.entropy = some (result, m) →
        job.converse w = some (job.verdict w.program result m) ∧
          ∃ enough, (job.maxSteps ≠ none → enough = 0) ∧
            ∀ patience, enough ≤ patience →
              answer patience w = job.verdict w.program result m) ∧
      (job.run input w.entropy = none →
        job.converse w = none ∧ ∀ patience, answer patience w = .unfinished)) ∧
    ∀ a, Arguments.parse w.arguments = .ok a →
      ((∃ source o settings, w.Runs source o settings) ∨
        ∃ why, w.settings = .error why ∧ ∀ patience, answer patience w = .badSettings why) ∨
        ∃ status err, w.Idle a status err ∧
          ∀ patience, answer patience w = .exited status "" err := by
  refine ⟨fun source o settings input hruns hinput => ⟨fun result m hrun => ⟨?_, ?_⟩,
    fun hrun => ⟨?_, fun patience => ?_⟩⟩, fun a => answer_cases⟩
  · rw [converse_eq hinput, hrun]
    rfl
  · obtain ⟨enough, hlimited, henough⟩ := answer_eq hinput hrun
    refine ⟨enough, hlimited, fun patience hpatience => ?_⟩
    rw [answer_of_runs hruns]
    exact henough patience hpatience
  · rw [converse_eq hinput, hrun]
    rfl
  · rw [answer_of_runs hruns]
    exact answer_unfinished hinput hrun patience

/-- A call by the name `befunge` from a directory with some texts in it, with some variables in the
    environment. -/
def World.within (texts vars : List (String × String)) (arguments : List String)
    (input : String) : World where
  program := "befunge"
  arguments := arguments
  env := fun name => vars.lookup name
  files := ⟨texts.map fun (name, text) => (["work", name], text.toUTF8), ["work"]⟩
  input := input.toUTF8
  entropy := 0

/-- The machine of a program that adds two numbers from its lines and then wants a third. -/
def adding : Machine :=
  (Job.mk "&&+.&" true (some 9) none).machine
    (Console.ofLines (inputLines "3\r\n4") Failures.none) 0

/-- The program `&&+.&` in a file adds a number from a line with a carriage return to one from a line
    without an end and shows the sum.  Then its input has ended, which is reported.  The step limit
    and the echo are in the settings file.  Without its file the program is not run. -/
theorem answer_agrees_adding :
    (let w := World.within [("sum.bf", "&&+.&"), ("my.toml", "[run]\nmax_steps = 9\necho_source = true")]
        [("BEFUNGE_CONFIG", "my.toml")] ["run", "sum.bf"] "3\r\n4"
      let told := Outcome.exited 1 "&&+.&\n7\n"
        "befunge: Input error: end of input at (4, 0)\n  &&+.&\n      ^\n"
      answer 0 w = told ∧ (Job.mk "&&+.&" true (some 9) none).converse w = some told) ∧
    answer 0 (World.within [] [] ["run", "sum.bf"] "")
      = .exited 1 "" (Unreadable.message ⟨"sum.bf", .missing⟩ "befunge") := by
  have hparse : Arguments.parse ["run", "sum.bf"]
      = .ok ⟨false, some ⟨false, none, some "sum.bf", none, none, false⟩⟩ := by decide +kernel
  constructor
  · intro w told
    have hsource : w.files.readText "sum.bf" = .ok "&&+.&" :=
      FileTree.readText_of_entry? ["work", "sum.bf"] (by decide +kernel) rfl
    have hfile : w.files.readText "my.toml" = .ok "[run]\nmax_steps = 9\necho_source = true" :=
      FileTree.readText_of_entry? ["work", "my.toml"] (by decide +kernel) rfl
    have hsettings : w.settings = .ok ⟨some 9, true, none, Palette.standard⟩ :=
      (settings_of_readText (by decide +kernel) hfile).trans (by decide +kernel)
    have hruns : w.Runs "&&+.&" ⟨false, none, some "sum.bf", none, none, false⟩
        ⟨some 9, true, none, Palette.standard⟩ :=
      ⟨hparse, rfl, Or.inr ⟨"sum.bf", rfl, rfl, hsource⟩, hsettings⟩
    have hrun : Job.run ⟨"&&+.&", true, some 9, none⟩ "3\r\n4" 0
        = some ((adding.runFor (UInt64.toNat 9)).1, (adding.runFor (UInt64.toNat 9)).2) :=
      (run_of_maxSteps rfl).trans (congrArg some (Prod.eta _).symm)
    have hverdict : Job.verdict "befunge" ⟨"&&+.&", true, some 9, none⟩
        (adding.runFor (UInt64.toNat 9)).1 (adding.runFor (UInt64.toNat 9)).2 = told := by
      decide +kernel
    obtain ⟨hends, -⟩ := (answer_agrees w).1 _ _ _ "3\r\n4" hruns rfl
    obtain ⟨hconverse, enough, hlimited, hanswer⟩ := hends _ _ hrun
    obtain rfl := hlimited (by decide)
    exact ⟨(hanswer 0 (Nat.le_refl 0)).trans hverdict, hconverse.trans (congrArg some hverdict)⟩
  · have hmissing : (World.within [] [] ["run", "sum.bf"] "").files.readText "sum.bf"
        = .error .missing := by
      decide +kernel
    rcases (answer_agrees (World.within [] [] ["run", "sum.bf"] "")).2 _ hparse with
      (⟨source, o, settings, h⟩ | ⟨why, hwhy, -⟩) | ⟨status, err, hidle, hanswer⟩
    · obtain rfl : ⟨false, none, some "sum.bf", none, none, false⟩ = o := by
        simpa using hparse.symm.trans h.parse_eq
      rcases h.source_eq with ⟨hpath, -⟩ | ⟨path, hpath, -, hread⟩
      · nomatch hpath
      · obtain rfl := Option.some.inj hpath
        nomatch hmissing.symm.trans hread
    · nomatch hwhy
    · rw [hanswer]
      cases hidle with
      | runHelp h => nomatch h
      | neither _ hpath => nomatch hpath
      | both _ _ hcode => nomatch hcode
      | unreadable _ hpath _ hwhy =>
        obtain rfl := Option.some.inj hpath
        obtain rfl := Except.error.inj (hmissing.symm.trans hwhy)
        rfl

end Command

end Funge
