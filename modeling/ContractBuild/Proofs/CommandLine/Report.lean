import ContractBuild.CommandLine.Run
import ContractBuild.Proofs.Build.InputErrors

/-!
# What the program reports

A program that is called to build something ends with an exit code and a standard output.  This
module says what they tell of the build: how far it came, which tools it started, and what the tool
that failed had printed.

The program's own standard output also has names among the files.  What is written to it by such a
name comes between the lines of the report, so the report is stated for builds in which nothing is.
-/

namespace ContractBuild

open Build CommandLine

/-! ## Lines -/

/-- The line that tells of an event. -/
def Event.line : Event → String
  | .run i => i.line
  | .echo line => line

/-- The lines that tell of events, if they are wanted. -/
def Event.lines (verbose : Bool) (events : List Event) : Bytes :=
  if verbose then events.flatMap fun e ↦ Bytes.ofString (e.line ++ "\n") else []

theorem Event.lines_concat (verbose : Bool) (events : List Event) (e : Event) :
    Event.lines verbose (events ++ [e]) =
      Event.lines verbose events ++ if verbose then Bytes.ofString (e.line ++ "\n") else [] := by
  cases verbose <;> simp [Event.lines]

/-- What is printed at the end: that the build succeeded, what the tool that failed had printed, or
nothing. -/
def BuildOutcome.report : Except BuildError BuildOutcome → String
  | .ok _ => successLine ++ "\n"
  | .error (.toolFailed _ _ output) => output
  | .error _ => ""

/-! ## Processes -/

/-- The process that a tool run has started. -/
def LoggedRun.process (launch : Launcher) (env : Environment) (r : LoggedRun) :
    Except IoError EndedRun :=
  launch env r.invocation (r.before.withTree (Console.empty.collect r.before.tree).2)

/-- What a tool run is answered with. -/
def LoggedRun.answer (launch : Launcher) (env : Environment) (r : LoggedRun) :
    Except BuildError String :=
  match r.process launch env with
  | .ok p => Execution.outcomeOf r.invocation p
  | .error cause => .error (.toolNotStarted r.invocation.program.display cause)

/-- Whether nothing has been written to the program's standard output by one of its names, neither
when a tool was run nor at the end. -/
structure OutputUnnamed (log : List LogEntry) (last : Tree) : Prop where
  /-- Nothing had been when a tool was run. -/
  runs : ∀ r, LogEntry.run r ∈ log → r.before.tree.written 1 = []
  /-- Nothing has been at the end. -/
  last : last.written 1 = []

/-- Whether nothing has been written by name before this. -/
def LogEntry.isUnnamed : LogEntry → Bool
  | .run r => r.before.tree.written 1 = []
  | .echo _ => true

instance (log : List LogEntry) (last : Tree) : Decidable (OutputUnnamed log last) :=
  decidable_of_iff ((∀ x ∈ log, x.isUnnamed = true) ∧ last.written 1 = [])
    ⟨fun h ↦ ⟨fun r hr ↦ of_decide_eq_true (h.1 (.run r) hr), h.2⟩, fun h ↦ ⟨fun x hx ↦ by
      cases x with
      | run r => exact decide_eq_true (h.runs r hx)
      | echo line => rfl, h.last⟩⟩

section Session

variable {launch : Launcher} {verbose : Bool} {env : Environment} {o : BuildOptions}

/-- Taking what has been written by name leaves the standard output as it is, if that is nothing. -/
theorem Console.stdout_collect (c : Console) {t : Tree} (ht : t.written 1 = []) :
    (c.collect t).1.stdout = c.stdout := by
  simp [Console.collect, Tree.takeWritten, ht, Console.print, Console.complain]

/-- Which files a tool finds does not depend on what has been printed. -/
theorem Console.tree_collect (c : Console) (t : Tree) :
    (c.collect t).2 = (Console.empty.collect t).2 := rfl

/-- A tool run is answered by its process, whatever has been printed before. -/
theorem Execution.outcome_reply (i : Invocation) (c : Console) (h : Host) (after : Tree) :
    (reply launch verbose env i c h).outcome =
      LoggedRun.answer launch env ⟨i, h, (reply launch verbose env i c h).outcome, after⟩ := by
  simp only [LoggedRun.answer, LoggedRun.process, ← Console.tree_collect c]
  unfold Execution.reply
  dsimp only
  cases launch env i (h.withTree (c.collect h.tree).2) <;> rfl

/-- Whether a session has printed what its log tells of. -/
structure Session.Reporting (launch : Launcher) (verbose : Bool) (env : Environment)
    (s : Session (Console × List LogEntry)) : Prop where
  /-- The log tells of the events. -/
  events_eq : s.events = s.tools.2.map LogEntry.event
  /-- One line was printed for each event. -/
  printed : (∀ r, LogEntry.run r ∈ s.tools.2 → r.before.tree.written 1 = []) →
    s.tools.1.stdout = Event.lines verbose s.events
  /-- Every tool run was answered by its process. -/
  answered : ∀ r, LogEntry.run r ∈ s.tools.2 → r.outcome = r.answer launch env

namespace Session.Reporting

variable {s : Session (Console × List LogEntry)}

theorem echoed (hs : s.Reporting launch verbose env) (line : String) :
    (s.echoed (Execution.toolchain launch verbose env).logging line).Reporting
      launch verbose env where
  events_eq := by simp [Session.echoed, Toolchain.logging, hs.events_eq]
  printed hquiet := by
    have before := hs.printed fun r hr ↦ hquiet r (List.mem_append_left _ hr)
    rw [events_echoed, Event.lines_concat, ← before]
    cases verbose <;>
      simp [Session.echoed, Toolchain.logging, Execution.toolchain, Execution.note, Event.line,
        Console.printLine, Console.print]
  answered r hr := by
    rcases List.mem_append.mp hr with hr | hr
    · exact hs.answered r hr
    · simp at hr

theorem called (hs : s.Reporting launch verbose env) (i : Invocation) :
    (s.called (Execution.toolchain launch verbose env).logging i).Reporting
      launch verbose env where
  events_eq := by simp [Session.called, Toolchain.logging, hs.events_eq]
  printed hquiet := by
    have before := hs.printed fun r hr ↦ hquiet r (List.mem_append_left _ hr)
    have unnamed : s.host.tree.written 1 = [] :=
      hquiet _ (List.mem_append_right _ (List.mem_singleton.mpr rfl))
    have collected := Console.stdout_collect s.tools.1 unnamed
    rw [events_called, Event.lines_concat, ← before, ← collected]
    simp only [Session.called, Toolchain.logging, Execution.toolchain, Execution.reply]
    split <;> cases verbose <;>
      simp [Execution.note, Event.line, Console.printLine, Console.print, Console.complain]
  answered r hr := by
    rcases List.mem_append.mp hr with hr | hr
    · exact hs.answered r hr
    · obtain rfl := LogEntry.run.inj (List.mem_singleton.mp hr)
      exact Execution.outcome_reply i s.tools.1 s.host _

/-- What a session has printed outlasts what a build does. -/
theorem lasting : Session.Lasting (Execution.toolchain launch verbose env).logging
    (Session.Reporting launch verbose env) where
  echoed _ line hs := hs.echoed line
  put _ _ hs _ := ⟨hs.events_eq, hs.printed, hs.answered⟩
  called _ i hs := hs.called i
  reserved _ _ hs := ⟨hs.events_eq, hs.printed, hs.answered⟩

/-- So does it outlast changes to the files. -/
theorem withHost (hs : s.Reporting launch verbose env) (h : Host) :
    (s.withHost h).Reporting launch verbose env :=
  ⟨hs.events_eq, hs.printed, hs.answered⟩

/-- A whole build has printed what its log tells of. -/
theorem run (hs : s.Reporting launch verbose env) (paths : List Path) :
    ((Build.run (Execution.toolchain launch verbose env).logging o paths).runIn s).2.Reporting
      launch verbose env := by
  have staged : Ends (stages (Execution.toolchain launch verbose env).logging o paths) s _ _ :=
    lasting.stages (lasting.finalLink fun _ h hs ↦ hs.withHost h) paths s hs
  exact (ends_andFinally.mpr (staged.mono
    (fun _ _ hs' ↦ ⟨hs'.events_eq, hs'.printed, hs'.answered⟩)
    fun _ _ hs' ↦ ⟨hs'.events_eq, hs'.printed, hs'.answered⟩)).snd

end Session.Reporting

end Session

/-! ## How a build ends -/

section Run

variable {σ : Type} {tc : Toolchain σ} {o : BuildOptions} {paths : List Path} {e : BuildError}

/-- A session cannot start only if its temporary directory cannot be made. -/
theorem Session.start_eq_error {tools : σ} {h : Host} (he : Session.start o tools h = .error e) :
    o.saveTemps = false ∧ ∃ cause, e = .io .creatingTemporaryDirectory cause := by
  unfold Session.start ArtifactStore.forBuild ArtifactStore.ephemeral at he
  cases hsave : o.saveTemps
  · cases hmade : h.makeTemporary "tvm-build-" with
    | error cause =>
      rw [hsave, hmade] at he
      exact ⟨rfl, cause, (Except.error.inj he).symm⟩
    | ok made =>
      rw [hsave, hmade] at he
      cases he
  · rw [hsave] at he
    cases he

/-- Of two steps in a row that fail, the first or the second has failed. -/
theorem cases_bind_eq_error {ε α β : Type} {x : Except ε α} {f : α → Except ε β} {e : ε}
    (h : (x >>= f) = .error e) : x = .error e ∨ ∃ a, f a = .error e := by
  cases x with
  | error e' =>
    cases h
    exact .inl rfl
  | ok a => exact .inr ⟨a, h⟩

/-- The toolchain is incomplete only if a part of it is given nowhere. -/
theorem ToolPaths.resolve_eq_error {a : ToolOverrides} {env : Environment} {h : Host}
    {bin : Option Path} (he : resolve a env h bin = .error e) :
    ∃ option variableName, e = .unresolvedTool option variableName := by
  have part {part : ToolPart} {e : BuildError} (he : findPart a env h bin part = .error e) :
      ∃ option variableName, e = .unresolvedTool option variableName := by
    unfold findPart at he
    split at he
    · cases he
    · exact ⟨_, _, (Except.error.inj he).symm⟩
  unfold resolve at he
  rcases cases_bind_eq_error he with he | ⟨llvmBin, he⟩
  · exact part he
  rcases cases_bind_eq_error he with he | ⟨linker, he⟩
  · exact part he
  rcases cases_bind_eq_error he with he | ⟨stdlib, he⟩
  · exact part he
  rcases cases_bind_eq_error he with he | ⟨includeDir, he⟩
  · exact part he
  · cases he

namespace Build

/-- A build that stops at an input has done nothing; one that gets past them stops with an error of
its own or with that of the last tool run. -/
theorem cases_run_error {s : Session σ} (he : ((run tc o paths).runIn s).1 = .error e) :
    ((∃ p, firstUnsupported? paths = some p ∧ e = .unsupportedInput p) ∨
      firstUnsupported? paths = none ∧ ∃ p,
        (o.needed paths).find? (fun p ↦ !s.host.pathExists (o.absolute p)) = some p ∧
          e = .missingInput p) ∨
    firstUnsupported? paths = none ∧
      (o.needed paths).find? (fun p ↦ !s.host.pathExists (o.absolute p)) = none ∧
      (e.isOwn = true ∨ FailedWith e (history tc o paths s)) := by
  cases hunsupported : firstUnsupported? paths with
  | some p =>
    have failed : classify paths = .error (.unsupportedInput p) :=
      classifyFrom_eq_error_iff.mpr ⟨p, hunsupported, rfl⟩
    rw [runIn_run_of_classify_error tc o failed s] at he
    exact .inl (.inl ⟨p, rfl, (Except.error.inj he).symm⟩)
  | none =>
    obtain ⟨inputs, hinputs⟩ := exists_classify_eq_ok hunsupported
    cases hmissing : (o.needed paths).find? fun p ↦ !s.host.pathExists (o.absolute p) with
    | some p =>
      rw [runIn_run_of_missing tc hinputs hmissing] at he
      exact .inl (.inr ⟨rfl, p, rfl, (Except.error.inj he).symm⟩)
    | none =>
      refine .inr ⟨rfl, rfl, ?_⟩
      have blames : Blames BuildError.isOwn (checkedStages tc.logging o inputs) := .checkedStages
      have whole := blames.andFinally (f := Session.cleanup) (fun _ ↦ rfl) s.withLog
      rw [runIn_run_eq_logging] at he
      rw [history]
      rw [runIn_run_of_complete tc.logging (s := s.withLog) hinputs hmissing] at he ⊢
      exact (ends_iff.mp whole).2 e he

/-- In the first build of a session all tool runs succeed, but for one that is the last and whose
error is that of the build. -/
theorem stops_run (tc : Toolchain σ) (paths : List Path) {tools : σ} {h : Host} {s : Session σ}
    (hs : Session.start o tools h = .ok s) :
    match ((run tc o paths).runIn s).1 with
    | .ok _ => ∀ x ∈ history tc o paths s, x.Succeeds
    | .error e => StopsWith e (history tc o paths s) := by
  cases hclass : classify paths with
  | error e =>
    have hlog : history tc o paths s = [] :=
      congrArg (·.2.tools.2) (runIn_run_of_classify_error tc.logging o hclass s.withLog)
    rw [runIn_run_of_classify_error tc o hclass s, hlog]
    exact .inl fun x hx ↦ by cases hx
  | ok inputs =>
    obtain ⟨_, _, _, -, -, -, -, -, -, hends⟩ := moves_of_run tc o hs hclass
    generalize ((run tc o paths).runIn s).1 = result at hends ⊢
    cases result with
    | ok outcome => exact hends.2
    | error e => exact hends

end Build

/-! ## How a process ends -/

variable {launch : Launcher} {verbose : Bool} {env : Environment}

/-- What a tool run fails with is no error of the inputs. -/
theorem LoggedRun.isOfInputs_of_answer {r : LoggedRun} (he : r.answer launch env = .error e) :
    e.isOfInputs = false := by
  unfold LoggedRun.answer Execution.outcomeOf at he
  split at he
  · split at he
    · cases he
    · obtain rfl := Except.error.inj he
      rfl
  · obtain rfl := Except.error.inj he
    rfl

/-- A tool run fails as a tool exactly if its process ran to its end and reported failure. -/
theorem LoggedRun.answer_eq_toolFailed_iff {r : LoggedRun} {output : String} :
    (∃ tool status, r.answer launch env = .error (.toolFailed tool status output)) ↔
      ∃ p, r.process launch env = .ok p ∧ p.status.isSuccess = false ∧
        p.stdout.display = output := by
  unfold LoggedRun.answer Execution.outcomeOf
  cases r.process launch env with
  | error cause => simp
  | ok p => cases hp : p.status.isSuccess <;> simp [hp]

end Run

namespace CommandLine

/-! ## The program -/

/-- A build whose tools are processes, in a session. -/
def built (launch : Launcher) (env : Environment) (o : BuildOptions) (paths : List Path)
    (s : Session Console) : Except BuildError BuildOutcome × Session Console :=
  (Build.run (Execution.toolchain launch o.verbose env) o paths).runIn s

/-- The log of such a build. -/
def builtLog (launch : Launcher) (env : Environment) (o : BuildOptions) (paths : List Path)
    (s : Session Console) : List LogEntry :=
  history (Execution.toolchain launch o.verbose env) o paths s

/-- What a result and a standard output tell of a build in session `s`. -/
structure Reports (launch : Launcher) (env : Environment) (o : BuildOptions) (paths : List Path)
    (s : Session Console) (result : Except BuildError BuildOutcome) (stdout : Bytes) : Prop where
  /-- The result is that of the build. -/
  result_eq : result = (built launch env o paths s).1
  /-- An input that is not accepted comes first, then something needed that is not there; in both
  cases nothing has been run or noted.  Nothing else is reported as an error of the inputs. -/
  checked :
    match firstUnsupported? paths,
      (o.needed paths).find? fun p ↦ !s.host.pathExists (o.absolute p) with
    | some p, _ =>
      result = .error (.unsupportedInput p) ∧ (built launch env o paths s).2.events = []
    | none, some p =>
      result = .error (.missingInput p) ∧ (built launch env o paths s).2.events = []
    | none, none => ∀ e, result = .error e → e.isOfInputs = false
  /-- The build fails as a tool exactly if the process of a tool run has reported failure, and then
  with what that had printed. -/
  failed_iff : ∀ output,
    (∃ tool status, result = .error (.toolFailed tool status output)) ↔
      ∃ r p, .run r ∈ builtLog launch env o paths s ∧ r.process launch env = .ok p ∧
        p.status.isSuccess = false ∧ p.stdout.display = output
  /-- The standard output is a line for each event, if that is wanted, and the report. -/
  stdout_eq :
    OutputUnnamed (builtLog launch env o paths s) (built launch env o paths s).2.host.tree →
      stdout = Event.lines o.verbose (built launch env o paths s).2.events ++
        Bytes.ofString (BuildOutcome.report result)

section Started

variable {launch : Launcher} {env : Environment} {o : BuildOptions} {paths : List Path}
  {s : Session Console} {h : Host}

/-- A new session has printed what its empty log tells of. -/
theorem reporting_of_start (hs : Session.start o Console.empty h = .ok s) :
    s.withLog.Reporting launch o.verbose env where
  events_eq := (Session.fresh_of_start hs).1
  printed _ := by
    rcases Session.start_cases hs with ⟨-, rfl⟩ | ⟨-, _, _, -, rfl⟩ <;> cases o.verbose <;> rfl
  answered r hr := by cases hr

/-- A build in a new session has printed a line for each event. -/
theorem stdout_built (hs : Session.start o Console.empty h = .ok s)
    (hout : OutputUnnamed (builtLog launch env o paths s)
      (built launch env o paths s).2.host.tree) :
    (built launch env o paths s).2.tools.stdout =
      Event.lines o.verbose (built launch env o paths s).2.events := by
  rw [built, runIn_run_eq_logging]
  exact ((reporting_of_start hs).run paths).printed hout.runs

/-- The log of a build tells of its events. -/
theorem events_built (hs : Session.start o Console.empty h = .ok s) :
    (built launch env o paths s).2.events =
      (builtLog launch env o paths s).map LogEntry.event := by
  rw [built, runIn_run_eq_logging]
  exact ((reporting_of_start hs).run paths).events_eq

/-- A tool run of a build is answered by its process. -/
theorem outcome_of_mem_builtLog (hs : Session.start o Console.empty h = .ok s) {r : LoggedRun}
    (hr : .run r ∈ builtLog launch env o paths s) : r.outcome = r.answer launch env :=
  ((reporting_of_start hs).run paths).answered r hr

/-- A tool run that failed has ended the build with its error. -/
theorem result_of_failed (hs : Session.start o Console.empty h = .ok s) {r : LoggedRun}
    {e : BuildError} (hr : .run r ∈ builtLog launch env o paths s) (he : r.outcome = .error e) :
    (built launch env o paths s).1 = .error e := by
  have failed : ¬ (LogEntry.run r).Succeeds := by
    rintro ⟨out, hout⟩
    cases he.symm.trans hout
  have stops := stops_run (Execution.toolchain launch o.verbose env) paths hs
  unfold built
  split at stops
  next => exact absurd (stops _ hr) failed
  next e' he' =>
    rcases stops with all | ⟨before, r', hlog, hbefore, hr'⟩
    · exact absurd (all _ hr) failed
    · rw [builtLog, hlog] at hr
      rcases List.mem_append.mp hr with hr | hr
      · exact absurd (hbefore _ hr) failed
      · obtain rfl := LogEntry.run.inj (List.mem_singleton.mp hr)
        rw [he', ← Except.error.inj (he.symm.trans hr')]

/-- The build fails as a tool exactly if a process has reported failure. -/
theorem built_failed_iff (hs : Session.start o Console.empty h = .ok s) (output : String) :
    (∃ tool status, (built launch env o paths s).1 = .error (.toolFailed tool status output)) ↔
      ∃ r p, .run r ∈ builtLog launch env o paths s ∧ r.process launch env = .ok p ∧
        p.status.isSuccess = false ∧ p.stdout.display = output := by
  constructor
  · rintro ⟨tool, status, hresult⟩
    have failed : FailedWith (.toolFailed tool status output)
        (builtLog launch env o paths s) := by
      rcases cases_run_error hresult with (⟨p, -, he⟩ | ⟨-, p, -, he⟩) | ⟨-, -, hown | failed⟩
      · cases he
      · cases he
      · cases hown
      · exact failed
    obtain ⟨before, r, hlog, hr⟩ := failed
    have hmem : .run r ∈ builtLog launch env o paths s := by
      rw [hlog]
      exact List.mem_append_right _ (List.mem_singleton.mpr rfl)
    have answer := (outcome_of_mem_builtLog hs hmem).symm.trans hr
    obtain ⟨p, hp⟩ := LoggedRun.answer_eq_toolFailed_iff.mp ⟨tool, status, answer⟩
    exact ⟨r, p, hmem, hp⟩
  · rintro ⟨r, p, hmem, hp⟩
    obtain ⟨tool, status, answer⟩ := LoggedRun.answer_eq_toolFailed_iff.mpr ⟨p, hp⟩
    exact ⟨tool, status, result_of_failed hs hmem ((outcome_of_mem_builtLog hs hmem).trans answer)⟩

/-- An input that is not accepted comes first, then something needed that is not there. -/
theorem built_checked (hs : Session.start o Console.empty h = .ok s) :
    match firstUnsupported? paths,
      (o.needed paths).find? fun p ↦ !s.host.pathExists (o.absolute p) with
    | some p, _ => (built launch env o paths s).1 = .error (.unsupportedInput p) ∧
      (built launch env o paths s).2.events = []
    | none, some p => (built launch env o paths s).1 = .error (.missingInput p) ∧
      (built launch env o paths s).2.events = []
    | none, none => ∀ e, (built launch env o paths s).1 = .error e → e.isOfInputs = false := by
  have hevents : s.cleanup.events = [] := (Session.fresh_of_start hs).1
  unfold built
  cases hunsupported : firstUnsupported? paths with
  | some p =>
    rw [runIn_run_of_classify_error _ o (classifyFrom_eq_error_iff.mpr ⟨p, hunsupported, rfl⟩) s]
    exact ⟨rfl, hevents⟩
  | none =>
    obtain ⟨inputs, hinputs⟩ := exists_classify_eq_ok hunsupported
    cases hmissing : (o.needed paths).find? fun p ↦ !s.host.pathExists (o.absolute p) with
    | some p =>
      rw [runIn_run_of_missing _ hinputs hmissing]
      exact ⟨rfl, hevents⟩
    | none =>
      intro e he
      rcases cases_run_error he with (⟨p, hp, -⟩ | ⟨-, p, hp, -⟩) | ⟨-, -, hown | failed⟩
      · cases hunsupported.symm.trans hp
      · cases hmissing.symm.trans hp
      · cases e <;> first | rfl | cases hown
      · obtain ⟨before, r, hlog, hr⟩ := failed
        have hmem : .run r ∈ builtLog launch env o paths s := by
          rw [builtLog, hlog]
          exact List.mem_append_right _ (List.mem_singleton.mpr rfl)
        exact LoggedRun.isOfInputs_of_answer ((outcome_of_mem_builtLog hs hmem).symm.trans hr)

end Started

/-- What comes to the standard output when a build is over. -/
theorem Built.stdout_ended (b : Built) :
    b.ended.console.stdout =
      b.console.stdout ++ Bytes.ofString (BuildOutcome.report b.result) := by
  obtain ⟨result, console, host⟩ := b
  cases result with
  | ok outcome => rfl
  | error e =>
    cases e with
    | toolFailed tool status output =>
      by_cases hout : output = "" <;>
        simp [Built.ended, BuildOutcome.report, BuildError.toolOutput?, hout, Console.complainLine,
          Console.complain, Console.print]
    | _ =>
      simp [Built.ended, BuildOutcome.report, BuildError.toolOutput?, Console.complainLine,
        Console.complain, Console.print]

theorem Built.exitCode_ended (b : Built) :
    b.ended.exitCode = match b.result with
      | .ok _ => 0
      | .error _ => 1 := by
  obtain ⟨result, console, host⟩ := b
  cases result <;> rfl

/-- A build that failed before it did anything leaves the host as it was and prints nothing, unless
it is told that a tool has failed. -/
theorem Built.ended_failed {e : BuildError} (h : Host) (he : BuildOutcome.report (.error e) = "") :
    (Built.failed e h).result = .error e ∧ (Built.failed e h).ended.console.stdout = [] ∧
      (Built.failed e h).ended.host = h := by
  refine ⟨rfl, ?_, rfl⟩
  rw [Built.stdout_ended]
  change Console.empty.stdout ++ Bytes.ofString (BuildOutcome.report (.error e)) = []
  rw [he]
  rfl

/-- What a build in a new session leaves is reported. -/
theorem reports_build (launch : Launcher) {env : Environment} {a : Arguments} {bin : Option Path}
    {h : Host} {tools : ToolPaths} {dir : Path} {s : Session Console}
    (htools : ToolPaths.resolve a.tools env h bin = .ok tools) (hdir : h.currentDir = .ok dir)
    (hs : Session.start (a.toOptions tools dir) Console.empty h = .ok s) :
    Reports launch env (a.toOptions tools dir) a.inputs s (a.build launch env bin h).result
      (a.build launch env bin h).ended.console.stdout := by
  have hresult : (a.build launch env bin h).result =
      (built launch env (a.toOptions tools dir) a.inputs s).1 := by
    simp only [Arguments.build, htools, hdir, hs]
    rfl
  have hconsole : (a.build launch env bin h).console =
      ((built launch env (a.toOptions tools dir) a.inputs s).2.tools.collect
        (built launch env (a.toOptions tools dir) a.inputs s).2.host.tree).1 := by
    simp only [Arguments.build, htools, hdir, hs]
    rfl
  refine ⟨hresult, ?_, ?_, fun hout ↦ ?_⟩
  · rw [hresult]
    exact built_checked hs
  · rw [hresult]
    exact built_failed_iff hs
  · rw [Built.stdout_ended, hconsole, Console.stdout_collect _ hout.last, stdout_built hs hout]

/-- A program that is called to build something exits with 0 if the build succeeds and with 1 if it
fails.  It first finds the toolchain, then the current directory, then makes its temporary
directory, if it needs one, and fails with the first of these that is not to be had, with nothing
printed or done; only then it builds, and reports that. -/
theorem run_reports (launch : Launcher) (program : Path) (env : Environment) (args : List Bytes)
    (h : Host) {a : Arguments} (ha : parse args = .ok a) :
    let bin := ToolPaths.installBin? h program
    let result := (a.build launch env bin h).result
    let ended := run launch program env args h
    let stopped (e : BuildError) := result = .error e ∧ ended.console.stdout = [] ∧ ended.host = h
    (ended.exitCode = 0 ↔ ∃ outcome, result = .ok outcome) ∧
    (ended.exitCode = 1 ↔ ∃ e, result = .error e) ∧
    match ToolPaths.resolve a.tools env h bin, h.currentDir with
    | .error e, _ => (∃ option variableName, e = .unresolvedTool option variableName) ∧ stopped e
    | .ok _, .error cause => stopped (.io .readingCurrentDirectory cause)
    | .ok tools, .ok dir =>
      match Session.start (a.toOptions tools dir) Console.empty h with
      | .error e =>
        a.saveTemps = false ∧ (∃ cause, e = .io .creatingTemporaryDirectory cause) ∧ stopped e
      | .ok s => Reports launch env (a.toOptions tools dir) a.inputs s result
          ended.console.stdout := by
  intro bin result ended stopped
  have hended : ended = (a.build launch env bin h).ended := by
    change run launch program env args h = _
    rw [run, ha]
  have hcode := (a.build launch env bin h).exitCode_ended
  rw [← hended] at hcode
  have hstopped {e : BuildError} (hbuild : a.build launch env bin h = .failed e h)
      (he : BuildOutcome.report (.error e) = "") : stopped e := by
    change (a.build launch env bin h).result = _ ∧ ended.console.stdout = [] ∧ ended.host = h
    rw [hended, hbuild]
    exact Built.ended_failed h he
  refine ⟨?_, ?_, ?_⟩
  · rw [hcode]
    change _ ↔ ∃ outcome, (a.build launch env bin h).result = .ok outcome
    split <;> simp_all
  · rw [hcode]
    change _ ↔ ∃ e, (a.build launch env bin h).result = .error e
    split <;> simp_all
  · cases htools : ToolPaths.resolve a.tools env h bin with
    | error e =>
      obtain ⟨option, variableName, rfl⟩ := ToolPaths.resolve_eq_error htools
      exact ⟨⟨option, variableName, rfl⟩, hstopped (by simp only [Arguments.build, htools]) rfl⟩
    | ok tools =>
      cases hdir : h.currentDir with
      | error cause => exact hstopped (by simp only [Arguments.build, htools, hdir]) rfl
      | ok dir =>
        dsimp only
        cases hs : Session.start (a.toOptions tools dir) Console.empty h with
        | error e =>
          obtain ⟨hsave, cause, rfl⟩ := Session.start_eq_error hs
          refine ⟨hsave, ⟨cause, rfl⟩, hstopped ?_ rfl⟩
          simp only [Arguments.build, htools, hdir, hs]
        | ok s =>
          have reports := reports_build launch htools hdir hs
          rwa [← hended] at reports

end CommandLine

/-! ## Samples -/

/-- A launcher whose processes write the same bytes to their outputs and print a line, but for those of
one tool, which print another and fail. -/
def Launcher.failing (name : String) (content : Bytes) : Launcher := fun _ i h ↦
  if i.toolName = name then .ok ⟨.exited 3, Bytes.ofString "no luck", [], h.tree⟩
  else .ok ⟨.exited 0, Bytes.ofString "all is well\n", [],
    ((Toolchain.writing content).run i () h).tree⟩

/-- An environment that names all parts of the toolchain. -/
def Environment.sample : Environment :=
  [("TVM_LLVM_BINARY_DIR", "/llvm"), ("TVM_LINKER", "/bin/tvm_linker"),
    ("TVM_LIBRARY_PATH", "/lib"), ("TVM_INCLUDE_PATH", "/include")]

/-- Where the program lies: in no directory with a toolchain. -/
def Path.program : Path := .ofString "/bin/tvm-build"

/-- The host with a name for the standard output of the program. -/
def Host.namingOutput (h : Host) : Host :=
  h.withTree ((h.tree.addDirectory [Bytes.ofString "dev"] programMode).set
    [Bytes.ofString "dev", Bytes.ofString "stdout"] (.descriptor 1 []))

/-- The toolchain of that environment. -/
def ToolPaths.sample : ToolPaths :=
  ⟨.ofString "/llvm", .ofString "/bin/tvm_linker", .ofString "/lib", .ofString "/include",
    .ofString "/llvm/.."⟩

/-- What `-A wallet.abi -v main.c` says. -/
def CommandLine.Arguments.talkative : Arguments where
  abi := .ofString "wallet.abi"
  inputs := [.ofString "main.c"]
  verbose := true
  saveTemps := false
  output := none
  cflags := none
  cxxflags := none
  linkerFlags := none
  optFlags := none
  asmOnly := false
  inlineLoadsStores := false
  tools := ⟨none, none, none, none⟩

/-- What an event is about. -/
def Event.subject : Event → String
  | .run i => i.toolName
  | .echo line => line

/-- A tool that fails has the last word, and one that succeeded has none. -/
theorem CommandLine.run_reports_sample :
    ∃ a, parse (["-A", "wallet.abi", "-v", "main.c"].map Bytes.ofString) = .ok a ∧
      (CommandLine.run (.failing "llvm-link" (Bytes.ofString "; ir\n")) .program .sample
        (["-A", "wallet.abi", "-v", "main.c"].map Bytes.ofString) handwritten).exitCode = 1 ∧
      ∃ events, events.map Event.subject = ["clang", "llvm-link"] ∧
        (CommandLine.run (.failing "llvm-link" (Bytes.ofString "; ir\n")) .program .sample
          (["-A", "wallet.abi", "-v", "main.c"].map Bytes.ofString) handwritten).console.stdout =
            Event.lines true events ++ Bytes.ofString "no luck" := by
  -- the report of any such build, so that nothing of this one is evaluated
  have report (launch : Launcher) (args : List Bytes) (h : Host) (a : Arguments)
      (tools : ToolPaths) (dir : Path) (s : Session Console) (ha : parse args = .ok a)
      (htools : ToolPaths.resolve a.tools .sample h (ToolPaths.installBin? h .program) = .ok tools)
      (hdir : h.currentDir = .ok dir)
      (hs : Session.start (a.toOptions tools dir) Console.empty h = .ok s)
      (hout : OutputUnnamed (builtLog launch .sample (a.toOptions tools dir) a.inputs s)
        (built launch .sample (a.toOptions tools dir) a.inputs s).2.host.tree)
      (hreport : BuildOutcome.report
        (built launch .sample (a.toOptions tools dir) a.inputs s).1 = "no luck") :
      (CommandLine.run launch .program .sample args h).exitCode = 1 ∧
        (CommandLine.run launch .program .sample args h).console.stdout = Event.lines a.verbose
            ((builtLog launch .sample (a.toOptions tools dir) a.inputs s).map LogEntry.event) ++
          Bytes.ofString "no luck" := by
    obtain ⟨-, hone, hmatch⟩ := run_reports launch .program .sample args h ha
    rw [htools, hdir] at hmatch
    dsimp only at hmatch
    rw [hs] at hmatch
    obtain ⟨hresult, -, -, hstdout⟩ := hmatch
    rw [← hresult] at hreport
    refine ⟨hone.mpr ?_, (hstdout hout).trans ?_⟩
    · cases hr : (a.build launch .sample (ToolPaths.installBin? h .program) h).result with
      | ok outcome =>
        rw [hr] at hreport
        have other : successLine ++ "\n" ≠ "no luck" := by decide
        exact absurd hreport other
      | error e => exact ⟨e, rfl⟩
    · rw [hreport, events_built hs]
      rfl
  obtain ⟨a, ha, hsame⟩ : ∃ a, parse (["-A", "wallet.abi", "-v", "main.c"].map Bytes.ofString) =
      .ok a ∧ a = .talkative :=
    exists_of_map_decide (by decide +kernel)
  obtain ⟨tools, htools, htools'⟩ : ∃ tools, ToolPaths.resolve a.tools .sample handwritten
      (ToolPaths.installBin? handwritten .program) = .ok tools ∧ tools = .sample := by
    rw [hsame]
    exact exists_of_map_decide (by decide +kernel)
  obtain ⟨dir, hdir, hdir'⟩ : ∃ dir, handwritten.currentDir = .ok dir ∧ dir = .ofString "/w" :=
    exists_of_map_decide (by decide +kernel)
  obtain ⟨launch, hlaunch⟩ : ∃ launch, launch = Launcher.failing "llvm-link"
    (Bytes.ofString "; ir\n") := ⟨_, rfl⟩
  obtain ⟨s, hs, hout, hreport, hlog⟩ : ∃ s,
      Session.start (a.toOptions tools dir) Console.empty handwritten = .ok s ∧
      OutputUnnamed (builtLog launch .sample (a.toOptions tools dir) a.inputs s)
        (built launch .sample (a.toOptions tools dir) a.inputs s).2.host.tree ∧
      BuildOutcome.report (built launch .sample (a.toOptions tools dir) a.inputs s).1 = "no luck" ∧
      (builtLog launch .sample (a.toOptions tools dir) a.inputs s).map (·.event.subject) =
        ["clang", "llvm-link"] := by
    rw [hsame, htools', hdir', hlaunch]
    exact exists_of_map_decide (by decide +kernel)
  obtain ⟨hexit, hstdout⟩ :=
    report launch _ handwritten a tools dir s ha htools hdir hs hout hreport
  have hverbose : a.verbose = true := by rw [hsame]; rfl
  rw [hlaunch] at hexit hstdout hlog
  rw [hverbose] at hstdout
  refine ⟨a, ha, hexit, _, ?_, hstdout⟩
  rw [List.map_map]
  exact hlog

/-- Where the output is the program's own standard output by name, the assembly comes there. -/
theorem CommandLine.stdout_with_named_output :
    let args := ["-A", "wallet.abi", "-S", "-o", "/dev/stdout", "main.c"].map Bytes.ofString
    let ended := CommandLine.run (.failing "" (Bytes.ofString "; llc\n")) .program .sample args
      handwritten.namingOutput
    (∃ a, parse args = .ok a ∧ a.verbose = false) ∧ ended.exitCode = 0 ∧
      ended.console.stdout = Bytes.ofString "; llc\nBuild succeeded.\n" ∧
      ended.console.stdout ≠ Bytes.ofString (successLine ++ "\n") :=
  ⟨exists_of_map_decide (by decide +kernel), by decide +kernel, by decide +kernel,
    by decide +kernel⟩

end ContractBuild
