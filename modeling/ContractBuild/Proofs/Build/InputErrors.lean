import ContractBuild.Proofs.Build.AssemblyOnly
import ContractBuild.Proofs.Build.ErrorSources
import ContractBuild.Proofs.Build.MergedAssembly
import ContractBuild.Proofs.FileSystem.Release

/-!
# Errors of the inputs

A build ends with an error of its inputs if one of them is not accepted, or if something that it needs
is not there, and names the first of these.  It has done nothing by then.  No later step ends with
such an error, whatever the tools have done to the files, unless a tool run is answered with it.
-/

namespace ContractBuild

open Build

/-- Whether an error says that an input is not accepted or that something needed is not there. -/
def BuildError.isOfInputs : BuildError → Bool
  | .unsupportedInput _ | .missingInput _ => true
  | _ => false

/-- The first path whose extension is not accepted. -/
def firstUnsupported? (paths : List Path) : Option Path :=
  paths.find? fun p ↦ (InputKind.ofPath? p).isNone

/-- What a build needs, in the order in which it looks for it: the inputs kind after kind, those of a
kind as on the command line, and the interface description if a contract is to be linked. -/
def BuildOptions.needed (o : BuildOptions) (paths : List Path) : List Path :=
  ([.cxx, .c, .irText, .irBinary, .assembly].flatMap fun kind ↦
    paths.filter fun p ↦ InputKind.ofPath? p = some kind) ++ if o.asmOnly then [] else [o.abi]

variable {σ α β : Type} {tc : Toolchain σ} {o : BuildOptions} {paths : List Path}
  {inputs : ClassifiedInputs} {e : BuildError}

/-! ## The inputs -/

/-- The first path that is not accepted is the error. -/
theorem classifyFrom_eq_error_iff {n : Nat} : classifyFrom n paths = .error e ↔
    ∃ p, firstUnsupported? paths = some p ∧ e = .unsupportedInput p := by
  induction paths generalizing n with
  | nil => simp [classifyFrom, firstUnsupported?]
  | cons p ps ih =>
    unfold classifyFrom firstUnsupported?
    cases hkind : InputKind.ofPath? p with
    | none => simp [hkind, eq_comm]
    | some kind =>
      simp only [List.find?_cons, hkind, Option.isNone_some]
      rw [← firstUnsupported?, ← ih (n := n + 1)]
      cases classifyFrom (n + 1) ps <;> simp [bind, Except.bind, pure, Except.pure]

/-- All inputs are accepted if there is no such path. -/
theorem exists_classify_eq_ok (hall : firstUnsupported? paths = none) :
    ∃ inputs, classify paths = .ok inputs := by
  cases hinputs : classify paths with
  | ok inputs => exact ⟨inputs, rfl⟩
  | error e =>
    obtain ⟨p, hp, -⟩ := classifyFrom_eq_error_iff.mp hinputs
    cases hall.symm.trans hp

/-- What is looked for is what is needed. -/
theorem firstMissing?_eq (hinputs : classify paths = .ok inputs) (h : Host) :
    firstMissing? o h inputs = (o.needed paths).find? fun p ↦ !h.pathExists (o.absolute p) := by
  have kinds : inputs.all.map (·.path) =
      [.cxx, .c, .irText, .irBinary, .assembly].flatMap fun kind ↦
        paths.filter fun p ↦ InputKind.ofPath? p = some kind := by
    simp only [← map_path_ofKind hinputs, List.flatMap_cons, List.flatMap_nil, List.append_nil]
    simp only [ClassifiedInputs.all, ClassifiedInputs.ofKind, List.map_append, List.append_assoc]
  unfold firstMissing? BuildOptions.needed
  rw [kinds]

/-! ## Errors of later steps -/

namespace Build

/-- Whether a step ends with an error of the inputs only if it has just run a tool that failed with
it. -/
def PassesOn (b : Build (σ × List LogEntry) α) : Prop :=
  ∀ s, Ends b s (fun _ _ ↦ True) fun e s' ↦ e.isOfInputs = true → FailedWith e s'.tools.2

theorem PassesOn.andFinally {b : Build (σ × List LogEntry) α}
    {f : Session (σ × List LogEntry) → Session (σ × List LogEntry)} (hb : PassesOn b)
    (hf : ∀ s, (f s).tools = s.tools) : PassesOn (b.andFinally f) :=
  fun s ↦ ends_andFinally.mpr ((hb s).mono (fun _ _ _ ↦ trivial) fun e s' h ↦ by rwa [hf s'])

/-- An error of the inputs is no error of the build's own. -/
theorem Blames.passesOn {b : Build (σ × List LogEntry) α} (hb : Blames BuildError.isOwn b) :
    PassesOn b :=
  fun s ↦ (hb s).mono (fun _ _ _ ↦ trivial) fun e _ h hin ↦
    h.resolve_left fun hown ↦ by cases e <;> simp [BuildError.isOfInputs, BuildError.isOwn] at hin hown

/-! ## Whole builds -/

theorem runIn_checkInputs (o : BuildOptions) (inputs : ClassifiedInputs) (s : Session σ) :
    (checkInputs o inputs).runIn s = match firstMissing? o s.host inputs with
      | some p => (.error (.missingInput p), s)
      | none => (.ok (), s) := by
  unfold checkInputs
  rw [runIn_bind]
  change (match firstMissing? o s.host inputs with
    | some p => (throw (BuildError.missingInput p) : Build σ Unit)
    | none => pure ()).runIn s = _
  cases firstMissing? o s.host inputs <;> rfl

/-- A build of accepted inputs goes on if everything that it needs is there. -/
theorem stages_of_classify_ok (tc : Toolchain σ) (hinputs : classify paths = .ok inputs)
    (s : Session σ) : (stages tc o paths).runIn s =
      match (o.needed paths).find? fun p ↦ !s.host.pathExists (o.absolute p) with
      | some p => (.error (.missingInput p), s)
      | none => (checkedStages tc o inputs).runIn s := by
  unfold stages
  rw [classified_eq hinputs, pure_bind, runIn_bind, runIn_checkInputs, firstMissing?_eq hinputs]
  cases (o.needed paths).find? fun p ↦ !s.host.pathExists (o.absolute p) <;> rfl

theorem runIn_run_of_missing (tc : Toolchain σ) (hinputs : classify paths = .ok inputs)
    {s : Session σ} {p : Path}
    (hp : (o.needed paths).find? (fun p ↦ !s.host.pathExists (o.absolute p)) = some p) :
    (run tc o paths).runIn s = (.error (.missingInput p), s.cleanup) := by
  have stopped := stages_of_classify_ok (o := o) tc hinputs s
  rw [hp] at stopped
  unfold run andFinally
  rw [runIn_ofResult, stopped]

theorem runIn_run_of_complete (tc : Toolchain σ) (hinputs : classify paths = .ok inputs)
    {s : Session σ}
    (hall : (o.needed paths).find? (fun p ↦ !s.host.pathExists (o.absolute p)) = none) :
    (run tc o paths).runIn s = ((checkedStages tc o inputs).andFinally Session.cleanup).runIn s := by
  have checked := stages_of_classify_ok (o := o) tc hinputs s
  rw [hall] at checked
  unfold run andFinally
  rw [runIn_ofResult, runIn_ofResult, checked]

/-- Behind the checks no error of the inputs comes up. -/
theorem PassesOn.checkedStages : PassesOn (checkedStages tc.logging o inputs) :=
  Blames.checkedStages.passesOn

end Build

/-- A session that has just been opened leaves nothing when it is given up. -/
theorem Session.shape_cleanup_of_start {h : Host} (ht : h.tree.Sound) {tools : σ} {s : Session σ}
    (hs : Session.start o tools h = .ok s) (k : Location) :
    s.cleanup.host.tree.shape k = h.tree.shape k := by
  rcases Session.start_cases hs with ⟨-, rfl⟩ | ⟨-, dir, h', hmade, rfl⟩
  · rfl
  · obtain ⟨d, free, houses, confined, -⟩ :=
      Host.houses_makeTemporary ht Host.mem_temporaryStems_build hmade
    have removable := free.removable_of_makeTemporary houses hmade
    change (h'.removeDirectory dir).tree.shape k = _
    by_cases hk : d <+: k
    · rw [Tree.shape, removable.node?_removeDirectory hk, Tree.shape, free.node?_eq_none hk]
    · rw [removable.toHasDirectory.removeDirectory.elsewhere k hk, confined.elsewhere k hk]

namespace Build

/-- A build ends with an error of the inputs exactly if one of them is not accepted, and else exactly
if something needed is not there; it names the first of these.  Then it has run no tool, noted nothing
and reserved nothing, and a session that was opened for it leaves all files as they were before.  It
can only end so otherwise if a tool run is answered with such an error. -/
theorem run_input_error_iff (tc : Toolchain σ) (o : BuildOptions) (paths : List Path) (s : Session σ) :
    let ended := (run tc o paths).runIn s
    let log := history tc o paths s
    let unsupported := firstUnsupported? paths
    let missing := (o.needed paths).find? fun p ↦ !s.host.pathExists (o.absolute p)
    (∀ p, ended.1 = .error (.unsupportedInput p) ∧ ¬ FailedWith (.unsupportedInput p) log ↔
      unsupported = some p) ∧
    (∀ p, ended.1 = .error (.missingInput p) ∧ ¬ FailedWith (.missingInput p) log ↔
      unsupported = none ∧ missing = some p) ∧
    (unsupported ≠ none ∨ missing ≠ none → log = [] ∧ ended.2 = s.cleanup ∧
      ended.2.events = s.events ∧ ended.2.store.created = s.store.created ∧
      ∀ h tools, h.tree.Sound → Session.start o tools h = .ok s →
        ∀ k, ended.2.host.tree.shape k = h.tree.shape k) := by
  intro ended log unsupported missing
  have empty : ¬ ∃ e, FailedWith e [] := fun ⟨e, before, r, heq, _⟩ ↦ by simp at heq
  have nothing (hend : ended.2 = s.cleanup) : ended.2.events = s.events ∧
      ended.2.store.created = s.store.created ∧ ∀ h tools, h.tree.Sound →
        Session.start o tools h = .ok s → ∀ k, ended.2.host.tree.shape k = h.tree.shape k := by
    rw [hend]
    exact ⟨rfl, Session.created_cleanup s, fun h tools ht hs ↦ Session.shape_cleanup_of_start ht hs⟩
  cases hunsupported : unsupported with
  | some p =>
    have failed : classify paths = .error (.unsupportedInput p) :=
      classifyFrom_eq_error_iff.mpr ⟨p, hunsupported, rfl⟩
    have hended : ended = (.error (.unsupportedInput p), s.cleanup) :=
      runIn_run_of_classify_error tc o failed s
    have hlog : log = [] :=
      congrArg (·.2.tools.2) (runIn_run_of_classify_error tc.logging o failed s.withLog)
    refine ⟨fun q ↦ ?_, fun q ↦ ?_, fun _ ↦ ⟨hlog, by rw [hended], nothing (by rw [hended])⟩⟩
    · have none : ¬ FailedWith (.unsupportedInput q) log := fun h ↦ empty ⟨_, hlog ▸ h⟩
      simp [hended, none]
    · simp [hended]
  | none =>
    obtain ⟨inputs, hinputs⟩ := exists_classify_eq_ok hunsupported
    cases hmissing : missing with
    | some p =>
      have hended : ended = (.error (.missingInput p), s.cleanup) :=
        runIn_run_of_missing tc hinputs hmissing
      have hlog : log = [] :=
        congrArg (·.2.tools.2) (runIn_run_of_missing tc.logging (s := s.withLog) hinputs hmissing)
      refine ⟨fun q ↦ ?_, fun q ↦ ?_, fun _ ↦ ⟨hlog, by rw [hended], nothing (by rw [hended])⟩⟩
      · simp [hended]
      · have none : ¬ FailedWith (.missingInput q) log := fun h ↦ empty ⟨_, hlog ▸ h⟩
        simp [hended, none]
    | none =>
      -- an error of the inputs is one that the runner gave
      have passed {e : BuildError} (he : ended.1 = .error e) (hin : e.isOfInputs = true) :
          FailedWith e log := by
        have staged : PassesOn (checkedStages tc.logging o inputs) := .checkedStages
        have whole := staged.andFinally (f := Session.cleanup) (fun _ ↦ rfl) s.withLog
        have failing := (ends_iff.mp whole).2
        rw [← runIn_run_of_complete tc.logging (s := s.withLog) hinputs hmissing] at failing
        have logged := congrArg Prod.fst (runIn_run_eq_logging tc o paths s)
        exact failing e (logged.symm.trans he) hin
      refine ⟨fun q ↦ ?_, fun q ↦ ?_, fun h ↦ by simp at h⟩
      · simpa using fun he : ended.1 = .error (.unsupportedInput q) ↦ passed he rfl
      · simpa using fun he : ended.1 = .error (.missingInput q) ↦ passed he rfl

/-- Of two inputs that are not there, the source comes before the assembly that the command line names
first. -/
theorem run_input_error_iff_sample :
    let paths := [Path.ofString "gone.s", .ofString "main.c", .ofString "gone.c"]
    ∃ s, Session.start BuildOptions.sample () handwritten = .ok s ∧
      ((run Toolchain.idle BuildOptions.sample paths).runIn s).1 =
        .error (.missingInput (.ofString "gone.c")) ∧
      history Toolchain.idle BuildOptions.sample paths s = [] ∧
      ∀ k, ((run Toolchain.idle BuildOptions.sample paths).runIn s).2.host.tree.shape k =
        handwritten.tree.shape k := by
  intro paths
  have accepted : firstUnsupported? paths = none := by decide +kernel
  obtain ⟨s, hs, missing⟩ : ∃ s, Session.start BuildOptions.sample () handwritten = .ok s ∧
      (BuildOptions.sample.needed paths).find?
        (fun p ↦ !s.host.pathExists (BuildOptions.sample.absolute p)) =
          some (.ofString "gone.c") :=
    exists_of_map_decide (by decide +kernel)
  obtain ⟨-, hmissing, nothing⟩ := run_input_error_iff Toolchain.idle BuildOptions.sample paths s
  obtain ⟨hlog, -, -, -, same⟩ := nothing (.inr (by rw [missing]; exact Option.some_ne_none _))
  exact ⟨s, hs, ((hmissing _).mpr ⟨accepted, missing⟩).1, hlog,
    same handwritten () sound_handwritten hs⟩

end Build

end ContractBuild
