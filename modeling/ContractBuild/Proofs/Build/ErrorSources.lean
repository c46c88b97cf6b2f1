import ContractBuild.Proofs.Build.StageOrder

/-!
# Where errors come from

A build that fails behind its checks fails with the answer to the tool run that it has just made, or
with an error of its own: an operation on files failed, or the report on a contract has no code.
-/

namespace ContractBuild

open Build

/-- Whether an error is one that the steps of a build come to themselves. -/
def BuildError.isOwn : BuildError → Bool
  | .io _ _ | .noCodeLine _ => true
  | _ => false

/-- Whether an error is one that the store comes to when it reserves a file. -/
def BuildError.isOfReserving : BuildError → Bool
  | .io (.creating _) _ | .io .creatingArtifact _ => true
  | _ => false

theorem BuildError.isOwn_of_isOfReserving {e : BuildError} (he : e.isOfReserving = true) :
    e.isOwn = true := by
  unfold isOfReserving at he
  split at he
  · rfl
  · rfl
  · cases he

/-- Whether the last thing on a log is a tool run that failed with an error. -/
def FailedWith (e : BuildError) (log : List LogEntry) : Prop :=
  ∃ before r, log = before ++ [.run r] ∧ r.outcome = .error e

variable {σ α β : Type} {tc : Toolchain σ} {o : BuildOptions} {inputs : ClassifiedInputs}
  {e : BuildError}

namespace Build

/-- Everything behind the checks. -/
def checkedStages (tc : Toolchain σ) (o : BuildOptions) (inputs : ClassifiedInputs) :
    Build σ BuildOutcome := do
  let asm ← assembleAll tc o inputs
  if o.asmOnly then
    return .assembly (← emitAssembly tc o asm)
  else
    linkAll tc o asm

/-- Whether a step that fails does so with an error of its own, which is one of these, or with that
of the tool run that it has just made. -/
def Blames (own : BuildError → Bool) (b : Build (σ × List LogEntry) α) : Prop :=
  ∀ s, Ends b s (fun _ _ ↦ True) fun e s' ↦ own e = true ∨ FailedWith e s'.tools.2

namespace Blames

variable {own : BuildError → Bool}

theorem pure (a : α) : Blames own (pure a : Build (σ × List LogEntry) α) := fun _ ↦ trivial

theorem throw (he : own e = true) :
    Blames own (throw e : Build (σ × List LogEntry) α) := fun _ ↦ .inl he

theorem bind {b : Build (σ × List LogEntry) β} {f : β → Build (σ × List LogEntry) α}
    (hb : Blames own b) (hf : ∀ a, Blames own (f a)) : Blames own (b >>= f) :=
  fun s ↦ (hb s).bind fun a s' _ ↦ hf a s'

theorem andFinally {b : Build (σ × List LogEntry) α}
    {f : Session (σ × List LogEntry) → Session (σ × List LogEntry)} (hb : Blames own b)
    (hf : ∀ s, (f s).tools = s.tools) : Blames own (b.andFinally f) :=
  fun s ↦ ends_andFinally.mpr ((hb s).mono (fun _ _ _ ↦ trivial) fun e s' h ↦ by rwa [hf s'])

theorem host : Blames own (host : Build (σ × List LogEntry) Host) := fun _ ↦ trivial

theorem echo (line : String) : Blames own (echo tc.logging line) := fun _ ↦ trivial

theorem tool (i : Invocation) : Blames own (tool tc.logging i) :=
  fun _ ↦ ends_tool.mpr ⟨fun _ _ ↦ trivial, fun _ he ↦ .inr ⟨_, _, rfl, he⟩⟩

/-- A step with few errors of its own has no others. -/
theorem mono {own' : BuildError → Bool} {b : Build (σ × List LogEntry) α} (hb : Blames own b)
    (hown : ∀ e, own e = true → own' e = true) : Blames own' b :=
  fun s ↦ (hb s).mono (fun _ _ ↦ id) fun e _ he ↦ he.imp_left (hown e)

theorem value (a : Activity) (r : Except IoError α) :
    Blames BuildError.isOwn (value a r : Build (σ × List LogEntry) α) :=
  fun _ ↦ ends_value.mpr ⟨fun _ _ ↦ trivial, fun _ _ ↦ .inl rfl⟩

theorem change (a : Activity) (r : Except IoError Host) :
    Blames BuildError.isOwn (change a r : Build (σ × List LogEntry) Unit) :=
  fun _ ↦ ends_change.mpr ⟨fun _ _ ↦ trivial, fun _ _ ↦ .inl rfl⟩

theorem settle (a : Activity) (r : Except IoError Unit × Host) :
    Blames BuildError.isOwn (settle a r : Build (σ × List LogEntry) Unit) :=
  fun _ ↦ ends_settle.mpr ⟨fun _ _ ↦ trivial, fun _ _ _ ↦ .inl rfl⟩

theorem reserve (kind : ArtifactKind) :
    Blames BuildError.isOfReserving (reserve kind : Build (σ × List LogEntry) Path) := by
  intro s
  refine ends_reserve.mpr ⟨fun _ _ ↦ trivial, fun e he ↦ .inl ?_⟩
  unfold ArtifactStore.reserve at he
  split at he
  · obtain rfl := Except.error.inj he
    rfl
  · split at he
    · cases he
    · obtain rfl := Except.error.inj he
      rfl

theorem openLinkDir : Blames BuildError.isOwn (openLinkDir : Build (σ × List LogEntry) LinkDir) := by
  intro s
  unfold Ends Build.openLinkDir
  rw [runIn_ofResult]
  cases hopen : s.store.openLinkDir s.host with
  | ok opened => trivial
  | error e =>
    refine .inl ?_
    unfold ArtifactStore.openLinkDir at hopen
    split at hopen
    · cases hopen
    · split at hopen
      · cases hopen
      · obtain rfl := Except.error.inj hopen
        rfl

/-! ### The stages -/

theorem produce (kind : ArtifactKind) (command : Path → Invocation) :
    Blames BuildError.isOfReserving (produce tc.logging o kind command) :=
  (reserve kind).bind fun _ ↦ (tool _).bind fun _ ↦ pure _

theorem modulesOf (kind : ArtifactKind) (command : BuildOptions → Path → Path → Invocation)
    (files : List InputFile) :
    Blames BuildError.isOfReserving (modulesOf tc.logging o kind command files) := by
  induction files with
  | nil => exact pure _
  | cons f fs ih =>
    have first : Blames BuildError.isOfReserving (moduleOf tc.logging o kind command f) :=
      (produce kind _).bind fun _ ↦ pure _
    exact first.bind fun _ ↦ ih.bind fun _ ↦ pure _

theorem compileSources : Blames BuildError.isOfReserving (compileSources tc.logging o inputs) :=
  (modulesOf _ _ _).bind fun _ ↦ (modulesOf _ _ _).bind fun _ ↦ pure _

/-- Up to the lowered module a step fails when a file is reserved, or with its tool. -/
theorem lowered : Blames BuildError.isOfReserving (lowered tc.logging o inputs) :=
  compileSources.bind fun _ ↦ (modulesOf _ _ _).bind fun _ ↦ (produce _ _).bind fun _ ↦
    (produce _ _).bind fun _ ↦ (produce _ _).bind fun _ ↦ produce _ _

theorem appendInputs (asm : Path) (l : Location) (files : List InputFile) :
    Blames BuildError.isOwn (appendInputs o asm l files : Build (σ × List LogEntry) Unit) := by
  induction files with
  | nil => exact pure _
  | cons f fs ih =>
    exact host.bind fun _ ↦ (value _ _).bind fun _ ↦ host.bind fun _ ↦ (change _ _).bind fun _ ↦ ih

theorem mergeAssembly (asm : Path) :
    Blames BuildError.isOwn (mergeAssembly tc.logging o asm inputs) := by
  unfold Build.mergeAssembly
  split
  · exact pure _
  · exact (echo _).bind fun _ ↦ host.bind fun _ ↦ (value _ _).bind fun _ ↦ appendInputs _ _ _

theorem assembleAll : Blames BuildError.isOwn (assembleAll tc.logging o inputs) := by
  rw [assembleAll_eq]
  exact (lowered.mono fun _ ↦ BuildError.isOwn_of_isOfReserving).bind fun asm ↦
    (mergeAssembly asm).bind fun _ ↦ pure _

theorem copy (source : Path) (shown : String) (dest : Path) :
    Blames BuildError.isOwn (copy tc.logging source shown dest) :=
  (echo _).bind fun _ ↦ host.bind fun _ ↦ settle _ _

theorem emitAssembly (asm : Path) : Blames BuildError.isOwn (emitAssembly tc.logging o asm) := by
  refine host.bind fun h ↦ ?_
  split
  · exact pure _
  · exact (copy _ _ _).bind fun _ ↦ pure _

theorem copyOut (dir : Path) (target : OutputTarget) (linked : Option Name) :
    Blames BuildError.isOwn (copyOut tc.logging dir target linked) := by
  have each (names : List Name) :
      Blames BuildError.isOwn (copyEach tc.logging dir target linked names) := by
    induction names with
    | nil => exact pure _
    | cons n ns ih => exact (copy _ _ _).bind fun _ ↦ ih
  exact host.bind fun _ ↦ (value _ _).bind fun _ ↦ each _

theorem finalLink (asm : Path) : Blames BuildError.isOwn (finalLink tc.logging o asm) := by
  have linkIn (dir : LinkDir) : Blames BuildError.isOwn (linkIn tc.logging o dir asm) := by
    rcases dir with p | p
    · exact (echo _).bind fun _ ↦ (tool _).bind fun _ ↦ (copyOut _ _ _).bind fun _ ↦ pure _
    · exact (tool _).bind fun _ ↦ pure _
  exact openLinkDir.bind fun dir ↦ (linkIn dir).andFinally fun _ ↦ rfl

theorem extractCode (contract : Path) :
    Blames BuildError.isOwn (extractCode tc.logging o contract) := by
  refine (tool _).bind fun report ↦ ?_
  split
  · exact throw rfl
  · exact host.bind fun _ ↦ (change _ _).bind fun _ ↦ pure _

theorem linkAll (asm : Path) : Blames BuildError.isOwn (linkAll tc.logging o asm) := by
  refine (finalLink asm).bind fun target ↦ ?_
  cases target with
  | file p => exact (extractCode p).bind fun _ ↦ pure _
  | directory p => exact pure _

theorem checkedStages : Blames BuildError.isOwn (checkedStages tc.logging o inputs) := by
  refine assembleAll.bind fun asm ↦ ?_
  split
  · exact (emitAssembly asm).bind fun _ ↦ pure _
  · exact linkAll asm

end Blames

end Build

end ContractBuild
