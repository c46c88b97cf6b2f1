import ContractBuild.Proofs.Build.Ends

/-!
# Builds with a log

A toolchain can be made to keep a log of what it is asked to do: for each tool run the host before
it, the answer and the files after it.  A build cannot look into the state of its toolchain, so
the log changes nothing: `history` is the log of any build, whatever runs its tools.
-/

namespace ContractBuild

variable {σ τ α β : Type}

/-- A tool run as the toolchain saw it. -/
structure LoggedRun where
  /-- What was run. -/
  invocation : Invocation
  /-- The host before the run. -/
  before : Host
  /-- What the tool printed, or why the run failed. -/
  outcome : Except BuildError String
  /-- The files after the run. -/
  after : Tree

/-- What a toolchain was asked to do. -/
inductive LogEntry
  /-- It ran a tool. -/
  | run (r : LoggedRun)
  /-- It took note of this line. -/
  | echo (line : String)

namespace LogEntry

/-- The event that an entry tells of. -/
def event : LogEntry → Event
  | .run r => .run r.invocation
  | .echo line => .echo line

/-- Whether nothing failed.  Taking note of a line never fails. -/
def Succeeds : LogEntry → Prop
  | .run r => ∃ out, r.outcome = .ok out
  | .echo _ => True

@[simp] theorem event_run (r : LoggedRun) : event (.run r) = .run r.invocation := rfl

@[simp] theorem event_echo (line : String) : event (.echo line) = .echo line := rfl

end LogEntry

/-- The toolchain that keeps a log beside its state. -/
def Toolchain.logging (tc : Toolchain σ) : Toolchain (σ × List LogEntry) where
  run i st h :=
    let reply := tc.run i st.1 h
    { outcome := reply.outcome
      state := (reply.state, st.2 ++ [.run ⟨i, h, reply.outcome, reply.tree⟩])
      tree := reply.tree }
  echo line st := (tc.echo line st.1, st.2 ++ [.echo line])

/-- The session with another state of the toolchain. -/
def Session.mapTools (f : σ → τ) (s : Session σ) : Session τ :=
  ⟨s.host, s.store, f s.tools, s.events⟩

/-- The session whose toolchain starts a log. -/
def Session.withLog (s : Session σ) : Session (σ × List LogEntry) := s.mapTools fun st ↦ (st, [])

/-- The log of a whole build. -/
def Build.history (tc : Toolchain σ) (o : BuildOptions) (paths : List Path) (s : Session σ) :
    List LogEntry :=
  ((run tc.logging o paths).runIn s.withLog).2.tools.2

/-! ## Builds do not look into the state of the toolchain -/

/-- `f` carries the state of one toolchain to that of another which answers alike. -/
structure Toolchain.Carried (f : σ → τ) (tc : Toolchain σ) (tc' : Toolchain τ) : Prop where
  /-- Tool runs are answered alike. -/
  run : ∀ i st h, tc'.run i (f st) h =
    ⟨(tc.run i st h).outcome, f (tc.run i st h).state, (tc.run i st h).tree⟩
  /-- Lines are noted alike. -/
  echo : ∀ line st, tc'.echo line (f st) = f (tc.echo line st)

/-- Forgetting the log gives the toolchain back. -/
theorem Toolchain.carried_logging (tc : Toolchain σ) : Carried Prod.fst tc.logging tc :=
  ⟨fun _ _ _ ↦ rfl, fun _ _ ↦ rfl⟩

namespace Build

/-- `f` carries what one step does to what the other does. -/
def Carried (f : σ → τ) (b : Build σ α) (b' : Build τ α) : Prop :=
  ∀ s, b'.runIn (s.mapTools f) = ((b.runIn s).1, (b.runIn s).2.mapTools f)

variable {f : σ → τ}

theorem carried_pure (a : α) : Carried f (pure a) (pure a) := fun _ ↦ rfl

theorem carried_throw (e : BuildError) :
    Carried f (throw e : Build σ α) (throw e : Build τ α) := fun _ ↦ rfl

theorem Carried.bind {b : Build σ β} {b' : Build τ β} {g : β → Build σ α} {g' : β → Build τ α}
    (hb : Carried f b b') (hg : ∀ a, Carried f (g a) (g' a)) :
    Carried f (b >>= g) (b' >>= g') := by
  intro s
  rw [runIn_bind, runIn_bind, hb s]
  rcases b.runIn s with ⟨r, s'⟩
  cases r with
  | ok a => exact hg a s'
  | error e => rfl

theorem Carried.andFinally {b : Build σ α} {b' : Build τ α} {g : Session σ → Session σ}
    {g' : Session τ → Session τ} (hb : Carried f b b')
    (hg : ∀ s, g' (s.mapTools f) = (g s).mapTools f) :
    Carried f (b.andFinally g) (b'.andFinally g') := by
  intro s
  unfold Build.andFinally
  rw [runIn_ofResult, runIn_ofResult, hb s]
  rcases b.runIn s with ⟨r, s'⟩
  exact congrArg (Prod.mk r) (hg s')

theorem carried_host : Carried f host host := fun _ ↦ rfl

theorem carried_change (a : Activity) (r : Except IoError Host) :
    Carried f (change a r) (change a r) := by
  intro s
  cases r <;> rfl

theorem carried_settle (a : Activity) (r : Except IoError Unit × Host) :
    Carried f (settle a r) (settle a r) := fun _ ↦ rfl

theorem carried_value (a : Activity) (r : Except IoError α) :
    Carried f (value a r) (value a r) := by
  intro s
  cases r <;> rfl

theorem carried_reserve (kind : ArtifactKind) : Carried f (reserve kind) (reserve kind) :=
  fun _ ↦ rfl

theorem carried_openLinkDir : Carried f openLinkDir openLinkDir := by
  intro s
  simp only [openLinkDir, runIn_ofResult, Session.mapTools]
  cases s.store.openLinkDir s.host <;> rfl

theorem carried_appendInputs (o : BuildOptions) (asm : Path) (l : Location) (fs : List InputFile) :
    Carried f (appendInputs o asm l fs) (appendInputs o asm l fs) := by
  induction fs with
  | nil => exact carried_pure _
  | cons file fs ih =>
      refine carried_host.bind fun h ↦ (carried_value _ _).bind fun content ↦ ?_
      exact carried_host.bind fun h ↦ (carried_change _ _).bind fun _ ↦ ih

variable {tc : Toolchain σ} {tc' : Toolchain τ} (htc : tc.Carried f tc') (o : BuildOptions)

include htc

theorem carried_tool (i : Invocation) : Carried f (tool tc i) (tool tc' i) := by
  intro s
  simp only [tool, runIn_ofResult, Session.mapTools, htc.run]

theorem carried_echo (line : String) : Carried f (echo tc line) (echo tc' line) := by
  intro s
  change (Except.ok (), Session.mk _ _ (tc'.echo line (f s.tools)) _) = _
  rw [htc.echo]
  rfl

theorem carried_produce (kind : ArtifactKind) (command : Path → Invocation) :
    Carried f (produce tc o kind command) (produce tc' o kind command) :=
  (carried_reserve kind).bind fun _ ↦ (carried_tool htc _).bind fun _ ↦ carried_pure _

theorem carried_modulesOf (kind : ArtifactKind)
    (command : BuildOptions → Path → Path → Invocation) (fs : List InputFile) :
    Carried f (modulesOf tc o kind command fs) (modulesOf tc' o kind command fs) := by
  induction fs with
  | nil => exact carried_pure _
  | cons file fs ih =>
      refine Carried.bind ?_ fun _ ↦ ih.bind fun _ ↦ carried_pure _
      exact (carried_produce htc o kind _).bind fun _ ↦ carried_pure _

theorem carried_compileSources (inputs : ClassifiedInputs) :
    Carried f (compileSources tc o inputs) (compileSources tc' o inputs) :=
  (carried_modulesOf htc o _ _ _).bind fun _ ↦
    (carried_modulesOf htc o _ _ _).bind fun _ ↦ carried_pure _

theorem carried_mergeAssembly (asm : Path) (inputs : ClassifiedInputs) :
    Carried f (mergeAssembly tc o asm inputs) (mergeAssembly tc' o asm inputs) := by
  unfold mergeAssembly
  cases inputs.assembly with
  | nil => exact carried_pure _
  | cons file fs =>
      refine (carried_echo htc _).bind fun _ ↦ carried_host.bind fun h ↦ ?_
      exact (carried_value _ _).bind fun l ↦ carried_appendInputs o asm l _

theorem carried_assembleAll (inputs : ClassifiedInputs) :
    Carried f (assembleAll tc o inputs) (assembleAll tc' o inputs) := by
  refine (carried_compileSources htc o inputs).bind fun _ ↦ ?_
  refine (carried_modulesOf htc o _ _ _).bind fun _ ↦ ?_
  refine (carried_produce htc o _ _).bind fun _ ↦ (carried_produce htc o _ _).bind fun _ ↦ ?_
  refine (carried_produce htc o _ _).bind fun _ ↦ (carried_produce htc o _ _).bind fun asm ↦ ?_
  exact (carried_mergeAssembly htc o asm inputs).bind fun _ ↦ carried_pure _

theorem carried_copy (source : Path) (shown : String) (dest : Path) :
    Carried f (copy tc source shown dest) (copy tc' source shown dest) :=
  (carried_echo htc _).bind fun _ ↦ carried_host.bind fun _ ↦ carried_settle _ _

theorem carried_emitAssembly (asm : Path) :
    Carried f (emitAssembly tc o asm) (emitAssembly tc' o asm) := by
  refine carried_host.bind fun h ↦ ?_
  split
  · exact carried_pure _
  · exact (carried_copy htc _ _ _).bind fun _ ↦ carried_pure _

theorem carried_copyEach (dir : Path) (target : OutputTarget) (linked : Option Name)
    (ns : List Name) :
    Carried f (copyEach tc dir target linked ns) (copyEach tc' dir target linked ns) := by
  induction ns with
  | nil => exact carried_pure _
  | cons n ns ih => exact (carried_copy htc _ _ _).bind fun _ ↦ ih

theorem carried_copyOut (dir : Path) (target : OutputTarget) (linked : Option Name) :
    Carried f (copyOut tc dir target linked) (copyOut tc' dir target linked) :=
  carried_host.bind fun _ ↦ (carried_value _ _).bind fun _ ↦ carried_copyEach htc _ _ _ _

theorem carried_linkIn (dir : LinkDir) (asm : Path) :
    Carried f (linkIn tc o dir asm) (linkIn tc' o dir asm) := by
  rcases dir with p | p
  · refine (carried_echo htc _).bind fun _ ↦ (carried_tool htc _).bind fun _ ↦ ?_
    exact (carried_copyOut htc _ _ _).bind fun _ ↦ carried_pure _
  · exact (carried_tool htc _).bind fun _ ↦ carried_pure _

theorem carried_finalLink (asm : Path) : Carried f (finalLink tc o asm) (finalLink tc' o asm) :=
  carried_openLinkDir.bind fun dir ↦ (carried_linkIn htc o dir asm).andFinally fun _ ↦ rfl

theorem carried_extractCode (contract : Path) :
    Carried f (extractCode tc o contract) (extractCode tc' o contract) := by
  refine (carried_tool htc _).bind fun report ↦ ?_
  split
  · exact carried_throw _
  · exact carried_host.bind fun _ ↦ (carried_change _ _).bind fun _ ↦ carried_pure _

theorem carried_linkAll (asm : Path) : Carried f (linkAll tc o asm) (linkAll tc' o asm) := by
  refine (carried_finalLink htc o asm).bind fun target ↦ ?_
  cases target with
  | directory p => exact carried_pure _
  | file p => exact (carried_extractCode htc o p).bind fun _ ↦ carried_pure _

theorem carried_run (paths : List Path) : Carried f (run tc o paths) (run tc' o paths) := by
  refine Carried.andFinally ?_ fun s ↦ rfl
  have accepted : Carried f (classified paths) ((classified paths : Build τ _)) := by
    unfold classified
    cases classify paths with
    | ok inputs => exact carried_pure _
    | error e => exact carried_throw _
  have checked (inputs : ClassifiedInputs) :
      Carried f (checkInputs o inputs) ((checkInputs o inputs : Build τ _)) := by
    refine carried_host.bind fun h ↦ ?_
    cases firstMissing? o h inputs with
    | none => exact carried_pure _
    | some p => exact carried_throw _
  refine accepted.bind fun inputs ↦ (checked inputs).bind fun _ ↦ ?_
  refine (carried_assembleAll htc o inputs).bind fun asm ↦ ?_
  split
  · exact (carried_emitAssembly htc o asm).bind fun _ ↦ carried_pure _
  · exact carried_linkAll htc o asm

end Build

/-- A log changes nothing: a build without it does what the build with it does. -/
theorem Build.runIn_run_eq_logging (tc : Toolchain σ) (o : BuildOptions) (paths : List Path)
    (s : Session σ) :
    (run tc o paths).runIn s =
      (((run tc.logging o paths).runIn s.withLog).1,
        ((run tc.logging o paths).runIn s.withLog).2.mapTools Prod.fst) :=
  carried_run tc.carried_logging o paths s.withLog

end ContractBuild
