import ContractBuild.Proofs.Artifact.Names
import ContractBuild.Proofs.Build.Log
import ContractBuild.Proofs.Tool.Output
import Mathlib.Data.List.Nodup

/-!
# The plan of a build

A plan lists what a build does that can be seen from outside, as a function of its options and its
inputs.  Only its ending depends on what happens meanwhile: on the directory of the final link and
on the files that the linker leaves there.
-/

namespace ContractBuild

variable {σ α β : Type}

/-- One thing that a build does. -/
structure Move where
  /-- What can be seen of it. -/
  event : Event
  /-- The intermediate file that is reserved right before it. -/
  artifact : Option (Path × ArtifactKind)
  /-- The host that it leaves, where later moves depend on that. -/
  leaves : Option Host

namespace Move

/-- Runs a tool. -/
def call (i : Invocation) : Move := ⟨.run i, none, none⟩

/-- Notes a line. -/
def say (line : String) : Move := ⟨.echo line, none, none⟩

/-- The record of the file that is reserved for a move. -/
def record? (persistent : Bool) (m : Move) : Option Artifact :=
  m.artifact.map fun (p, kind) ↦ ⟨p, kind, persistent⟩

/-- The kind of the file that is reserved for a move. -/
def kind? (m : Move) : Option ArtifactKind := m.artifact.map (·.2)

/-- Whether an entry of a log tells of a move. -/
def Matches (m : Move) (e : LogEntry) : Prop :=
  e.event = m.event ∧ ∀ h, m.leaves = some h → ∃ r, e = .run r ∧ r.before.withTree r.after = h

end Move

/-! ## The moves of a build -/

namespace Plan

variable (o : BuildOptions) (dir : Path)

/-- The file of a kind that `n` others came before. -/
def file (kind : ArtifactKind) (n : Nat) : Path := dir.join (.ofString (kind.fileName n))

/-- Reserves a file and runs the tool that writes it, in the working directory. -/
def job (kind : ArtifactKind) (n : Nat) (command : Path → Invocation) : Move :=
  ⟨.run ((command (file dir kind n)).inDir o.workingDir), some (file dir kind n, kind), none⟩

/-- One job for each of some inputs, with files from number `n` on. -/
def jobs (kind : ArtifactKind) (command : BuildOptions → Path → Path → Invocation) :
    Nat → List InputFile → List Move
  | _, [] => []
  | n, f :: fs => job o dir kind n (command o f.path) :: jobs kind command (n + 1) fs

/-- The modules that such jobs make. -/
def modules (kind : ArtifactKind) : Nat → List InputFile → List IrModule
  | _, [] => []
  | n, f :: fs => ⟨f.position, file dir kind n⟩ :: modules kind (n + 1) fs

/-- The number that the first new file of each kind gets. -/
abbrev Start := ArtifactKind → Nat

variable (start : Start) (inputs : ClassifiedInputs)

/-- The jobs that make the modules: C++ inputs, then C inputs, then textual IR. -/
def sources : List Move :=
  jobs o dir .frontend Command.cxx (start .frontend) inputs.cxx ++
    jobs o dir .frontend Command.c (start .frontend + inputs.cxx.length) inputs.c ++
    jobs o dir .assembler Command.assemble (start .assembler) inputs.irText

/-- All modules, kind after kind; bitcode is a module as it is. -/
def allModules : List IrModule :=
  modules dir .frontend (start .frontend) inputs.cxx ++
    modules dir .frontend (start .frontend + inputs.cxx.length) inputs.c ++
    modules dir .assembler (start .assembler) inputs.irText ++
    inputs.irBinary.map IrModule.ofInput

/-- The job that links all modules in the order of their inputs. -/
def link : Move :=
  job o dir .link (start .link)
    (Command.linkModules o (IrModule.inOrder (allModules dir start inputs)))

/-- The merged assembly. -/
def assembly : Path := file dir .codegen (start .codegen)

/-- The jobs that turn the linked module into assembly, each from the file of the one before. -/
def lowering : List Move :=
  [job o dir .internalize (start .internalize)
      (Command.internalize o (file dir .link (start .link))),
    job o dir .optimize (start .optimize)
      (Command.optimize o (file dir .internalize (start .internalize))),
    job o dir .codegen (start .codegen)
      (Command.generate o (file dir .optimize (start .optimize)))]

/-- The note that assembly inputs are appended, if there are any. -/
def appending (asm : Path) : List Move :=
  if inputs.assembly = [] then []
  else
    let names := " ".intercalate (inputs.assembly.map (·.path.display))
    [.say s!"cat {names} >>{asm.display}"]

/-- Everything up to the merged assembly. -/
def toAssembly : List Move :=
  sources o dir start inputs ++ link o dir start inputs :: lowering o dir start ++
    appending inputs (assembly dir start)

/-- How a build goes on from the merged assembly. -/
inductive Ending
  /-- The assembly is copied to its destination, unless it is there already. -/
  | assembly (copied : Bool)
  /-- The assembly is linked in a directory, where the linker leaves a host. -/
  | contract (linkDir : LinkDir) (left : Host)

/-- The regular files in a directory, in ascending order. -/
def produced (h : Host) (p : Path) : List Name :=
  match h.list p with
  | .ok names => names.filter fun n ↦ h.isFile (p.join (.ofName n))
  | .error _ => []

/-- The note that a file of the link directory is copied to its destination. -/
def copying (linkDir : LinkDir) (n : Name) : Move :=
  let target := OutputTarget.resolve o.output o.workingDir
  let dest := target.destination n ((Build.linkedOutput o linkDir).map (·.raw))
  .say s!"cp {n.display} {dest.display}"

/-- What is done in the link directory: the linker runs, and from a directory for this link only
each file that it leaves is copied. -/
def linking (asm : Path) (linkDir : LinkDir) (left : Host) : List Move :=
  let linker := Command.compile o asm (o.absolute o.abi) (Build.linkedOutput o linkDir)
  let run : Move := ⟨.run (linker.inDir linkDir.path), none, some left⟩
  if linkDir.isScoped then
    .say s!"cd {linkDir.path.display}" :: run ::
      (produced left linkDir.path).map (copying o linkDir)
  else [run]

/-- The run that reports on the contract, if an output file was given. -/
def decoding : List Move :=
  match o.output with
  | some p => [.call ((Command.decode o (o.absolute p)).inDir o.workingDir)]
  | none => []

/-- What is done from the merged assembly on. -/
def ending (asm : Path) : Ending → List Move
  | .assembly true => [.say s!"cp {asm.display} {(o.absolute o.assemblyOutput).display}"]
  | .assembly false => []
  | .contract linkDir left => linking o asm linkDir left ++ decoding o

/-- Whether a link directory is one that a store opens. -/
def Opens (store : ArtifactStore) : LinkDir → Prop
  | .scoped p => store.isPersistent = false ∧ p.isAbsolute
  | .working p => store.backend = .persistent p

/-- Whether an ending is one that a build with these options can come to. -/
def Fits (store : ArtifactStore) : Ending → Prop
  | .assembly _ => o.asmOnly = true
  | .contract linkDir _ => o.asmOnly = false ∧ Opens store linkDir

/-- The whole plan. -/
def whole (e : Ending) : List Move :=
  toAssembly o dir start inputs ++ ending o (assembly dir start) e

/-! ## The files of a plan -/

/-- The paths of the files that are reserved for some moves. -/
def files (moves : List Move) : List Path := moves.filterMap fun m ↦ m.artifact.map (·.1)

/-- The paths of files given by kind and number. -/
def numbered (ns : List (ArtifactKind × Nat)) : List Path := ns.map fun n ↦ file dir n.1 n.2

theorem files_jobs (kind : ArtifactKind) (command : BuildOptions → Path → Path → Invocation)
    (n : Nat) (fs : List InputFile) :
    files (jobs o dir kind command n fs) =
      numbered dir ((List.range' n fs.length).map (Prod.mk kind)) := by
  induction fs generalizing n with
  | nil => rfl
  | cons f fs ih =>
      have rest := ih (n + 1)
      simp only [files, numbered] at rest ⊢
      simp [jobs, job, rest, List.range'_succ]

theorem nodup_numbered {ns : List (ArtifactKind × Nat)} (h : ns.Nodup) :
    (numbered dir ns).Nodup := by
  refine h.map fun a b hab ↦ ?_
  exact Prod.ext_iff.mpr (ArtifactKind.join_fileName_inj hab)

/-- The files of a plan by kind and number. -/
def slots : List (ArtifactKind × Nat) :=
  (List.range' (start .frontend) (inputs.cxx.length + inputs.c.length)).map (Prod.mk .frontend) ++
    (List.range' (start .assembler) inputs.irText.length).map (Prod.mk .assembler) ++
    [(.link, start .link), (.internalize, start .internalize), (.optimize, start .optimize),
      (.codegen, start .codegen)]

theorem nodup_slots : (slots start inputs).Nodup := by
  have numbers (kind : ArtifactKind) (m n : Nat) :
      ((List.range' m n).map (Prod.mk kind)).Nodup :=
    (List.nodup_range' 1).map fun _ _ h ↦ (Prod.mk.inj h).2
  refine List.nodup_append.mpr ⟨List.nodup_append.mpr ⟨numbers .., numbers .., ?_⟩, by simp, ?_⟩
  · intro a ha b hb
    obtain ⟨m, _, rfl⟩ := List.mem_map.mp ha
    obtain ⟨n, _, rfl⟩ := List.mem_map.mp hb
    simp
  · intro a ha b hb
    simp only [List.mem_append, List.mem_map] at ha
    rintro rfl
    rcases ha with ⟨n, _, rfl⟩ | ⟨n, _, rfl⟩ <;> simp at hb

@[simp] theorem files_append (ms ms' : List Move) : files (ms ++ ms') = files ms ++ files ms' :=
  List.filterMap_append

theorem files_toAssembly :
    files (toAssembly o dir start inputs) = numbered dir (slots start inputs) := by
  have appended : files (appending inputs (assembly dir start)) = [] := by
    unfold appending
    split <;> rfl
  have lowered : files (link o dir start inputs :: lowering o dir start) = numbered dir
      [(.link, start .link), (.internalize, start .internalize), (.optimize, start .optimize),
        (.codegen, start .codegen)] := rfl
  simp only [toAssembly, sources, files_append, files_jobs, appended, lowered, slots, numbered,
    List.range'_append_1, List.append_nil, ← List.map_append]

/-- Nothing is reserved for an ending. -/
theorem files_ending (asm : Path) (e : Ending) : files (ending o asm e) = [] := by
  rcases e with copied | ⟨linkDir, left⟩
  · cases copied <;> rfl
  · have copies (ns : List Name) : files (ns.map (copying o linkDir)) = [] := by
      simp [files, copying, Move.say]
    have linked : files (linking o asm linkDir left) = [] := by
      rcases linkDir with p | p
      · exact copies _
      · rfl
    have decoded : files (decoding o) = [] := by
      unfold decoding
      split <;> rfl
    rw [ending, files_append, linked, decoded, List.append_nil]

/-- No two moves of a plan share their file. -/
theorem nodup_files_whole (e : Ending) : (files (whole o dir start inputs e)).Nodup := by
  rw [whole, files_append, files_ending, List.append_nil, files_toAssembly]
  exact nodup_numbered dir (nodup_slots start inputs)

end Plan

/-! ## Where the tools of a plan are called -/

/-- Whether a move calls a tool where it belongs: a tool for which a file is reserved is told that file,
in the working directory; otherwise it is the linker in the directory of the link, or its report is
asked for in the working directory. -/
def Move.CallsInPlace (o : BuildOptions) (e : Plan.Ending) (m : Move) : Prop :=
  ∀ i, m.event = .run i → match m.artifact with
    | some (out, _) => [Bytes.ofString "-o", out.raw] <:+: i.args ∧ i.dir = some o.workingDir
    | none =>
      (i.args.head? = some (Bytes.ofString "compile") ∧
        ∃ linkDir left, e = .contract linkDir left ∧ i.dir = some linkDir.path) ∨
      i.args.head? = some (Bytes.ofString "decode") ∧ i.dir = some o.workingDir

namespace Plan

variable (o : BuildOptions) (dir : Path) (start : Start) (inputs : ClassifiedInputs) (e : Ending)

theorem callsInPlace_say (line : String) : (Move.say line).CallsInPlace o e :=
  fun _ hi ↦ by cases hi

theorem callsInPlace_job {kind : ArtifactKind} {n : Nat} {command : Path → Invocation}
    (hcommand : Command.NamesOutput command) : (job o dir kind n command).CallsInPlace o e := by
  rintro _ ⟨⟩
  exact ⟨hcommand.told _, rfl⟩

theorem callsInPlace_jobs {kind : ArtifactKind} {command : BuildOptions → Path → Path → Invocation}
    (hcommand : ∀ input, Command.NamesOutput (command o input)) (n : Nat) (fs : List InputFile) :
    ∀ m ∈ jobs o dir kind command n fs, m.CallsInPlace o e := by
  induction fs generalizing n with
  | nil => simp [jobs]
  | cons f fs ih =>
    rw [jobs, List.forall_mem_cons]
    exact ⟨callsInPlace_job o dir e (hcommand f.path), ih (n + 1)⟩

theorem callsInPlace_toAssembly : ∀ m ∈ toAssembly o dir start inputs, m.CallsInPlace o e := by
  have appended : ∀ m ∈ appending inputs (assembly dir start), m.CallsInPlace o e := by
    unfold appending
    split
    · simp
    · simpa using callsInPlace_say o e _
  simp only [toAssembly, sources, link, lowering, List.forall_mem_append, List.forall_mem_cons,
    List.not_mem_nil, false_implies, implies_true, and_true]
  exact ⟨⟨⟨⟨callsInPlace_jobs o dir e (Command.namesOutput_cxx o) _ _,
    callsInPlace_jobs o dir e (Command.namesOutput_c o) _ _⟩,
    callsInPlace_jobs o dir e (Command.namesOutput_assemble o) _ _⟩,
    callsInPlace_job o dir e (Command.namesOutput_linkModules o _),
    callsInPlace_job o dir e (Command.namesOutput_internalize o _),
    callsInPlace_job o dir e (Command.namesOutput_optimize o _),
    callsInPlace_job o dir e (Command.namesOutput_generate o _)⟩, appended⟩

theorem callsInPlace_ending (asm : Path) : ∀ m ∈ ending o asm e, m.CallsInPlace o e := by
  rcases e with copied | ⟨linkDir, left⟩
  · cases copied
    · simp [ending]
    · simpa [ending] using callsInPlace_say o _ _
  have decoded : ∀ m ∈ decoding o, m.CallsInPlace o (.contract linkDir left) := by
    unfold decoding
    split
    · rw [List.forall_mem_singleton]
      rintro _ ⟨⟩
      exact .inr ⟨rfl, rfl⟩
    · simp
  have linked : ∀ m ∈ linking o asm linkDir left, m.CallsInPlace o (.contract linkDir left) := by
    have linker {i : Invocation} (hargs : i.args.head? = some (Bytes.ofString "compile"))
        (hdir : i.dir = some linkDir.path) :
        (⟨.run i, none, some left⟩ : Move).CallsInPlace o (.contract linkDir left) := by
      rintro _ ⟨⟩
      exact .inl ⟨hargs, linkDir, left, rfl, hdir⟩
    unfold linking
    dsimp only
    split
    · simp only [List.forall_mem_cons, List.forall_mem_map]
      exact ⟨callsInPlace_say o _ _, linker rfl rfl, fun n _ ↦ callsInPlace_say o _ _⟩
    · rw [List.forall_mem_singleton]
      exact linker rfl rfl
  rw [ending, List.forall_mem_append]
  exact ⟨linked, decoded⟩

/-- All tools of a plan are called where they belong. -/
theorem callsInPlace_whole : ∀ m ∈ whole o dir start inputs e, m.CallsInPlace o e := by
  rw [whole, List.forall_mem_append]
  exact ⟨callsInPlace_toAssembly o dir start inputs e, callsInPlace_ending o e _⟩

end Plan

end ContractBuild
