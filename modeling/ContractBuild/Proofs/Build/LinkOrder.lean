import ContractBuild.Proofs.Build.StageOrder

/-!
# The order of the linked modules

The inputs of a build are made into modules kind after kind, but they are linked in the order of
the command line: sorting by position undoes what sorting by kind has done.
-/

namespace ContractBuild

variable {σ : Type}

/-! ## Sorting by position -/

namespace IrModule

/-- The second list is the first in ascending order of position, and modules at one position have
kept their order. -/
structure IsStableSort (ms sorted : List IrModule) : Prop where
  /-- No module is lost or duplicated. -/
  perm : sorted.Perm ms
  /-- Positions do not descend. -/
  ascending : sorted.Pairwise fun m n ↦ m.position ≤ n.position
  /-- At each position the modules stand as before. -/
  stable : ∀ k, sorted.filter (·.position = k) = ms.filter (·.position = k)

theorem perm_insert (m : IrModule) (ns : List IrModule) : (insert m ns).Perm (m :: ns) := by
  induction ns with
  | nil => exact .refl _
  | cons n ns ih =>
    unfold insert
    split
    · exact .refl _
    · exact (ih.cons n).trans (.swap m n ns)

theorem pairwise_insert (m : IrModule) {ns : List IrModule}
    (h : ns.Pairwise fun m n ↦ m.position ≤ n.position) :
    (insert m ns).Pairwise fun m n ↦ m.position ≤ n.position := by
  induction ns with
  | nil => exact List.pairwise_singleton _ m
  | cons n ns ih =>
    obtain ⟨hn, hns⟩ := List.pairwise_cons.mp h
    unfold insert
    split
    next hmn =>
      refine List.pairwise_cons.mpr ⟨fun x hx ↦ ?_, h⟩
      rcases List.mem_cons.mp hx with rfl | hx
      · exact hmn
      · exact Nat.le_trans hmn (hn x hx)
    next hmn =>
      refine List.pairwise_cons.mpr ⟨fun x hx ↦ ?_, ih hns⟩
      rcases List.mem_cons.mp ((perm_insert m ns).subset hx) with rfl | hx
      · exact Nat.le_of_not_le hmn
      · exact hn x hx

/-- A module passes only modules at lower positions. -/
theorem filter_insert (m : IrModule) (ns : List IrModule) (k : Nat) :
    (insert m ns).filter (·.position = k) = (m :: ns).filter (·.position = k) := by
  induction ns with
  | nil => rfl
  | cons n ns ih =>
    unfold insert
    split
    next => rfl
    next hmn =>
      rw [List.filter_cons, ih]
      by_cases hm : m.position = k
      · have hn : n.position ≠ k := fun hn ↦ hmn (by omega)
        simp [hm, hn]
      · simp [List.filter_cons, hm]

/-- Modules are put in order by the stable sort. -/
theorem isStableSort_inOrder (ms : List IrModule) : IsStableSort ms (inOrder ms) := by
  induction ms with
  | nil => exact ⟨.refl _, .nil, fun _ ↦ rfl⟩
  | cons m ms ih =>
    refine ⟨(perm_insert m _).trans (ih.perm.cons m), pairwise_insert m ih.ascending, fun k ↦ ?_⟩
    rw [inOrder, filter_insert, List.filter_cons, List.filter_cons, ih.stable k]

/-- Modules at positions of their own have one order only. -/
theorem inOrder_eq_of_perm {ms ns : List IrModule} (hpos : (ms.map (·.position)).Nodup)
    (h : ns.Perm ms) (hns : ns.Pairwise fun m n ↦ m.position ≤ n.position) : inOrder ms = ns := by
  have sorted := isStableSort_inOrder ms
  refine List.Perm.eq_of_pairwise (fun a b ha hb hab hba ↦ ?_) sorted.ascending hns
    (sorted.perm.trans h.symm)
  exact List.inj_on_of_nodup_map hpos (sorted.perm.subset ha) (h.subset hb)
    (Nat.le_antisymm hab hba)

end IrModule

/-! ## What an input contributes -/

namespace Plan

/-- How many of some paths are inputs of a kind. -/
def countOf (kind : InputKind) (paths : List Path) : Nat :=
  paths.countP fun p ↦ InputKind.ofPath? p = some kind

/-- The number of the first file that is made of the inputs of a kind: C inputs go on where all
C++ inputs have ended. -/
def firstNumber (paths : List Path) (kind : InputKind) : Nat :=
  if kind = .c then countOf .cxx paths else 0

/-- The input at a position, if it becomes a module, with the number of the file made of it: the
inputs of its kind before it are counted. -/
def linked? (paths : List Path) (k : Nat) : Option (InputFile × Nat) := do
  let p ← paths[k]?
  let kind ← InputKind.ofPath? p
  if kind = .assembly then none
  else some (⟨p, kind, k⟩, firstNumber paths kind + countOf kind (paths.take k))

/-- The module that a numbered input becomes; bitcode is one as it is. -/
def modulePath (dir : Path) (m : InputFile × Nat) : Path :=
  match m.1.kind with
  | .cxx | .c => file dir .frontend m.2
  | .irText => file dir .assembler m.2
  | .irBinary | .assembly => m.1.path

/-- The run that makes the module of a numbered input. -/
def sourceCall? (o : BuildOptions) (dir : Path) (m : InputFile × Nat) : Option Invocation :=
  let made (command : BuildOptions → Path → Path → Invocation) :=
    some ((command o m.1.path (modulePath dir m)).inDir o.workingDir)
  match m.1.kind with
  | .cxx => made Command.cxx
  | .c => made Command.c
  | .irText => made Command.assemble
  | .irBinary | .assembly => none

/-- The modules in the order of the command line. -/
def inLine (paths : List Path) : List (InputFile × Nat) :=
  (List.range paths.length).filterMap (linked? paths)

/-- The inputs that become modules, kind after kind, each kind numbered from its own number on. -/
def inGroups (inputs : ClassifiedInputs) (first : InputKind → Nat) : List (InputFile × Nat) :=
  inputs.cxx.zipIdx (first .cxx) ++ inputs.c.zipIdx (first .c) ++
    inputs.irText.zipIdx (first .irText) ++ inputs.irBinary.zipIdx (first .irBinary)

/-- Sorting inputs by kind puts the first one in front of its kind. -/
theorem classifyFrom_cons {k : Nat} {p : Path} {ps : List Path} {inputs : ClassifiedInputs}
    (h : classifyFrom k (p :: ps) = .ok inputs) :
    ∃ kind rest, InputKind.ofPath? p = some kind ∧ classifyFrom (k + 1) ps = .ok rest ∧
      inputs = rest.cons ⟨p, kind, k⟩ := by
  unfold classifyFrom at h
  cases hkind : InputKind.ofPath? p with
  | none =>
    rw [hkind] at h
    cases h
  | some kind =>
    rw [hkind] at h
    cases hrest : classifyFrom (k + 1) ps with
    | error e =>
      rw [hrest] at h
      cases h
    | ok rest =>
      rw [hrest] at h
      exact ⟨kind, rest, rfl, rfl, (Except.ok.inj h).symm⟩

/-- Every input is among those of its kind, and is counted there. -/
theorem ofKind_of_classifyFrom {k : Nat} {paths : List Path} {inputs : ClassifiedInputs}
    (h : classifyFrom k paths = .ok inputs) (kind : InputKind) :
    (∀ f ∈ inputs.ofKind kind, f.kind = kind) ∧
      (inputs.ofKind kind).length = countOf kind paths := by
  induction paths generalizing k inputs with
  | nil =>
    obtain rfl := Except.ok.inj h
    cases kind <;> exact ⟨fun _ hf ↦ (List.not_mem_nil hf).elim, rfl⟩
  | cons p ps ih =>
    obtain ⟨kind', rest, hkind, hrest, rfl⟩ := classifyFrom_cons h
    obtain ⟨kinds, count⟩ := ih hrest
    rw [ClassifiedInputs.ofKind_cons]
    by_cases same : kind' = kind
    · subst same
      refine ⟨fun f hf ↦ ?_, by simp [countOf, hkind, count]⟩
      rw [if_pos rfl] at hf
      rcases List.mem_cons.mp hf with rfl | hf
      · rfl
      · exact kinds f hf
    · rw [if_neg same]
      exact ⟨kinds, by simp [countOf, hkind, same, count]⟩

theorem countOf_concat (kind : InputKind) (before : List Path) (p : Path) :
    countOf kind (before ++ [p]) =
      countOf kind before + if InputKind.ofPath? p = some kind then 1 else 0 := by
  simp [countOf, List.countP_append, List.countP_cons]

/-- An input in front of the others comes before all that are made after it. -/
theorem perm_inGroups_cons (f : InputFile) (rest : ClassifiedInputs) (first : InputKind → Nat) :
    (inGroups (rest.cons f) first).Perm
      ((if f.kind = .assembly then [] else [(f, first f.kind)]) ++
        inGroups rest fun kind ↦ first kind + if f.kind = kind then 1 else 0) := by
  refine List.perm_iff_count.mpr fun m ↦ ?_
  unfold inGroups ClassifiedInputs.cons
  cases hf : f.kind <;> simp [List.zipIdx_cons, List.count_cons] <;> omega

/-- Numbering kind after kind and numbering along the command line come to the same. -/
theorem perm_inGroups {paths before ps : List Path} {inputs : ClassifiedInputs}
    (hpaths : paths = before ++ ps) (h : classifyFrom before.length ps = .ok inputs) :
    (inGroups inputs fun kind ↦ firstNumber paths kind + countOf kind before).Perm
      ((List.range' before.length ps.length).filterMap (linked? paths)) := by
  induction ps generalizing before inputs with
  | nil =>
    obtain rfl := Except.ok.inj h
    exact .refl _
  | cons p ps ih =>
    obtain ⟨kind, rest, hkind, hrest, rfl⟩ := classifyFrom_cons h
    have hpaths' : paths = before ++ [p] ++ ps := by simp [hpaths]
    have hrest' : classifyFrom (before ++ [p]).length ps = .ok rest := by simpa using hrest
    have others := ih hpaths' hrest'
    have first : (fun k ↦ firstNumber paths k + countOf k (before ++ [p])) =
        fun k ↦ firstNumber paths k + countOf k before + if kind = k then 1 else 0 := by
      funext k
      simp [countOf_concat, hkind, Nat.add_assoc]
    have here : linked? paths before.length = if kind = .assembly then none else
        some (⟨p, kind, before.length⟩, firstNumber paths kind + countOf kind before) := by
      simp [linked?, hpaths, hkind]
    rw [first, List.length_append, List.length_singleton] at others
    rw [List.length_cons, List.range'_succ, List.filterMap_cons, here]
    refine (perm_inGroups_cons _ rest _).trans ?_
    by_cases assembly : kind = .assembly
    · simp only [assembly, if_true, List.nil_append] at others ⊢
      exact others
    · simp only [assembly, if_false, List.singleton_append]
      exact others.cons _

/-- The modules kind after kind are those in line. -/
theorem perm_inGroups_classify {paths : List Path} {inputs : ClassifiedInputs}
    (h : classify paths = .ok inputs) :
    (inGroups inputs (firstNumber paths)).Perm (inLine paths) := by
  have all := perm_inGroups (List.nil_append paths).symm h
  rw [List.length_nil, ← List.range_eq_range'] at all
  exact all

/-- Inputs stand in line at the positions that they have. -/
theorem position_of_linked? {paths : List Path} {k : Nat} {m : InputFile × Nat}
    (h : linked? paths k = some m) : m.1.position = k := by
  unfold linked? at h
  cases hp : paths[k]? with
  | none => simp [hp] at h
  | some p =>
    cases hkind : InputKind.ofPath? p with
    | none => simp [hp, hkind] at h
    | some kind =>
      simp only [hp, hkind, Option.bind_eq_bind, Option.bind_some] at h
      split at h
      · cases h
      · obtain rfl := Option.some.inj h
        rfl

theorem pairwise_inLine (paths : List Path) :
    (inLine paths).Pairwise fun m n ↦ m.1.position < n.1.position := by
  refine List.pairwise_filterMap.mpr (List.pairwise_lt_range.imp ?_)
  intro i j hij m hm n hn
  rw [position_of_linked? hm, position_of_linked? hn]
  exact hij

variable (o : BuildOptions) (dir : Path)

theorem modules_eq_map (kind : ArtifactKind) (n : Nat) (fs : List InputFile) :
    modules dir kind n fs = (fs.zipIdx n).map fun m ↦ ⟨m.1.position, file dir kind m.2⟩ := by
  induction fs generalizing n with
  | nil => rfl
  | cons f fs ih => rw [modules, ih, List.zipIdx_cons, List.map_cons]

theorem jobs_eq_map (kind : ArtifactKind) (command : BuildOptions → Path → Path → Invocation)
    (n : Nat) (fs : List InputFile) :
    jobs o dir kind command n fs =
      (fs.zipIdx n).map fun m ↦ job o dir kind m.2 (command o m.1.path) := by
  induction fs generalizing n with
  | nil => rfl
  | cons f fs ih => rw [jobs, ih, List.zipIdx_cons, List.map_cons]

variable {paths : List Path} {inputs : ClassifiedInputs}

/-- Each kind has its group. -/
theorem kind_of_mem_zipIdx (h : classify paths = .ok inputs) {kind : InputKind} {n : Nat}
    {m : InputFile × Nat} (hm : m ∈ (inputs.ofKind kind).zipIdx n) : m.1.kind = kind :=
  (ofKind_of_classifyFrom h kind).1 _ (List.fst_mem_of_mem_zipIdx hm)

/-- All modules of the plan are those of the inputs, kind after kind. -/
theorem allModules_eq_map (h : classify paths = .ok inputs) :
    allModules dir (fun _ ↦ 0) inputs = (inGroups inputs (firstNumber paths)).map fun m ↦
      ⟨m.1.position, modulePath dir m⟩ := by
  have group (kind : InputKind) (artifact : ArtifactKind) (n : Nat)
      (hpath : ∀ m : InputFile × Nat, m.1.kind = kind → modulePath dir m = file dir artifact m.2) :
      modules dir artifact n (inputs.ofKind kind) = ((inputs.ofKind kind).zipIdx n).map fun m ↦
        ⟨m.1.position, modulePath dir m⟩ := by
    rw [modules_eq_map]
    refine List.map_congr_left fun m hm ↦ ?_
    rw [hpath m (kind_of_mem_zipIdx h hm)]
  have given : inputs.irBinary.map IrModule.ofInput = (inputs.irBinary.zipIdx 0).map fun m ↦
      ⟨m.1.position, modulePath dir m⟩ := by
    rw [← List.zipIdx_map_fst 0 inputs.irBinary, List.map_map, List.zipIdx_map_fst]
    refine List.map_congr_left fun m hm ↦ ?_
    have hkind : m.1.kind = .irBinary := kind_of_mem_zipIdx h hm
    simp [IrModule.ofInput, modulePath, hkind]
  have cxx := group .cxx .frontend 0 fun m hm ↦ by simp [modulePath, hm]
  have c := group .c .frontend (0 + inputs.cxx.length) fun m hm ↦ by simp [modulePath, hm]
  have irText := group .irText .assembler 0 fun m hm ↦ by simp [modulePath, hm]
  have number : firstNumber paths .c = 0 + inputs.cxx.length := by
    rw [Nat.zero_add]
    exact (ofKind_of_classifyFrom h .cxx).2.symm
  simp only [ClassifiedInputs.ofKind] at cxx c irText
  rw [allModules, inGroups, cxx, c, irText, given, number]
  simp only [List.map_append]
  rfl

/-- The move that makes the module of a numbered input. -/
def sourceMove? (m : InputFile × Nat) : Option Move :=
  match m.1.kind with
  | .cxx => some (job o dir .frontend m.2 (Command.cxx o m.1.path))
  | .c => some (job o dir .frontend m.2 (Command.c o m.1.path))
  | .irText => some (job o dir .assembler m.2 (Command.assemble o m.1.path))
  | .irBinary | .assembly => none

/-- The sources of the plan are the moves for the inputs, kind after kind. -/
theorem sources_eq_filterMap (h : classify paths = .ok inputs) :
    sources o dir (fun _ ↦ 0) inputs =
      (inGroups inputs (firstNumber paths)).filterMap (sourceMove? o dir) := by
  have group (kind : InputKind) (artifact : ArtifactKind)
      (command : BuildOptions → Path → Path → Invocation) (n : Nat)
      (hmove : ∀ m : InputFile × Nat, m.1.kind = kind → sourceMove? o dir m =
        some (job o dir artifact m.2 (command o m.1.path))) :
      jobs o dir artifact command n (inputs.ofKind kind) =
        ((inputs.ofKind kind).zipIdx n).filterMap (sourceMove? o dir) := by
    rw [jobs_eq_map, List.filterMap_congr fun m hm ↦ hmove m (kind_of_mem_zipIdx h hm),
      List.filterMap_eq_map']
  have given : (inputs.irBinary.zipIdx (firstNumber paths .irBinary)).filterMap
      (sourceMove? o dir) = [] := by
    refine List.filterMap_eq_nil_iff.mpr fun m hm ↦ ?_
    have hkind : m.1.kind = .irBinary := kind_of_mem_zipIdx h hm
    simp [sourceMove?, hkind]
  have cxx := group .cxx .frontend Command.cxx 0 fun m hm ↦ by simp [sourceMove?, hm]
  have c := group .c .frontend Command.c (0 + inputs.cxx.length) fun m hm ↦ by
    simp [sourceMove?, hm]
  have irText := group .irText .assembler Command.assemble 0 fun m hm ↦ by
    simp [sourceMove?, hm]
  have number : firstNumber paths .c = 0 + inputs.cxx.length := by
    rw [Nat.zero_add]
    exact (ofKind_of_classifyFrom h .cxx).2.symm
  simp only [ClassifiedInputs.ofKind] at cxx c irText
  simp only [sources, inGroups, List.filterMap_append, cxx, c, irText, given, number,
    List.append_nil]
  rfl

theorem event_sourceMove? (m : InputFile × Nat) :
    (sourceMove? o dir m).map Move.event = (sourceCall? o dir m).map Event.run := by
  unfold sourceMove? sourceCall? modulePath
  cases m.1.kind <;> rfl

theorem file_sourceMove? (m : InputFile × Nat) :
    ((sourceMove? o dir m).bind fun move ↦ move.artifact.map (·.1)) =
      (sourceCall? o dir m).map fun _ ↦ modulePath dir m := by
  unfold sourceMove? sourceCall? modulePath
  cases m.1.kind <;> rfl

/-- The runs for the inputs are made kind after kind. -/
theorem perm_events_sources (h : classify paths = .ok inputs) :
    ((sources o dir (fun _ ↦ 0) inputs).map Move.event).Perm
      (((inLine paths).filterMap (sourceCall? o dir)).map Event.run) := by
  have calls : (sources o dir (fun _ ↦ 0) inputs).map Move.event =
      ((inGroups inputs (firstNumber paths)).filterMap (sourceCall? o dir)).map Event.run := by
    rw [sources_eq_filterMap o dir h, List.map_filterMap, List.map_filterMap]
    exact List.filterMap_congr fun m _ ↦ event_sourceMove? o dir m
  rw [calls]
  exact ((perm_inGroups_classify h).filterMap _).map _

/-- No two runs for inputs write the same file. -/
theorem nodup_outputs (h : classify paths = .ok inputs) :
    ((inLine paths).filterMap fun m ↦
      (sourceCall? o dir m).map fun _ ↦ modulePath dir m).Nodup := by
  have outputs : files (sources o dir (fun _ ↦ 0) inputs) =
      (inGroups inputs (firstNumber paths)).filterMap fun m ↦
        (sourceCall? o dir m).map fun _ ↦ modulePath dir m := by
    rw [sources_eq_filterMap o dir h, files, List.filterMap_filterMap]
    exact List.filterMap_congr fun m _ ↦ file_sourceMove? o dir m
  have part : (files (sources o dir (fun _ ↦ 0) inputs)).Sublist
      (files (whole o dir (fun _ ↦ 0) inputs (.assembly false))) := by
    have before : sources o dir (fun _ ↦ 0) inputs <+:
        whole o dir (fun _ ↦ 0) inputs (.assembly false) := by
      simp only [whole, toAssembly, List.append_assoc]
      exact List.prefix_append ..
    exact before.sublist.filterMap _
  refine ((perm_inGroups_classify h).filterMap _).nodup ?_
  rw [← outputs]
  exact (nodup_files_whole ..).sublist part

/-- The linked modules are those of the inputs in the order of the command line. -/
theorem inOrder_allModules (h : classify paths = .ok inputs) :
    IrModule.inOrder (allModules dir (fun _ ↦ 0) inputs) = (inLine paths).map fun m ↦
      ⟨m.1.position, modulePath dir m⟩ := by
  have perm : ((inLine paths).map fun m ↦ (⟨m.1.position, modulePath dir m⟩ : IrModule)).Perm
      (allModules dir (fun _ ↦ 0) inputs) := by
    rw [allModules_eq_map dir h]
    exact ((perm_inGroups_classify h).map _).symm
  have ascending := pairwise_inLine paths
  refine IrModule.inOrder_eq_of_perm ?_ perm ?_
  · refine (perm.map _).nodup ?_
    rw [List.map_map]
    exact List.pairwise_map.mpr (ascending.imp Nat.ne_of_lt)
  · exact List.pairwise_map.mpr (ascending.imp Nat.le_of_lt)

/-! ## The first call of a tool -/

/-- The module linker is not where another tool is. -/
theorem llvmTool_ne_llvmLink {tools : ToolPaths} (name : String)
    (hname : (Path.ofString name).isAbsolute = false)
    (hne : Bytes.ofString name ≠ Bytes.ofString "llvm-link") :
    tools.llvmTool name ≠ tools.llvmTool "llvm-link" := fun h ↦
  hne (congrArg Path.raw (Path.eq_of_join_eq hname (by decide) h))

/-- No run for an input is one of the module linker. -/
theorem program_of_sourceCall? {m : InputFile × Nat} {i : Invocation}
    (h : sourceCall? o dir m = some i) : i.program ≠ o.tools.llvmTool "llvm-link" := by
  unfold sourceCall? at h
  cases hkind : m.1.kind <;> simp only [hkind, Option.some.injEq, reduceCtorEq] at h <;> subst h
  · exact llvmTool_ne_llvmLink "clang++" (by decide) (by decide)
  · exact llvmTool_ne_llvmLink "clang" (by decide) (by decide)
  · exact llvmTool_ne_llvmLink "llvm-as" (by decide) (by decide)

/-- Such a run is told its input and the module to make of it, in the working directory. -/
theorem told_of_sourceCall? {m : InputFile × Nat} {i : Invocation}
    (h : sourceCall? o dir m = some i) :
    [m.1.path.raw, Bytes.ofString "-o", (modulePath dir m).raw] <:+: i.args ∧
      i.dir = some o.workingDir := by
  unfold sourceCall? at h
  cases hkind : m.1.kind <;> simp only [hkind, Option.some.injEq, reduceCtorEq] at h <;> subst h
  · refine ⟨⟨Command.texts ["-target", Command.target] ++ Command.texts o.cxxflags ++
      Command.texts ["-S", "-emit-llvm"], [Bytes.ofString "--sysroot=" ++ o.tools.sysroot.raw], ?_⟩, rfl⟩
    simp [Command.cxx, Command.texts, Invocation.ofProgram, Invocation.inDir]
  · refine ⟨⟨Command.texts ["-target", Command.target, "-isystem"] ++ [o.tools.includeDir.raw] ++
      Command.texts o.cflags ++ Command.texts ["-S", "-emit-llvm"], [], ?_⟩, rfl⟩
    simp [Command.c, Command.texts, Invocation.ofProgram, Invocation.inDir]
  · exact ⟨List.infix_refl _, rfl⟩

/-- All inputs that become modules are compiled or assembled, but those that are modules. -/
theorem exists_sourceCall? {paths : List Path} {m : InputFile × Nat} (hm : m ∈ inLine paths)
    (hbitcode : m.1.kind ≠ .irBinary) : ∃ i, sourceCall? o dir m = some i := by
  obtain ⟨k, -, hk⟩ := List.mem_filterMap.mp hm
  have source : m.1.kind ≠ .assembly := by
    simp only [linked?, Option.bind_eq_bind, Option.bind_eq_some_iff] at hk
    obtain ⟨p, -, kind, -, hk⟩ := hk
    split at hk
    next => cases hk
    next other =>
      obtain rfl := Option.some.inj hk
      exact other
  unfold sourceCall?
  cases hkind : m.1.kind with
  | irBinary => exact absurd hkind hbitcode
  | assembly => exact absurd hkind source
  | _ => exact ⟨_, rfl⟩

end Plan

namespace Build

variable (tc : Toolchain σ) (o : BuildOptions)

/-- The call of the module linker for some modules. -/
def linkCall (ms : List IrModule) (out : Path) : Event :=
  .run ((Command.linkModules o ms out).inDir o.workingDir)

/-- The module linker is called once at most, and where it is not there was no file for it. -/
theorem ends_linkModules (t : Session σ) (ms : List IrModule) :
    Ends (linkModules tc o ms) t
      (fun p t' ↦ t'.events = t.events ++ [linkCall o (IrModule.inOrder ms) p])
      (fun _ t' ↦ t'.events = t.events ∨
        ∃ p, t'.events = t.events ++ [linkCall o (IrModule.inOrder ms) p]) := by
  refine ends_bind.mpr (ends_reserve.mpr ⟨fun p _ ↦ ?_, fun e _ ↦ .inl rfl⟩)
  exact ends_bind.mpr (ends_tool.mpr ⟨fun _ _ ↦ ends_pure.mpr rfl, fun _ _ ↦ .inr ⟨p, rfl⟩⟩)

/-- Where the first build of a session comes to the module linker, it has made the modules of the
inputs and nothing else. -/
theorem first_link {paths : List Path} {tools : σ} {h : Host} {s : Session σ}
    (hs : Session.start o tools h = .ok s) {before after : List Event} {i : Invocation}
    (hevents : ((run tc o paths).runIn s).2.events = before ++ .run i :: after)
    (hi : i.program = o.tools.llvmTool "llvm-link")
    (hbefore : ∀ j, .run j ∈ before → j.program ≠ o.tools.llvmTool "llvm-link") :
    ∃ dir inputs, s.store.dir? = some dir ∧ classify paths = .ok inputs ∧
      before = (Plan.sources o dir (fun _ ↦ 0) inputs).map Move.event ∧
      .run i = (Plan.link o dir (fun _ ↦ 0) inputs).event := by
  cases hinputs : classify paths with
  | error e =>
    have none := (Session.fresh_of_start hs).1
    rw [runIn_run_of_classify_error tc o hinputs, Session.events_cleanup, none] at hevents
    exact absurd hevents.symm (by simp)
  | ok inputs =>
    obtain ⟨dir, ending, moves, hdir, _, ⟨rest, hrest⟩, events, _⟩ := moves_of_run tc o hs hinputs
    let linker (e : Event) : Prop := ∃ j, e = .run j ∧ j.program = o.tools.llvmTool "llvm-link"
    have made : before ++ .run i :: (after ++ rest.map Move.event) =
        (Plan.whole o dir (fun _ ↦ 0) inputs ending).map Move.event := by
      rw [← hrest, List.map_append, ← events, hevents, List.append_assoc, List.cons_append]
    have planned : (Plan.whole o dir (fun _ ↦ 0) inputs ending).map Move.event =
        (Plan.sources o dir (fun _ ↦ 0) inputs).map Move.event ++
          (Plan.link o dir (fun _ ↦ 0) inputs).event ::
          (Plan.lowering o dir (fun _ ↦ 0) ++
            Plan.appending inputs (Plan.assembly dir fun _ ↦ 0) ++
            Plan.ending o (Plan.assembly dir fun _ ↦ 0) ending).map Move.event := by
      simp only [Plan.whole, Plan.toAssembly, List.map_append, List.map_cons, List.append_assoc,
        List.cons_append]
    have first := eq_of_first_eq (P := linker) (made.trans planned) ?_ ?_ ⟨i, rfl, hi⟩ ⟨_, rfl, rfl⟩
    · exact ⟨dir, inputs, hdir, rfl, first⟩
    · rintro _ he ⟨j, rfl, hj⟩
      exact hbefore j he hj
    · rintro _ he ⟨j, rfl, hj⟩
      have called := (Plan.perm_events_sources o dir hinputs).subset he
      rw [List.mem_map_of_injective fun _ _ h ↦ Event.run.inj h] at called
      obtain ⟨m, _, hm⟩ := List.mem_filterMap.mp called
      exact Plan.program_of_sourceCall? o dir hm hj

/-- The module linker gets one module for each input that becomes one, in the order of the command
line, and each of them was made by a run that was told that input, or is that input.  Whatever modules it is given, they are sorted by
position, so that modules at positions of their own may be given in any order. -/
theorem linked_in_command_line_order (paths : List Path) {tools : σ} {h : Host} {s : Session σ}
    (hs : Session.start o tools h = .ok s) :
    (∀ before i after, ((run tc o paths).runIn s).2.events = before ++ .run i :: after →
      i.program = o.tools.llvmTool "llvm-link" →
      (∀ j, .run j ∈ before → j.program ≠ o.tools.llvmTool "llvm-link") →
      ∃ dir, s.store.dir? = some dir ∧
        i = ⟨o.tools.llvmTool "llvm-link",
          (Plan.inLine paths).map (fun m ↦ (Plan.modulePath dir m).raw) ++
            Command.texts ["-S", "-o"] ++ [(Plan.file dir .link 0).raw], some o.workingDir⟩ ∧
        before.Perm (((Plan.inLine paths).filterMap (Plan.sourceCall? o dir)).map .run) ∧
        (∀ m ∈ Plan.inLine paths, if m.1.kind = .irBinary then Plan.modulePath dir m = m.1.path
          else ∃ j, .run j ∈ before ∧ j.dir = some o.workingDir ∧
            [m.1.path.raw, Bytes.ofString "-o", (Plan.modulePath dir m).raw] <:+: j.args) ∧
        ((Plan.inLine paths).filterMap fun m ↦
          (Plan.sourceCall? o dir m).map fun _ ↦ Plan.modulePath dir m).Nodup) ∧
    (∀ (t : Session σ) (ms : List IrModule), ∃ sorted, IrModule.IsStableSort ms sorted ∧
      Ends (linkModules tc o ms) t
        (fun p t' ↦ t'.events = t.events ++ [linkCall o sorted p])
        (fun _ t' ↦ t'.events = t.events ∨ ∃ p, t'.events = t.events ++ [linkCall o sorted p])) ∧
    ∀ ms ns : List IrModule, (ms.map (·.position)).Nodup → ns.Perm ms →
      linkModules tc o ns = linkModules tc o ms := by
  refine ⟨fun before i after hevents hi hbefore ↦ ?_, fun t ms ↦ ?_, fun ms ns hpos hperm ↦ ?_⟩
  · obtain ⟨dir, inputs, hdir, hinputs, rfl, hlink⟩ := first_link tc o hs hevents hi hbefore
    have called := Plan.perm_events_sources o dir hinputs
    refine ⟨dir, hdir, ?_, called, fun m hm ↦ ?_, Plan.nodup_outputs o dir hinputs⟩
    · have linked := Event.run.inj hlink
      rw [Plan.inOrder_allModules dir hinputs] at linked
      rw [linked, Command.linkModules, List.map_map]
      rfl
    · split
      next bitcode => rw [Plan.modulePath, bitcode]
      next source =>
        obtain ⟨j, hj⟩ := Plan.exists_sourceCall? o dir hm source
        obtain ⟨told, place⟩ := Plan.told_of_sourceCall? o dir hj
        refine ⟨j, called.symm.subset ?_, place, told⟩
        exact List.mem_map_of_mem (List.mem_filterMap.mpr ⟨m, hm, hj⟩)
  · exact ⟨_, IrModule.isStableSort_inOrder ms, ends_linkModules tc o t ms⟩
  · have same : IrModule.inOrder ns = IrModule.inOrder ms := by
      have sorted := IrModule.isStableSort_inOrder ns
      exact (IrModule.inOrder_eq_of_perm hpos (sorted.perm.trans hperm) sorted.ascending).symm
    rw [linkModules, linkModules, same]

/-- A build of the sample with its source given twice links both modules. -/
theorem linked_in_command_line_order_sample :
    let o := { BuildOptions.sample with saveTemps := true }
    let s : Session Unit := ⟨Host.sample, .persistent o.workingDir, (), []⟩
    let paths := [Path.ofString "main.c", Path.ofString "main.c"]
    Session.start o () Host.sample = .ok s ∧ ∃ before i after,
      ((run Toolchain.idle o paths).runIn s).2.events = before ++ .run i :: after ∧
      i.program = o.tools.llvmTool "llvm-link" ∧
      (∀ j, .run j ∈ before → j.program ≠ o.tools.llvmTool "llvm-link") ∧
      i.args = (Plan.inLine paths).map (fun m ↦ (Plan.modulePath o.workingDir m).raw) ++
        Command.texts ["-S", "-o"] ++ [(Plan.file o.workingDir .link 0).raw] := by
  intro o s paths
  have hs : Session.start o () Host.sample = .ok s := rfl
  let events := ((run Toolchain.idle o paths).runIn s).2.events
  let i := (Command.linkModules o
    [⟨0, .ofString "/w/1-clang.ll"⟩, ⟨1, .ofString "/w/1-clang-2.ll"⟩]
    (.ofString "/w/2-llvm-link.ll")).inDir o.workingDir
  let clang (n : Nat) := (Command.c o (.ofString "main.c")
    (Plan.file o.workingDir .frontend n)).inDir o.workingDir
  have hevents : events = [.run (clang 0), .run (clang 1)] ++ .run i :: events.drop 3 := by
    decide +kernel
  have hbefore (j : Invocation) (hj : .run j ∈ [Event.run (clang 0), .run (clang 1)]) :
      j.program ≠ o.tools.llvmTool "llvm-link" := by
    rcases List.mem_pair.mp hj with hj | hj
    · obtain rfl := Event.run.inj hj
      decide
    · obtain rfl := Event.run.inj hj
      decide
  obtain ⟨dir, hdir, hargs, _⟩ := (linked_in_command_line_order Toolchain.idle o paths hs).1 _ i _ hevents rfl hbefore
  obtain rfl : o.workingDir = dir := Option.some.inj hdir
  exact ⟨hs, _, i, _, hevents, rfl, hbefore, congrArg Invocation.args hargs⟩

end Build

end ContractBuild
