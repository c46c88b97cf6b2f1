import ContractBuild.Proofs.Build.Following
import ContractBuild.Proofs.FileSystem.Confined

/-!
# Builds follow their plan
-/

namespace ContractBuild

/-- Two ways to split a list at the first element with a property are one. -/
theorem eq_of_first_eq {α : Type} {P : α → Prop} {l l' r r' : List α} {x x' : α}
    (h : l ++ x :: r = l' ++ x' :: r') (hl : ∀ a ∈ l, ¬ P a) (hl' : ∀ a ∈ l', ¬ P a) (hx : P x)
    (hx' : P x') : l = l' ∧ x = x' := by
  induction l generalizing l' with
  | nil =>
    cases l' with
    | nil => exact ⟨rfl, (List.cons.inj h).1⟩
    | cons b l' => exact absurd ((List.cons.inj h).1 ▸ hx) (hl' b (by simp))
  | cons a l ih =>
    cases l' with
    | nil => exact absurd ((List.cons.inj h).1 ▸ hx') (hl a (by simp))
    | cons b l' =>
      obtain ⟨rfl, rest⟩ := List.cons.inj h
      obtain ⟨rfl, rfl⟩ := ih rest (fun c hc ↦ hl c (by simp [hc])) fun c hc ↦ hl' c (by simp [hc])
      exact ⟨rfl, rfl⟩

namespace Build

variable {σ α β : Type} {s : Session (σ × List LogEntry)} (tc : Toolchain σ) (o : BuildOptions)
  {dir : Path}

/-- One job for each input, and one module from each. -/
theorem follows_modulesOf {kind : ArtifactKind}
    {command : BuildOptions → Path → Path → Invocation} (fs : List InputFile) {n : Nat}
    (hdir : s.store.dir? = some dir) (hn : s.store.asked.count kind = n) :
    Follows (modulesOf tc.logging o kind command fs) s (Plan.jobs o dir kind command n fs)
      (fun ms _ ↦ ms = Plan.modules dir kind n fs) := by
  induction fs generalizing s n with
  | nil => exact follows_pure rfl
  | cons f fs ih =>
      have first : Follows (moduleOf tc.logging o kind command f) s
          ([Plan.job o dir kind n (command o f.path)] ++ [])
          (fun m _ ↦ m = ⟨f.position, Plan.file dir kind n⟩) :=
        (follows_produce tc o hdir hn).bind fun out s' hout _ _ ↦ follows_pure (by rw [hout])
      refine Follows.bind first fun m s' hm backend asked ↦ ?_
      have hdir' : s'.store.dir? = some dir := by simpa [ArtifactStore.dir?, backend] using hdir
      have hn' : s'.store.asked.count kind = n + 1 := by
        simp [asked, hn, Plan.job, Move.kind?]
      rw [← List.append_nil (Plan.jobs o dir kind command (n + 1) fs)]
      refine (ih hdir' hn').bind fun ms s'' hms _ _ ↦ follows_pure ?_
      rw [hm, hms]
      rfl

/-- The kinds of files that jobs reserve. -/
theorem kinds_jobs (kind : ArtifactKind) (command : BuildOptions → Path → Path → Invocation)
    (n : Nat) (fs : List InputFile) :
    (Plan.jobs o dir kind command n fs).filterMap Move.kind? =
      List.replicate fs.length kind := by
  induction fs generalizing n with
  | nil => rfl
  | cons f fs ih => simp [Plan.jobs, Plan.job, Move.kind?, ih, List.replicate_succ]

/-- Appending is noted once, and only if there is something to append. -/
theorem follows_appendInputs {asm : Path} {l : Location} (fs : List InputFile) :
    Follows (appendInputs o asm l fs) s [] (fun _ _ ↦ True) := by
  induction fs generalizing s with
  | nil => exact follows_pure trivial
  | cons f fs ih =>
      refine follows_host
        (Follows.bind (p := []) (P := fun _ _ ↦ True) ?_ fun content s' _ _ _ ↦ ?_)
      · exact follows_value fun _ _ ↦ trivial
      · refine follows_host (Follows.bind (p := []) (P := fun _ _ ↦ True) ?_ fun _ s'' _ _ _ ↦ ih)
        exact follows_change fun _ ↦ trivial

theorem follows_mergeAssembly {asm : Path} {inputs : ClassifiedInputs} :
    Follows (mergeAssembly tc.logging o asm inputs) s (Plan.appending inputs asm)
      (fun _ _ ↦ True) := by
  unfold mergeAssembly Plan.appending
  cases inputs.assembly with
  | nil => exact follows_pure trivial
  | cons f fs =>
      rw [if_neg (List.cons_ne_nil f fs), ← List.append_nil [_]]
      refine Follows.bind (P := fun _ _ ↦ True) ?_ fun _ s' _ _ _ ↦ ?_
      · exact follows_echo tc trivial
      · refine follows_host (Follows.bind (p := []) (P := fun _ _ ↦ True) ?_ fun l s'' _ _ _ ↦ ?_)
        · exact follows_value fun _ _ ↦ trivial
        · exact follows_appendInputs o _

/-- The C++ inputs come first, and the C inputs go on with their numbers. -/
theorem follows_compileSources {n : Nat} {inputs : ClassifiedInputs}
    (hdir : s.store.dir? = some dir) (hn : s.store.asked.count .frontend = n) :
    Follows (compileSources tc.logging o inputs) s
      (Plan.jobs o dir .frontend Command.cxx n inputs.cxx ++
        Plan.jobs o dir .frontend Command.c (n + inputs.cxx.length) inputs.c)
      (fun ms _ ↦ ms = Plan.modules dir .frontend n inputs.cxx ++
        Plan.modules dir .frontend (n + inputs.cxx.length) inputs.c) := by
  refine (follows_modulesOf tc o inputs.cxx hdir hn).bind fun cxx s' hcxx backend asked ↦ ?_
  have hdir' : s'.store.dir? = some dir := by simpa [ArtifactStore.dir?, backend] using hdir
  have hn' : s'.store.asked.count .frontend = n + inputs.cxx.length := by
    simp [asked, hn, kinds_jobs]
  rw [← List.append_nil (Plan.jobs o dir .frontend Command.c _ inputs.c)]
  refine (follows_modulesOf tc o inputs.c hdir' hn').bind fun c s'' hc _ _ ↦ follows_pure ?_
  rw [hcxx, hc]

/-- The stage that lowers the linked module: each tool reads what the one before has written. -/
theorem follows_lowering {start : Plan.Start} (hdir : s.store.dir? = some dir)
    (hstart : ∀ kind ∈ [.internalize, .optimize, .codegen],
      s.store.asked.count kind = start kind) :
    Follows (do
        let internalized ← internalize tc.logging o (Plan.file dir .link (start .link))
        let optimized ← optimize tc.logging o internalized
        generate tc.logging o optimized) s
      (Plan.lowering o dir start) (fun asm _ ↦ asm = Plan.assembly dir start) := by
  simp only [List.mem_cons, List.not_mem_nil, or_false, forall_eq_or_imp, forall_eq] at hstart
  obtain ⟨hinternalize, hoptimize, hcodegen⟩ := hstart
  refine (follows_produce tc o hdir hinternalize).bind
    (q := [_, _]) fun out s₁ hout backend₁ asked₁ ↦ ?_
  have hdir₁ : s₁.store.dir? = some dir := by simpa [ArtifactStore.dir?, backend₁] using hdir
  have hoptimize₁ : s₁.store.asked.count .optimize = start .optimize := by
    simp [asked₁, hoptimize, Plan.job, Move.kind?]
  rw [hout]
  refine (follows_produce tc o hdir₁ hoptimize₁).bind
    (q := [_]) fun out' s₂ hout' backend₂ asked₂ ↦ ?_
  have hdir₂ : s₂.store.dir? = some dir := by simpa [ArtifactStore.dir?, backend₂] using hdir₁
  have hcodegen₂ : s₂.store.asked.count .codegen = start .codegen := by
    simp [asked₂, asked₁, hcodegen, Plan.job, Move.kind?]
  rw [hout']
  exact follows_produce tc o hdir₂ hcodegen₂

/-- The assembly that is generated from the inputs, before any is appended to it. -/
def lowered (tc : Toolchain σ) (o : BuildOptions) (inputs : ClassifiedInputs) : Build σ Path := do
  let compiled ← compileSources tc o inputs
  let assembled ← assembleIr tc o inputs
  let given := inputs.irBinary.map IrModule.ofInput
  let linked ← linkModules tc o (compiled ++ assembled ++ given)
  let internalized ← internalize tc o linked
  let optimized ← optimize tc o internalized
  generate tc o optimized

theorem assembleAll_eq (tc : Toolchain σ) (inputs : ClassifiedInputs) :
    assembleAll tc o inputs = do
      let asm ← lowered tc o inputs
      mergeAssembly tc o asm inputs
      return asm := by
  simp only [assembleAll, lowered, bind_assoc]

/-- Sources become modules, these become one, and that is lowered. -/
theorem follows_lowered {start : Plan.Start} {inputs : ClassifiedInputs}
    (hdir : s.store.dir? = some dir) (hstart : ∀ kind, s.store.asked.count kind = start kind) :
    Follows (lowered tc.logging o inputs) s
      (Plan.sources o dir start inputs ++ Plan.link o dir start inputs :: Plan.lowering o dir start)
      (fun asm _ ↦ asm = Plan.assembly dir start) := by
  have plan_eq : Plan.sources o dir start inputs ++ Plan.link o dir start inputs ::
      Plan.lowering o dir start =
      (Plan.jobs o dir .frontend Command.cxx (start .frontend) inputs.cxx ++
        Plan.jobs o dir .frontend Command.c (start .frontend + inputs.cxx.length) inputs.c) ++
      (Plan.jobs o dir .assembler Command.assemble (start .assembler) inputs.irText ++
        ([Plan.link o dir start inputs] ++ Plan.lowering o dir start)) := by
    simp only [Plan.sources, List.append_assoc, List.cons_append, List.nil_append]
  rw [plan_eq]
  refine (follows_compileSources tc o hdir (hstart .frontend)).bind
    fun compiled s₁ hcompiled backend₁ asked₁ ↦ ?_
  have hdir₁ : s₁.store.dir? = some dir := by simpa [ArtifactStore.dir?, backend₁] using hdir
  have hassembler : s₁.store.asked.count .assembler = start .assembler := by
    simp [asked₁, hstart, kinds_jobs, List.count_replicate]
  refine (follows_modulesOf tc o inputs.irText hdir₁ hassembler).bind
    fun assembled s₂ hassembled backend₂ asked₂ ↦ ?_
  have hdir₂ : s₂.store.dir? = some dir := by simpa [ArtifactStore.dir?, backend₂] using hdir₁
  have hlink : s₂.store.asked.count .link = start .link := by
    simp [asked₂, asked₁, hstart, kinds_jobs, List.count_replicate]
  rw [hcompiled, hassembled]
  refine (follows_produce tc o hdir₂ hlink).bind fun linked s₃ hlinked backend₃ asked₃ ↦ ?_
  have hdir₃ : s₃.store.dir? = some dir := by simpa [ArtifactStore.dir?, backend₃] using hdir₂
  have hlowering : ∀ kind ∈ [.internalize, .optimize, .codegen],
      s₃.store.asked.count kind = start kind := by
    intro kind hkind
    simp only [List.mem_cons, List.not_mem_nil, or_false] at hkind
    rcases hkind with rfl | rfl | rfl <;>
      simp [asked₃, asked₂, asked₁, hstart, kinds_jobs, List.count_replicate, Plan.job, Move.kind?]
  rw [hlinked]
  exact follows_lowering tc o hdir₃ hlowering

/-- The assembly inputs are appended to the lowered module. -/
theorem follows_assembleAll {start : Plan.Start} {inputs : ClassifiedInputs}
    (hdir : s.store.dir? = some dir) (hstart : ∀ kind, s.store.asked.count kind = start kind) :
    Follows (assembleAll tc.logging o inputs) s (Plan.toAssembly o dir start inputs)
      (fun asm _ ↦ asm = Plan.assembly dir start) := by
  rw [assembleAll_eq, Plan.toAssembly]
  refine (follows_lowered tc o hdir hstart).bind fun asm s' hasm _ _ ↦ ?_
  rw [hasm, ← List.append_nil (Plan.appending _ _)]
  exact (follows_mergeAssembly tc o).bind fun _ _ _ _ _ ↦ follows_pure rfl

/-! ## The ending -/

theorem follows_copy {source dest : Path} {shown : String} :
    Follows (copy tc.logging source shown dest) s [.say s!"cp {shown} {dest.display}"]
      (fun _ _ ↦ True) := by
  rw [← List.append_nil [_]]
  refine (follows_echo tc trivial).bind (P := fun _ _ ↦ True) fun _ s' _ _ _ ↦ ?_
  exact follows_host (follows_settle fun _ ↦ trivial)

/-- The assembly is copied at most once. -/
theorem follows_emitAssembly (asm : Path) :
    ∃ copied, Follows (emitAssembly tc.logging o asm) s (Plan.ending o asm (.assembly copied))
      (fun p _ ↦ p = o.absolute o.assemblyOutput) := by
  by_cases same : s.host.sameEntry asm (o.absolute o.assemblyOutput) = true
  · refine ⟨false, follows_host ?_⟩
    rw [if_pos same]
    exact follows_pure rfl
  · refine ⟨true, follows_host ?_⟩
    rw [if_neg same, Plan.ending, ← List.append_nil [_]]
    exact (follows_copy tc).bind fun _ s' _ _ _ ↦ follows_pure rfl

theorem follows_copyEach {target : OutputTarget} {linked : Option Name} (ns : List Name) :
    Follows (copyEach tc.logging dir target linked ns) s
      (ns.map fun n ↦ .say s!"cp {n.display} {(target.destination n linked).display}")
      (fun _ _ ↦ True) := by
  induction ns generalizing s with
  | nil => exact follows_pure trivial
  | cons n ns ih => exact (follows_copy tc).bind (p := [_]) fun _ s' _ _ _ ↦ ih

/-- What is copied from the link directory is what is there when it is listed. -/
theorem follows_copyOut {linkDir : LinkDir} :
    Follows (copyOut tc.logging linkDir.path (OutputTarget.resolve o.output o.workingDir)
        ((linkedOutput o linkDir).map (·.raw))) s
      ((Plan.produced s.host linkDir.path).map (Plan.copying o linkDir)) (fun _ _ ↦ True) := by
  refine follows_host ?_
  unfold Plan.produced
  cases hnames : s.host.list linkDir.path with
  | error cause => exact follows_throw
  | ok names => exact follows_copyEach tc _

/-- The linker runs in the link directory, and what it leaves there is copied. -/
theorem follows_linkIn (asm : Path) (linkDir : LinkDir) :
    ∃ left, Follows (linkIn tc.logging o linkDir asm) s (Plan.linking o asm linkDir left)
      (fun target _ ↦ target = OutputTarget.resolve o.output o.workingDir) := by
  let linker := (Command.compile o asm (o.absolute o.abi) (linkedOutput o linkDir)).inDir
    linkDir.path
  rcases linkDir with p | p
  · let s₁ := s.echoed tc.logging s!"cd {p.display}"
    refine ⟨(s₁.called tc.logging linker).host, ?_⟩
    have noted : Follows (echo tc.logging s!"cd {p.display}") s [.say s!"cd {p.display}"]
        (fun _ t ↦ t = s₁) := follows_echo tc rfl
    refine noted.bind (q := _ :: _) fun _ t ht _ _ ↦ ?_
    subst ht
    have linked : Follows (tool tc.logging linker) s₁
        [⟨.run linker, none, some (s₁.called tc.logging linker).host⟩]
        (fun _ t ↦ t = s₁.called tc.logging linker) := by
      refine follows_tool tc rfl rfl ?_ fun _ ↦ rfl
      rintro h ⟨⟩
      rfl
    refine linked.bind (p := [_]) fun _ t ht _ _ ↦ ?_
    subst ht
    rw [← List.append_nil (List.map _ _)]
    exact (follows_copyOut tc o).bind fun _ t _ _ _ ↦ follows_pure rfl
  · refine ⟨(s.called tc.logging linker).host, ?_⟩
    have linked : Follows (tool tc.logging linker) s
        [⟨.run linker, none, some (s.called tc.logging linker).host⟩] (fun _ _ ↦ True) := by
      refine follows_tool tc rfl rfl ?_ fun _ ↦ trivial
      rintro h ⟨⟩
      rfl
    exact linked.bind (q := []) fun _ t _ _ _ ↦ follows_pure rfl

/-- A store opens a directory for the link alone, unless it keeps its files. -/
theorem opens_of_openLinkDir {store : ArtifactStore} {h h' : Host} {linkDir : LinkDir}
    (hopen : store.openLinkDir h = .ok (linkDir, h')) : Plan.Opens store linkDir := by
  rcases ArtifactStore.cases_openLinkDir hopen with ⟨wd, hb, rfl, -⟩ | ⟨home, p, hb, rfl, hmade⟩
  · exact hb
  · exact ⟨by simp [ArtifactStore.isPersistent, hb], Host.isAbsolute_of_makeTemporary hmade⟩

theorem follows_openLinkDir :
    Follows openLinkDir s [] (fun linkDir _ ↦ Plan.Opens s.store linkDir) := by
  unfold Follows Ends openLinkDir
  rw [runIn_ofResult]
  cases hopen : s.store.openLinkDir s.host with
  | error e => exact ⟨[], [], List.nil_prefix, .refl s, .inl (by simp)⟩
  | ok opened =>
    refine ⟨⟨[], ⟨by simp, by simp, .nil, by simp, rfl⟩, by simp⟩, by simp, ?_⟩
    exact opens_of_openLinkDir hopen

/-- Every store opens some directory. -/
theorem exists_opens (store : ArtifactStore) : ∃ linkDir, Plan.Opens store linkDir := by
  cases hbackend : store.backend with
  | persistent p => exact ⟨.working p, hbackend⟩
  | ephemeral p =>
    exact ⟨.scoped ⟨[Path.slash]⟩, by simp [ArtifactStore.isPersistent, hbackend], rfl⟩

theorem follows_finalLink (asm : Path) :
    ∃ e : LinkDir × Host, Plan.Opens s.store e.1 ∧
      Follows (finalLink tc.logging o asm) s (Plan.linking o asm e.1 e.2)
        (fun target _ ↦ target = OutputTarget.resolve o.output o.workingDir) := by
  obtain ⟨somewhere, hsomewhere⟩ := exists_opens s.store
  refine Follows.bind_exists (p := []) (follows_openLinkDir) ⟨(somewhere, s.host), hsomewhere⟩ ?_
  intro linkDir s' hopens _ _
  obtain ⟨left, link⟩ := follows_linkIn (s := s') tc o asm linkDir
  exact ⟨(linkDir, left), hopens, link.andFinally fun t ↦ ⟨_, rfl⟩⟩

theorem follows_extractCode (contract : Path) :
    Follows (extractCode tc.logging o contract) s
      [.call ((Command.decode o contract).inDir o.workingDir)] (fun _ _ ↦ True) := by
  rw [← List.append_nil [_]]
  refine Follows.bind (P := fun _ _ ↦ True) ?_ fun report s' _ _ _ ↦ ?_
  · exact follows_tool tc rfl rfl (by simp [Move.call]) fun _ ↦ trivial
  · cases CodeLine.find? report with
    | none => exact follows_throw
    | some code =>
      refine follows_host (Follows.bind (p := []) (P := fun _ _ ↦ True) ?_ fun _ _ _ _ _ ↦ ?_)
      · exact follows_change fun _ ↦ trivial
      · exact follows_pure trivial

/-- The code is looked up where an output file was given. -/
theorem follows_linkAll (asm : Path) :
    ∃ e : LinkDir × Host, Plan.Opens s.store e.1 ∧
      Follows (linkAll tc.logging o asm) s (Plan.ending o asm (.contract e.1 e.2))
        (fun _ _ ↦ True) := by
  obtain ⟨e, hopens, link⟩ := follows_finalLink (s := s) tc o asm
  refine ⟨e, hopens, link.bind fun target s' htarget _ _ ↦ ?_⟩
  rw [htarget]
  unfold OutputTarget.resolve Plan.decoding
  cases o.output with
  | none => exact follows_pure trivial
  | some p =>
    exact (follows_extractCode tc o _).bind (q := []) fun _ _ _ _ _ ↦ follows_pure trivial

/-- Which endings fit is settled when the store is opened. -/
theorem fits_of_backend_eq {o : BuildOptions} {store store' : ArtifactStore}
    {ending : Plan.Ending} (hbackend : store'.backend = store.backend)
    (h : Plan.Fits o store' ending) : Plan.Fits o store ending := by
  rcases ending with copied | ⟨linkDir, left⟩
  · exact h
  · refine ⟨h.1, ?_⟩
    rcases linkDir with p | p
    · simpa [Plan.Opens, ArtifactStore.isPersistent, hbackend] using h.2
    · simpa [Plan.Opens, hbackend] using h.2

/-- From the assembly on, a build ends with it or links it, as its options say. -/
theorem follows_fromAssembly (asm : Path) :
    ∃ ending, Plan.Fits o s.store ending ∧
      Follows (if o.asmOnly then return .assembly (← emitAssembly tc.logging o asm)
        else linkAll tc.logging o asm) s (Plan.ending o asm ending) (fun _ _ ↦ True) := by
  by_cases only : o.asmOnly = true
  · obtain ⟨copied, emit⟩ := follows_emitAssembly (s := s) tc o asm
    refine ⟨.assembly copied, only, ?_⟩
    rw [if_pos only, ← List.append_nil (Plan.ending o asm _)]
    exact emit.bind fun _ _ _ _ _ ↦ follows_pure trivial
  · obtain ⟨e, hopens, link⟩ := follows_linkAll (s := s) tc o asm
    refine ⟨.contract e.1 e.2, ⟨by simpa using only, hopens⟩, ?_⟩
    rw [if_neg only]
    exact link

/-- All stages follow the whole plan, with some ending. -/
theorem follows_stages {start : Plan.Start} {paths : List Path} {inputs : ClassifiedInputs}
    (hdir : s.store.dir? = some dir) (hstart : ∀ kind, s.store.asked.count kind = start kind)
    (hinputs : classify paths = .ok inputs) :
    ∃ ending, Plan.Fits o s.store ending ∧
      Follows (stages tc.logging o paths) s (Plan.whole o dir start inputs ending)
        (fun _ _ ↦ True) := by
  have fitting : ∃ ending, Plan.Fits o s.store ending := by
    obtain ⟨ending, hending, _⟩ := follows_fromAssembly (s := s) tc o .here
    exact ⟨ending, hending⟩
  have accepted : Follows (classified paths) s [] (fun given t ↦ given = inputs ∧ t = s) := by
    unfold classified
    rw [hinputs]
    exact follows_pure ⟨rfl, rfl⟩
  have checked : Follows (checkInputs o inputs) s [] (fun _ t ↦ t = s) := by
    refine follows_host ?_
    cases firstMissing? o s.host inputs with
    | none => exact follows_pure rfl
    | some p => exact follows_throw
  refine accepted.bind_exists (p := []) fitting ?_
  rintro _ _ ⟨rfl, rfl⟩ _ _
  refine checked.bind_exists (p := []) fitting ?_
  rintro _ _ rfl _ _
  refine (follows_assembleAll tc o hdir hstart).bind_exists fitting ?_
  rintro _ s' rfl hbackend _
  obtain ⟨ending, hending, rest⟩ := follows_fromAssembly (s := s') tc o (Plan.assembly dir start)
  exact ⟨ending, fits_of_backend_eq hbackend hending, rest⟩

/-! ## Whole builds -/

/-- What is logged of moves is their events. -/
theorem events_of_moved {moves : List Move} {log : List LogEntry}
    (h : List.Forall₂ Move.Matches moves log) :
    log.map LogEntry.event = moves.map Move.event := by
  induction h with
  | nil => rfl
  | cons first _ ih => rw [List.map_cons, List.map_cons, first.1, ih]

/-- The files on record for some moves are those reserved for them. -/
theorem path_record (persistent : Bool) (moves : List Move) :
    (moves.filterMap (Move.record? persistent)).map (·.path) = Plan.files moves := by
  rw [List.map_filterMap]
  refine List.filterMap_congr fun m _ ↦ ?_
  simp [Move.record?, Option.map_map, Function.comp_def]

/-- Without accepted inputs nothing is done. -/
theorem runIn_run_of_classify_error (tc : Toolchain σ) (o : BuildOptions) {paths : List Path}
    {e : BuildError} (he : classify paths = .error e) (s : Session σ) :
    (run tc o paths).runIn s = (.error e, s.cleanup) := by
  have failed : (stages tc o paths).runIn s = (.error e, s) := by
    unfold stages classified
    rw [he]
    rfl
  unfold run andFinally
  rw [runIn_ofResult, failed]

/-- What the first build of a session does are the moves of a plan, as far as it goes. -/
theorem moves_of_run (tc : Toolchain σ) (o : BuildOptions) {paths : List Path} {tools : σ}
    {h : Host} {s : Session σ} (hs : Session.start o tools h = .ok s) {inputs : ClassifiedInputs}
    (hinputs : classify paths = .ok inputs) :
    let ended := (run tc o paths).runIn s
    let log := history tc o paths s
    ∃ dir ending moves, s.store.dir? = some dir ∧ Plan.Fits o s.store ending ∧
      moves <+: Plan.whole o dir (fun _ ↦ 0) inputs ending ∧
      ended.2.events = moves.map Move.event ∧ List.Forall₂ Move.Matches moves log ∧
      ended.2.store.created = moves.filterMap (Move.record? o.saveTemps) ∧
      match ended.1 with
      | .ok _ => moves = Plan.whole o dir (fun _ ↦ 0) inputs ending ∧ ∀ x ∈ log, x.Succeeds
      | .error e => StopsWith e log := by
  obtain ⟨events, created, asked, persistent, dir, hdir⟩ := Session.fresh_of_start hs
  have hasked (kind : ArtifactKind) : s.store.asked.count kind = 0 := by simp [asked]
  obtain ⟨ending, fits, follows⟩ :=
    follows_stages (s := s.withLog) tc o hdir hasked hinputs
  rcases hstages : (stages tc.logging o paths).runIn s.withLog with ⟨r, t⟩
  have hlogging : (run tc.logging o paths).runIn s.withLog = (r, t.cleanup) := by
    unfold run andFinally
    rw [runIn_ofResult, hstages]
  rw [runIn_run_eq_logging, history, hlogging]
  unfold Follows Ends at follows
  rw [hstages] at follows
  -- whether it ends well or not, what is on record comes from the moves that were made
  have recorded {moves : List Move} {log : List LogEntry} (adv : Advances s.withLog t moves log) :
      t.cleanup.tools.2 = log ∧ t.cleanup.events = moves.map Move.event ∧
        List.Forall₂ Move.Matches moves t.cleanup.tools.2 ∧
        t.cleanup.store.created = moves.filterMap (Move.record? o.saveTemps) := by
    have hlog : t.cleanup.tools.2 = log := adv.log_eq
    have hevents : t.cleanup.events = s.events ++ log.map LogEntry.event := adv.events_eq
    refine ⟨hlog, ?_, ?_, ?_⟩
    · rw [hevents, events, events_of_moved adv.moved, List.nil_append]
    · rw [hlog]
      exact adv.moved
    · rw [Session.created_cleanup, adv.created_eq, ← persistent]
      exact congrArg (· ++ _) created
  cases r with
  | ok outcome =>
    obtain ⟨⟨log, adv, succ⟩, _, _⟩ := follows
    obtain ⟨hlog, hevents, hmoved, hcreated⟩ := recorded adv
    refine ⟨dir, ending, _, hdir, fits, List.prefix_refl _, hevents, hmoved, hcreated, rfl, ?_⟩
    rw [hlog]
    exact succ
  | error e =>
    obtain ⟨moves, log, taken, adv, stop⟩ := follows
    obtain ⟨hlog, hevents, hmoved, hcreated⟩ := recorded adv
    refine ⟨dir, ending, moves, hdir, fits, taken, hevents, hmoved, hcreated, ?_⟩
    rw [hlog]
    exact stop

/-- The first build of a session goes through its plan: what it does is the plan as far as it goes,
each tool is called where it belongs and writes to a file reserved for it right before, and the build
stops with the first tool that fails, or with an error of its own, and else has come to the end of the
plan. -/
theorem run_follows_plan (tc : Toolchain σ) (o : BuildOptions) (paths : List Path) {tools : σ}
    {h : Host} {s : Session σ} (hs : Session.start o tools h = .ok s) :
    let ended := (run tc o paths).runIn s
    let log := history tc o paths s
    (∀ e, classify paths = .error e → ended.1 = .error e ∧ ended.2.events = []) ∧
    ∀ inputs, classify paths = .ok inputs → ∃ dir ending moves,
      s.store.dir? = some dir ∧ Plan.Fits o s.store ending ∧
      moves <+: Plan.whole o dir (fun _ ↦ 0) inputs ending ∧
      (∀ m ∈ moves, m.CallsInPlace o ending) ∧
      ended.2.events = moves.map Move.event ∧ List.Forall₂ Move.Matches moves log ∧
      ended.2.store.created = moves.filterMap (Move.record? o.saveTemps) ∧
      (ended.2.store.created.map (·.path)).Nodup ∧
      match ended.1 with
      | .ok _ => moves = Plan.whole o dir (fun _ ↦ 0) inputs ending ∧ ∀ x ∈ log, x.Succeeds
      | .error e => StopsWith e log := by
  refine ⟨fun e he ↦ ?_, fun inputs hinputs ↦ ?_⟩
  · rw [runIn_run_of_classify_error tc o he]
    exact ⟨rfl, (Session.fresh_of_start hs).1⟩
  · obtain ⟨dir, ending, moves, hdir, fits, taken, hevents, hmoved, hcreated, hend⟩ :=
      moves_of_run tc o hs hinputs
    refine ⟨dir, ending, moves, hdir, fits, taken, fun m hm ↦ ?_, hevents, hmoved, hcreated, ?_, hend⟩
    · exact Plan.callsInPlace_whole o dir _ inputs ending m (taken.subset hm)
    · rw [hcreated, path_record]
      exact (Plan.nodup_files_whole ..).sublist (taken.sublist.filterMap _)

end Build

/-! ## A sample -/

/-- A host with a source and an interface description in directory `/w`. -/
def Host.sample : Host where
  tree :=
    { entries :=
        [([Bytes.ofString "w"], .directory { Attributes.fresh programMode 0 with id := 1 }),
          ([Bytes.ofString "w", Bytes.ofString "main.c"],
            .file { Attributes.fresh fileMode 0 with id := 2, content := Bytes.ofString "int x;" }),
          ([Bytes.ofString "w", Bytes.ofString "wallet.abi"],
            .file { Attributes.fresh fileMode 0 with id := 3, content := Bytes.ofString "abi" })]
      nextId := 4
      clock := 0 }
  cwd := 1
  tempDir := .ofString "/w"

/-- Options for the sample. -/
def BuildOptions.sample : BuildOptions :=
  .ofTools ⟨.ofString "/llvm", .ofString "/bin/tvm_linker", .ofString "/lib", .ofString "/include",
    .ofString "/"⟩ (.ofString "wallet.abi") (.ofString "/w")

/-- A toolchain whose tools succeed without doing anything. -/
def Toolchain.idle : Toolchain Unit where
  run _ st h := ⟨.ok "", st, h.tree⟩
  echo _ st := st

/-- What holds of the result of an operation that was tried out. -/
theorem exists_of_map_eq_ok_true {ε α : Type} {x : Except ε α} {p : α → Bool}
    (h : x.map p = .ok true) : ∃ a, x = .ok a ∧ p a = true := by
  cases x with
  | error e => cases h
  | ok a => exact ⟨a, rfl, Except.ok.inj h⟩

/-- The same of a proposition that can be decided. -/
theorem exists_of_map_decide {ε α : Type} {x : Except ε α} {P : α → Prop} [DecidablePred P]
    (h : x.map (fun a ↦ decide (P a)) = .ok true) : ∃ a, x = .ok a ∧ P a := by
  obtain ⟨a, ha, hP⟩ := exists_of_map_eq_ok_true h
  exact ⟨a, ha, of_decide_eq_true hP⟩

/-- A build of the sample that keeps its files goes through the whole plan. -/
theorem Build.run_follows_plan_sample :
    let o := { BuildOptions.sample with saveTemps := true }
    let s : Session Unit := ⟨Host.sample, .persistent o.workingDir, (), []⟩
    Session.start o () Host.sample = .ok s ∧ ∃ ending, Plan.Fits o s.store ending ∧
      ((run Toolchain.idle o [.ofString "main.c"]).runIn s).2.events =
        (Plan.whole o o.workingDir (fun _ ↦ 0) ⟨[], [⟨.ofString "main.c", .c, 0⟩], [], [], []⟩
          ending).map Move.event := by
  intro o s
  have hs : Session.start o () Host.sample = .ok s := rfl
  have inputs : classify [.ofString "main.c"] =
      .ok ⟨[], [⟨.ofString "main.c", .c, 0⟩], [], [], []⟩ := by decide +kernel
  have done : ((run Toolchain.idle o [.ofString "main.c"]).runIn s).1 =
      .ok (.linked (.directory o.workingDir) none) := by decide +kernel
  obtain ⟨dir, ending, moves, hdir, fits, _, _, events, _, _, _, whole⟩ :=
    (run_follows_plan Toolchain.idle o [.ofString "main.c"] hs).2 _ inputs
  rw [done] at whole
  obtain rfl : o.workingDir = dir := Option.some.inj hdir
  exact ⟨hs, ending, fits, by rw [events, whole.1]⟩

end ContractBuild
