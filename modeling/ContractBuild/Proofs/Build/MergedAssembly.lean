import ContractBuild.Proofs.Build.LinkOrder
import ContractBuild.Proofs.Build.AssemblyOnly
import ContractBuild.Proofs.FileSystem.Contents

/-!
# What the merged assembly holds

The assembly inputs are appended to the generated assembly in the order of the command line, and
nothing else is.  A build that ends with the assembly leaves the same bytes at its destination, unless
that is another name of the file that they are copied from; a build that goes on gives them to the
linker.
-/

namespace ContractBuild

open Build

variable {σ : Type} {tc : Toolchain σ} {o : BuildOptions} {h h₁ h₂ : Host} {dir asm dest : Path}
  {a d : Location} {g : File} {added : Bytes} {paths : List Path} {inputs : ClassifiedInputs}

/-! ## Assembly inputs -/

/-- Inputs of a kind stand in the order of the command line. -/
theorem map_path_ofKind {n : Nat} (h : classifyFrom n paths = .ok inputs) (kind : InputKind) :
    (inputs.ofKind kind).map (·.path) = paths.filter fun p ↦ InputKind.ofPath? p = some kind := by
  induction paths generalizing n inputs with
  | nil =>
    obtain rfl := Except.ok.inj h
    cases kind <;> rfl
  | cons p ps ih =>
    obtain ⟨kind', rest, hkind, hrest, rfl⟩ := Plan.classifyFrom_cons h
    rw [ClassifiedInputs.ofKind_cons]
    by_cases same : kind' = kind
    · subst same
      simp [hkind, ih hrest]
    · simp [hkind, same, ih hrest]

/-- Whether some bytes are those of a file followed by those of the assembly inputs as they are on a
host, in the order of the command line. -/
def IsMerged (o : BuildOptions) (paths : List Path) (h : Host) (g : File) (content : Bytes) : Prop :=
  ∃ contents, List.Forall₂ (fun p c ↦ h.read (o.absolute p) = .ok c)
      (paths.filter fun p ↦ InputKind.ofPath? p = some .assembly) contents ∧
    content = g.content ++ contents.flatten

/-! ## Merging -/

namespace Build

/-- Inputs are appended as they are read, one after the other. -/
theorem ends_appendInputs (ht : h.tree.Sound) (files : List InputFile)
    (hother : ∀ f ∈ files, h.leadsTo g (o.absolute f.path) = false) {s : Session σ}
    (hs : h.Extended a g added s.host) :
    Ends (appendInputs o asm a files) s
      (fun _ s' ↦ s'.store = s.store ∧ ∃ contents,
        List.Forall₂ (fun f c ↦ h.read (o.absolute f.path) = .ok c) files contents ∧
          h.Extended a g (added ++ contents.flatten) s'.host)
      (fun _ _ ↦ True) := by
  induction files generalizing s added with
  | nil => exact ends_pure.mpr ⟨rfl, [], .nil, by simpa using hs⟩
  | cons f fs ih =>
    refine ends_bind.mpr (ends_host.mpr (ends_bind.mpr (ends_value.mpr ⟨fun content hread ↦ ?_,
      fun _ _ ↦ trivial⟩)))
    refine ends_bind.mpr (ends_host.mpr (ends_bind.mpr (ends_change.mpr ⟨fun h' hh ↦ ?_,
      fun _ _ ↦ trivial⟩)))
    have before : h.read (o.absolute f.path) = .ok content := by
      refine Host.read_of_written hs.written ht (fun k b hb hid ↦ ?_) hs.elsewhere hread
      have leads := Host.leadsTo_iff.mpr ⟨k, b, hb, hid⟩
      rw [hother f List.mem_cons_self] at leads
      cases leads
    refine (ih (fun f' hf' ↦ hother f' (List.mem_cons_of_mem _ hf')) (hs.append hh)).mono ?_
      fun _ _ _ ↦ trivial
    rintro _ s' ⟨store, contents, hcontents, extended⟩
    exact ⟨store, content :: contents, .cons before hcontents, by simpa using extended⟩

/-- Merging adds the assembly inputs to the assembly, and nothing else. -/
theorem ends_mergeAssembly {s : Session σ} (ht : s.host.tree.Sound)
    (hasm : s.host.entry asm = .ok (a, .file g))
    (hother : ∀ f ∈ inputs.assembly, s.host.leadsTo g (o.absolute f.path) = false) :
    Ends (mergeAssembly tc o asm inputs) s
      (fun _ s' ↦ s'.store = s.store ∧ ∃ contents,
        List.Forall₂ (fun f c ↦ s.host.read (o.absolute f.path) = .ok c) inputs.assembly contents ∧
          s.host.Extended a g contents.flatten s'.host)
      (fun _ _ ↦ True) := by
  have start : s.host.Extended a g [] s.host := .refl ht (Host.node?_of_entry hasm)
  by_cases hnil : inputs.assembly = []
  · rw [mergeAssembly_nil hnil]
    exact ends_pure.mpr ⟨rfl, [], hnil ▸ .nil, start⟩
  · rw [mergeAssembly_eq hnil]
    refine ends_bind.mpr (ends_bind.mpr (ends_echo.mpr (ends_bind.mpr (ends_host.mpr
      (ends_value.mpr ⟨fun l hl ↦ ?_, fun _ _ ↦ trivial⟩)))))
    obtain ⟨n, hn⟩ := Host.entry_of_appendTarget hl
    obtain ⟨rfl, -⟩ := Prod.mk.inj (Except.ok.inj (hasm.symm.trans hn))
    exact ends_appendInputs ht _ hother (s := s.echoed tc _) start

/-! ## The copy at the destination -/

/-- The assembly is emitted to its destination: it is there already or it is copied. -/
theorem ends_emitAssembly_ok (s : Session σ) (asm : Path) :
    Ends (emitAssembly tc o asm) s
      (fun p s' ↦ p = o.absolute o.assemblyOutput ∧ s'.store = s.store ∧
        if s.host.sameEntry asm p then s'.host = s.host else s.host.copy asm p = (.ok (), s'.host))
      (fun _ _ ↦ True) := by
  refine ends_bind.mpr (ends_host.mpr ?_)
  split
  next same => exact ends_pure.mpr ⟨rfl, rfl, by rw [if_pos same]⟩
  next other =>
    refine ends_bind.mpr (ends_bind.mpr (ends_echo.mpr (ends_bind.mpr (ends_host.mpr ?_))))
    refine ends_settle.mpr ⟨fun h' hh ↦ ends_pure.mpr ⟨rfl, rfl, ?_⟩, fun _ _ _ ↦ trivial⟩
    rw [if_neg other]
    exact hh

end Build

/-- A file that has grown and is then put to a destination is there with what was added, unless the
destination is another name of it: then it is empty. -/
theorem Host.Extended.file_of_emitted (he : h.Extended a g added h₁) (ht : h.tree.Sound)
    (hasm : h.entry asm = .ok (a, .file g)) {place : Place} (hplace : h₁.locateNew dest = .ok place)
    (hfile : ∀ n, h₁.tree.node? place.location = some n → ∃ b, n = .file b)
    (hput : if h₁.sameEntry asm dest then h₂ = h₁ else h₁.copy asm dest = (.ok (), h₂)) :
    h.Written h₂ ∧ ∃ f, h₂.tree.node? place.location = some (.file f) ∧
      f.content = if h.tree.fileId? place.location = some g.id ∧ place.location ≠ a then []
        else g.content ++ added := by
  obtain ⟨f, hf, hid, hcontent⟩ := he.here
  have asmThere : h₁.entry asm = .ok (a, .file f) := he.written.entry_after ht hasm hf rfl
  have located := Tree.locate_of_create hplace
  have shows := Tree.shows_of_locate hplace
  have asked : h₁.sameEntry asm dest = true ↔ ∃ m, h₁.entry dest = .ok (a, m) :=
    Host.sameEntry_iff asmThere
  have sameId : h₁.tree.fileId? place.location = some f.id ↔
      h.tree.fileId? place.location = some g.id := by rw [he.names, hid]
  split at hput
  next same =>
    subst hput
    obtain ⟨n, hn⟩ := asked.mp same
    obtain rfl := Except.ok.inj (located.symm.trans (Host.locate_of_entry hn))
    exact ⟨he.written, f, hf, by rw [hcontent, if_neg fun h ↦ h.2 rfl]⟩
  next other =>
    have hne : place.location ≠ a := by
      rintro hl
      refine other (asked.mpr ⟨.file f, Host.entry_of_locate ?_⟩)
      cases place with
      | entry k n =>
        obtain rfl : k = a := hl
        obtain rfl := Option.some.inj (shows.symm.trans hf)
        exact located
      | vacant k =>
        obtain rfl : k = a := hl
        cases shows.symm.trans hf
    obtain ⟨place', hplace', change⟩ := Host.writesOnly_of_copy he.written.sound hput
    obtain ⟨f', hf', content, -⟩ := Host.file_of_copy he.written.sound hput asmThere hplace hfile
    refine ⟨he.written.trans change.written, f', hf', ?_⟩
    simp only [content, sameId, hcontent, hne, ne_eq, not_false_eq_true, and_true]

/-! ## What outlasts a build -/

namespace Host

/-- What is reached without a directory does not lie in it. -/
theorem HasDirectory.not_prefix (hd : h.HasDirectory dir d) {place : Place}
    (hp : (h.without d).locateNew dest = .ok place)
    (hfile : ∀ n, h.tree.node? place.location = some n → ∃ b, n = .file b) :
    ¬ d <+: place.location := by
  intro hprefix
  have gone := node?_without_of_prefix (h := h) hd.ne_nil hprefix
  have shows := Tree.shows_of_locate hp
  cases place with
  | entry k n => cases gone.symm.trans shows
  | vacant k =>
    have parent := isSome_directoryId?_of_vacant (sound_without hd.sound d) hp
    by_cases hdk : d = k
    · obtain ⟨n, hn, -⟩ := hd.reaches
      obtain ⟨b, hb⟩ := hfile _ (hdk ▸ hn)
      cases hb
    · have above : (h.without d).tree.node? k.dropLast = none :=
        node?_without_of_prefix hd.ne_nil (Tree.prefix_dropLast hprefix hdk)
      simp [Tree.directoryId?, above] at parent

end Host

namespace Session

variable {s s' : Session σ}

/-- The host of a session without its temporary directory. -/
def lasting (s : Session σ) : Host :=
  match s.store.backend with
  | .ephemeral (some dir) =>
    match s.host.locateLink dir with
    | .ok (.entry d _) => s.host.without d
    | _ => s.host
  | _ => s.host

theorem lasting_of_hasDirectory (hb : s.store.backend = .ephemeral (some dir))
    (hd : s.host.HasDirectory dir d) : s.lasting = s.host.without d := by
  obtain ⟨n, hn⟩ := hd.locateLink_eq
  unfold lasting
  rw [hb]
  simp only [hn]

/-- Either everything lasts, or all but the temporary directory. -/
theorem cases_lasting (hs : s.Stocked dir)
    (hdir : ∀ dir, s.store.backend = .ephemeral (some dir) → ∃ d, s.host.HasDirectory dir d) :
    (s.lasting = s.host ∧ s.store.backend = .persistent dir) ∨
      ∃ d, s.host.HasDirectory dir d ∧ s.lasting = s.host.without d ∧
        s.store.backend = .ephemeral (some dir) := by
  have there := hs.dir?_eq
  unfold ArtifactStore.dir? at there
  cases hb : s.store.backend with
  | persistent p =>
    rw [hb] at there
    obtain rfl := Option.some.inj there
    exact .inl ⟨by simp only [lasting, hb], rfl⟩
  | ephemeral p =>
    rw [hb] at there
    obtain rfl : p = some dir := there
    obtain ⟨d, hd⟩ := hdir dir hb
    exact .inr ⟨d, hd, lasting_of_hasDirectory hb hd, rfl⟩

/-- A path of something that lasts is one after other files have been written. -/
theorem locateNew_of_lasting (hs : s.Stocked dir)
    (hdir : ∀ dir, s.store.backend = .ephemeral (some dir) → ∃ d, s.host.HasDirectory dir d)
    (w : s.host.Written h₁) {place : Place} (hp : s.lasting.locateNew dest = .ok place)
    (hend : h₁.tree.leads place.location = false) :
    ∃ place', place'.location = place.location ∧ h₁.locateNew dest = .ok place' := by
  rcases cases_lasting hs hdir with ⟨same, -⟩ | ⟨d, hd, same, -⟩ <;> rw [same] at hp
  · exact Host.exists_locateNew_of_keepsWays hs.sound w.sound w.ways.forth w.cwd_eq hp fun _ ↦ hend
  · exact Host.exists_locateNew_of_keepsWays (Host.sound_without hs.sound d) w.sound
      (Host.keepsWays_of_without hd.ne_nil fun k _ ↦ w.ways.forth k) w.cwd_eq hp fun _ ↦ hend

/-- A file outside the temporary directory stays when that is given up. -/
theorem entry_of_lasting (hs : s.Stocked dir) (hs' : s'.Stocked dir) (hstore : s'.store = s.store)
    (hdir : ∀ dir, s.store.backend = .ephemeral (some dir) → ∃ d, s.host.HasDirectory dir d)
    (w : s.host.Written s'.host) {place : Place} (hp : s.lasting.locateNew dest = .ok place)
    (hfile : ∀ n, s.host.tree.node? place.location = some n → ∃ b, n = .file b) {f : File}
    (hf : s'.host.tree.node? place.location = some (.file f)) :
    ∃ f', s'.cleanup.host.entry dest = .ok (place.location, .file f') ∧ f'.content = f.content := by
  rcases cases_lasting hs hdir with ⟨same, hb⟩ | ⟨d, hd, same, hb⟩ <;> rw [same] at hp
  · have kept : s'.cleanup.host = s'.host := by
      unfold cleanup ArtifactStore.cleanup
      rw [hstore, hb]
    rw [kept]
    exact ⟨f, Host.entry_of_locateNew hs.sound w.sound w.ways.forth w.cwd_eq hp hf, rfl⟩
  · have within := hs'.changesWithin_cleanup (hstore ▸ hb)
      (hd.of_ways w.sound fun k _ ↦ w.ways.forth k)
    have outside := hd.not_prefix hp hfile
    obtain ⟨f', hf', -, content⟩ :=
      Tree.exists_file_of_shape_eq (within.elsewhere _ outside) hf
    refine ⟨f', Host.entry_of_locateNew (Host.sound_without hs.sound d) within.sound
      (Host.keepsWays_of_without hd.ne_nil fun k hk lead ↦ ?_) (within.cwd_eq.trans w.cwd_eq) hp hf',
      content⟩
    exact (within.elsewhere k hk).trans (w.ways.forth k lead)

end Session

/-! ## What the linker finds -/

/-- Whether every call for a contract since an earlier session has a property. -/
def Session.LinksWith (m : Session (σ × List LogEntry)) (Q : LoggedRun → Prop)
    (s : Session (σ × List LogEntry)) : Prop :=
  ∃ log, s.tools.2 = m.tools.2 ++ log ∧ ∀ r, .run r ∈ log → r.invocation.asksToLink → Q r

theorem Session.LinksWith.refl (m : Session (σ × List LogEntry)) (Q : LoggedRun → Prop) :
    m.LinksWith Q m := ⟨[], (List.append_nil _).symm, by simp⟩

/-- What a build does itself calls for no contract. -/
theorem Session.LinksWith.steady (m : Session (σ × List LogEntry)) (Q : LoggedRun → Prop) :
    Session.Steady tc.logging (m.LinksWith Q) where
  echoed s line := by
    rintro ⟨log, hlog, hQ⟩
    refine ⟨log ++ [.echo line], ?_, fun r hr ↦ hQ r (by simpa using hr)⟩
    rw [← List.append_assoc, ← hlog]
    rfl
  put _ _ hs _ := hs

namespace Build

variable {m s : Session (σ × List LogEntry)} {Q : LoggedRun → Prop}

theorem preserves_tool {i : Invocation} (hs : m.LinksWith Q s)
    (hi : i.asksToLink → ∀ outcome after, Q ⟨i, s.host, outcome, after⟩) :
    Ends (tool tc.logging i) s (fun _ ↦ m.LinksWith Q) (fun _ ↦ m.LinksWith Q) := by
  obtain ⟨log, hlog, hQ⟩ := hs
  have called : m.LinksWith Q (s.called tc.logging i) := by
    refine ⟨log ++ [_], (congrArg (· ++ _) hlog).trans (List.append_assoc ..), fun r hr hlink ↦ ?_⟩
    rcases List.mem_append.mp hr with hr | hr
    · exact hQ r hr hlink
    · obtain rfl := LogEntry.run.inj (List.mem_singleton.mp hr)
      exact hi hlink _ _
  exact ends_tool.mpr ⟨fun _ _ ↦ called, fun _ _ ↦ called⟩

theorem preserves_extractCode (contract : Path) :
    Preserves (m.LinksWith Q) (extractCode tc.logging o contract) := by
  refine (Session.LinksWith.steady m Q).extractCode fun s hs ↦ preserves_tool hs fun report ↦ ?_
  change some (Bytes.ofString "decode") = some (Bytes.ofString "compile") at report
  exact absurd report (by decide)

end Build

/-- A file that is there is still there when the directory of the final link has been opened. -/
theorem entry_of_openLinkDir {store : ArtifactStore} {linkDir : LinkDir} {p : Path} {f : File}
    (ht : h.tree.Sound) (hopen : store.openLinkDir h = .ok (linkDir, h₁))
    (hp : h.entry p = .ok (a, .file f)) :
    ∃ f', h₁.entry p = .ok (a, .file f') ∧ f'.content = f.content := by
  rcases ArtifactStore.cases_openLinkDir hopen with ⟨_, -, -, rfl⟩ | ⟨_, _, -, -, hmade⟩
  · exact ⟨f, hp, rfl⟩
  · obtain ⟨d, free, houses, confined, hcwd⟩ :=
      Host.houses_makeTemporary ht Host.mem_temporaryStems_link hmade
    have hf := Host.node?_of_entry hp
    obtain ⟨f', hf', -, content⟩ :=
      Tree.exists_file_of_shape_eq (confined.elsewhere a (free.not_prefix hf)) hf
    exact ⟨f', Host.entry_of_keepsWays ht houses.sound houses.ways hcwd hp hf' rfl, content⟩

namespace Build

variable {m s : Session (σ × List LogEntry)} {content : Bytes}

/-- The linker is given the assembly as it is when the final link starts. -/
theorem ends_finalLink_linksWith (ht : s.host.tree.Sound) {f : File}
    (hasm : s.host.entry asm = .ok (a, .file f)) {Q : LoggedRun → Prop} (hs : m.LinksWith Q s)
    (hQ : ∀ r : LoggedRun, r.invocation.args[1]? = some asm.raw →
      (∃ f', r.before.entry asm = .ok (a, .file f') ∧ f'.content = f.content) → Q r) :
    Ends (finalLink tc.logging o asm) s (fun _ ↦ m.LinksWith Q) (fun _ ↦ m.LinksWith Q) := by
  have steady : Session.Steady tc.logging (m.LinksWith Q) := Session.LinksWith.steady m Q
  refine ends_finalLink (fun linkDir h' hopen ↦ ?_) fun _ _ ↦ hs
  have there := entry_of_openLinkDir ht hopen hasm
  have call (t : Session (σ × List LogEntry)) (ht : m.LinksWith Q t) (hhost : t.host = h')
      (i : Invocation) (hi : i.args[1]? = some asm.raw) :
      Ends (tool tc.logging i) t (fun _ ↦ m.LinksWith Q) (fun _ ↦ m.LinksWith Q) :=
    preserves_tool ht fun _ outcome after ↦ hQ _ hi (hhost ▸ there)
  rcases linkDir with p | p
  · have noted := steady.echoed (s.withHost h') s!"cd {p.display}" hs
    refine ends_bind.mpr (ends_echo.mpr ((call _ noted rfl _ rfl).bind fun _ t ht ↦ ?_))
    exact (steady.copyOut _ _ _ t ht).bind fun _ t ht ↦ ends_pure.mpr ht
  · exact (call (s.withHost h') hs rfl _ rfl).bind fun _ t ht ↦ ends_pure.mpr ht

/-! ## Programs -/

theorem exists_of_mem_jobs {kind : ArtifactKind}
    {command : BuildOptions → Path → Path → Invocation} {n : Nat} {fs : List InputFile} {move : Move}
    (hmove : move ∈ Plan.jobs o dir kind command n fs) :
    ∃ input out, move.event = .run ((command o input out).inDir o.workingDir) := by
  induction fs generalizing n with
  | nil => cases hmove
  | cons f fs ih =>
    rcases List.mem_cons.mp hmove with rfl | hmove
    · exact ⟨_, _, rfl⟩
    · exact ih hmove

end Build

/-- The programs that take inputs to assembly. -/
def Command.llvmTools : List String := ["clang++", "clang", "llvm-as", "llvm-link", "opt", "llc"]

namespace Build

/-- Up to the merged assembly no other programs are run. -/
theorem program_of_toAssembly {start : Plan.Start} {move : Move} {i : Invocation}
    (hmove : move ∈ Plan.toAssembly o dir start inputs) (hi : move.event = .run i) :
    ∃ tool ∈ Command.llvmTools, i.program = o.tools.llvmTool tool := by
  have jobs {kind : ArtifactKind} {command : BuildOptions → Path → Path → Invocation} {n : Nat}
      {fs : List InputFile} (tool : String) (htool : tool ∈ Command.llvmTools)
      (hprogram : ∀ input out, (command o input out).program = o.tools.llvmTool tool)
      (hmove : move ∈ Plan.jobs o dir kind command n fs) :
      ∃ tool ∈ Command.llvmTools, i.program = o.tools.llvmTool tool := by
    obtain ⟨input, out, hevent⟩ := exists_of_mem_jobs hmove
    obtain rfl := Event.run.inj (hi.symm.trans hevent)
    exact ⟨tool, htool, hprogram input out⟩
  have job {kind : ArtifactKind} {n : Nat} {command : Path → Invocation} (tool : String)
      (htool : tool ∈ Command.llvmTools)
      (hprogram : ∀ out, (command out).program = o.tools.llvmTool tool)
      (hmove : move = Plan.job o dir kind n command) :
      ∃ tool ∈ Command.llvmTools, i.program = o.tools.llvmTool tool := by
    subst hmove
    obtain rfl := Event.run.inj hi
    exact ⟨tool, htool, hprogram _⟩
  simp only [Plan.toAssembly, Plan.sources, Plan.lowering, List.mem_append, List.mem_cons,
    List.not_mem_nil, or_false] at hmove
  rcases hmove with ((((hcxx | hc) | hir) | hlink | hinternalize | hoptimize | hgenerate) | happend)
  · exact jobs "clang++" (by simp [Command.llvmTools]) (fun _ _ ↦ rfl) hcxx
  · exact jobs "clang" (by simp [Command.llvmTools]) (fun _ _ ↦ rfl) hc
  · exact jobs "llvm-as" (by simp [Command.llvmTools]) (fun _ _ ↦ rfl) hir
  · exact job "llvm-link" (by simp [Command.llvmTools]) (fun _ ↦ rfl) hlink
  · exact job "opt" (by simp [Command.llvmTools]) (fun _ ↦ rfl) hinternalize
  · exact job "opt" (by simp [Command.llvmTools]) (fun _ ↦ rfl) hoptimize
  · exact job "llc" (by simp [Command.llvmTools]) (fun _ ↦ rfl) hgenerate
  · unfold Plan.appending at happend
    split at happend
    · cases happend
    · obtain rfl := List.mem_singleton.mp happend
      cases hi

/-! ## Whole builds -/

/-- What is read of the assembly inputs, kind by kind, is what the command line gives. -/
theorem isMerged_of_forall₂ (hinputs : classify paths = .ok inputs) {contents : List Bytes}
    (hcontents : List.Forall₂ (fun f c ↦ h.read (o.absolute f.path) = .ok c) inputs.assembly
      contents) : IsMerged o paths h g (g.content ++ contents.flatten) := by
  refine ⟨contents, ?_, rfl⟩
  rw [← map_path_ofKind hinputs .assembly, List.forall₂_map_left_iff]
  exact hcontents

theorem leadsTo_of_mem_assembly (hinputs : classify paths = .ok inputs)
    (hother : ∀ p ∈ paths, InputKind.ofPath? p = some .assembly →
      h.leadsTo g (o.absolute p) = false) :
    ∀ f ∈ inputs.assembly, h.leadsTo g (o.absolute f.path) = false := by
  intro f hf
  have hmem : f.path ∈ (inputs.ofKind .assembly).map (·.path) := List.mem_map_of_mem hf
  rw [map_path_ofKind hinputs, List.mem_filter, decide_eq_true_eq] at hmem
  exact hother _ hmem.1 hmem.2

variable {m : Session (σ × List LogEntry)}

variable (tc) in
/-- What a build does from the generated assembly on. -/
theorem ends_fromGenerated (hs : m.Stocked dir) (hinputs : classify paths = .ok inputs)
    (hasm : m.host.entry asm = .ok (a, .file g))
    (hother : ∀ p ∈ paths, InputKind.ofPath? p = some .assembly →
      m.host.leadsTo g (o.absolute p) = false)
    (hdir : ∀ dir, m.store.backend = .ephemeral (some dir) → ∃ d, m.host.HasDirectory dir d)
    {Q : LoggedRun → Prop}
    (hQ : ∀ r : LoggedRun, r.invocation.args[1]? = some asm.raw →
      (∃ f, r.before.entry asm = .ok (a, .file f) ∧ IsMerged o paths m.host g f.content) → Q r) :
    Ends (do
        mergeAssembly tc.logging o asm inputs
        if o.asmOnly then return .assembly (← emitAssembly tc.logging o asm)
        else linkAll tc.logging o asm) m
      (fun out s ↦ (∀ path, out = .assembly path →
        o.asmOnly = true ∧ path = o.absolute o.assemblyOutput ∧
        ∀ place, m.lasting.locateNew path = .ok place →
          (∀ n, m.host.tree.node? place.location = some n → ∃ b, n = .file b) →
          ∃ f, s.cleanup.host.entry path = .ok (place.location, .file f) ∧
            if m.host.tree.fileId? place.location = some g.id ∧ place.location ≠ a
              then f.content = [] else IsMerged o paths m.host g f.content) ∧ m.LinksWith Q s)
      (fun _ s ↦ m.LinksWith Q s) := by
  have merging : Ends (mergeAssembly tc.logging o asm inputs) m _ _ :=
    (ends_mergeAssembly hs.sound hasm (leadsTo_of_mem_assembly hinputs hother)).and
      ((Session.LinksWith.steady m Q).mergeAssembly asm inputs m (.refl m Q))
  refine ends_bind.mpr (merging.mono ?_ fun _ _ h ↦ h.2)
  rintro _ s₁ ⟨⟨store, contents, hcontents, extended⟩, links⟩
  have merged := isMerged_of_forall₂ (g := g) hinputs hcontents
  split
  next only =>
    have emitting : Ends (emitAssembly tc.logging o asm) s₁ _ _ :=
      (ends_emitAssembly_ok s₁ asm).and ((Session.LinksWith.steady m Q).emitAssembly asm s₁ links)
    refine ends_bind.mpr (emitting.mono ?_ fun _ _ h ↦ h.2)
    rintro _ s₂ ⟨⟨rfl, store', put⟩, links'⟩
    refine ends_pure.mpr ⟨fun path hpath ↦ ?_, links'⟩
    obtain rfl := BuildOutcome.assembly.inj hpath
    refine ⟨only, rfl, fun place hplace hfile ↦ ?_⟩
    have hfile₁ : ∀ n, s₁.host.tree.node? place.location = some n → ∃ b, n = .file b :=
      fun n ↦ extended.isFile hfile
    have hend : s₁.host.tree.leads place.location = false := by
      unfold Tree.leads
      cases hn : s₁.host.tree.node? place.location with
      | none => rfl
      | some n =>
        obtain ⟨b, rfl⟩ := hfile₁ n hn
        rfl
    obtain ⟨place', hlocation, hplace'⟩ :=
      Session.locateNew_of_lasting hs hdir extended.written hplace hend
    rw [← hlocation] at hfile₁
    obtain ⟨written, f, hf, content⟩ :=
      extended.file_of_emitted hs.sound hasm hplace' hfile₁ put
    rw [hlocation] at hf content
    have stocked : s₂.Stocked dir :=
      ⟨written.sound, store' ▸ store ▸ hs.dir?_eq, store' ▸ store ▸ hs.created⟩
    obtain ⟨f', hf', same⟩ :=
      Session.entry_of_lasting hs stocked (store'.trans store) hdir written hplace hfile hf
    refine ⟨f', hf', ?_⟩
    rw [same, content]
    split
    · rfl
    · exact merged
  next =>
    obtain ⟨f, hf, -, content⟩ := extended.here
    have there : s₁.host.entry asm = .ok (a, .file f) :=
      extended.written.entry_after hs.sound hasm hf rfl
    refine (ends_finalLink_linksWith extended.written.sound there links fun r hr hfile ↦ ?_).bind ?_
    · obtain ⟨f', hf', same⟩ := hfile
      exact hQ r hr ⟨f', hf', by rw [same, content]; exact merged⟩
    · intro target s₂ links'
      cases target with
      | directory p => exact ends_pure.mpr ⟨fun _ h ↦ (by cases h), links'⟩
      | file p =>
        exact (preserves_extractCode p s₂ links').bind fun _ _ h ↦
          ends_pure.mpr ⟨fun _ h ↦ (by cases h), h⟩

/-- If merging succeeds the assembly holds what the code generator left there, followed by the
assembly inputs.  A build that ends with the assembly has called nothing but LLVM and leaves just that
at its destination, or nothing if the destination is another name of the assembly; and just that is
what the linker finds in the file that it is told to link. -/
theorem merged_assembly (htools : tc.KeepsSound) {tools : σ} (ht : h.tree.Sound) {s : Session σ}
    (hs : Session.start o tools h = .ok s) (hinputs : classify paths = .ok inputs)
    (hm : (generated tc.logging o inputs).runIn s.withLog = (.ok asm, m))
    (hasm : m.host.entry asm = .ok (a, .file g))
    (hother : ∀ p ∈ paths, InputKind.ofPath? p = some .assembly →
      m.host.leadsTo g (o.absolute p) = false)
    (hdir : ∀ dir, m.store.backend = .ephemeral (some dir) → ∃ d, m.host.HasDirectory dir d) :
    let ended := (run tc o paths).runIn s
    (∀ m', (mergeAssembly tc.logging o asm inputs).runIn m = (.ok (), m') →
      ∃ f, m'.host.entry asm = .ok (a, .file f) ∧ IsMerged o paths m.host g f.content) ∧
    (∀ path, ended.1 = .ok (.assembly path) → path = o.absolute o.assemblyOutput ∧
      (∀ i, .run i ∈ ended.2.events →
        ∃ tool ∈ Command.llvmTools, i.program = o.tools.llvmTool tool) ∧
      ∀ place, m.lasting.locateNew path = .ok place →
        (∀ n, m.host.tree.node? place.location = some n → ∃ b, n = .file b) →
        ∃ f, ended.2.host.entry path = .ok (place.location, .file f) ∧
          if m.host.tree.fileId? place.location = some g.id ∧ place.location ≠ a
            then f.content = [] else IsMerged o paths m.host g f.content) ∧
    ∀ before r after, history tc o paths s = before ++ .run r :: after → m.tools.2 <+: before →
      r.invocation.asksToLink → r.invocation.args[1]? = some asm.raw ∧
        ∃ f, r.before.entry asm = .ok (a, .file f) ∧ IsMerged o paths m.host g f.content := by
  intro ended
  obtain ⟨dir, start⟩ := Session.Stocked.of_start ht hs
  have stocked : m.Stocked dir := by
    have job (kind : ArtifactKind) (command : Path → Invocation)
        (_ : Command.NamesOutput command) (s : Session (σ × List LogEntry)) (hs : s.Stocked dir) :
        Ends (produce tc.logging o kind command) s _ _ :=
      ends_produce_stocked htools.logging hs
    have ended := (ends_generated job inputs
      (⟨start.sound, start.dir?_eq, start.created⟩ : s.withLog.Stocked dir)).mono
        (fun _ _ h ↦ h.1) fun _ _ h ↦ h
    have last := ended.snd
    rwa [hm] at last
  -- the rest of the build, and what is seen of it
  have rest := ends_fromGenerated tc stocked hinputs hasm hother hdir
    (Q := fun r ↦ r.invocation.args[1]? = some asm.raw ∧
      ∃ f, r.before.entry asm = .ok (a, .file f) ∧ IsMerged o paths m.host g f.content)
    fun r hr hfile ↦ ⟨hr, hfile⟩
  have staged := congrArg (fun b ↦ b.runIn s.withLog) (stages_eq_generated tc.logging o hinputs)
  simp only [runIn_bind _ _ s.withLog, hm] at staged
  unfold Ends at rest
  rw [← staged] at rest
  rcases hstages : (stages tc.logging o paths).runIn s.withLog with ⟨result, t⟩
  have logged : (run tc.logging o paths).runIn s.withLog = (result, t.cleanup) := by
    unfold run andFinally
    rw [runIn_ofResult, hstages]
  have outcome : ended = (result, t.cleanup.mapTools Prod.fst) := by
    rw [← Prod.eta ended]
    simp only [ended, runIn_run_eq_logging tc o paths s, logged]
  rw [hstages] at rest
  refine ⟨fun m' hm' ↦ ?_, fun path hpath ↦ ?_, fun before r after hlog hbefore hlink ↦ ?_⟩
  · have merging : Ends (mergeAssembly tc.logging o asm inputs) m _ _ :=
      ends_mergeAssembly stocked.sound hasm (leadsTo_of_mem_assembly hinputs hother)
    unfold Ends at merging
    rw [hm'] at merging
    obtain ⟨-, contents, hcontents, extended⟩ := merging
    obtain ⟨f, hf, -, content⟩ := extended.here
    refine ⟨f, extended.written.entry_after stocked.sound hasm hf rfl, ?_⟩
    rw [content]
    exact isMerged_of_forall₂ hinputs hcontents
  · obtain rfl : result = .ok (.assembly path) := by rw [← hpath, outcome]
    obtain ⟨only, hpath', there⟩ := rest.1 path rfl
    refine ⟨hpath', fun i hi ↦ ?_, fun place hplace hfile ↦ ?_⟩
    · obtain ⟨dir', ending, moves, -, fits, taken, hevents, -⟩ := moves_of_run tc o hs hinputs
      have hmove : .run i ∈ moves.map Move.event := hevents ▸ hi
      obtain ⟨move, hmove, hi⟩ := List.mem_map.mp hmove
      rcases List.mem_append.mp (taken.subset hmove) with hmove | hmove
      · exact program_of_toAssembly hmove hi
      · rcases ending with copied | ⟨linkDir, left⟩
        · cases copied with
          | false => cases hmove
          | true =>
            obtain rfl := List.mem_singleton.mp hmove
            cases hi
        · cases only.symm.trans fits.1
    · obtain ⟨f, hf, content⟩ := there place hplace hfile
      exact ⟨f, by rw [outcome]; exact hf, content⟩
  · have links : m.LinksWith (fun r ↦ r.invocation.args[1]? = some asm.raw ∧
        ∃ f, r.before.entry asm = .ok (a, .file f) ∧ IsMerged o paths m.host g f.content) t := by
      cases result with
      | ok out => exact rest.2
      | error e => exact rest
    obtain ⟨log, hlog', hlinks⟩ := links
    obtain ⟨mid, rfl⟩ := hbefore
    have whole : history tc o paths s = m.tools.2 ++ log := by
      unfold history
      rw [logged]
      exact hlog'
    rw [whole, List.append_assoc] at hlog
    refine hlinks r ?_ hlink
    rw [List.append_cancel_left hlog]
    exact List.mem_append_right _ List.mem_cons_self

/-! ## Samples -/

/-- Options for a build that ends with the assembly and keeps its files. -/
def intoFile : BuildOptions :=
  { besideWallet with saveTemps := true, output := some (.ofString "out.s") }

/-- The assembly of the sample is what LLVM has made of the source, and then what was written by
hand. -/
theorem merged_assembly_sample :
    let tc := Toolchain.writing (Bytes.ofString "; llc\n")
    let paths := [Path.ofString "main.c", .ofString "wallet.s"]
    let out := Path.ofString "/w/out.s"
    ∃ s l f, Session.start intoFile () handwritten = .ok s ∧
      ((run tc intoFile paths).runIn s).2.host.entry out = .ok (l, .file f) ∧
      f.content = Bytes.ofString "; llc\nhand" := by
  intro tc paths out
  let inputs : ClassifiedInputs :=
    ⟨[], [⟨.ofString "main.c", .c, 0⟩], [], [], [⟨.ofString "wallet.s", .assembly, 1⟩]⟩
  let asm := Path.ofString "/w/5-llc.asm"
  let s : Session Unit := ⟨handwritten, .persistent intoFile.workingDir, (), []⟩
  let m := ((generated tc.logging intoFile inputs).runIn s.withLog).2
  let g : File :=
    { Attributes.fresh fileMode Tree.empty.now with id := 9, content := Bytes.ofString "; llc\n" }
  let place := Place.vacant [Bytes.ofString "w", Bytes.ofString "out.s"]
  have sound : tc.KeepsSound := (Toolchain.writesOutputOnly_writing _).keepsSound
  have hs : Session.start intoFile () handwritten = .ok s := rfl
  have hinputs : classify paths = .ok inputs := by decide +kernel
  obtain ⟨ready, hasm, hother, persistent, free, vacant, hand⟩ :
      ((generated tc.logging intoFile inputs).runIn s.withLog).1 = .ok asm ∧
      m.host.entry asm = .ok ([Bytes.ofString "w", Bytes.ofString "5-llc.asm"], .file g) ∧
      (∀ p ∈ paths, InputKind.ofPath? p = some .assembly →
        m.host.leadsTo g (intoFile.absolute p) = false) ∧
      m.store.backend = .persistent intoFile.workingDir ∧
      m.host.tree.node? place.location = none ∧
      m.lasting.locateNew out = .ok place ∧
      m.host.read (intoFile.absolute (.ofString "wallet.s")) = .ok (Bytes.ofString "hand") := by
    decide +kernel
  have hm : (generated tc.logging intoFile inputs).runIn s.withLog = (.ok asm, m) := by rw [← ready]
  have hdir : ∀ dir, m.store.backend = .ephemeral (some dir) → ∃ d, m.host.HasDirectory dir d := by
    intro dir hb
    cases persistent.symm.trans hb
  obtain ⟨-, emitted, -⟩ := merged_assembly sound sound_handwritten hs hinputs hm hasm hother hdir
  have done : ((run tc intoFile paths).runIn s).1 = .ok (.assembly out) := by decide +kernel
  obtain ⟨-, -, there⟩ := emitted out done
  have other : ¬ (m.host.tree.fileId? place.location = some g.id ∧
      place.location ≠ [Bytes.ofString "w", Bytes.ofString "5-llc.asm"]) :=
    fun h ↦ by simp [Tree.fileId?, free] at h
  have holds := there place vacant fun n hn ↦ by
    rw [free] at hn
    cases hn
  simp only [if_neg other] at holds
  obtain ⟨f, hf, contents, hcontents, merged⟩ := holds
  refine ⟨s, place.location, f, hs, hf, ?_⟩
  have given : (paths.filter fun p ↦ InputKind.ofPath? p = some .assembly) =
      [.ofString "wallet.s"] := by decide +kernel
  rw [given] at hcontents
  obtain ⟨c, rest, hc, hrest, rfl⟩ := List.forall₂_cons_left_iff.mp hcontents
  obtain rfl := List.forall₂_nil_left_iff.mp hrest
  obtain rfl := Except.ok.inj (hand.symm.trans hc)
  rw [merged]
  decide

/-- The host with assembly written by hand and, beside it, a file that has the name of the generated
assembly and another name, at which the assembly is asked for. -/
def twinned : Host :=
  let t := handwritten.tree
  let twin := t.newFile [] fileMode
  { handwritten with
    tree :=
      { (t.addFile [Bytes.ofString "w", Bytes.ofString "5-llc.asm"] [] fileMode).set
          [Bytes.ofString "w", Bytes.ofString "out.s"] (.file twin) with nextId := t.nextId + 1 } }

theorem sound_twinned : twinned.tree.Sound :=
  (sound_handwritten.addFile (by decide) (by decide) _ _).setFile (by decide) (by decide)
    (Nat.le_refl _) (by decide)

/-- A build can succeed with merged assembly and leave nothing of it, neither where it was generated
nor where it was asked for. -/
theorem run_empties_assembly :
    let tc := Toolchain.writing (Bytes.ofString "; llc\n")
    let paths := [Path.ofString "main.c", .ofString "wallet.s"]
    let asm := Path.ofString "/w/5-llc.asm"
    let out := Path.ofString "/w/out.s"
    tc.WritesOutputOnly ∧ twinned.tree.Sound ∧ intoFile.absolute intoFile.assemblyOutput = out ∧
      ∃ s inputs m m', Session.start intoFile () twinned = .ok s ∧ classify paths = .ok inputs ∧
        (generated tc intoFile inputs).runIn s = (.ok asm, m) ∧
        m.host.read asm = .ok (Bytes.ofString "; llc\n") ∧
        (∀ f ∈ inputs.assembly, m.host.read (intoFile.absolute f.path) = .ok (Bytes.ofString "hand")) ∧
        (mergeAssembly tc intoFile asm inputs).runIn m = (.ok (), m') ∧
        m'.host.read asm = .ok (Bytes.ofString "; llc\nhand") ∧
        ((run tc intoFile paths).runIn s).1 = .ok (.assembly out) ∧
        ((run tc intoFile paths).runIn s).2.host.read out = .ok [] ∧
        ((run tc intoFile paths).runIn s).2.host.read asm = .ok [] := by
  intro tc paths asm out
  let inputs : ClassifiedInputs :=
    ⟨[], [⟨.ofString "main.c", .c, 0⟩], [], [], [⟨.ofString "wallet.s", .assembly, 1⟩]⟩
  let s : Session Unit := ⟨twinned, .persistent intoFile.workingDir, (), []⟩
  let m := ((generated tc intoFile inputs).runIn s).2
  let m' := ((mergeAssembly tc intoFile asm inputs).runIn m).2
  have ran : ((generated tc intoFile inputs).runIn s).1 = .ok asm ∧
      m.host.read asm = .ok (Bytes.ofString "; llc\n") ∧
      (∀ f ∈ inputs.assembly,
        m.host.read (intoFile.absolute f.path) = .ok (Bytes.ofString "hand")) ∧
      ((mergeAssembly tc intoFile asm inputs).runIn m).1 = .ok () ∧
      m'.host.read asm = .ok (Bytes.ofString "; llc\nhand") := by decide +kernel
  have left : ((run tc intoFile paths).runIn s).1 = .ok (.assembly out) ∧
      ((run tc intoFile paths).runIn s).2.host.read out = .ok [] ∧
      ((run tc intoFile paths).runIn s).2.host.read asm = .ok [] := by decide +kernel
  obtain ⟨done, generated, written, merged, both⟩ := ran
  exact ⟨Toolchain.writesOutputOnly_writing _, sound_twinned, by decide +kernel, s, inputs, m, m', rfl,
    by decide +kernel, by rw [← done], generated, written, by rw [← merged], both, left⟩

end Build

end ContractBuild
