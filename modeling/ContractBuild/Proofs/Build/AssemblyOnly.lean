import ContractBuild.Proofs.Build.Cleanup
import ContractBuild.Proofs.Build.Invariants
import ContractBuild.Proofs.Build.StageOrder
import ContractBuild.Proofs.FileSystem.Copies

/-!
# What a build of assembly does to the files of its user

A build that ends with the assembly works in a temporary directory and copies the assembly to its
destination.  Whatever its tools write lies in that directory, so the copy is all that can change
a file that was there before, and it does so if the destination is that file.
-/

namespace ContractBuild

open Build

variable {σ : Type} {tc : Toolchain σ} {o : BuildOptions} {h₀ : Host} {dir : Path} {d : Location}

/-! ## Working in the temporary directory -/

/-- Whether a session has its intermediate files in a directory that was not there in an earlier
host. -/
structure Session.Housed (h₀ : Host) (dir : Path) (d : Location) (s : Session σ) : Prop where
  /-- The directory is there and holds only files. -/
  houses : h₀.tree.Houses d s.host.tree
  /-- The process stays where it was. -/
  cwd_eq : s.host.cwd = h₀.cwd
  /-- The store is open there. -/
  backend_eq : s.store.backend = .ephemeral (some dir)
  /-- What it has on record lies there. -/
  created : ∀ a ∈ s.store.created, ∃ name : Path, name.IsName ∧ a.path = dir.join name

/-- Whether a session has changed nothing outside that directory. -/
structure Session.Inside (h₀ : Host) (dir : Path) (d : Location) (s : Session σ) : Prop extends
    s.Housed h₀ dir d where
  /-- Everything else is as it was. -/
  confined : h₀.tree.Confined d s.host.tree

namespace Session

variable {s : Session σ} {h' : Host} {l : Location}

/-- A change of one file leaves the directory in place. -/
theorem Housed.withHost (hs : s.Housed h₀ dir d) (hw : s.host.WritesOnly h' l) :
    (s.withHost h').Housed h₀ dir d where
  houses := hs.houses.writesOnly hw.tree
  cwd_eq := hw.cwd_eq.trans hs.cwd_eq
  backend_eq := hs.backend_eq
  created := hs.created

/-- A change of one file in the directory changes nothing else. -/
theorem Inside.withHost (free : h₀.HasFree dir d) (hs : s.Inside h₀ dir d)
    (hw : s.host.WritesOnly h' l) (hl : d <+: l) : (s.withHost h').Inside h₀ dir d where
  toHoused := hs.toHoused.withHost hw
  confined := hs.confined.writesOnly free.sound hw.tree hl

theorem Inside.echoed (hs : s.Inside h₀ dir d) (line : String) :
    (s.echoed tc line).Inside h₀ dir d :=
  ⟨⟨hs.houses, hs.cwd_eq, hs.backend_eq, hs.created⟩, hs.confined⟩

/-- A tool changes nothing outside the directory if it is told to write in it. -/
theorem Inside.called (free : h₀.HasFree dir d) (htools : tc.WritesOutputOnly)
    (hs : s.Inside h₀ dir d) {i : Invocation} {name : Path} (hname : name.IsName)
    (hi : i.written? = some (dir.join name)) : (s.called tc i).Inside h₀ dir d := by
  have change : s.host.WritesOnly (s.host.withTree (tc.run i s.tools s.host).tree)
      (d ++ [name.raw]) := by
    refine ⟨htools i s.tools s.host hs.houses.sound _ fun p place hp hplace ↦ ?_, rfl⟩
    obtain rfl := Option.some.inj (hi.symm.trans hp)
    exact free.location_of_join hs.houses hname hplace
  have inside := hs.withHost free change (List.prefix_append _ _)
  exact ⟨⟨inside.houses, inside.cwd_eq, inside.backend_eq, inside.created⟩, inside.confined⟩

/-- A reserved file lies in the directory. -/
theorem Inside.reserved (free : h₀.HasFree dir d) (hs : s.Inside h₀ dir d) (kind : ArtifactKind) :
    (s.reserved kind).Inside h₀ dir d ∧ ∀ p, (s.store.reserve s.host kind).1 = .ok p →
      ∃ name : Path, name.IsName ∧ p = dir.join name := by
  let name := Path.ofString (kind.fileName (s.store.asked.count kind))
  have hname : name.IsName := ArtifactKind.isName_fileName kind _
  have next : s.store.nextPath? kind = some (dir.join name) := by
    simp [ArtifactStore.nextPath?, ArtifactStore.dir?, hs.backend_eq, name]
  unfold Session.reserved ArtifactStore.reserve
  rw [next]
  dsimp only
  cases hwrite : s.host.write (dir.join name) [] with
  | error cause =>
    exact ⟨⟨⟨hs.houses, hs.cwd_eq, hs.backend_eq, hs.created⟩, hs.confined⟩, fun p hp ↦ by cases hp⟩
  | ok h' =>
    obtain ⟨place, hplace, change⟩ := Host.writesOnly_write hs.houses.sound hwrite
    rw [free.location_of_join hs.houses hname hplace] at change
    have inside := hs.withHost free change (List.prefix_append _ _)
    refine ⟨⟨⟨inside.houses, inside.cwd_eq, hs.backend_eq, fun a ha ↦ ?_⟩, inside.confined⟩,
      fun p hp ↦ ⟨name, hname, (Except.ok.inj hp).symm⟩⟩
    rcases List.mem_append.mp ha with ha | ha
    · exact hs.created a ha
    · obtain rfl := List.mem_singleton.mp ha
      exact ⟨name, hname, rfl⟩

end Session

/-! ## The stages -/

namespace Build

variable {s : Session σ} {asm : Path}

/-- The file of a stage lies in the directory. -/
theorem ends_produce (free : h₀.HasFree dir d) (htools : tc.WritesOutputOnly)
    {kind : ArtifactKind} {command : Path → Invocation} (hcommand : Command.NamesOutput command)
    (hs : s.Inside h₀ dir d) :
    Ends (produce tc o kind command) s
      (fun p s' ↦ s'.Inside h₀ dir d ∧ ∃ name : Path, name.IsName ∧ p = dir.join name)
      (fun _ s' ↦ s'.Inside h₀ dir d) := by
  obtain ⟨reserved, named⟩ := hs.reserved free kind
  refine ends_bind.mpr (ends_reserve.mpr ⟨fun p hp ↦ ?_, fun e he ↦ reserved⟩)
  obtain ⟨name, hname, rfl⟩ := named p hp
  have absolute : (dir.join name).isAbsolute := Path.isAbsolute_join free.isAbsolute name
  have written := hcommand.written?_inDir absolute o.workingDir
  have called := reserved.called free htools hname written
  exact ends_bind.mpr (ends_tool.mpr ⟨fun _ _ ↦ ⟨called, name, hname, rfl⟩, fun _ _ ↦ called⟩)

theorem preserves_produce (free : h₀.HasFree dir d) (htools : tc.WritesOutputOnly)
    {kind : ArtifactKind} {command : Path → Invocation} (hcommand : Command.NamesOutput command) :
    Preserves (Session.Inside h₀ dir d) (produce tc o kind command) :=
  fun _ hs ↦ (ends_produce free htools hcommand hs).mono (fun _ _ h ↦ h.1) fun _ _ h ↦ h

/-- Appending inputs changes nothing but the assembly. -/
theorem preserves_mergeAssembly (free : h₀.HasFree dir d) {name : Path} (hname : name.IsName)
    (inputs : ClassifiedInputs) :
    Preserves (Session.Inside h₀ dir d) (mergeAssembly tc o (dir.join name) inputs) := by
  refine .mergeAssembly (fun _ line hs ↦ hs.echoed line) (fun s l hs hl t content h' ht hh ↦ ?_) inputs
  have below : d <+: l := by
    obtain ⟨n, hentry⟩ := Host.entry_of_appendTarget hl
    have there : l = d ++ [name.raw] :=
      free.location_of_join hs.houses hname (Host.locate_of_entry hentry)
    exact there ▸ List.prefix_append _ _
  exact ht.withHost free (Host.writesOnly_append ht.houses.sound hh) below

/-- The merged assembly of all inputs, as a build makes it from their paths. -/
def assembled (tc : Toolchain σ) (o : BuildOptions) (paths : List Path) : Build σ Path := do
  let inputs ← classified paths
  checkInputs o inputs
  assembleAll tc o inputs

/-- Up to the merged assembly nothing outside the directory is changed. -/
theorem ends_assembled (free : h₀.HasFree dir d) (htools : tc.WritesOutputOnly) (paths : List Path)
    (hs : s.Inside h₀ dir d) :
    Ends (assembled tc o paths) s
      (fun asm s' ↦ s'.Inside h₀ dir d ∧ ∃ name : Path, name.IsName ∧ asm = dir.join name)
      (fun _ s' ↦ s'.Inside h₀ dir d) := by
  refine (preserves_classified paths s hs).bind fun inputs s hs ↦ ?_
  refine (preserves_checkInputs inputs s hs).bind fun _ s hs ↦ ?_
  have compiled : Preserves (Session.Inside h₀ dir d) (compileSources tc o inputs) :=
    .compileSources (fun input ↦ preserves_produce free htools (Command.namesOutput_cxx o input))
      (fun input ↦ preserves_produce free htools (Command.namesOutput_c o input)) inputs
  have fromIr : Preserves (Session.Inside h₀ dir d) (assembleIr tc o inputs) :=
    .modulesOf (fun input ↦ preserves_produce free htools (Command.namesOutput_assemble o input)) _
  refine (compiled s hs).bind fun _ s hs ↦ (fromIr s hs).bind fun _ s hs ↦ ?_
  refine (preserves_produce free htools (Command.namesOutput_linkModules o _) s hs).bind
    fun linked s hs ↦ ?_
  refine (preserves_produce free htools (Command.namesOutput_internalize o linked) s hs).bind
    fun internal s hs ↦ ?_
  refine (preserves_produce free htools (Command.namesOutput_optimize o internal) s hs).bind
    fun optimized s hs ↦ ?_
  refine (ends_produce free htools (Command.namesOutput_generate o optimized) hs).bind ?_
  rintro _ s ⟨hs, name, hname, rfl⟩
  exact (preserves_mergeAssembly free hname inputs s hs).bind fun _ s hs ↦
    ends_pure.mpr ⟨hs, name, hname, rfl⟩

/-- Removing what is temporary changes nothing outside the directory. -/
theorem changesWithin_cleanup (free : h₀.HasFree dir d) (hs : s.Housed h₀ dir d) :
    s.host.ChangesWithin s.cleanup.host d := by
  have stocked : s.Stocked dir :=
    ⟨hs.houses.sound, by rw [ArtifactStore.dir?, hs.backend_eq], hs.created⟩
  exact stocked.changesWithin_cleanup hs.backend_eq
    (free.hasDirectory hs.houses.sound hs.houses.ways hs.houses.home)

/-! ## The copy to the destination -/

/-- Whether the host after a session is the one before it, as the assembly is at its destination
already, or the one that copying it there leaves. -/
def Emitted (asm dest : Path) (s s' : Session σ) : Prop :=
  s'.store = s.store ∧
    (s'.host = s.host ∧ s.host.sameEntry asm dest = true ∨ s'.host = (s.host.copy asm dest).2)

theorem ends_emitAssembly (s : Session σ) (asm : Path) :
    Ends (emitAssembly tc o asm) s
      (fun _ s' ↦ Emitted asm (o.absolute o.assemblyOutput) s s')
      (fun _ s' ↦ Emitted asm (o.absolute o.assemblyOutput) s s') := by
  refine ends_bind.mpr (ends_host.mpr ?_)
  split
  next same => exact ends_pure.mpr ⟨rfl, .inl ⟨rfl, same⟩⟩
  next =>
    refine ends_bind.mpr (ends_bind.mpr (ends_echo.mpr (ends_bind.mpr (ends_host.mpr ?_))))
    refine Ends.mono (ends_settle_snd ?_) (fun _ _ emitted ↦ ends_pure.mpr emitted)
      fun _ _ emitted ↦ emitted
    exact ⟨rfl, .inr rfl⟩

/-- A build that ends with the assembly emits it once it is merged. -/
theorem stages_eq (hasm : o.asmOnly = true) (paths : List Path) :
    stages tc o paths =
      assembled tc o paths >>= fun asm ↦ return .assembly (← emitAssembly tc o asm) := by
  simp [stages, assembled, hasm, bind_assoc]

/-! ## Files that were there before -/

/-- Whether a copy writes over a file, under this name or another. -/
def copiesOver (h : Host) (source dest : Path) (f : File) : Bool :=
  (h.copy source dest).1.isOk && h.leadsTo f dest

/-- Whether a copy fails and leaves a file empty, under this name or another: the user may write the
file, but it belongs to somebody else. -/
def copyEmpties (h : Host) (source dest : Path) (f : File) : Bool :=
  (h.copySource source).isOk && match h.entry dest with
    | .ok (_, .file g) => g.allows .write && g.isForeign && g.id = f.id
    | _ => false

theorem copiesOver_iff {h : Host} {source dest : Path} {f : File} :
    copiesOver h source dest f = true ↔
      (∃ h', h.copy source dest = (.ok (), h')) ∧
        ∃ l g, h.entry dest = .ok (l, .file g) ∧ g.id = f.id := by
  unfold copiesOver
  rw [Bool.and_eq_true, Host.leadsTo_iff]
  refine and_congr_left' ?_
  rcases h.copy source dest with ⟨_ | _, h'⟩ <;> simp [Except.isOk, Except.toBool]

theorem copyEmpties_iff {h : Host} {source dest : Path} {f : File} :
    copyEmpties h source dest f = true ↔
      (∃ read, h.copySource source = .ok read) ∧ ∃ g, h.Withholds dest g ∧ g.id = f.id := by
  unfold copyEmpties Host.Withholds
  rw [Bool.and_eq_true]
  refine and_congr ?_ ?_
  · cases h.copySource source <;> simp [Except.isOk, Except.toBool]
  · rcases h.entry dest with e | ⟨l, n⟩
    · simp
    · cases n <;> simp [and_assoc]

variable {m m' : Session σ} {dest name : Path} {l k : Location} {f g : File}

/-- A file that was there before is none of those in the directory. -/
theorem id_ne_of_prefix (free : h₀.HasFree dir d) (hm : m.Inside h₀ dir d) (hk : d <+: k)
    (hg : m.host.tree.node? k = some (.file g)) (hf : h₀.tree.node? l = some (.file f)) :
    g.id ≠ f.id := by
  have new : h₀.tree.nextId ≤ g.id :=
    hm.confined.fresh k g.id hk (Tree.fileId?_eq_some.mpr ⟨g, hg, rfl⟩)
  have old : f.id < h₀.tree.nextId := free.sound.file_lt (Tree.fileId?_eq_some.mpr ⟨f, hf, rfl⟩)
  exact Nat.ne_of_gt (Nat.lt_of_lt_of_le old new)

/-- The assembly is not at its destination already if that is a file that was there before. -/
theorem sameEntry_eq_false (free : h₀.HasFree dir d) (hm : m.Inside h₀ dir d) (hname : name.IsName)
    (hf : h₀.tree.node? l = some (.file f)) (hdest : m.host.entry dest = .ok (k, .file g))
    (hid : g.id = f.id) : m.host.sameEntry (dir.join name) dest = false := by
  unfold Host.sameEntry Host.canonical?
  rw [hdest]
  cases hasm : m.host.entry (dir.join name) with
  | error e => rfl
  | ok e =>
    obtain ⟨a, n⟩ := e
    have there : a = d ++ [name.raw] :=
      free.location_of_join hm.houses hname (Host.locate_of_entry hasm)
    have hne : a ≠ k := by
      rintro rfl
      exact id_ne_of_prefix free hm (there ▸ List.prefix_append _ _) (Host.node?_of_entry hdest) hf
        hid
    simp [hne]

theorem housed_of_emitted (hm : m.Housed h₀ dir d) {asm : Path} (he : Emitted asm dest m m') :
    m'.Housed h₀ dir d := by
  obtain ⟨store, host⟩ := he
  have backend : m'.store.backend = .ephemeral (some dir) := store ▸ hm.backend_eq
  have created : ∀ a ∈ m'.store.created, ∃ name : Path, name.IsName ∧ a.path = dir.join name :=
    store ▸ hm.created
  have still (same : m'.host = m.host) : m'.Housed h₀ dir d :=
    ⟨same ▸ hm.houses, same ▸ hm.cwd_eq, backend, created⟩
  rcases host with ⟨same, -⟩ | hcopy
  · exact still same
  rcases Host.writesOnly_copy hm.houses.sound asm dest with ⟨e, fails⟩ | ⟨place, -, change⟩
  · exact still (hcopy.trans (congrArg Prod.snd fails))
  · rw [← hcopy] at change
    exact ⟨hm.houses.writesOnly change.tree, change.cwd_eq.trans hm.cwd_eq, backend, created⟩

/-- A file that is copied over holds the assembly. -/
theorem file_of_copiesOver (free : h₀.HasFree dir d) (hm : m.Inside h₀ dir d) (hname : name.IsName)
    {h' : Host} (hcopy : m.host.copy (dir.join name) dest = (.ok (), h'))
    (hf : h₀.tree.node? l = some (.file f)) (hg : m.host.tree.node? l = some (.file g))
    (hid : g.id = f.id) (covers : copiesOver m.host (dir.join name) dest f = true) :
    ∃ f', h'.tree.node? l = some (.file f') ∧
      m.host.read (dir.join name) = .ok f'.content := by
  obtain ⟨-, k, e, hdest, he⟩ := copiesOver_iff.mp covers
  obtain ⟨a, asm, -, -, hasm, hread, -⟩ := Host.exists_of_copy hcopy
  have there : a = d ++ [name.raw] :=
    free.location_of_join hm.houses hname (Host.locate_of_entry hasm)
  have hne : asm.id ≠ e.id := he ▸
    id_ne_of_prefix free hm (there ▸ List.prefix_append _ _) (Host.node?_of_entry hasm) hf
  obtain ⟨f', hf', -, copied⟩ := Host.content_of_copy hcopy hasm hdest hne hg (hid.trans he.symm)
  exact ⟨f', hf', copied ▸ Host.read_of_entry hasm hread⟩

/-- Any other file stays as it is. -/
theorem file_of_not_copiesOver (ht : m.host.tree.Sound) {asm : Path} {h' : Host}
    (hcopy : m.host.copy asm dest = (.ok (), h')) (hg : m.host.tree.node? l = some (.file g))
    (hid : g.id = f.id) (covers : ¬ copiesOver m.host asm dest f = true) :
    ∃ f', h'.tree.node? l = some (.file f') ∧ f'.content = g.content := by
  obtain ⟨place, hplace, change⟩ := Host.writesOnly_of_copy ht hcopy
  have other : m.host.tree.fileId? place.location ≠ some f.id := by
    intro hplaceId
    obtain ⟨e, he, heid⟩ := Tree.fileId?_eq_some.mp hplaceId
    refine covers (copiesOver_iff.mpr
      ⟨⟨_, hcopy⟩, place.location, e, Host.entry_of_locate ?_, heid⟩)
    have shows := Tree.shows_of_locate hplace
    cases place with
    | entry k n =>
      obtain rfl := Option.some.inj (shows.symm.trans he)
      exact Tree.locate_of_create hplace
    | vacant k => cases shows.symm.trans he
  have there : m.host.tree.fileId? l = some f.id := Tree.fileId?_eq_some.mpr ⟨g, hg, hid⟩
  obtain ⟨f', hf', -, kept⟩ :=
    Tree.exists_file_of_shape_eq (change.tree.shape_of_fileId? there other) hg
  exact ⟨f', hf', kept⟩

/-- A copy that fails writes over nothing. -/
theorem not_copiesOver_of_error {h h' : Host} {asm : Path} {e : IoError}
    (fails : h.copy asm dest = (.error e, h')) : ¬ copiesOver h asm dest f = true := fun covers ↦ by
  obtain ⟨⟨_, done⟩, -⟩ := copiesOver_iff.mp covers
  cases fails.symm.trans done

/-- The copy to the destination is all that can change a file that was there before. -/
theorem file_of_emitted (free : h₀.HasFree dir d) (hm : m.Inside h₀ dir d) (hname : name.IsName)
    (he : Emitted (dir.join name) dest m m') (hf : h₀.tree.node? l = some (.file f)) :
    ∃ f', m'.host.tree.node? l = some (.file f') ∧
      (copiesOver m.host (dir.join name) dest f = true →
        m.host.read (dir.join name) = .ok f'.content) ∧
      (copyEmpties m.host (dir.join name) dest f = true → f'.content = []) ∧
      (copiesOver m.host (dir.join name) dest f = false →
        copyEmpties m.host (dir.join name) dest f = false → f'.content = f.content) := by
  have ht := hm.houses.sound
  obtain ⟨g, hg, hid, content⟩ :=
    Tree.exists_file_of_shape_eq (hm.confined.elsewhere l (free.not_prefix hf)) hf
  rcases he with ⟨-, ⟨hhost, same⟩ | hhost⟩ <;> rw [hhost]
  · -- no copy is made, as the destination is the assembly itself, and not this file
    have misses {k : Location} {e : File} (hdest : m.host.entry dest = .ok (k, .file e))
        (he : e.id = f.id) : False := by
      rw [sameEntry_eq_false free hm hname hf hdest he] at same
      cases same
    refine ⟨g, hg, fun covers ↦ ?_, fun empties ↦ ?_, fun _ _ ↦ content⟩
    · obtain ⟨-, k, e, hdest, he⟩ := copiesOver_iff.mp covers
      exact (misses hdest he).elim
    · obtain ⟨-, e, ⟨k, hdest, -⟩, he⟩ := copyEmpties_iff.mp empties
      exact (misses hdest he).elim
  by_cases empties : copyEmpties m.host (dir.join name) dest f = true
  · obtain ⟨⟨read, hsource⟩, e, withheld, he⟩ := copyEmpties_iff.mp empties
    have fails := Host.copy_of_withholds ht hsource withheld
    obtain ⟨f', hf', -, empty⟩ := Host.file_of_cleared hg (hid.trans he.symm)
    rw [fails]
    exact ⟨f', hf', fun covers ↦ absurd covers (not_copiesOver_of_error fails), fun _ ↦ empty,
      fun _ none ↦ by simp [empties] at none⟩
  rcases Host.outcome_of_copy ht (dir.join name) dest with
    ⟨e, fails⟩ | ⟨e, withheld, source, fails⟩ | ⟨-, h', done⟩
  · rw [fails]
    exact ⟨g, hg, fun covers ↦ absurd covers (not_copiesOver_of_error fails),
      fun h ↦ absurd h empties, fun _ _ ↦ content⟩
  · have other : g.id ≠ e.id := fun he ↦
      empties (copyEmpties_iff.mpr ⟨source, e, withheld, he.symm.trans hid⟩)
    rw [fails]
    exact ⟨g, Host.node?_cleared_of_ne hg other,
      fun covers ↦ absurd covers (not_copiesOver_of_error fails), fun h ↦ absurd h empties,
      fun _ _ ↦ content⟩
  · rw [done]
    by_cases covers : copiesOver m.host (dir.join name) dest f = true
    · obtain ⟨f', hf', holds⟩ := file_of_copiesOver free hm hname done hf hg hid covers
      exact ⟨f', hf', fun _ ↦ holds, fun h ↦ absurd h empties, fun h ↦ by simp [covers] at h⟩
    · obtain ⟨f', hf', kept⟩ := file_of_not_copiesOver ht done hg hid covers
      exact ⟨f', hf', fun h ↦ absurd h covers, fun h ↦ absurd h empties,
        fun _ _ ↦ kept.trans content⟩

theorem inside_of_start {tools : σ} {h : Host} (hs : Session.start o tools h = .ok s)
    (htemps : o.saveTemps = false) (ht : h.tree.Sound) :
    ∃ dir d, h.HasFree dir d ∧ s.Inside h dir d := by
  rcases Session.start_cases hs with ⟨hkeep, -⟩ | ⟨-, dir, h', hmade, rfl⟩
  · cases htemps.symm.trans hkeep
  · obtain ⟨d, free, houses, confined, hcwd⟩ :=
      Host.houses_makeTemporary ht Host.mem_temporaryStems_build hmade
    exact ⟨dir, d, free, ⟨houses, hcwd, rfl, fun a ha ↦ by cases ha⟩, confined⟩

/-- A path that led to a file leads there after the removal of what is temporary. -/
theorem entry_of_cleanup (free : h₀.HasFree dir d) (hm : m.Housed h₀ dir d) {p : Path}
    (hp : h₀.entry p = .ok (l, .file f)) (hg : m.host.tree.node? l = some (.file g)) :
    ∃ g', m.cleanup.host.entry p = .ok (l, .file g') ∧ g'.content = g.content := by
  have within := changesWithin_cleanup free hm
  have ways : h₀.tree.KeepsWays m.cleanup.host.tree := by
    intro k hk
    obtain ⟨n, hn, -⟩ := (Option.any_eq_true _ _).mp hk
    exact (within.elsewhere k (free.not_prefix hn)).trans (hm.houses.ways k hk)
  obtain ⟨g', hg', -, content⟩ := Tree.exists_file_of_shape_eq
    (within.elsewhere l (free.not_prefix (Host.node?_of_entry hp))) hg
  exact ⟨g', Host.entry_of_keepsWays free.sound within.sound ways
    (within.cwd_eq.trans hm.cwd_eq) hp hg' rfl, content⟩

/-- After a build that ends with the assembly, every path that led to a file leads to the same
file, and this holds what it held, unless it is what the destination of the assembly leads to.  Then it
holds the merged assembly if the copy succeeds, and nothing if the copy has opened it and fails. -/
theorem files_of_run_asmOnly (hasm : o.asmOnly = true) (htemps : o.saveTemps = false)
    (htools : tc.WritesOutputOnly) {tools : σ} {h : Host} (ht : h.tree.Sound)
    (hs : Session.start o tools h = .ok s) (paths : List Path) {p : Path}
    (hp : h.entry p = .ok (l, .file f)) :
    let dest := o.absolute o.assemblyOutput
    ∃ f', ((run tc o paths).runIn s).2.host.entry p = .ok (l, .file f') ∧
      (∀ asm m, (assembled tc o paths).runIn s = (.ok asm, m) →
        copiesOver m.host asm dest f = true → m.host.read asm = .ok f'.content) ∧
      (∀ asm m, (assembled tc o paths).runIn s = (.ok asm, m) →
        copyEmpties m.host asm dest f = true → f'.content = []) ∧
      ((∀ asm m, (assembled tc o paths).runIn s = (.ok asm, m) →
        copiesOver m.host asm dest f = false ∧ copyEmpties m.host asm dest f = false) →
          f'.content = f.content) := by
  intro dest
  obtain ⟨dir, d, free, inside⟩ := inside_of_start hs htemps ht
  have hf := Host.node?_of_entry hp
  have merged := ends_assembled (o := o) free htools paths inside
  unfold Ends at merged
  have staged : ((run tc o paths).runIn s).2 = ((stages tc o paths).runIn s).2.cleanup := rfl
  rw [staged, stages_eq hasm, runIn_bind]
  rcases hrun : (assembled tc o paths).runIn s with ⟨⟨e⟩ | ⟨asm⟩, m⟩
  · rw [hrun] at merged
    obtain ⟨f₁, hf₁, -, content⟩ :=
      Tree.exists_file_of_shape_eq (merged.confined.elsewhere l (free.not_prefix hf)) hf
    obtain ⟨f', hf', kept⟩ := entry_of_cleanup free merged.toHoused hp hf₁
    exact ⟨f', hf', fun _ _ h ↦ (by cases h), fun _ _ h ↦ (by cases h),
      fun _ ↦ kept.trans content⟩
  · rw [hrun] at merged
    obtain ⟨hm, name, hname, rfl⟩ := merged
    have emitted : Emitted (dir.join name) dest m
        (runIn (do return BuildOutcome.assembly (← emitAssembly tc o (dir.join name))) m).2 := by
      refine Ends.snd ?_
      exact (ends_emitAssembly m (dir.join name)).bind fun _ _ h ↦ ends_pure.mpr h
    obtain ⟨f₁, hf₁, covered, emptied, kept⟩ := file_of_emitted free hm hname emitted hf
    obtain ⟨f', hf', same⟩ := entry_of_cleanup free (housed_of_emitted hm.toHoused emitted) hp hf₁
    refine ⟨f', hf', fun asm m' h hover ↦ ?_, fun asm m' h hempty ↦ ?_, fun hno ↦ ?_⟩
    · obtain ⟨hasm, rfl⟩ := Prod.mk.inj h
      obtain rfl := Except.ok.inj hasm
      exact same ▸ covered hover
    · obtain ⟨hasm, rfl⟩ := Prod.mk.inj h
      obtain rfl := Except.ok.inj hasm
      exact same.trans (emptied hempty)
    · obtain ⟨spared, full⟩ := hno _ _ rfl
      exact same.trans (kept spared full)

/-! ## A sample -/

/-- A host with a source, an interface description and assembly written by hand in directory
`/w`. -/
def handwritten : Host where
  tree :=
    (((Tree.empty.addDirectory [Bytes.ofString "w"] programMode).addFile
      [Bytes.ofString "w", Bytes.ofString "main.c"] (Bytes.ofString "int x;") fileMode).addFile
      [Bytes.ofString "w", Bytes.ofString "wallet.abi"] (Bytes.ofString "abi") fileMode).addFile
      [Bytes.ofString "w", Bytes.ofString "wallet.s"] (Bytes.ofString "hand") fileMode
  cwd := 1
  tempDir := .ofString "/w"

/-- Options for a build that ends with the assembly, beside the interface description. -/
def besideWallet : BuildOptions := { BuildOptions.sample with asmOnly := true }

theorem sound_handwritten : handwritten.tree.Sound :=
  (((Tree.sound_empty.addDirectory (by decide) (by decide) _).addFile (by decide) (by decide) _
    _).addFile (by decide) (by decide) _ _).addFile (by decide) (by decide) _ _

/-- The assembly that was written by hand holds the merged assembly after the build. -/
theorem files_of_run_asmOnly_sample :
    ∃ s l f', Session.start besideWallet () handwritten = .ok s ∧
      ((run (.writing (Bytes.ofString "; llc\n")) besideWallet
        [.ofString "main.c", .ofString "wallet.s"]).runIn s).2.host.entry
          (.ofString "/w/wallet.s") = .ok (l, .file f') ∧ f'.content = Bytes.ofString "; llc\nhand" := by
  let tc := Toolchain.writing (Bytes.ofString "; llc\n")
  let paths := [Path.ofString "main.c", .ofString "wallet.s"]
  let wallet := Path.ofString "/w/wallet.s"
  let asm := Path.ofString "/w/tvm-build-U00000/5-llc.asm"
  let f : File :=
    { Attributes.fresh fileMode Tree.empty.now with id := 4, content := Bytes.ofString "hand" }
  have hp : handwritten.entry wallet =
      .ok ([Bytes.ofString "w", Bytes.ofString "wallet.s"], .file f) := by decide +kernel
  obtain ⟨s, hs, hrun⟩ := exists_of_map_eq_ok_true (x := Session.start besideWallet () handwritten)
    (p := fun s ↦ ((assembled tc besideWallet paths).runIn s).1 = .ok asm ∧
      copiesOver ((assembled tc besideWallet paths).runIn s).2.host asm wallet f = true ∧
      ((assembled tc besideWallet paths).runIn s).2.host.read asm =
        .ok (Bytes.ofString "; llc\nhand")) (by decide +kernel)
  obtain ⟨merged, copied, read⟩ := of_decide_eq_true hrun
  obtain ⟨f', hf', covered, -⟩ := files_of_run_asmOnly (o := besideWallet) rfl rfl
    (Toolchain.writesOutputOnly_writing _) sound_handwritten hs paths hp
  have content := covered asm _ (Prod.ext merged rfl) copied
  exact ⟨s, _, f', hs, hf', (Except.ok.inj (read.symm.trans content)).symm⟩

/-- A build of assembly that has no output of its own can succeed and leave one of its inputs with
other content. -/
theorem run_asmOnly_overwrites_input :
    let tc := Toolchain.writing (Bytes.ofString "; llc\n")
    let paths := [Path.ofString "main.c", .ofString "wallet.s"]
    let input := besideWallet.absolute (.ofString "wallet.s")
    besideWallet.asmOnly = true ∧ besideWallet.output = none ∧ besideWallet.saveTemps = false ∧
      tc.WritesOutputOnly ∧ ∃ s inputs, Session.start besideWallet () handwritten = .ok s ∧
        classify paths = .ok inputs ∧ firstMissing? besideWallet handwritten inputs = none ∧
        ((run tc besideWallet paths).runIn s).1 = .ok (.assembly input) ∧
        handwritten.read input = .ok (Bytes.ofString "hand") ∧
        ((run tc besideWallet paths).runIn s).2.host.read input =
          .ok (Bytes.ofString "; llc\nhand") := by
  intro tc paths input
  obtain ⟨s, hs, hrun⟩ := exists_of_map_eq_ok_true (x := Session.start besideWallet () handwritten)
    (p := fun s ↦ ((run tc besideWallet paths).runIn s).1 = .ok (.assembly input) ∧
      ((run tc besideWallet paths).runIn s).2.host.read input =
        .ok (Bytes.ofString "; llc\nhand")) (by decide +kernel)
  obtain ⟨done, after⟩ := of_decide_eq_true hrun
  exact ⟨rfl, rfl, rfl, Toolchain.writesOutputOnly_writing _, s,
    ⟨[], [⟨.ofString "main.c", .c, 0⟩], [], [], [⟨.ofString "wallet.s", .assembly, 1⟩]⟩, hs,
    by decide +kernel, by decide +kernel, done, by decide +kernel, after⟩

end Build

end ContractBuild

/-!
## From inputs to assembly, stage by stage

Up to the generated assembly, a build consists of jobs alone: each reserves a file and runs the tool
that writes it.  What every job preserves holds there.  The assembly inputs are then appended one
after the other, so there is a build that stops behind the first few of them.
-/

namespace ContractBuild.Build

variable {σ : Type} {tc : Toolchain σ} {o : BuildOptions} {s : Session σ}

/-! ### Generated assembly -/

/-- The assembly that a build generates once its inputs are classified. -/
def generated (tc : Toolchain σ) (o : BuildOptions) (inputs : ClassifiedInputs) :
    Build σ Path := do
  checkInputs o inputs
  lowered tc o inputs

theorem classified_eq {paths : List Path} {inputs : ClassifiedInputs}
    (h : classify paths = .ok inputs) : (classified paths : Build σ _) = pure inputs := by
  rw [classified, h]

/-- The assembly of a build is what is generated, with the assembly inputs appended. -/
theorem assembled_eq {paths : List Path} {inputs : ClassifiedInputs}
    (h : classify paths = .ok inputs) :
    assembled tc o paths = do
      let asm ← generated tc o inputs
      mergeAssembly tc o asm inputs
      return asm := by
  simp only [assembled, generated, assembleAll, lowered, classified_eq h, bind_assoc, pure_bind]

/-- A build goes on from the assembly to its end. -/
theorem stages_eq_assembled (paths : List Path) :
    stages tc o paths = (do
      let asm ← assembled tc o paths
      if o.asmOnly then return .assembly (← emitAssembly tc o asm) else linkAll tc o asm) := by
  simp only [stages, assembled, bind_assoc]

variable (tc o) in
/-- A build goes on from the generated assembly to its end. -/
theorem stages_eq_generated {paths : List Path} {inputs : ClassifiedInputs}
    (h : classify paths = .ok inputs) :
    stages tc o paths = (do
      let asm ← generated tc o inputs
      mergeAssembly tc o asm inputs
      if o.asmOnly then return .assembly (← emitAssembly tc o asm) else linkAll tc o asm) := by
  simp only [stages_eq_assembled, assembled_eq h, bind_assoc, pure_bind]

/-- What is logged up to the assembly stays on the log. -/
theorem log_starts_with_assembled (tc : Toolchain σ) (o : BuildOptions) (paths : List Path)
    (s : Session σ) :
    ((assembled tc.logging o paths).runIn s.withLog).2.tools.2 <+: history tc o paths s := by
  unfold history run andFinally
  rw [runIn_ofResult, stages_eq_assembled, runIn_bind]
  rcases (assembled tc.logging o paths).runIn s.withLog with ⟨e | asm, m⟩
  · exact List.prefix_refl _
  · obtain ⟨ending, -, follows⟩ := follows_fromAssembly (s := m) tc o asm
    have grown : m.tools.2 <+: (runIn (if o.asmOnly then
        return .assembly (← emitAssembly tc.logging o asm)
        else linkAll tc.logging o asm) m).2.tools.2 := by
      refine Ends.snd (I := fun t ↦ m.tools.2 <+: t.tools.2) (Ends.mono follows ?_ ?_)
      · rintro _ t ⟨⟨log, adv, -⟩, -⟩
        exact adv.log_eq ▸ List.prefix_append _ _
      · rintro _ t ⟨_, log, -, adv, -⟩
        exact adv.log_eq ▸ List.prefix_append _ _
    exact grown

/-! ### Jobs -/

section

variable {I : Session σ → Prop} {P : Path → Session σ → Prop}
  (hproduce : ∀ kind command, Command.NamesOutput command → ∀ s, I s →
    Ends (produce tc o kind command) s (fun p s' ↦ I s' ∧ P p s') fun _ ↦ I)

include hproduce

theorem preserves_job {kind : ArtifactKind} {command : Path → Invocation}
    (hcommand : Command.NamesOutput command) : Preserves I (produce tc o kind command) :=
  fun s hs ↦ (hproduce kind command hcommand s hs).mono (fun _ _ h ↦ h.1) fun _ _ h ↦ h

/-- What every job preserves holds of the generated assembly, and so does what the last of them
brings about. -/
theorem ends_lowered (inputs : ClassifiedInputs) (hs : I s) :
    Ends (lowered tc o inputs) s (fun p s' ↦ I s' ∧ P p s') fun _ ↦ I := by
  have job {kind : ArtifactKind} {command : Path → Invocation}
      (hcommand : Command.NamesOutput command) : Preserves I (produce tc o kind command) :=
    preserves_job hproduce hcommand
  have compiled : Preserves I (compileSources tc o inputs) :=
    .compileSources (fun input ↦ job (Command.namesOutput_cxx o input))
      (fun input ↦ job (Command.namesOutput_c o input)) inputs
  have fromIr : Preserves I (assembleIr tc o inputs) :=
    .modulesOf (fun input ↦ job (Command.namesOutput_assemble o input)) _
  refine (compiled s hs).bind fun _ s hs ↦ (fromIr s hs).bind fun _ s hs ↦ ?_
  refine (job (Command.namesOutput_linkModules o _) s hs).bind fun linked s hs ↦ ?_
  refine (job (Command.namesOutput_internalize o linked) s hs).bind fun internal s hs ↦ ?_
  refine (job (Command.namesOutput_optimize o internal) s hs).bind fun optimized s hs ↦ ?_
  exact hproduce _ _ (Command.namesOutput_generate o optimized) s hs

theorem ends_generated (inputs : ClassifiedInputs) (hs : I s) :
    Ends (generated tc o inputs) s (fun p s' ↦ I s' ∧ P p s') fun _ ↦ I :=
  (preserves_checkInputs inputs s hs).bind fun _ _ hs ↦ ends_lowered hproduce inputs hs

end

/-! ### Appended inputs -/

/-- Notes that the assembly inputs are appended, and opens the assembly for that. -/
def openAssembly (tc : Toolchain σ) (asm : Path) (inputs : ClassifiedInputs) :
    Build σ Location := do
  let names := " ".intercalate (inputs.assembly.map (·.path.display))
  echo tc s!"cat {names} >>{asm.display}"
  value (.opening asm) ((← host).appendTarget asm)

/-- The assembly to which only some of the assembly inputs have been appended, with its
location. -/
def mergedUpTo (tc : Toolchain σ) (o : BuildOptions) (inputs : ClassifiedInputs)
    (done : List InputFile) : Build σ (Path × Location) := do
  let asm ← generated tc o inputs
  let l ← openAssembly tc asm inputs
  appendInputs o asm l done
  return (asm, l)

theorem mergeAssembly_nil {asm : Path} {inputs : ClassifiedInputs} (h : inputs.assembly = []) :
    mergeAssembly tc o asm inputs = pure () := by
  rw [mergeAssembly, h]

theorem mergeAssembly_eq {asm : Path} {inputs : ClassifiedInputs} (h : inputs.assembly ≠ []) :
    mergeAssembly tc o asm inputs =
      openAssembly tc asm inputs >>= fun l ↦ appendInputs o asm l inputs.assembly := by
  unfold mergeAssembly openAssembly
  split
  next hnil => exact absurd hnil h
  next => simp only [bind_assoc]

theorem appendInputs_append (asm : Path) (l : Location) (done rest : List InputFile) :
    (appendInputs o asm l (done ++ rest) : Build σ Unit) =
      appendInputs o asm l done >>= fun _ ↦ appendInputs o asm l rest := by
  induction done with
  | nil => simp [appendInputs]
  | cons f fs ih => simp only [List.cons_append, appendInputs, ih, bind_assoc]

/-- A build reads an assembly input in the session in which those before it have been appended, and
appends it there. -/
theorem assembled_eq_mergedUpTo {paths : List Path} {inputs : ClassifiedInputs}
    (h : classify paths = .ok inputs) {done rest : List InputFile} {f : InputFile}
    (hsplit : inputs.assembly = done ++ f :: rest) :
    assembled tc o paths = do
      let (asm, l) ← mergedUpTo tc o inputs done
      let content ← value (.reading (o.absolute f.path)) ((← host).read (o.absolute f.path))
      change (.appending asm) ((← host).append l content)
      appendInputs o asm l rest
      return asm := by
  have hne : inputs.assembly ≠ [] := by simp [hsplit]
  rw [assembled_eq h]
  simp only [mergeAssembly_eq hne, mergedUpTo, hsplit, appendInputs_append, appendInputs,
    bind_assoc, pure_bind]

end ContractBuild.Build
