import ContractBuild.Proofs.Build.StageOrder

/-!
# The paths that the linker is told

The linker runs in a directory of its own, so a path that was relative to the working directory
means something else to it.  The assembly and the interface description reach it as absolute
paths; the standard library and the linker itself do so only if they were given that way.
-/

namespace ContractBuild.Build

variable {σ : Type} (tc : Toolchain σ) (o : BuildOptions)

/-- From an absolute working directory, intermediate files have absolute paths. -/
theorem isAbsolute_dir {tools : σ} {h : Host} {s : Session σ} {dir : Path}
    (hs : Session.start o tools h = .ok s) (hwd : o.workingDir.isAbsolute)
    (hdir : s.store.dir? = some dir) : dir.isAbsolute := by
  rcases Session.start_cases hs with ⟨_, rfl⟩ | ⟨_, p, h', hmade, rfl⟩
  · obtain rfl := Option.some.inj hdir
    exact hwd
  · obtain rfl := Option.some.inj hdir
    exact Host.isAbsolute_of_makeTemporary hmade

/-- The link directory of a first build: the working directory if files are kept, else an absolute
path. -/
theorem path_of_opens {tools : σ} {h : Host} {s : Session σ} {linkDir : LinkDir}
    (hs : Session.start o tools h = .ok s) (hwd : o.workingDir.isAbsolute)
    (hopens : Plan.Opens s.store linkDir) :
    linkDir.path.isAbsolute ∧ (o.saveTemps = true → linkDir.path = o.workingDir) := by
  rcases Session.start_cases hs with ⟨hsave, rfl⟩ | ⟨hsave, p, h', _, rfl⟩
  · rcases linkDir with q | q
    · exact absurd hopens.1 (by simp [ArtifactStore.isPersistent, ArtifactStore.persistent])
    · obtain rfl := ArtifactStore.Backend.persistent.inj hopens
      exact ⟨hwd, fun _ ↦ rfl⟩
  · rcases linkDir with q | q
    · exact ⟨hopens.2, by simp [hsave]⟩
    · cases hopens

/-- The first tool that runs behind the merged assembly is the linker, in a link directory that
fits. -/
theorem first_run_of_ending {o : BuildOptions} {store : ArtifactStore} {asm : Path}
    {ending : Plan.Ending} (fits : Plan.Fits o store ending) {notes rest : List Event}
    {i : Invocation} (hnotes : ∀ e ∈ notes, ∃ line, e = .echo line)
    (hending : (Plan.ending o asm ending).map Move.event = notes ++ .run i :: rest) :
    ∃ linkDir, Plan.Opens store linkDir ∧
      i = (Command.compile o asm (o.absolute o.abi) (linkedOutput o linkDir)).inDir
        linkDir.path := by
  let isRun (e : Event) : Prop := ∃ j, e = .run j
  have quiet : ∀ e ∈ notes, ¬ isRun e := by
    rintro _ he ⟨j, rfl⟩
    obtain ⟨line, hline⟩ := hnotes _ he
    cases hline
  rcases ending with copied | ⟨linkDir, left⟩
  · have mem : Event.run i ∈ (Plan.ending o asm (.assembly copied)).map Move.event := by
      rw [hending]
      simp
    cases copied <;> simp [Plan.ending, Move.say] at mem
  · refine ⟨linkDir, fits.2, ?_⟩
    let linker := Command.compile o asm (o.absolute o.abi) (linkedOutput o linkDir)
    have split : ∃ before after, (Plan.ending o asm (.contract linkDir left)).map Move.event =
        before ++ .run (linker.inDir linkDir.path) :: after ∧ ∀ e ∈ before, ¬ isRun e := by
      rcases linkDir with p | p
      · exact ⟨[.echo s!"cd {p.display}"], _, rfl, by simp [isRun]⟩
      · exact ⟨[], _, rfl, by simp⟩
    obtain ⟨before, after, hsplit, hbefore⟩ := split
    have first := eq_of_first_eq (hending.symm.trans hsplit) quiet hbefore ⟨i, rfl⟩ ⟨_, rfl⟩
    exact Event.run.inj first.2

/-- What the linker is told, seen from its own directory, is what was meant from the working
directory: the assembly and the interface description always, the standard library and the linker
itself exactly if they are absolute or the two directories are the same path. -/
theorem linker_paths {paths : List Path} {tools : σ} {h : Host} {s : Session σ}
    (hs : Session.start o tools h = .ok s) (hwd : o.workingDir.isAbsolute)
    {inputs : ClassifiedInputs} (hinputs : classify paths = .ok inputs) {dir : Path}
    (hdir : s.store.dir? = some dir) {notes after : List Event} {i : Invocation}
    (hnotes : ∀ e ∈ notes, ∃ line, e = .echo line)
    (hevents : ((run tc o paths).runIn s).2.events =
      (Plan.toAssembly o dir (fun _ ↦ 0) inputs).map Move.event ++ notes ++ .run i :: after) :
    let asm := Plan.assembly dir fun _ ↦ 0
    let lib := o.tools.stdlibArtifact
    ∃ d abi rest, i.dir = some d ∧ (o.saveTemps = true → d = o.workingDir) ∧
      i.program = o.tools.linker ∧
      i.args = Command.texts ["compile"] ++ [asm.raw] ++ Command.texts ["--lib"] ++ [lib.raw] ++
        Command.texts ["--abi-json"] ++ [abi.raw] ++ rest ∧
      Path.Same (d.join asm) (o.workingDir.join asm) ∧
      Path.Same (d.join abi) (o.workingDir.join o.abi) ∧
      (Path.Same (d.join lib) (o.workingDir.join lib) ↔
        o.tools.stdlib.isAbsolute ∨ Path.Same d o.workingDir) ∧
      (Path.Same (d.join o.tools.linker) (o.workingDir.join o.tools.linker) ↔
        o.tools.linker.isAbsolute ∨ Path.Same d o.workingDir) := by
  intro asm lib
  obtain ⟨dir', ending, moves, hdir', fits, ⟨left, hleft⟩, events, _⟩ :=
    moves_of_run tc o hs hinputs
  obtain rfl : dir = dir' := Option.some.inj (hdir.symm.trans hdir')
  have hending : (Plan.ending o asm ending).map Move.event =
      notes ++ .run i :: (after ++ left.map Move.event) := by
    have planned := congrArg (List.map Move.event) hleft
    rw [List.map_append, ← events, hevents, Plan.whole, List.map_append, List.append_assoc,
      List.append_assoc] at planned
    simpa using (List.append_cancel_left planned).symm
  obtain ⟨linkDir, hopens, rfl⟩ := first_run_of_ending fits hnotes hending
  obtain ⟨habs, hsame⟩ := path_of_opens o hs hwd hopens
  have asmAbsolute : asm.isAbsolute := Path.isAbsolute_join (isAbsolute_dir o hs hwd hdir) _
  have abiAbsolute : (o.absolute o.abi).isAbsolute := Path.isAbsolute_join hwd o.abi
  have libAbsolute : lib.isAbsolute ↔ o.tools.stdlib.isAbsolute :=
    Path.isAbsolute_join_iff (by decide)
  refine ⟨linkDir.path, o.absolute o.abi, _, rfl, hsame, rfl, List.append_assoc .., ?_, ?_, ?_,
    ?_⟩
  · exact (Path.same_join_iff habs hwd).mpr (.inl asmAbsolute)
  · rw [Path.join_of_isAbsolute abiAbsolute]
    exact .refl _
  · rw [Path.same_join_iff habs hwd, libAbsolute]
  · exact Path.same_join_iff habs hwd

/-- Options for the sample with a toolchain in the working directory. -/
def localTools : BuildOptions :=
  { BuildOptions.sample with
    tools := { BuildOptions.sample.tools with
      stdlib := .ofString "lib"
      linker := .ofString "bin/tvm_linker" } }

/-- The call of the linker in a build of the sample. -/
def localCall : Invocation :=
  (Command.compile localTools (.ofString "/w/tvm-build-U00000/5-llc.asm")
    (.ofString "/w/wallet.abi") none).inDir (.ofString "/w/tvm-link-U00000")

/-- With a toolchain in the working directory, only the assembly and the interface description
reach the linker of the sample. -/
theorem linker_paths_sample :
    ∃ s d abi, Session.start localTools () Host.sample = .ok s ∧ localCall.dir = some d ∧
      Path.Same (d.join abi) (localTools.workingDir.join localTools.abi) ∧
      (Path.Same (d.join localTools.tools.linker)
          (localTools.workingDir.join localTools.tools.linker) ↔
        localTools.tools.linker.isAbsolute ∨ Path.Same d localTools.workingDir) := by
  let paths := [Path.ofString "main.c"]
  let inputs : ClassifiedInputs := ⟨[], [⟨.ofString "main.c", .c, 0⟩], [], [], []⟩
  let dir := Path.ofString "/w/tvm-build-U00000"
  let notes := [Event.echo "cd /w/tvm-link-U00000"]
  obtain ⟨s, hs, hrun⟩ := exists_of_map_eq_ok_true
    (x := Session.start localTools () Host.sample) (p := fun s ↦ s.store.dir? = some dir ∧
      ((run Toolchain.idle localTools paths).runIn s).2.events =
        (Plan.toAssembly localTools dir (fun _ ↦ 0) inputs).map Move.event ++ notes ++
          .run localCall :: []) (by decide +kernel)
  obtain ⟨hdir, hevents⟩ := of_decide_eq_true hrun
  obtain ⟨d, abi, _, hd, _, _, _, _, same, _, linker⟩ := linker_paths Toolchain.idle localTools hs
    (by decide) (by decide +kernel : classify paths = .ok inputs) hdir (by simp [notes]) hevents
  exact ⟨s, d, abi, hs, hd, same, linker⟩

/-- The linker of the sample is told a standard library that is not the one which was meant, and
is itself looked for where it is not. -/
theorem linker_misses_local_tools :
    ∃ s d, Session.start localTools () Host.sample = .ok s ∧
      .run localCall ∈
        ((run Toolchain.idle localTools [.ofString "main.c"]).runIn s).2.events ∧
      localCall.dir = some d ∧
      ¬ Path.Same (d.join localTools.tools.stdlibArtifact)
        (localTools.workingDir.join localTools.tools.stdlibArtifact) ∧
      ¬ Path.Same (d.join localTools.tools.linker)
        (localTools.workingDir.join localTools.tools.linker) := by
  obtain ⟨s, hs, hrun⟩ := exists_of_map_eq_ok_true
    (x := Session.start localTools () Host.sample) (p := fun s ↦ .run localCall ∈
      ((run Toolchain.idle localTools [.ofString "main.c"]).runIn s).2.events)
    (by decide +kernel)
  exact ⟨s, _, hs, of_decide_eq_true hrun, rfl, by decide, by decide⟩

end ContractBuild.Build
