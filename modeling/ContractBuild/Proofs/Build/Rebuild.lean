import ContractBuild.Proofs.Build.AssemblyOnly
import ContractBuild.Proofs.Build.InputErrors
import ContractBuild.Proofs.Build.Repeats

/-!
# Builds that are made once more

A build with deterministic tools that keeps its files can be made once more where it has ended: it
does the same, gives the same, and leaves every file as it was.  It finds the artifacts and the outputs
of the first time there, but never looks into them before it has made them itself, whether the first
time went well or failed on the way.
-/

namespace ContractBuild

open Session

variable {σ α : Type} {tc : Toolchain σ} {o : BuildOptions} {r : Recipe} {paths : List Path}
  {s s₀ e t : Session σ} {asm p : Path} {l : Location}

/-- Whether a file has been reserved, and may be appended to. -/
def Session.Holds (s : Session σ) (p : Path) : Prop :=
  (∃ a ∈ s.store.created, a.path = p) ∧ ∃ l, s.host.appendTarget p = .ok l

theorem Session.Holds.onward (hp : s.Holds p) (w : s.Onward o r t) : t.Holds p := by
  obtain ⟨⟨a, ha, rfl⟩, l, hl⟩ := hp
  exact ⟨⟨a, w.created.subset ha, rfl⟩, l, w.host.becomes.appendTarget w.coherent.toSound hl⟩

namespace Build

/-! ## The checks -/

theorem repeats_classified (hs : s.host.tree.Coherent) (paths : List Path) :
    Repeats o r e (classified paths) s fun inputs t ↦ t = s ∧ classify paths = .ok inputs := by
  unfold classified
  cases classify paths with
  | ok inputs => exact .pure hs ⟨rfl, rfl⟩
  | error x => exact .throw x hs

/-- What is needed and exists does so once more, and what does not exist is not made. -/
theorem repeats_checkInputs (hs : s.host.tree.Coherent) (inputs : ClassifiedInputs) :
    Repeats o r e (checkInputs o inputs) s fun _ t ↦ t = s := by
  have hrun := runIn_checkInputs (σ := σ) o inputs
  cases hmissing : firstMissing? o s.host inputs with
  | some p =>
    constructor
    · rw [Ends, hrun, hmissing]
      exact .refl hs
    · intro s' hs'
      rw [Ends, hrun, hmissing]
      rintro rfl
      have alike := hs'.host.alike hs.toSound rfl
      have same : firstMissing? o s'.host inputs = some p := by
        rw [← hmissing]
        simp only [firstMissing?, alike.pathExists_eq]
      exact ⟨s', by rw [hrun, same], hs'.toTwin⟩
  | none =>
    constructor
    · rw [Ends, hrun, hmissing]
      exact ⟨.refl hs, rfl⟩
    · intro s' hs'
      rw [Ends, hrun, hmissing]
      intro hend
      have same : firstMissing? o s'.host inputs = none := by
        refine List.find?_eq_none.mpr fun p hp ↦ ?_
        have there : s.host.pathExists (o.absolute p) = true := by
          simpa using List.find?_eq_none.mp hmissing p hp
        simp [hs'.host.pathExists hend.host.becomes hs.toSound there]
      exact ⟨s', by rw [hrun, same], hs'⟩

/-! ## Up to the assembly -/

/-- Asking for another file does not count as asking for assembly. -/
theorem count_codegen_asked {kind : ArtifactKind} (hkind : kind ≠ .codegen)
    (asked : t.store.asked = s.store.asked ++ [kind]) :
    t.store.asked.count .codegen = s.store.asked.count .codegen := by
  rw [asked, List.count_append, List.count_singleton, if_neg (by simpa using hkind), Nat.add_zero]

section

variable (R : Repeatable tc o r paths s₀ e) (hs : s₀.Onward o r s)

include R hs

/-- A job is repeated. -/
theorem repeats_produce {kind : ArtifactKind} {command : Path → Invocation}
    (hcommand : Command.NamesOutput command) :
    Repeats o r e (produce tc o kind command) s fun p t ↦
      p = Plan.file o.workingDir kind (s.store.asked.count kind) ∧
        t.store.asked = s.store.asked ++ [kind] ∧ t.Holds p := by
  have next : s.store.nextPath? kind =
      some (Plan.file o.workingDir kind (s.store.asked.count kind)) := by
    rw [ArtifactStore.nextPath?, ArtifactStore.dir?, hs.backend, R.backend]
    rfl
  refine (repeats_reserve next hs.host.coherent).bind fun out t ht held ↦ ?_
  obtain ⟨rfl, asked, hheld⟩ := held
  refine (repeats_tool R (hs.trans ht) fun habs _ p hp ↦ ?_).bind fun _ u hu called ↦ ?_
  · have absolute := Path.isAbsolute_join habs (.ofString (kind.fileName (s.store.asked.count kind)))
    obtain rfl := Option.some.inj ((hcommand.written?_inDir absolute _).symm.trans hp)
    exact hheld.1
  · subst called
    exact .pure hu.host.coherent ⟨rfl, asked, Session.Holds.onward hheld hu⟩

theorem repeats_modulesOf {kind : ArtifactKind} (hkind : kind ≠ .codegen)
    {command : BuildOptions → Path → Path → Invocation}
    (hcommand : ∀ input, Command.NamesOutput (command o input)) (files : List InputFile) :
    Repeats o r e (modulesOf tc o kind command files) s fun _ t ↦
      t.store.asked.count .codegen = s.store.asked.count .codegen := by
  induction files generalizing s with
  | nil => exact .pure hs.host.coherent rfl
  | cons f fs ih =>
    have first : Repeats o r e (moduleOf tc o kind command f) s fun _ t ↦
        t.store.asked.count .codegen = s.store.asked.count .codegen :=
      (repeats_produce R hs (hcommand f.path)).bind fun _ _ ht made ↦
        .pure ht.host.coherent (count_codegen_asked hkind made.2.1)
    refine first.bind fun _ _ ht same ↦ (ih (hs.trans ht)).bind fun _ _ hu same' ↦ ?_
    exact .pure hu.host.coherent (same'.trans same)

theorem repeats_lowered (inputs : ClassifiedInputs) :
    Repeats o r e (lowered tc o inputs) s fun asm t ↦
      asm = Plan.file o.workingDir .codegen (s.store.asked.count .codegen) ∧ t.Holds asm := by
  have compiled : Repeats o r e (compileSources tc o inputs) s fun _ t ↦
      t.store.asked.count .codegen = s.store.asked.count .codegen := by
    refine (repeats_modulesOf R hs (by decide) (Command.namesOutput_cxx o) _).bind
      fun _ _ ht same ↦ ?_
    refine (repeats_modulesOf R (hs.trans ht) (by decide) (Command.namesOutput_c o) _).bind
      fun _ _ hu same' ↦ ?_
    exact .pure hu.host.coherent (same'.trans same)
  refine compiled.bind fun _ _ h₁ same₁ ↦ ?_
  have hs := hs.trans h₁
  refine (repeats_modulesOf R hs (by decide) (Command.namesOutput_assemble o) _).bind
    fun _ _ h₂ same₂ ↦ ?_
  have hs := hs.trans h₂
  refine (repeats_produce R hs (Command.namesOutput_linkModules o _)).bind fun p _ h₃ made₃ ↦ ?_
  have hs := hs.trans h₃
  refine (repeats_produce R hs (Command.namesOutput_internalize o p)).bind fun p _ h₄ made₄ ↦ ?_
  have hs := hs.trans h₄
  refine (repeats_produce R hs (Command.namesOutput_optimize o p)).bind fun p _ h₅ made₅ ↦ ?_
  refine (repeats_produce R (hs.trans h₅) (Command.namesOutput_generate o p)).mono fun asm _ _ made ↦ ?_
  obtain ⟨rfl, -, held⟩ := made
  rw [count_codegen_asked (by decide) made₅.2.1, count_codegen_asked (by decide) made₄.2.1,
    count_codegen_asked (by decide) made₃.2.1, same₂, same₁] at held ⊢
  exact ⟨rfl, held⟩

/-- The assembly inputs are read as given, and appended to what both runs have generated. -/
theorem repeats_appendInputs (hasm : ∃ a ∈ s.store.created, a.path = asm)
    (hl : s.host.appendTarget asm = .ok l) {files : List InputFile}
    (hfiles : ∀ f ∈ files, f.path ∈ paths) :
    Repeats o r e (appendInputs o asm l files) s fun _ _ ↦ True := by
  induction files generalizing s with
  | nil => exact .pure hs.host.coherent trivial
  | cons f fs ih =>
    have coherent := hs.host.coherent
    obtain ⟨a, ha, rfl⟩ := hasm
    have step : (appendInputs o a.path l (f :: fs) : Build σ Unit) = (do
        let content ← look (.reading (o.absolute f.path)) (·.read (o.absolute f.path))
        alter (.appending a.path) (·.append l content)
        appendInputs o a.path l fs) := by
      simp only [appendInputs, look, alter, bind_assoc]
    rw [step]
    have read : Repeats o r e (look (.reading (o.absolute f.path)) (·.read (o.absolute f.path))) s
        fun c t ↦ t = s ∧ s.host.read (o.absolute f.path) = .ok c := by
      refine repeats_look coherent (fun c hread hend s' hs' ↦ ?_) fun x h hx alike ↦
        (alike.read_eq _).trans hx
      have alone := R.apart.inputs _ (hfiles f List.mem_cons_self)
      exact hs'.host.read hend.host.becomes coherent.toSound hread fun _ hplace ↦
        hs.stored_of_leavesAlone hend alone (Nat.zero_le _) hplace
    refine read.bind fun content t _ same ↦ ?_
    obtain ⟨rfl, -⟩ := same
    obtain ⟨n, hentry, lead, there, hopen⟩ := Host.exists_of_appendTarget coherent.toSound hl
    refine (repeats_alter coherent (fun h hh ↦ ?_) (fun h hh hend s' hs' ↦ ?_)
      fun x h hx alike _ ↦ alike.append_error hx).bind fun _ u hu _ ↦ ?_
    · exact Host.develops_append coherent hl hh (mem_writesFrom_of_created ha)
    · have w := (Host.develops_append coherent hl hh (P := fun _ ↦ True) trivial).becomes
      have agrees := hs'.artifacts a ha _ (Host.locateNew_of_entry coherent.toSound hentry lead)
      obtain ⟨h', hh', F, alter, -⟩ := hs'.host.append (w.trans hend.host.becomes) coherent
        hend.host.coherent hend.host.becomes (by simp [there]) hopen agrees hh
      exact ⟨h', hh', F, alter⟩
    · refine ih (hs.trans hu) ⟨a, hu.created.subset ha, rfl⟩ ?_ fun f' hf' ↦
        hfiles f' (List.mem_cons_of_mem f hf')
      exact hu.host.becomes.appendTarget coherent.toSound hl

theorem repeats_mergeAssembly (hasm : s.Holds asm) {inputs : ClassifiedInputs}
    (hfiles : ∀ f ∈ inputs.assembly, f.path ∈ paths) :
    Repeats o r e (mergeAssembly tc o asm inputs) s fun _ _ ↦ True := by
  by_cases hnil : inputs.assembly = []
  · rw [mergeAssembly_nil hnil]
    exact .pure hs.host.coherent trivial
  rw [mergeAssembly_eq hnil]
  have opened : Repeats o r e (openAssembly tc asm inputs) s fun l t ↦
      t.host.appendTarget asm = .ok l := by
    refine (repeats_echo hs.host.coherent _).bind fun _ t ht _ ↦ ?_
    have coherent := ht.host.coherent
    have look : Repeats o r e (look (.opening asm) (·.appendTarget asm)) t
        fun l u ↦ u = t ∧ t.host.appendTarget asm = .ok l :=
      repeats_look coherent (fun l hl hend s' hs' ↦
          hs'.host.appendTarget hend.host.becomes coherent.toSound hl)
        fun x h hx alike ↦ (alike.appendTarget_eq asm).trans hx
    refine look.mono fun l u _ same ↦ ?_
    obtain ⟨rfl, hl⟩ := same
    exact hl
  refine opened.bind fun l t ht hl ↦ ?_
  exact repeats_appendInputs R (hs.trans ht) (hasm.onward ht).1 hl hfiles

/-! ## From the assembly on -/

theorem repeats_finalLink (asm : Path) : Repeats o r e (finalLink tc o asm) s
    fun target _ ↦ target = OutputTarget.resolve o.output o.workingDir := by
  have opened : Repeats o r e openLinkDir s fun dir t ↦ t = s ∧ dir = .working o.workingDir := by
    have hrun {s : Session σ} (hb : s.store.backend = .persistent o.workingDir) :
        openLinkDir.runIn s = (.ok (.working o.workingDir), s) := by
      rw [openLinkDir, runIn_ofResult, ArtifactStore.openLinkDir, hb]
    have backend := hs.backend.trans R.backend
    constructor
    · rw [Ends, hrun backend]
      exact ⟨.refl hs.host.coherent, rfl, rfl⟩
    · intro s' hs'
      rw [Ends, hrun backend]
      exact fun _ ↦ ⟨s', hrun (hs'.store ▸ backend), hs'⟩
  refine opened.bind fun dir t _ same ↦ ?_
  obtain ⟨rfl, rfl⟩ := same
  -- a build that keeps its files has no link directory to give up
  have linked : (linkIn tc o (.working o.workingDir) asm).andFinally
      (fun s ↦ { s with host := (LinkDir.working o.workingDir).close s.host }) =
        linkIn tc o (.working o.workingDir) asm := rfl
  rw [linked]
  exact (repeats_tool R hs fun _ hjob ↦
    absurd (Command.asksToLink_compile o asm _ _ _) hjob).bind fun _ u hu _ ↦
      .pure hu.host.coherent rfl

theorem repeats_extractCode (hlink : o.asmOnly = false) (hout : o.output = some p) :
    Repeats o r e (extractCode tc o (o.workingDir.join p)) s fun _ _ ↦ True := by
  have called := repeats_tool (i := (Command.decode o (o.workingDir.join p)).inDir o.workingDir) R hs
    fun habs _ q hq ↦ by
      have contract := Command.ne_option_of_isAbsolute (Path.isAbsolute_join habs p)
      cases (Command.written?_decode o contract _).symm.trans hq
  refine called.bind fun report t ht _ ↦ ?_
  cases CodeLine.find? report with
  | none => exact .throw _ ht.host.coherent
  | some code =>
    have coherent := ht.host.coherent
    have written : Repeats o r e (alter (.writing (sidecar (o.workingDir.join p)))
        (·.write (sidecar (o.workingDir.join p)) (Bytes.ofString code))) t fun _ _ ↦ True := by
      refine repeats_alter coherent (fun h hh ↦ ?_) (fun h hh hend s' hs' ↦ ?_)
        fun x h hx alike hcoherent ↦ alike.write_error coherent hcoherent hx
      · exact Host.develops_write coherent hh (mem_writesFrom_of_own (by simp [BuildOptions.ownOutputs, hlink, hout]))
      · have w := (Host.develops_write coherent hh (P := fun _ ↦ True) trivial).becomes
        obtain ⟨h', hh', F, alter, -⟩ := hs'.host.write (w.trans hend.host.becomes) coherent
          hend.host.coherent hend.host.becomes hh
        exact ⟨h', hh', F, alter⟩
    exact written.bind fun _ u hu _ ↦ .pure hu.host.coherent trivial

theorem repeats_linkAll (hlink : o.asmOnly = false) (asm : Path) :
    Repeats o r e (linkAll tc o asm) s fun _ _ ↦ True := by
  refine (repeats_finalLink R hs asm).bind fun target t ht htarget ↦ ?_
  subst htarget
  cases hout : o.output with
  | none => exact .pure ht.host.coherent trivial
  | some p =>
    exact (repeats_extractCode R (hs.trans ht) hlink hout).bind fun _ _ hu _ ↦
      .pure hu.host.coherent trivial

omit R in
/-- The copy of the assembly is the last thing that a build does.  An assembly that is not of the user's
own would have permissions that may keep it from being copied once more. -/
theorem concludes_emitAssembly (hasm : o.asmOnly = true) (held : s.Holds asm)
    (own : ∀ f, ¬ s₀.host.Withholds asm f) : Concludes o r e (emitAssembly tc o asm) s := by
  have coherent := hs.host.coherent
  obtain ⟨⟨a, ha, rfl⟩, l, hl⟩ := held
  obtain ⟨n, hentry, lead, -, hopen⟩ := Host.exists_of_appendTarget coherent.toSound hl
  have mine : s.host.isOwn l = true := by
    by_contra foreign
    have hplace := Host.locateNew_of_entry coherent.toSound hentry lead
    obtain ⟨f, hf⟩ := (Host.withholds_iff coherent.toSound hplace hopen).mpr
      (Bool.eq_false_iff.mpr foreign)
    obtain ⟨g, hg⟩ := hs.host.becomes.withholds hs.coherent.toSound hf
    exact own g hg
  refine .host ?_ fun hend s' hs' ↦ ?_
  · split
    · exact (Repeats.pure coherent (P := fun _ _ ↦ True) trivial).concludes
    · refine .map <| .bind (repeats_echo coherent _) fun _ t ht heq ↦ ?_
      subst heq
      refine concludes_attempt coherent (Host.develops_copy coherent hl mine ?_)
        fun x h hh hend onward s' hs' ↦ ?_
      · exact mem_writesFrom_of_own (by simp [BuildOptions.ownOutputs, hasm])
      subst hend
      exact hs'.host.copy onward.host.becomes coherent onward.host.coherent hh (hs'.artifacts a ha)
  · rw [hs'.host.sameEntry_eq hend.host.becomes coherent.toSound hentry lead]

end

/-! ## Whole builds -/

/-- Inputs of a kind are on the command line. -/
theorem path_mem_of_mem_assembly {inputs : ClassifiedInputs} (hinputs : classify paths = .ok inputs)
    {f : InputFile} (hf : f ∈ inputs.assembly) : f.path ∈ paths := by
  have mem : f.path ∈ (inputs.ofKind .assembly).map (·.path) := List.mem_map_of_mem hf
  rw [map_path_ofKind hinputs] at mem
  exact (List.mem_filter.mp mem).1

theorem concludes_stages (R : Repeatable tc o r paths s₀ e) (hs : s₀.host.tree.Coherent)
    (own : o.asmOnly = true → ∀ f, ¬ s₀.host.Withholds (Plan.file o.workingDir .codegen 0) f) :
    Concludes o r e (stages tc o paths) s₀ := by
  refine .bind (repeats_classified hs paths) ?_
  rintro inputs s h₁ ⟨rfl, hinputs⟩
  refine .bind (repeats_checkInputs h₁.host.coherent inputs) ?_
  rintro _ s h₂ rfl
  have hs := h₁.trans h₂
  have assembled : Repeats o r e (assembleAll tc o inputs) s fun asm t ↦
      asm = Plan.file o.workingDir .codegen 0 ∧ t.Holds asm := by
    have split : assembleAll tc o inputs = (do
        let asm ← lowered tc o inputs
        mergeAssembly tc o asm inputs
        return asm) := by
      simp only [assembleAll, lowered, bind_assoc]
    rw [split]
    refine (repeats_lowered R hs inputs).bind ?_
    rintro asm t ht ⟨named, held⟩
    rw [R.asked, List.count_nil] at named
    refine (repeats_mergeAssembly R (hs.trans ht) held fun f ↦
      path_mem_of_mem_assembly hinputs).bind fun _ u hu _ ↦ ?_
    exact .pure hu.host.coherent ⟨named, held.onward hu⟩
  refine .bind assembled ?_
  rintro asm t ht ⟨named, held⟩
  cases hasm : o.asmOnly with
  | true => exact (concludes_emitAssembly (hs.trans ht) hasm held (named ▸ own hasm)).map
  | false => exact (repeats_linkAll R (hs.trans ht) hasm asm).concludes

end Build

/-! ## A sample -/

/-- Tools that join the files among their arguments to their output, and a linker that reports a
code. -/
def Recipe.joining : Recipe where
  reads i := (i.args.filter fun a ↦ a.head? ≠ some 0x2D ∧ i.told? ≠ some ⟨a⟩).map fun a ↦
    (i.dir.getD .here).join ⟨a⟩
  products := []
  answer _ _ := .ok "code: AB\n"
  puts i contents := i.written?.toList.map fun p ↦ (p, contents.flatMap (·.getD []))

theorem Recipe.obeys_joining : Recipe.joining.toolchain.Obeys .joining where
  outcome _ _ _ := rfl
  tree _ _ _ := rfl
  own i contents x hx := by
    obtain ⟨p, hp, rfl⟩ := List.mem_map.mp hx
    rw [Recipe.outputs, Option.mem_toList.mp hp]
    exact List.mem_singleton_self p

theorem Recipe.settles_joining {i : Invocation} {p : Path} (hp : i.written? = some p) :
    Recipe.joining.Settles i p :=
  fun contents _ _ ↦ ⟨contents.flatMap (·.getD []), by simp [joining, hp]⟩

namespace Build

theorem coherent_handwritten : handwritten.tree.Coherent :=
  sound_handwritten.coherent (by decide)

/-- Whether each file that a call reads is the output of an earlier call, or is not written any
more. -/
def readsApart (o : BuildOptions) (r : Recipe) (h : Host) (s : Session Unit) : Bool :=
  (List.range s.events.length).all fun n ↦ match s.events[n]? with
    | some (.run i) => (r.reads i).all fun p ↦
      ((s.events.take n).any fun
        | .run j => decide (j.written? = some p)
        | .echo _ => false) || decide (s.LeavesAlone o r h n p)
    | _ => true

theorem unaliased_of_readsApart {o : BuildOptions} {h : Host} {s : Session Unit} {paths : List Path}
    (inputs : ∀ p ∈ paths, s.LeavesAlone o .joining h 0 (o.absolute p))
    (reads : readsApart o .joining h s = true) : s.Unaliased o .joining paths h := by
  refine ⟨inputs, fun n i hi p hp ↦ ?_⟩
  have here := List.all_eq_true.mp reads n (List.mem_range.mpr (List.getElem?_eq_some_iff.mp hi).1)
  rw [hi] at here
  rcases Bool.or_eq_true_iff.mp (List.all_eq_true.mp here p hp) with provided | alone
  · obtain ⟨x, hx, told⟩ := List.any_eq_true.mp provided
    cases x with
    | echo line => cases told
    | run j => exact .inl (.settled hx (Recipe.settles_joining (of_decide_eq_true told)))
  · exact .inr (of_decide_eq_true alone)

end Build

end ContractBuild
