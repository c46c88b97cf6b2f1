import ContractBuild.Proofs.Build.Backends
import ContractBuild.Proofs.Build.Rebuild

/-!
# Builds that keep their files and builds that do not

A build that keeps its intermediate files does so in the working directory, and links there.  One that
does not has temporary directories, for its files and for the link, and copies what the linker has left.
Tools that mind only what they are told, and what is in the files that this names, see no difference, as
long as the linker is told no relative paths: then both builds make the same assembly, fail with the
same tool, and leave the same contract and the same code.
-/

namespace ContractBuild

open Build

variable {σ : Type} {tc : Toolchain σ} {o : BuildOptions} {h h₀ : Host} {K : Location → Prop}
  {a a' : Site h₀ K} {s s' t t' : Session σ} {names : Bytes → List Bytes} {paths : List Path}
  {asm asm' dir p : Path} {n : Name} {e : BuildError}

/-! ## Whether the files are kept -/

/-- The options with the files kept or not. -/
def BuildOptions.keeping (o : BuildOptions) (b : Bool) : BuildOptions := { o with saveTemps := b }

namespace Build

/-- Modules are made in the same way. -/
theorem modulesOf_keeping (b : Bool) (kind : ArtifactKind)
    {command : BuildOptions → Path → Path → Invocation}
    (same : ∀ input out, command (o.keeping b) input out = command o input out)
    (files : List InputFile) :
    modulesOf tc (o.keeping b) kind command files = modulesOf tc o kind command files := by
  have commands (f : InputFile) : command (o.keeping b) f.path = command o f.path :=
    funext (same f.path)
  induction files with
  | nil => rfl
  | cons f fs ih =>
    rw [modulesOf, modulesOf, ih]
    unfold moduleOf
    rw [commands]
    rfl

theorem appendInputs_keeping (b : Bool) (asm : Path) (l : Location) (files : List InputFile) :
    (appendInputs (o.keeping b) asm l files : Build σ Unit) = appendInputs o asm l files := by
  induction files with
  | nil => rfl
  | cons f fs ih =>
    rw [appendInputs, appendInputs, ih]
    rfl

theorem mergeAssembly_keeping (b : Bool) (asm : Path) (inputs : ClassifiedInputs) :
    mergeAssembly tc (o.keeping b) asm inputs = mergeAssembly tc o asm inputs := by
  unfold mergeAssembly
  split
  · rfl
  · simp only [appendInputs_keeping]

theorem assembleAll_keeping (b : Bool) (inputs : ClassifiedInputs) :
    assembleAll tc (o.keeping b) inputs = assembleAll tc o inputs := by
  have compiled : compileSources tc (o.keeping b) inputs = compileSources tc o inputs := by
    unfold compileSources
    rw [modulesOf_keeping b _ fun _ _ ↦ rfl, modulesOf_keeping b _ fun _ _ ↦ rfl]
  have fromIr : assembleIr tc (o.keeping b) inputs = assembleIr tc o inputs :=
    modulesOf_keeping b _ (fun _ _ ↦ rfl) _
  unfold assembleAll
  simp only [compiled, fromIr, mergeAssembly_keeping]
  rfl

theorem assembled_keeping (b : Bool) (paths : List Path) :
    assembled tc (o.keeping b) paths = assembled tc o paths := by
  unfold assembled
  simp only [assembleAll_keeping]
  rfl

/-- A build does not ask whether the files are kept once it has been opened. -/
theorem run_keeping (b : Bool) (paths : List Path) :
    run tc (o.keeping b) paths = run tc o paths := by
  unfold run
  rw [stages_eq_assembled, stages_eq_assembled, assembled_keeping]
  rfl

end Build

/-! ## What the linker is told -/

/-- The words that a build is told for the linker. -/
def BuildOptions.linkerWords (o : BuildOptions) : List Bytes :=
  o.tools.stdlibArtifact.raw :: Command.texts o.linkerFlags

namespace Word.Alike

variable {dir dir' : Path} {i i' : Invocation} {h h' : Host} {w : Bytes}

/-- A word that names nothing. -/
theorem of_nothing (none : names w = []) : Word.Alike names dir dir' i i' h h' w w :=
  ⟨.same w, by rw [Invocation.FindAlike, none]; exact .nil⟩

theorem finds_of_isAbsolute {q : Bytes} (habs : (Path.mk q).isAbsolute) :
    i.finds h q = h.content? ⟨q⟩ := by
  rw [Invocation.finds, Path.join_of_isAbsolute habs]

/-- A word that names absolute paths, wherever the calls are made. -/
theorem of_isAbsolute (habs : ∀ q ∈ names w, (Path.mk q).isAbsolute)
    (same : ∀ q ∈ names w, h'.content? ⟨q⟩ = h.content? ⟨q⟩) :
    Word.Alike names dir dir' i i' h h' w w :=
  ⟨.same w, List.forall₂_same.mpr fun q hq ↦ by
    rw [finds_of_isAbsolute (habs q hq), finds_of_isAbsolute (habs q hq), same q hq]⟩

/-- The path of the same file. -/
theorem of_file {kind : ArtifactKind} {n : Nat} (habs : (Plan.file dir kind n).isAbsolute)
    (habs' : (Plan.file dir' kind n).isAbsolute)
    (absolute : ∀ p : Path, p.isAbsolute → names p.raw = [p.raw])
    (same : h'.content? (Plan.file dir' kind n) = h.content? (Plan.file dir kind n)) :
    Word.Alike names dir dir' i i' h h' (Plan.file dir kind n).raw (Plan.file dir' kind n).raw := by
  refine ⟨.file kind n, ?_⟩
  rw [Invocation.FindAlike, absolute _ habs, absolute _ habs']
  exact .cons ((finds_of_isAbsolute habs').trans (same.trans (finds_of_isAbsolute habs).symm)) .nil

end Word.Alike

/-- What a path leads to is led to in a host with a new directory, too. -/
theorem Host.Opened.content?_eq {h h' : Host} {stem : String} {d : Location} {c : Bytes}
    (opened : h.Opened stem dir d h') (hp : h.content? p = some c) : h'.content? p = some c := by
  have ht := opened.free.sound
  have keeps : h.KeepsAt (fun k ↦ (h.tree.node? k).isSome) h' :=
    Host.keepsAt_of_stored opened.own.sound opened.own.ways opened.cwd_eq fun k hk ↦ by
      obtain ⟨n, hn⟩ := Option.isSome_iff_exists.mp hk
      exact opened.stored_eq (opened.free.not_prefix hn)
  obtain ⟨place, hplace, hc⟩ := (Host.content?_eq_some ht).mp hp
  rw [keeps.content?_eq ht (.place hplace ?_), hp]
  rw [Tree.content?] at hc
  obtain ⟨n, hn, -⟩ := Option.bind_eq_some_iff.mp hc
  rw [hn]
  rfl

namespace Build

/-- Whether a build is told only what does not depend on where it keeps its files, up to the assembly:
what its words name is there before. -/
structure Neutral (names : Bytes → List Bytes) (o : BuildOptions) (paths : List Path) (h : Host)
    (w : Location) : Prop extends Told names o paths h (h.Outer w) where
  /-- The working directory is absolute. -/
  isAbsolute : o.workingDir.isAbsolute
  /-- The tree is coherent. -/
  coherent : h.tree.Coherent
  /-- There are no intermediate files. -/
  blank : h.Blank o.workingDir w

/-- Whether its link does not depend on that either: the linker is told absolute paths, and an output
that is asked for is called by a name and lies apart from the temporary directories. -/
structure LinksAlike (names : Bytes → List Bytes) (o : BuildOptions) (h : Host) (w : Location) :
    Prop where
  /-- What the words for the linker name is absolute, and not what builds write. -/
  linker : o.asmOnly = false → ∀ word ∈ o.linkerWords, ∀ q ∈ names word,
    (Path.mk q).isAbsolute ∧ h.AimsAt (h.Outer w) ⟨q⟩
  /-- The output and the file with the code are apart from the temporary directories. -/
  lands : o.asmOnly = false → ∀ p, o.output = some p →
    p.fileName?.isSome ∧ h.Lands (o.absolute p) ∧ h.Lands (sidecar (o.absolute p))

variable {h' g : Host} {i i' : Invocation} {out out' : Option Path}

/-- The words of two calls of the linker for the same file, but for its output. -/
theorem correspond_compile (absolute : ∀ p : Path, p.isAbsolute → names p.raw = [p.raw])
    (own : ∀ w ∈ Command.ownWords, names (.ofString w) = []) (hdir : o.workingDir.isAbsolute)
    (hlinker : ∀ word ∈ o.linkerWords, ∀ q ∈ names word,
      (Path.mk q).isAbsolute ∧ g.content? ⟨q⟩ = h.content? ⟨q⟩)
    (habi : g.content? (o.absolute o.abi) = h.content? (o.absolute o.abi)) {n : Nat} {dir dir' : Path}
    (habs : dir.isAbsolute) (habs' : dir'.isAbsolute)
    (hasm : g.content? (Plan.file dir' .codegen n) = h.content? (Plan.file dir .codegen n))
    (hout : out'.isSome = out.isSome) :
    Word.Correspond (Word.Alike names dir dir' i i' h g)
      (Command.compile o (Plan.file dir .codegen n) (o.absolute o.abi) out).args
      (Command.compile o (Plan.file dir' .codegen n) (o.absolute o.abi) out').args := by
  have ownWord {v : String} (hv : v ∈ Command.ownWords) :
      Word.Alike names dir dir' i i' h g (.ofString v) (.ofString v) := .of_nothing (own v hv)
  have given (w : Bytes) (hw : w ∈ o.linkerWords) : Word.Alike names dir dir' i i' h g w w :=
    .of_isAbsolute (fun q hq ↦ (hlinker w hw q hq).1) fun q hq ↦ (hlinker w hw q hq).2
  have abiAbsolute : (o.absolute o.abi).isAbsolute := Path.isAbsolute_join hdir _
  have abi : Word.Alike names dir dir' i i' h g (o.absolute o.abi).raw (o.absolute o.abi).raw := by
    refine .of_isAbsolute (fun q hq ↦ ?_) fun q hq ↦ ?_
    all_goals
      rw [absolute _ abiAbsolute, List.mem_singleton] at hq
      subst hq
    · exact abiAbsolute
    · exact habi
  have file : Word.Alike names dir dir' i i' h g (Plan.file dir .codegen n).raw
      (Plan.file dir' .codegen n).raw :=
    .of_file (Path.isAbsolute_join habs _) (Path.isAbsolute_join habs' _) absolute hasm
  refine .append (List.rel_append (List.rel_append (List.rel_append (List.rel_append (List.rel_append
    (List.rel_append ?_ (.cons file .nil)) ?_) (.cons (given _ List.mem_cons_self) .nil)) ?_)
    (.cons abi .nil)) ?_) ?_
  · exact .cons (ownWord (by simp [Command.ownWords])) .nil
  · exact .cons (ownWord (by simp [Command.ownWords])) .nil
  · exact .cons (ownWord (by simp [Command.ownWords])) .nil
  · exact List.forall₂_same.mpr fun w hw ↦ given w (List.mem_cons_of_mem _ hw)
  · cases out with
    | none =>
      obtain rfl : out' = none := by simpa using hout
      exact .nil
    | some p =>
      obtain ⟨p', rfl⟩ := Option.isSome_iff_exists.mp hout
      exact .output (ownWord (by simp [Command.ownWords]))

/-! ## The link -/

/-- The call that links a contract in a directory, with some output. -/
def contractCall (o : BuildOptions) (asm dir : Path) (out : Option Path) : Invocation :=
  (Command.compile o asm (o.absolute o.abi) out).inDir dir

/-- A build that keeps its files calls the linker, and does nothing else. -/
theorem runIn_finalLink_kept (tc : Toolchain σ) (o : BuildOptions) (asm : Path) {dir : Path}
    (hb : s.store.backend = .persistent dir) :
    let i := contractCall o asm dir o.output
    (finalLink tc o asm).runIn s =
      match (tc.run i s.tools s.host).outcome with
      | .error e => (.error e, s.called tc i)
      | .ok _ => (.ok (OutputTarget.resolve o.output o.workingDir), s.called tc i) := by
  intro i
  have opened : (openLinkDir : Build σ _).runIn s = (.ok (.working dir), s) := by
    rw [openLinkDir, runIn_ofResult, ArtifactStore.openLinkDir, hb]
  have output : linkedOutput o (.working dir) = o.output := by
    unfold linkedOutput
    cases o.output <;> rfl
  have called : (tool tc i).runIn s = ((tc.run i s.tools s.host).outcome, s.called tc i) := rfl
  have linked : (linkIn tc o (.working dir) asm).runIn s =
      ((tool tc i) >>= fun _ ↦ pure (OutputTarget.resolve o.output o.workingDir)).runIn s := by
    unfold linkIn
    rw [output]
    rfl
  rw [finalLink, runIn_bind_of_ok opened, andFinally, runIn_ofResult, linked, runIn_bind, called]
  cases (tc.run i s.tools s.host).outcome <;> rfl

/-- A call of the linker in a directory of its own, and copies of what that has left. -/
def linking (tc : Toolchain σ) (o : BuildOptions) (i : Invocation) (dir : Path) :
    Build σ OutputTarget := do
  let target := OutputTarget.resolve o.output o.workingDir
  let _ ← tool tc i
  copyOut tc dir target ((linkedOutput o (.scoped dir)).map (·.raw))
  return target

/-- A build that does not keep its files calls the linker in a new directory, copies what that has left
and removes the directory. -/
theorem runIn_finalLink_scoped (tc : Toolchain σ) (o : BuildOptions) (asm : Path)
    {d : Option Path} {g : Host} (hb : s.store.backend = .ephemeral d)
    (hmade : s.host.makeTemporary "tvm-link-" = .ok (dir, g)) :
    let i := contractCall o asm dir (linkedOutput o (.scoped dir))
    let noted := (s.withHost g).echoed tc s!"cd {dir.display}"
    let linked := (linking tc o i dir).runIn noted
    (finalLink tc o asm).runIn s =
      (linked.1, linked.2.withHost (linked.2.host.removeDirectory dir)) := by
  intro i noted linked
  have opened : (openLinkDir : Build σ _).runIn s = (.ok (.scoped dir), s.withHost g) := by
    rw [openLinkDir, runIn_ofResult, ArtifactStore.openLinkDir, hb]
    dsimp only
    rw [hmade]
    rfl
  have link : (linkIn tc o (.scoped dir) asm).runIn (s.withHost g) = linked := rfl
  rw [finalLink, runIn_bind_of_ok opened, andFinally, runIn_ofResult, link]
  rfl

/-- If it cannot make the directory, it does nothing. -/
theorem runIn_finalLink_unopened {d : Option Path} {cause : IoError}
    (hb : s.store.backend = .ephemeral d)
    (hmade : s.host.makeTemporary "tvm-link-" = .error cause) :
    (finalLink tc o asm).runIn s = (.error (.io .creatingLinkDirectory cause), s) := by
  refine runIn_bind_of_error ?_
  rw [openLinkDir, runIn_ofResult, ArtifactStore.openLinkDir, hb]
  dsimp only
  rw [hmade]

/-- What is told last is written. -/
theorem written?_contractCall (o : BuildOptions) (asm dir p : Path) :
    (contractCall o asm dir (some p)).written? = some (dir.join p) :=
  Toolchain.written?_of_suffix rfl (List.suffix_append _ _)

/-- Copies fail when files cannot be read or written. -/
theorem ends_copyOut_io (dir : Path) (target : OutputTarget) (linked : Option Name) (s : Session σ) :
    Ends (copyOut tc dir target linked) s (fun _ _ ↦ True)
      (fun e _ ↦ ∃ activity cause, e = .io activity cause) := by
  refine ends_bind.mpr (ends_host.mpr (ends_bind.mpr (ends_value.mpr ⟨fun ns _ ↦ ?_, ?_⟩)))
  · refine (ends_copyEach_inTurn _).mono (fun _ _ _ ↦ trivial) ?_
    rintro _ _ ⟨_, _, _, _, cause, _, -, -, -, rfl, -⟩
    exact ⟨_, cause, rfl⟩
  · exact fun cause _ ↦ ⟨_, cause, rfl⟩

end Build

namespace Session

@[simp] theorem programs_withHost (s : Session σ) (h : Host) : (s.withHost h).programs = s.programs :=
  rfl

/-- Notes and copies keep the store and the programs. -/
theorem steady_programs (tc : Toolchain σ) (s : Session σ) :
    Session.Steady tc fun t ↦ t.store = s.store ∧ t.programs = s.programs where
  echoed t line := fun ⟨hstore, hprograms⟩ ↦ ⟨hstore, (programs_echoed tc t line).trans hprograms⟩
  put _ _ ht _ := ht

theorem Abreast.congr {dir dir' : Path} {u u' : Session σ} (hs : Abreast dir dir' s s')
    (left : u.store = s.store ∧ u.programs = s.programs)
    (right : u'.store = s'.store ∧ u'.programs = s'.programs) : Abreast dir dir' u u' where
  created := by
    rw [left.1, right.1]
    exact hs.created
  programs_eq := by rw [left.2, right.2, hs.programs_eq]

end Session

namespace Build

/-- The linker is called, and what it has left is copied. -/
theorem ends_linking (tc : Toolchain σ) (o : BuildOptions) (i : Invocation) (dir : Path)
    (s : Session σ) :
    let target := OutputTarget.resolve o.output o.workingDir
    let linked := (linkedOutput o (.scoped dir)).map (·.raw)
    Ends (linking tc o i dir) s
      (fun x t ↦ x = target ∧ (∃ text, (tc.run i s.tools s.host).outcome = .ok text) ∧
        (copyOut tc dir target linked).runIn (s.called tc i) = (.ok (), t) ∧
        t.store = (s.called tc i).store ∧ t.programs = (s.called tc i).programs)
      (fun e t ↦ ((tc.run i s.tools s.host).outcome = .error e ∧ t = s.called tc i) ∨
        ∃ activity cause, e = .io activity cause) := by
  intro target linked
  refine ends_bind.mpr (ends_tool.mpr ⟨fun text htext ↦ ends_bind.mpr ?_, fun e he ↦ .inl ⟨he, rfl⟩⟩)
  have steady := (Session.steady_programs tc (s.called tc i)).copyOut dir target linked _ ⟨rfl, rfl⟩
  refine (((ends_runIn _ _).and steady).and (ends_copyOut_io dir target linked _)).mono ?_
    fun _ _ h ↦ .inr h.2
  rintro ⟨⟩ t ⟨⟨run, kept⟩, -⟩
  exact ends_pure.mpr ⟨rfl, ⟨text, htext⟩, run, kept⟩

end Build

namespace Session

theorem Abreast.cleanup {dir dir' : Path} (hs : Abreast dir dir' s s') :
    Abreast dir dir' s.cleanup s'.cleanup where
  created := by
    rw [created_cleanup, created_cleanup]
    exact hs.created
  programs_eq := hs.programs_eq

theorem lacks_cleanup (s : Session σ) : s.cleanup.store.Lacks ↔ s.store.Lacks := by
  obtain ⟨h, ⟨backend, created, asked⟩, tools, events⟩ := s
  cases backend <;> exact Iff.rfl

/-- Two builds that have come to the same assembly, of which one keeps its files in the working
directory and the other in a temporary one, have changed nothing else that builds spare. -/
structure Facing (o : BuildOptions) (h₀ : Host) (w : Location) (dir' : Path) (n : Nat)
    (s s' : Session σ) : Prop extends Parallel o.workingDir dir' s s' where
  /-- The first keeps its files. -/
  backend_eq : s.store.backend = .persistent o.workingDir
  /-- The second does not. -/
  backend_eq' : s'.store.backend = .ephemeral (some dir')
  /-- Its directory is absolute. -/
  isAbsolute' : dir'.isAbsolute
  /-- Both hold the same apart from intermediate files. -/
  agree : Host.Agree (h₀.Outer w) h₀ s.host s'.host
  /-- The first has written files. -/
  becomes : h₀.Becomes s.host
  /-- It has changed only intermediate files. -/
  keeps : h₀.KeepsAt (h₀.Outer w) s.host
  /-- The second has changed nothing that builds spare. -/
  keeps' : h₀.KeepsAt h₀.Spare s'.host
  /-- The assembly is the same. -/
  asm : ∃ c, s.host.content? (Plan.file o.workingDir .codegen n) = some c ∧
    s'.host.content? (Plan.file dir' .codegen n) = some c

/-- Two builds that have made the same contract of it agree on it. -/
structure Linked (o : BuildOptions) (h₀ : Host) (K : Location → Prop) (s₀ : Session σ)
    (s s' : Session σ) : Prop where
  /-- Both hold the same. -/
  agree : Host.Agree K h₀ s.host s'.host
  /-- All of that is spared. -/
  spare : ∀ k, K k → h₀.Spare k
  /-- The first keeps its files. -/
  kept : s.Keeping
  /-- The store of the second is the same. -/
  store_eq : s'.store = s₀.store
  /-- Its directories are there. -/
  ways : s₀.host.tree.KeepsWays s'.host.tree

end Session

namespace Build

variable {w d : Location} {dir' : Path} {k : Nat} {g : Host}

section

variable (neutral : Neutral names o paths h₀ w) (links : LinksAlike names o h₀ w)
  (link : o.asmOnly = false) (ind : tc.Indifferent names o.workingDir dir') (facing : Session.Facing o h₀ w dir' k s s')
  (habi : ∃ l a, h₀.entry (o.absolute o.abi) = .ok (l, a))

include neutral links link ind facing habi

/-- The linker answers the same in both builds, and writes the same. -/
theorem contractCall_alike (opened : s'.host.Opened "tvm-link-" dir d g) (st : σ) :
    let i := contractCall o (Plan.file o.workingDir .codegen k) o.workingDir o.output
    let i' := contractCall o (Plan.file dir' .codegen k) dir (linkedOutput o (.scoped dir))
    (tc.run i' st g).outcome = (tc.run i s.tools s.host).outcome ∧
      ∀ text, (tc.run i s.tools s.host).outcome = .ok text →
        ∃ c, (tc.run i s.tools s.host).tree = (s.host.written i c).tree ∧
          (tc.run i' st g).tree = (g.written i' c).tree := by
  have ht := neutral.coherent.toSound
  have outer (l : Location) : h₀.Outer w l → h₀.Spare l := Host.Outer.toSpare
  have keeps' : h₀.KeepsAt (h₀.Outer w) g := (facing.keeps'.mono outer).trans
    (opened.keepsAt Host.mem_temporaryStems_link outer (facing.keeps'.mono outer))
  have same {q : Path} (hq : h₀.AimsAt (h₀.Outer w) q) : g.content? q = s.host.content? q :=
    (keeps'.content?_eq ht hq).trans (facing.keeps.content?_eq ht hq).symm
  obtain ⟨l, a, hl⟩ := habi
  obtain ⟨c, hc, hc'⟩ := facing.asm
  refine ind _ _ _ _ _ _ rfl (correspond_compile neutral.absolute neutral.own neutral.isAbsolute
    (fun word hw q hq ↦ ?_) (same (.entry hl (.of_entry neutral.blank hl))) neutral.isAbsolute
    facing.isAbsolute' ((opened.content?_eq hc').trans hc.symm) ?_)
  · obtain ⟨habs, aims⟩ := links.linker link word hw q hq
    exact ⟨habs, same aims⟩
  · unfold linkedOutput
    cases hout : o.output with
    | none => rfl
    | some p => simpa using (links.lands link p hout).1

omit links link ind habi in
/-- What the linker has written in a directory of its own, and has then been copied, is what it has
written under the output in the working directory. -/
theorem linked_of_copyOut {noted : Session σ} {asm' : Path} {c : Bytes}
    (opened : s'.host.Opened "tvm-link-" dir d g) (hp : o.output = some p) (hn : p.fileName? = some n)
    (fits : dir.Fits n) (lands : h₀.Lands (o.absolute p)) (hhost : noted.host = g)
    (hstore : noted.store = s'.store) :
    let i := contractCall o asm o.workingDir o.output
    let i' := contractCall o asm' dir (linkedOutput o (.scoped dir))
    let target := OutputTarget.resolve o.output o.workingDir
    (tc.run i s.tools s.host).tree = (s.host.written i c).tree →
    (tc.run i' noted.tools noted.host).tree = (g.written i' c).tree →
    (copyOut tc dir target ((linkedOutput o (.scoped dir)).map (·.raw))).runIn (noted.called tc i') =
      (.ok (), t') →
    ∃ place, h₀.locateNew (o.absolute p) = .ok place ∧ h₀.Spare place.location ∧
      Session.Linked o h₀ (fun l ↦ h₀.Outer w l ∨ l = place.location) s' (s.called tc i)
        (t'.withHost (t'.host.removeDirectory dir)) := by
  subst hhost
  intro i i' target htree htree' hcopies
  have hname : (Path.ofName n).IsName := Path.isName_of_fileName? hn
  have coherent := facing.agree.coherent'
  have told : linkedOutput o (.scoped dir) = some (.ofName n) := by simp [linkedOutput, hp, hn]
  have written : i.written? = some (o.absolute p) := by
    simp only [i, hp]
    exact written?_contractCall o _ _ _
  have written' : i'.written? = some (dir.join (.ofName n)) := by
    simp only [i', told]
    exact written?_contractCall o _ _ _
  obtain ⟨g₁, hwrite⟩ := opened.takes coherent hname fits c
  have filled := opened.filled coherent hname fits hwrite
  have ran : (noted.called tc i').host = g₁ := host_called_of_written tc written' htree' hwrite
  have goal : target.destination n ((linkedOutput o (.scoped dir)).map (·.raw)) = o.absolute p := by
    simp [target, told, hp, OutputTarget.resolve, OutputTarget.destination, Path.ofName,
      BuildOptions.absolute]
  rw [runIn_copyOut (d := d) (ran ▸ filled.offers), ran, filled.filesIn_eq, copyEach, goal,
    runIn_bind, runIn_copy, ran] at hcopies
  rcases hcopy : g₁.copy (dir.join (.ofName n)) (o.absolute p) with ⟨cause | _, g₂⟩
  · rw [hcopy] at hcopies
    cases hcopies
  · rw [hcopy] at hcopies
    obtain rfl : _ = t' := congrArg Prod.snd hcopies
    obtain ⟨place, t, hplace, spare, hkept, agree, ways⟩ := filled.agree Host.mem_temporaryStems_link
      neutral.coherent.toSound facing.keeps' facing.agree (fun _ ↦ Host.Outer.toSpare) facing.becomes
      lands hcopy
    have left : (s.called tc i).host = t := host_called_of_written tc written htree hkept
    refine ⟨place, hplace, spare, left ▸ agree, ?_,
      ⟨left ▸ agree.coherent.toSound, _, facing.backend_eq⟩, hstore, ways⟩
    rintro l (hl | rfl)
    · exact hl.toSpare
    · exact spare

/-- The link fails in both builds with the same answer of the linker, or both go on with the same
contract, unless the one that links in a directory of its own cannot make that or cannot copy. -/
theorem cases_finalLink (fits : ∀ p m dir g, o.output = some p → p.fileName? = some m →
      s'.host.makeTemporary "tvm-link-" = .ok (dir, g) → dir.Fits m) :
    let r := (finalLink tc o (Plan.file o.workingDir .codegen k)).runIn s
    let r' := (finalLink tc o (Plan.file dir' .codegen k)).runIn s'
    (∃ activity cause, r'.1 = .error (.io activity cause)) ∨
      Session.Abreast o.workingDir dir' r.2 r'.2 ∧
        ((∃ e, r.1 = .error e ∧ r'.1 = .error e) ∨
          r.1 = .ok (.resolve o.output o.workingDir) ∧
            r'.1 = .ok (.resolve o.output o.workingDir) ∧
            ∀ p, o.output = some p → ∃ place, h₀.locateNew (o.absolute p) = .ok place ∧
              h₀.Spare place.location ∧
              Session.Linked o h₀ (fun l ↦ h₀.Outer w l ∨ l = place.location) s' r.2 r'.2) := by
  cases hmade : s'.host.makeTemporary "tvm-link-" with
  | error cause =>
    exact .inl ⟨_, cause, by rw [runIn_finalLink_unopened facing.backend_eq' hmade]⟩
  | ok made =>
    obtain ⟨dir, g⟩ := made
    obtain ⟨d, opened⟩ := Host.exists_opened facing.keeps'.sound Host.mem_temporaryStems_link hmade
    have run := runIn_finalLink_kept tc o (Plan.file o.workingDir .codegen k) facing.backend_eq
    have run' := runIn_finalLink_scoped tc o (Plan.file dir' .codegen k) facing.backend_eq' hmade
    have alike := contractCall_alike neutral links link ind facing habi opened
    dsimp only at run run' alike
    generalize hi : contractCall o (Plan.file o.workingDir .codegen k) o.workingDir o.output = i
      at run alike
    generalize hi' : contractCall o (Plan.file dir' .codegen k) dir (linkedOutput o (.scoped dir)) = i'
      at run' alike
    generalize hnoted : (s'.withHost g).echoed tc s!"cd {dir.display}" = noted at run'
    have program : i'.program = i.program := by
      subst hi hi'
      rfl
    have called : Session.Abreast o.workingDir dir' (s.called tc i) (noted.called tc i') :=
      (facing.abreast.called program).congr ⟨rfl, rfl⟩
        ⟨by rw [← hnoted]; rfl, by rw [← hnoted]; simp⟩
    have hhost : noted.host = g := by rw [← hnoted]; rfl
    have hstore : noted.store = s'.store := by rw [← hnoted]; rfl
    have ending := ends_linking tc o i' dir noted
    rw [run, run']
    obtain ⟨same, success⟩ := alike noted.tools
    rcases hlink : (linking tc o i' dir).runIn noted with ⟨⟨e⟩ | ⟨x⟩, t'⟩
    · rcases ending.of_error hlink with ⟨he, rfl⟩ | io
      · rw [hhost, same] at he
        rw [he]
        exact .inr ⟨called.congr ⟨rfl, rfl⟩ ⟨rfl, rfl⟩, .inl ⟨e, rfl, rfl⟩⟩
      · obtain ⟨activity, cause, rfl⟩ := io
        exact .inl ⟨activity, cause, rfl⟩
    · obtain ⟨rfl, ⟨text, htext⟩, hcopies, kept⟩ := ending.of_ok hlink
      rw [hhost, same] at htext
      rw [htext]
      refine .inr ⟨called.congr ⟨rfl, rfl⟩ kept, .inr ⟨rfl, rfl, fun p hp ↦ ?_⟩⟩
      obtain ⟨named, lands, -⟩ := links.lands link p hp
      obtain ⟨n, hn⟩ := Option.isSome_iff_exists.mp named
      obtain ⟨c, htree, htree'⟩ := success text htext
      subst hi hi'
      exact linked_of_copyOut neutral facing opened hp hn (fits p n dir g hp hn hmade) lands hhost
        hstore htree (hhost ▸ htree') hcopies

end

/-! ## The code -/

/-- How two builds end that go on from the same assembly: unless the second cannot change files, or only
the first cannot, both fail alike or neither does. -/
inductive Ended {α β : Type} (dir dir' : Path) (Q : α → β → Session σ → Session σ → Prop) :
    Except BuildError α × Session σ → Except BuildError β × Session σ → Prop
  /-- The second cannot change files. -/
  | stuck' {r : Except BuildError α × Session σ} {activity : Activity} {cause : IoError}
      {t' : Session σ} : Ended dir dir' Q r (.error (.io activity cause), t')
  /-- Only the first cannot. -/
  | stuck {activity : Activity} {cause : IoError} {x' : β} {t t' : Session σ} :
      Ended dir dir' Q (.error (.io activity cause), t) (.ok x', t')
  /-- Both fail alike. -/
  | error {e : BuildError} {t t' : Session σ} (ht : Session.Abreast dir dir' t t') :
      Ended dir dir' Q (.error e, t) (.error e, t')
  /-- Neither fails. -/
  | ok {x : α} {x' : β} {t t' : Session σ} (hQ : Q x x' t t') : Ended dir dir' Q (.ok x, t) (.ok x', t')

theorem Ended.mono {α β : Type} {P Q : α → β → Session σ → Session σ → Prop}
    {r : Except BuildError α × Session σ} {r' : Except BuildError β × Session σ}
    (hr : Ended dir dir' P r r') (hQ : ∀ x x' t t', P x x' t t' → Q x x' t t') :
    Ended dir dir' Q r r' := by
  cases hr with
  | stuck' => exact .stuck'
  | stuck => exact .stuck
  | error ht => exact .error ht
  | ok hP => exact .ok (hQ _ _ _ _ hP)

/-- A value is made of what comes of steps. -/
theorem Ended.map {α β γ δ : Type} {b : Build σ α} {b' : Build σ β} {f : α → γ} {f' : β → δ}
    {P : α → β → Session σ → Session σ → Prop} {Q : γ → δ → Session σ → Session σ → Prop}
    (hb : Ended dir dir' P (b.runIn s) (b'.runIn s'))
    (hQ : ∀ x x' t t', P x x' t t' → Q (f x) (f' x') t t') :
    Ended dir dir' Q ((b >>= fun x ↦ pure (f x)).runIn s) ((b' >>= fun x ↦ pure (f' x)).runIn s') := by
  rw [runIn_bind, runIn_bind]
  generalize b.runIn s = r, b'.runIn s' = r' at hb
  cases hb with
  | stuck' => exact .stuck'
  | stuck => exact .stuck
  | error ht => exact .error ht
  | ok hP => exact .ok (hQ _ _ _ _ hP)

/-- Steps that fail only where files cannot be changed. -/
theorem ended_of_io {α β : Type} {b : Build σ α} {b' : Build σ β}
    (hb : Ends b s (fun _ _ ↦ True) fun e _ ↦ ∃ activity cause, e = .io activity cause)
    (hb' : Ends b' s' (fun _ _ ↦ True) fun e _ ↦ ∃ activity cause, e = .io activity cause) :
    Ended dir dir' (fun _ _ _ _ ↦ True) (b.runIn s) (b'.runIn s') := by
  unfold Ends at hb hb'
  generalize b.runIn s = r, b'.runIn s' = r' at hb hb'
  obtain ⟨⟨e'⟩ | ⟨x'⟩, t'⟩ := r'
  · obtain ⟨activity, cause, rfl⟩ := hb'
    exact .stuck'
  · obtain ⟨⟨e⟩ | ⟨x⟩, t⟩ := r
    · obtain ⟨activity, cause, rfl⟩ := hb
      exact .stuck
    · exact .ok trivial

variable {contract : Path} {place : Place} {s₀ : Session σ}

/-- The code of the same contract is the same in both builds. -/
theorem ended_extractCode (neutral : Neutral names o paths h₀ w)
    (ind : tc.Indifferent names o.workingDir dir') (linked : Session.Linked o h₀ K s₀ s s')
    (abreast : Session.Abreast o.workingDir dir' s s') (habs : contract.isAbsolute)
    (hplace : h₀.locateNew contract = .ok place) (spare : h₀.Spare place.location)
    (hK : K place.location) (lands : h₀.Lands (sidecar contract)) :
    Ended o.workingDir dir' (fun p p' t t' ↦ p = sidecar contract ∧ p' = sidecar contract ∧
        ∃ place', h₀.locateNew (sidecar contract) = .ok place' ∧ h₀.Spare place'.location ∧
          Session.Linked o h₀ (fun l ↦ K l ∨ l = place'.location) s₀ t t')
      ((extractCode tc o contract).runIn s) ((extractCode tc o contract).runIn s') := by
  have ht := neutral.coherent.toSound
  let i := Command.report o contract
  have own {v : String} (hv : v ∈ Command.ownWords) :
      Word.Alike names o.workingDir dir' i i s.host s'.host (.ofString v) (.ofString v) :=
    .of_nothing (neutral.own v hv)
  have told : Word.Alike names o.workingDir dir' i i s.host s'.host contract.raw contract.raw := by
    refine .of_isAbsolute (fun q hq ↦ ?_) fun q hq ↦ ?_
    all_goals
      rw [neutral.absolute _ habs, List.mem_singleton] at hq
      subst hq
    · exact habs
    · exact linked.agree.content?_eq ht linked.agree.retains linked.agree.retains' hplace spare hK
  have words : List.Forall₂ (Word.Alike names o.workingDir dir' i i s.host s'.host) i.args i.args :=
    .cons (own (by simp [Command.ownWords])) (.cons told (.cons (own (by simp [Command.ownWords])) .nil))
  obtain ⟨same, success⟩ :=
    ind i i s.tools s'.tools s.host s'.host rfl (Word.correspond_of_forall₂ words)
  have called : Session.Abreast o.workingDir dir' (s.called tc i) (s'.called tc i) := abreast.called rfl
  rw [runIn_extractCode, runIn_extractCode]
  dsimp only
  rw [show Command.report o contract = i from rfl, same]
  cases hout : (tc.run i s.tools s.host).outcome with
  | error e => exact .error called
  | ok report =>
    dsimp only
    cases CodeLine.find? report with
    | none => exact .error called
    | some code =>
      dsimp only
      obtain ⟨c, htree, htree'⟩ := success report hout
      have nothing : i.written? = none :=
        Command.written?_decode o (Command.ne_option_of_isAbsolute habs) _
      rw [Host.written, nothing, Option.elim_none] at htree htree'
      have left : (s.called tc i).host = s.host := by rw [Session.host_called, htree]; rfl
      have right : (s'.called tc i).host = s'.host := by rw [Session.host_called, htree']; rfl
      rw [left, right]
      cases hwrite' : s'.host.write (sidecar contract) (Bytes.ofString code) with
      | error cause => exact .stuck'
      | ok g' =>
        cases hwrite : s.host.write (sidecar contract) (Bytes.ofString code) with
        | error cause => exact .stuck
        | ok g =>
          obtain ⟨place', hplace', spare', agree⟩ := linked.agree.write ht lands hwrite hwrite'
          have ways : s'.host.tree.KeepsWays g'.tree :=
            (Host.adds_write linked.agree.coherent'.toSound hwrite').ways.forth
          refine .ok ⟨rfl, rfl, place', hplace', spare', agree, ?_,
            ⟨agree.coherent.toSound, linked.kept.kept⟩, linked.store_eq, linked.ways.trans ways⟩
          rintro l (hl | rfl)
          · exact linked.spare l hl
          · exact spare'

/-- Whether two builds have made the same contract under the output, with the same code beside it. -/
def Delivers (o : BuildOptions) (h₀ : Host) (s₀ : Session σ) (out out' : BuildOutcome)
    (t t' : Session σ) : Prop :=
  ∀ p, o.output = some p → out = .linked (.file (o.absolute p)) (some (sidecar (o.absolute p))) ∧
    out' = out ∧ ∃ K, Session.Linked o h₀ K s₀ t t' ∧
      ∀ q ∈ [o.absolute p, sidecar (o.absolute p)],
        ∃ place, h₀.locateNew q = .ok place ∧ K place.location

/-- From the same assembly both builds go on alike. -/
theorem ended_linkAll (neutral : Neutral names o paths h₀ w) (links : LinksAlike names o h₀ w)
    (link : o.asmOnly = false) (ind : tc.Indifferent names o.workingDir dir') (facing : Session.Facing o h₀ w dir' k s s')
    (habi : ∃ l a, h₀.entry (o.absolute o.abi) = .ok (l, a))
    (fits : ∀ p m dir g, o.output = some p → p.fileName? = some m →
      s'.host.makeTemporary "tvm-link-" = .ok (dir, g) → dir.Fits m) :
    Ended o.workingDir dir' (Delivers o h₀ s')
      ((linkAll tc o (Plan.file o.workingDir .codegen k)).runIn s)
      ((linkAll tc o (Plan.file dir' .codegen k)).runIn s') := by
  have linking := cases_finalLink neutral links link ind facing habi fits
  unfold linkAll
  rcases hrun : (finalLink tc o (Plan.file o.workingDir .codegen k)).runIn s with ⟨r, t⟩
  rcases hrun' : (finalLink tc o (Plan.file dir' .codegen k)).runIn s' with ⟨r', t'⟩
  rw [hrun, hrun'] at linking
  rcases linking with ⟨activity, cause, rfl⟩ | ⟨abreast, ⟨e, rfl, rfl⟩ | ⟨rfl, rfl, linked⟩⟩
  · rw [runIn_bind_of_error hrun']
    exact .stuck'
  · rw [runIn_bind_of_error hrun, runIn_bind_of_error hrun']
    exact .error abreast
  rw [runIn_bind_of_ok hrun, runIn_bind_of_ok hrun']
  cases hout : o.output with
  | none => exact .ok fun p hp ↦ by cases hout.symm.trans hp
  | some p =>
    obtain ⟨-, -, lands⟩ := links.lands link p hout
    obtain ⟨place, hplace, spare, linked⟩ := linked p hout
    have ended := ended_extractCode neutral ind linked abreast
      (Path.isAbsolute_join neutral.isAbsolute p) hplace spare (.inr rfl) lands
    refine ended.map fun x x' t t' h ↦ ?_
    obtain ⟨rfl, rfl, place', hplace', -, linked⟩ := h
    intro q hq
    obtain rfl := Option.some.inj (hout.symm.trans hq)
    refine ⟨rfl, rfl, _, linked, fun q hq ↦ ?_⟩
    rcases List.mem_cons.mp hq with rfl | hq
    · exact ⟨place, hplace, .inl (.inr rfl)⟩
    · obtain rfl := List.mem_singleton.mp hq
      exact ⟨place', hplace', .inr rfl⟩

/-! ## Whole builds -/

/-- What a build does from the assembly on. -/
def fromAssembly (tc : Toolchain σ) (o : BuildOptions) (asm : Path) : Build σ BuildOutcome :=
  if o.asmOnly then return .assembly (← emitAssembly tc o asm) else linkAll tc o asm

/-- A build that fails before it has the assembly ends so. -/
theorem runIn_run_of_error (hasm : (assembled tc o paths).runIn s = (.error e, t)) :
    (run tc o paths).runIn s = (.error e, t.cleanup) := by
  rw [run, andFinally, runIn_ofResult, stages_eq_assembled, runIn_bind_of_error hasm]

/-- Otherwise it goes on. -/
theorem runIn_run_of_ok (hasm : (assembled tc o paths).runIn s = (.ok asm, t)) :
    (run tc o paths).runIn s = (((fromAssembly tc o asm).runIn t).1,
      ((fromAssembly tc o asm).runIn t).2.cleanup) := by
  rw [run, andFinally, runIn_ofResult, stages_eq_assembled, runIn_bind_of_ok hasm]
  rfl

/-- What has been done is kept. -/
theorem events_fromAssembly (tc : Toolchain σ) (o : BuildOptions) (asm : Path) (s : Session σ) :
    s.events <+: ((fromAssembly tc o asm).runIn s).2.events := by
  have lasting : Session.Lasting tc fun t ↦ s.events <+: t.events :=
    { echoed := fun _ _ ht ↦ ht.trans (List.prefix_append _ _)
      put := fun _ _ ht _ ↦ ht
      called := fun _ _ ht ↦ ht.trans (List.prefix_append _ _)
      reserved := fun _ _ ht ↦ ht }
  exact (lasting.fromAssembly (lasting.finalLink fun _ _ ht ↦ ht) asm s (List.prefix_refl _)).snd

theorem events_run_of_assembled (tc : Toolchain σ) (o : BuildOptions) (paths : List Path)
    (s : Session σ) :
    ((assembled tc o paths).runIn s).2.events <+: ((run tc o paths).runIn s).2.events := by
  rcases hasm : (assembled tc o paths).runIn s with ⟨⟨e⟩ | ⟨asm⟩, t⟩
  · rw [runIn_run_of_error hasm]
    exact List.prefix_refl _
  · rw [runIn_run_of_ok hasm]
    exact events_fromAssembly tc o asm t

/-- The assembly is emitted unless files cannot be changed. -/
theorem ends_emitAssembly_io (s : Session σ) (asm : Path) :
    Ends (emitAssembly tc o asm) s (fun _ _ ↦ True)
      (fun e _ ↦ ∃ activity cause, e = .io activity cause) := by
  refine ends_bind.mpr (ends_host.mpr ?_)
  split
  next => exact ends_pure.mpr trivial
  next =>
    exact ends_bind.mpr (ends_bind.mpr (ends_echo.mpr (ends_bind.mpr (ends_host.mpr
      (ends_settle.mpr ⟨fun _ _ ↦ ends_pure.mpr trivial, fun cause _ _ ↦ ⟨_, cause, rfl⟩⟩)))))

/-- From the same assembly both builds come to the same end. -/
theorem ended_fromAssembly (neutral : Neutral names o paths h₀ w) (links : LinksAlike names o h₀ w)
    (ind : tc.Indifferent names o.workingDir dir') (facing : Session.Facing o h₀ w dir' k s s')
    (habi : o.asmOnly = false → ∃ l a, h₀.entry (o.absolute o.abi) = .ok (l, a))
    (fits : ∀ p m dir g, o.output = some p → p.fileName? = some m →
      s'.host.makeTemporary "tvm-link-" = .ok (dir, g) → dir.Fits m) :
    Ended o.workingDir dir' (fun out out' t t' ↦ o.asmOnly = false → Delivers o h₀ s' out out' t t')
      ((fromAssembly tc o (Plan.file o.workingDir .codegen k)).runIn s)
      ((fromAssembly tc o (Plan.file dir' .codegen k)).runIn s') := by
  unfold fromAssembly
  cases link : o.asmOnly with
  | false =>
    exact (ended_linkAll neutral links link ind facing (habi link) fits).mono fun _ _ _ _ h _ ↦ h
  | true =>
    have emitted : Ended o.workingDir dir' (fun _ _ _ _ ↦ True)
        ((emitAssembly tc o (Plan.file o.workingDir .codegen k)).runIn s)
        ((emitAssembly tc o (Plan.file dir' .codegen k)).runIn s') :=
      ended_of_io (ends_emitAssembly_io _ _) (ends_emitAssembly_io _ _)
    exact emitted.map fun _ _ _ _ _ only ↦ by cases only

end Build

/-- Where builds come to the merged assembly they face each other. -/
theorem Session.Beside.facing {w d : Location} {dir' : Path} {h' : Host} {k : Nat}
    (neutral : Neutral names o paths h w) (opened : h.Opened "tvm-build-" dir' d h')
    (hstem : "tvm-build-" ∈ Host.temporaryStems)
    (beside : Session.Beside (Site.working neutral.coherent neutral.isAbsolute neutral.blank)
      (Site.temporary (fun _ ↦ Host.Outer.toSpare) neutral.coherent hstem opened) t t')
    {l : Location} (takes : t.host.appendTarget (Plan.file o.workingDir .codegen k) = .ok l) :
    Session.Facing o h w dir' k t t' where
  toParallel := beside.toParallel
  backend_eq := beside.backend_eq
  backend_eq' := beside.backend_eq'
  isAbsolute' := opened.free.isAbsolute
  becomes := beside.develops.becomes
  keeps := beside.develops.keepsAt
  keeps' := Site.Develops.keepsAt (a := Site.temporary (fun _ ↦ id) neutral.coherent hstem opened)
    beside.develops'
  agree := by
    have kept : h.KeepsAt h.Spare t'.host :=
      Site.Develops.keepsAt (a := Site.temporary (fun _ ↦ id) neutral.coherent hstem opened)
        beside.develops'
    have artifact (l : Location) (hl : h.Spare l) (hnot : ¬ h.Outer w l) :
        ∃ kind n, l = ArtifactKind.place w kind n := by
      by_contra none
      exact hnot ⟨hl, fun kind n same ↦ none ⟨kind, n, same⟩⟩
    exact
      { toConcur := .of_keepsAt beside.develops.keepsAt (kept.mono fun _ ↦ Host.Outer.toSpare)
        coherent := beside.develops.coherent
        coherent' := beside.develops'.coherent
        retains := (Host.KeepsAt.refl neutral.coherent.toSound).toRetains.written
          beside.develops.becomes.written
        retains' := kept.toRetains
        alone := fun l hl hnot ↦ by
          obtain ⟨kind, n, rfl⟩ := artifact l hl hnot
          exact fun _ ↦ neutral.blank.shares_iff beside.develops
        free' := fun l hl hnot ↦ by
          obtain ⟨kind, n, rfl⟩ := artifact l hl hnot
          rw [kept.stored _ hl, Tree.stored_eq_none]
          exact neutral.blank.free kind n }
  asm := by
    obtain ⟨f, -, -, hc⟩ := neutral.blank.exists_file beside.develops takes
    exact ⟨f.content, hc, (beside.contents .codegen k).trans hc⟩

namespace Build

variable {w : Location} {dir' : Path} {tools : σ}

/-- When the second build has removed its files, both still hold the same contract and the same code. -/
theorem delivered {d : Location} {h' : Host} {out out' : BuildOutcome} {k : Nat} (ht : h.tree.Sound)
    (opened : h.Opened "tvm-build-" dir' d h') (facing : Session.Facing o h w dir' k s s')
    (ways : h'.tree.KeepsWays s'.host.tree) (hp : o.output = some p)
    (delivers : Delivers o h s' out out' t t') :
    out = .linked (.file (o.absolute p)) (some (sidecar (o.absolute p))) ∧ out' = out ∧
      ∀ q ∈ [o.absolute p, sidecar (o.absolute p)],
        t'.cleanup.host.content? q = t.cleanup.host.content? q := by
  obtain ⟨rfl, rfl, K, linked, places⟩ := delivers p hp
  refine ⟨rfl, rfl, fun q hq ↦ ?_⟩
  obtain ⟨place, hplace, hK⟩ := places q hq
  have hb : t'.store.backend = .ephemeral (some dir') := by rw [linked.store_eq, facing.backend_eq']
  have stocked : t'.Stocked dir' := by
    refine ⟨linked.agree.coherent'.toSound, by rw [ArtifactStore.dir?, hb], fun a ha ↦ ?_⟩
    obtain ⟨slots, -, created⟩ := facing.created
    rw [linked.store_eq, created] at ha
    obtain ⟨⟨kind, n⟩, -, rfl⟩ := List.mem_map.mp ha
    exact ⟨_, ArtifactKind.isName_fileName kind n, rfl⟩
  have home : (t'.host.tree.directoryId? d).isSome := by
    obtain ⟨e, he⟩ := Tree.isSome_directoryId?.mp opened.own.home
    obtain ⟨e', he'⟩ := (ways.trans linked.ways).directory he
    exact Tree.isSome_directoryId?.mpr ⟨e', he'⟩
  have still := opened.own.ways.trans (ways.trans linked.ways)
  have within := stocked.changesWithin_cleanup hb
    (opened.free.hasDirectory linked.agree.coherent'.toSound still home)
  have same (l : Location) (hl : h.Spare l) : t'.cleanup.host.tree.stored l = t'.host.tree.stored l :=
    Tree.stored_of_shape_eq (within.elsewhere l
      (opened.not_prefix Host.mem_temporaryStems_build (fun _ ↦ id) (.refl ht) hl))
  rw [linked.kept.cleanup_eq]
  exact (linked.agree.toConcur.moved fun l hl ↦ same l (linked.spare l hl)).content?_eq ht
    linked.agree.retains (linked.agree.retains'.moved within.sound (opened.keepsWays still within)
      within.cwd_eq same) hplace (linked.spare _ hK) hK

/-- Two builds that have just been opened come to the same assembly, and face each other there. -/
theorem exists_mirrors_assembled (neutral : Neutral names o paths h w)
    (hs : Session.start (o.keeping true) tools h = .ok s)
    (hs' : Session.start (o.keeping false) tools h = .ok s') (hdir : s'.store.dir? = some dir')
    (ind : tc.Indifferent names o.workingDir dir')
    (there : ∀ p ∈ o.needed paths, s'.host.pathExists (o.absolute p) = true →
      h.pathExists (o.absolute p) = true) :
    ∃ d h', h.Opened "tvm-build-" dir' d h' ∧
      Mirrors (assembled tc o paths) (assembled tc o paths) s s'
        (fun p p' t t' ↦ ∃ k, p = Plan.file o.workingDir .codegen k ∧ p' = Plan.file dir' .codegen k ∧
          Session.Facing o h w dir' k t t' ∧ h'.tree.KeepsWays t'.host.tree ∧
          ∀ p ∈ o.needed paths, ∃ l a, h.entry (o.absolute p) = .ok (l, a))
        (Session.Parallel o.workingDir dir') := by
  obtain ⟨-, rfl⟩ := (Session.start_cases hs).resolve_right fun h ↦ by cases h.1
  obtain ⟨-, dir, h', hmade, rfl⟩ := (Session.start_cases hs').resolve_left fun h ↦ by cases h.1
  obtain rfl : dir = dir' := Option.some.inj hdir
  have hstem : "tvm-build-" ∈ Host.temporaryStems := by simp [Host.temporaryStems]
  have ht := neutral.coherent.toSound
  obtain ⟨d, opened⟩ := Host.exists_opened ht hstem hmade
  let a := Site.working neutral.coherent neutral.isAbsolute neutral.blank
  let a' := Site.temporary (K := h.Outer w) (fun _ ↦ Host.Outer.toSpare) neutral.coherent hstem opened
  have cmp : Comparable names o paths a a' :=
    { neutral.toTold with
      dir_eq := rfl
      needed := fun p hp given ↦ by
        have before : h.pathExists (o.absolute p) = true := given.elim id (there p hp)
        unfold Host.pathExists at before
        cases hentry : h.entry (o.absolute p) with
        | ok found => exact ⟨found.1, found.2, rfl, .of_entry neutral.blank hentry⟩
        | error x =>
          rw [hentry] at before
          cases before }
  have beside : Session.Beside a a' ⟨h, .persistent o.workingDir, tools, []⟩
      ⟨h', ⟨.ephemeral (some dir), [], []⟩, tools, []⟩ :=
    { created := ⟨[], rfl, rfl⟩
      events := .nil
      backend_eq := rfl
      backend_eq' := rfl
      asked_eq := rfl
      length_eq := rfl
      develops := .refl neutral.coherent
      develops' := .refl a'.coherent
      contents := fun kind n ↦ (a'.blank.content?_eq_none kind n).trans
        (a.blank.content?_eq_none kind n).symm }
  refine ⟨d, h', opened, (mirrors_assembled cmp ind ht beside rfl rfl).mono ?_ fun _ _ ↦ id⟩
  rintro _ _ t t' - ⟨⟨k, rfl, rfl⟩, beside, ⟨l, takes⟩, -, needed⟩
  exact ⟨k, rfl, rfl, beside.facing neutral opened hstem takes,
    beside.develops'.becomes.written.ways.forth, fun p hp ↦
      (needed p hp).imp fun _ ↦ Exists.imp fun _ ↦ And.left⟩

/-- Two builds of the same inputs from the same host, of which one keeps its files in the working
directory, where there were none, and the other does not.  Up to the merged assembly they do the same,
each in its own directory, fail alike, and merge the same bytes.  Where the link does not depend on the
directory either, a tool fails in both at the same point with the same error, unless the one that does
not keep its files has failed to make, list or copy files by then; and if neither fails, both have put the
same contract and the same code to the same paths. -/
theorem kept_refines_ephemeral (neutral : Neutral names o paths h w)
    (hs : Session.start (o.keeping true) tools h = .ok s)
    (hs' : Session.start (o.keeping false) tools h = .ok s') (hdir : s'.store.dir? = some dir')
    (ind : tc.Indifferent names o.workingDir dir')
    (there : ∀ p ∈ o.needed paths, s'.host.pathExists (o.absolute p) = true →
      h.pathExists (o.absolute p) = true)
    (made : ¬ ((run tc (o.keeping true) paths).runIn s).2.store.Lacks)
    (made' : ¬ ((run tc (o.keeping false) paths).runIn s').2.store.Lacks) :
    let m := (assembled tc (o.keeping true) paths).runIn s
    let m' := (assembled tc (o.keeping false) paths).runIn s'
    let r := (run tc (o.keeping true) paths).runIn s
    let r' := (run tc (o.keeping false) paths).runIn s'
    (Session.Parallel o.workingDir dir' m.2 m'.2 ∧
      m.2.events <+: r.2.events ∧ m'.2.events <+: r'.2.events) ∧
    ((∃ e, m.1 = .error e ∧ m'.1 = .error e ∧ r.1 = .error e ∧ r'.1 = .error e) ∨
      ∃ k c, m.1 = .ok (Plan.file o.workingDir .codegen k) ∧ m'.1 = .ok (Plan.file dir' .codegen k) ∧
        m.2.host.content? (Plan.file o.workingDir .codegen k) = some c ∧
        m'.2.host.content? (Plan.file dir' .codegen k) = some c) ∧
    (LinksAlike names o h w →
      (∀ p n asm dir g, o.output = some p → p.fileName? = some n → m'.1 = .ok asm →
        m'.2.host.makeTemporary "tvm-link-" = .ok (dir, g) → dir.Fits n) →
      (∀ e, (∀ activity cause, e ≠ .io activity cause) →
        (r.1 = .error e → r'.1 = .error e ∧ Session.Abreast o.workingDir dir' r.2 r'.2 ∨
          ∃ activity cause, r'.1 = .error (.io activity cause)) ∧
        (r'.1 = .error e → r.1 = .error e ∧ Session.Abreast o.workingDir dir' r.2 r'.2)) ∧
      ∀ p out out', o.asmOnly = false → o.output = some p → r.1 = .ok out → r'.1 = .ok out' →
        out = .linked (.file (o.absolute p)) (some (sidecar (o.absolute p))) ∧ out' = out ∧
          ∀ q ∈ [o.absolute p, sidecar (o.absolute p)],
            r'.2.host.content? q = r.2.host.content? q) := by
  simp only [assembled_keeping, run_keeping] at made made' ⊢
  obtain ⟨d, h', opened, mirrors⟩ := exists_mirrors_assembled neutral hs hs' hdir ind there
  have grown := events_run_of_assembled tc o paths s
  have grown' := events_run_of_assembled tc o paths s'
  cases mirrors with
  | stuck hasm lacks =>
    rw [runIn_run_of_error hasm, Session.lacks_cleanup] at made
    exact absurd lacks made
  | stuck' hasm lacks =>
    rw [runIn_run_of_error hasm, Session.lacks_cleanup] at made'
    exact absurd lacks made'
  | error hasm hasm' parallel =>
    rw [hasm, runIn_run_of_error hasm] at grown ⊢
    rw [hasm', runIn_run_of_error hasm'] at grown' ⊢
    have abreast := parallel.abreast.cleanup
    refine ⟨⟨parallel, grown, grown'⟩, .inl ⟨_, rfl, rfl, rfl, rfl⟩, fun _ _ ↦ ⟨?_, ?_⟩⟩
    · exact fun _ _ ↦ ⟨fun he ↦ .inl ⟨he, abreast⟩, fun he ↦ ⟨he, abreast⟩⟩
    · exact fun _ _ _ _ _ hout ↦ by cases hout
  | @ok _ _ t t' hasm hasm' hQ =>
    obtain ⟨k, rfl, rfl, facing, ways, needed⟩ := hQ
    obtain ⟨c, hc, hc'⟩ := facing.asm
    rw [hasm, runIn_run_of_ok hasm] at grown ⊢
    rw [hasm', runIn_run_of_ok hasm'] at grown' ⊢
    refine ⟨⟨facing.toParallel, grown, grown'⟩, .inr ⟨k, c, rfl, rfl, hc, hc'⟩, fun links fits ↦ ?_⟩
    have ended := ended_fromAssembly neutral links ind facing
      (fun link ↦ needed o.abi (by simp [BuildOptions.needed, link]))
      fun p n dir g hp hn hg ↦ fits p n _ dir g hp hn rfl hg
    generalize (fromAssembly tc o (Plan.file o.workingDir .codegen k)).runIn t = r,
      (fromAssembly tc o (Plan.file dir' .codegen k)).runIn t' = r' at ended
    cases ended with
    | stuck' =>
      refine ⟨fun e own ↦ ⟨fun _ ↦ .inr ⟨_, _, rfl⟩,
          fun he ↦ absurd (Except.error.inj he).symm (own _ _)⟩,
        fun _ _ _ _ _ _ hout' ↦ by cases hout'⟩
    | stuck =>
      refine ⟨fun e own ↦ ⟨fun he ↦ absurd (Except.error.inj he).symm (own _ _), fun he ↦ by cases he⟩,
        fun _ _ _ _ _ hout ↦ by cases hout⟩
    | error abreast =>
      exact ⟨fun e _ ↦ ⟨fun he ↦ .inl ⟨he, abreast.cleanup⟩, fun he ↦ ⟨he, abreast.cleanup⟩⟩,
        fun _ _ _ _ _ hout ↦ by cases hout⟩
    | @ok out out' u u' delivers =>
      refine ⟨fun e _ ↦ ⟨fun he ↦ (by cases he), fun he ↦ by cases he⟩, fun p x x' link hp hx hx' ↦ ?_⟩
      obtain rfl := Except.ok.inj hx
      obtain rfl := Except.ok.inj hx'
      exact delivered neutral.coherent.toSound opened facing ways hp (delivers link)

end Build

/-! ## Samples -/

/-- What is in the files that the words name, but for the last two words. -/
def Invocation.gathered (names : Bytes → List Bytes) (i : Invocation) (h : Host) : List Bytes → Bytes
  | [] => []
  | w :: ws => if ws.length = 1 then []
    else (names w).flatMap (fun q ↦ (i.finds h q).getD []) ++ i.gathered names h ws

/-- A toolchain whose tools write what is in the files that their words name to their outputs.  How a
tool answers depends on how many words it is told. -/
def Toolchain.gathering (names : Bytes → List Bytes) (answer : Nat → Except BuildError String) :
    Toolchain Unit where
  run i st h := ⟨answer i.args.length, st, (h.written i (i.gathered names h i.args)).tree⟩
  echo _ st := st

theorem Word.Correspond.length_eq {R : Bytes → Bytes → Prop} {ws ws' : List Bytes}
    (hw : Word.Correspond R ws ws') : ws'.length = ws.length := by
  induction hw with
  | nil => rfl
  | output => rfl
  | cons _ _ ih => rw [List.length_cons, List.length_cons, ih]

/-- It does not depend on where the files are. -/
theorem Toolchain.indifferent_gathering (names : Bytes → List Bytes)
    (answer : Nat → Except BuildError String) (dir dir' : Path) :
    (gathering names answer).Indifferent names dir dir' := by
  intro i i' st st' h h' _ words
  have gathered {ws ws' : List Bytes}
      (hw : Word.Correspond (Word.Alike names dir dir' i i' h h') ws ws') :
      i'.gathered names h' ws' = i.gathered names h ws := by
    induction hw with
    | nil => rfl
    | output => rfl
    | @cons w w' ws ws' head tail ih =>
      have found : (names w').flatMap (fun q ↦ (i'.finds h' q).getD []) =
          (names w).flatMap fun q ↦ (i.finds h q).getD [] := by
        have all := head.found
        unfold Invocation.FindAlike at all
        generalize names w = qs, names w' = qs' at all
        induction all with
        | nil => rfl
        | cons same _ ih => rw [List.flatMap_cons, List.flatMap_cons, same, ih]
      rw [Invocation.gathered, Invocation.gathered, tail.length_eq, found, ih]
  refine ⟨congrArg answer words.length_eq, fun _ _ ↦ ⟨_, rfl, ?_⟩⟩
  rw [← gathered words]
  rfl

namespace Build

/-- What the words of the samples name. -/
def sampleNames (w : Bytes) : List Bytes :=
  if (Path.mk w).isAbsolute ∨ w = Bytes.ofString "main.c" ∨ w = Bytes.ofString "wallet.s" then [w]
  else []

/-- The linker succeeds, and its reports have a code line. -/
def reporting (_ : Nat) : Except BuildError String := .ok "code: AB"

/-- Options for a build whose linker is told a file. -/
def withFlag (flag : String) : BuildOptions :=
  { BuildOptions.sample with
    tools := { BuildOptions.sample.tools with stdlib := .ofString "/" }
    output := some (.ofString "c.boc")
    linkerFlags := [flag] }

instance (stem : String) (l : Location) : Decidable (Host.IsNamedAfter stem l) :=
  decidable_of_iff (l.getLast?.any (Bytes.ofString stem).isPrefixOf = true) <| by
    rw [Option.any_eq_true]
    constructor
    · rintro ⟨n, hn, start⟩
      obtain ⟨rest, rfl⟩ := List.isPrefixOf_iff_prefix.mp start
      exact ⟨rest, hn⟩
    · rintro ⟨rest, hl⟩
      exact ⟨_, hl, List.isPrefixOf_iff_prefix.mpr (List.prefix_append _ _)⟩

/-- What is free at the root of the sample is apart from what builds write. -/
theorem aimsAt_of_vacant {q : Path} {n : Name} (hq : handwritten.locateNew q = .ok (.vacant [n]))
    (named : ∀ stem ∈ Host.temporaryStems, ¬ Host.IsNamedAfter stem [n]) :
    handwritten.AimsAt (handwritten.Outer [Bytes.ofString "w"]) q := by
  have above : (handwritten.tree.directoryId? []).isSome := by decide
  refine .place hq ⟨⟨above, fun _ ↦ named⟩, fun kind n same ↦ ?_⟩
  simpa [Place.location, ArtifactKind.place] using congrArg List.length same

theorem blank_handwritten : handwritten.Blank (.ofString "/w") [Bytes.ofString "w"] :=
  blank_of_first sound_handwritten ⟨_, rfl⟩ (by decide +kernel)

/-- The sample is told what does not depend on where its files are. -/
theorem neutral_withFlag : Neutral sampleNames (withFlag "/w/wallet.s") [.ofString "main.c"] handwritten
    [Bytes.ofString "w"] := by
  refine
    { absolute := fun p hp ↦ if_pos (.inl hp)
      input := by decide
      own := by decide +kernel
      given := fun word hword q hq ↦ ?_
      isAbsolute := by decide
      coherent := coherent_handwritten
      blank := blank_handwritten }
  have only : ∀ word ∈ (withFlag "/w/wallet.s").compilerWords, ∀ q ∈ sampleNames word,
      q = Bytes.ofString "/include" := by decide +kernel
  obtain rfl := only word hword q hq
  exact aimsAt_of_vacant (n := Bytes.ofString "include") (by decide +kernel) (by decide)

/-- So is its linker. -/
theorem linksAlike_withFlag :
    LinksAlike sampleNames (withFlag "/w/wallet.s") handwritten [Bytes.ofString "w"] where
  linker _ word hword q hq := by
    have only : ∀ word ∈ (withFlag "/w/wallet.s").linkerWords, ∀ q ∈ sampleNames word,
        q = Bytes.ofString "/stdlib_cpp.tvm" ∨ q = Bytes.ofString "/w/wallet.s" := by decide +kernel
    rcases only word hword q hq with rfl | rfl
    · exact ⟨by decide, aimsAt_of_vacant (n := Bytes.ofString "stdlib_cpp.tvm") (by decide +kernel)
        (by decide)⟩
    · obtain ⟨⟨l, a⟩, hl, -⟩ := exists_of_map_decide (P := fun _ ↦ True)
        (x := handwritten.entry (.ofString "/w/wallet.s")) (by decide +kernel)
      exact ⟨by decide, .entry hl (.of_entry blank_handwritten hl)⟩
  lands _ p hp := by
    obtain rfl := Option.some.inj hp
    have contract : handwritten.locateNew (.ofString "/w/c.boc") =
        .ok (.vacant [Bytes.ofString "w", Bytes.ofString "c.boc"]) := by decide +kernel
    have code : handwritten.locateNew (.ofString "/w/c.boc.code") =
        .ok (.vacant [Bytes.ofString "w", Bytes.ofString "c.boc.code"]) := by decide +kernel
    exact ⟨by decide, .place contract ⟨by decide, fun _ ↦ by decide⟩,
      .place code ⟨by decide, fun _ ↦ by decide⟩⟩

/-- Two builds of the sample leave the same contract, with what is in the file that the linker is told,
and the same code. -/
theorem kept_refines_ephemeral_sample :
    let tc := Toolchain.gathering sampleNames reporting
    let o := withFlag "/w/wallet.s"
    let paths := [Path.ofString "main.c"]
    let contract := Path.ofString "/w/c.boc"
    ∃ s s', Session.start (o.keeping true) () handwritten = .ok s ∧
      Session.start (o.keeping false) () handwritten = .ok s' ∧
      let r := (run tc (o.keeping true) paths).runIn s
      let r' := (run tc (o.keeping false) paths).runIn s'
      r.1 = .ok (.linked (.file contract) (some (sidecar contract))) ∧ r'.1 = r.1 ∧
        r.2.host.content? contract = some (Bytes.ofString "int x;abihand") ∧
        ∀ q ∈ [contract, sidecar contract], r'.2.host.content? q = r.2.host.content? q := by
  intro tc o paths contract
  obtain ⟨s, hs, done, made, holds⟩ := exists_of_map_decide
    (x := Session.start (o.keeping true) () handwritten)
    (P := fun s ↦
      let r := (run tc (o.keeping true) paths).runIn s
      r.1 = .ok (.linked (.file contract) (some (sidecar contract))) ∧
        r.2.store.asked.length ≤ r.2.store.created.length ∧
        r.2.host.content? contract = some (Bytes.ofString "int x;abihand")) (by decide +kernel)
  obtain ⟨s', hs', done', made', hdir, hlink⟩ := exists_of_map_decide
    (x := Session.start (o.keeping false) () handwritten)
    (P := fun s' ↦
      let r' := (run tc (o.keeping false) paths).runIn s'
      r'.1 = .ok (.linked (.file contract) (some (sidecar contract))) ∧
        r'.2.store.asked.length ≤ r'.2.store.created.length ∧
        s'.store.dir? = some (.ofString "/w/tvm-build-U00000") ∧
        (((assembled tc (o.keeping false) paths).runIn s').2.host.makeTemporary "tvm-link-").map
          (·.1) = .ok (.ofString "/w/tvm-link-U00000")) (by decide +kernel)
  have there : ∀ p ∈ o.needed paths, handwritten.pathExists (o.absolute p) = true := by decide +kernel
  obtain ⟨-, -, ending⟩ := kept_refines_ephemeral neutral_withFlag hs hs' hdir
    (Toolchain.indifferent_gathering sampleNames reporting _ _) (fun p hp _ ↦ there p hp)
    (Nat.not_lt.mpr made) (Nat.not_lt.mpr made')
  obtain ⟨-, same⟩ := ending linksAlike_withFlag fun p n asm dir g hp hn _ hg ↦ by
    obtain rfl := Option.some.inj hp
    obtain rfl := Option.some.inj hn
    rw [hg] at hlink
    obtain rfl := Except.ok.inj hlink
    exact ⟨by decide, by decide, by decide⟩
  exact ⟨s, s', hs, hs', done, done'.trans done.symm, holds,
    (same _ _ _ rfl rfl done done').2.2⟩

instance (s : ArtifactStore) : Decidable s.Lacks := inferInstanceAs (Decidable (_ < _))

/-- The host of the samples with a contract that may not be written. -/
def sealedContract : Host :=
  { handwritten with
    tree := handwritten.tree.addFile [Bytes.ofString "w", Bytes.ofString "c.boc"] (Bytes.ofString "old")
      0o444 }

/-- The linker fails to report. -/
def failing (n : Nat) : Except BuildError String :=
  if n = 3 then .error (.toolFailed "tvm_linker" (.exited 1) "") else .ok ""

/-- A linker that is told a relative path finds another file in a directory of its own than in the
working directory, and leaves another contract.  Where the contract cannot be written, its report fails
only in the build that keeps its files, as the other has failed to copy by then. -/
theorem relative_flag_tells_apart :
    let wd := Path.ofString "/w"
    let dir' := Path.ofString "/w/tvm-build-U00000"
    let paths := [Path.ofString "main.c"]
    let contract := Path.ofString "/w/c.boc"
    let linked := BuildOutcome.linked (.file contract) (some (sidecar contract))
    let ended (answer : Nat → Except BuildError String) (o : BuildOptions) (s : Session Unit) :=
      (run (.gathering sampleNames answer) o paths).runIn s
    (∀ answer, (Toolchain.gathering sampleNames answer).Indifferent sampleNames wd dir') ∧
      handwritten.Blank wd [Bytes.ofString "w"] ∧ sealedContract.Blank wd [Bytes.ofString "w"] ∧
      (∃ s s', Session.start ((withFlag "wallet.s").keeping true) () handwritten = .ok s ∧
        Session.start ((withFlag "wallet.s").keeping false) () handwritten = .ok s' ∧
        s'.store.dir? = some dir' ∧
        let r := ended reporting ((withFlag "wallet.s").keeping true) s
        let r' := ended reporting ((withFlag "wallet.s").keeping false) s'
        r.1 = .ok linked ∧ r'.1 = .ok linked ∧ ¬ r.2.store.Lacks ∧ ¬ r'.2.store.Lacks ∧
          r.2.host.content? contract = some (Bytes.ofString "int x;abihand") ∧
          r'.2.host.content? contract = some (Bytes.ofString "int x;abi")) ∧
      ∃ s s', Session.start ((withFlag "/w/wallet.s").keeping true) () sealedContract = .ok s ∧
        Session.start ((withFlag "/w/wallet.s").keeping false) () sealedContract = .ok s' ∧
        s'.store.dir? = some dir' ∧
        let r := ended failing ((withFlag "/w/wallet.s").keeping true) s
        let r' := ended failing ((withFlag "/w/wallet.s").keeping false) s'
        r.1 = .error (.toolFailed "tvm_linker" (.exited 1) "") ∧
          r'.1 = .error (.io (.copyingTo contract) .notPermitted) ∧
          ¬ r.2.store.Lacks ∧ ¬ r'.2.store.Lacks := by
  intro wd dir' paths contract linked ended
  have sound : sealedContract.tree.Sound := sound_handwritten.addFile (by decide) (by decide) _ _
  refine ⟨fun answer ↦ Toolchain.indifferent_gathering _ answer _ _, blank_handwritten,
    blank_of_first sound ⟨_, rfl⟩ (by decide +kernel), ?_, ?_⟩
  · obtain ⟨s, hs, done, made, holds⟩ := exists_of_map_decide
      (x := Session.start ((withFlag "wallet.s").keeping true) () handwritten)
      (P := fun s ↦ let r := ended reporting ((withFlag "wallet.s").keeping true) s
        r.1 = .ok linked ∧ ¬ r.2.store.Lacks ∧
          r.2.host.content? contract = some (Bytes.ofString "int x;abihand")) (by decide +kernel)
    obtain ⟨s', hs', hdir, done', made', holds'⟩ := exists_of_map_decide
      (x := Session.start ((withFlag "wallet.s").keeping false) () handwritten)
      (P := fun s' ↦ let r' := ended reporting ((withFlag "wallet.s").keeping false) s'
        s'.store.dir? = some dir' ∧ r'.1 = .ok linked ∧ ¬ r'.2.store.Lacks ∧
          r'.2.host.content? contract = some (Bytes.ofString "int x;abi")) (by decide +kernel)
    exact ⟨s, s', hs, hs', hdir, done, done', made, made', holds, holds'⟩
  · obtain ⟨s, hs, done, made⟩ := exists_of_map_decide
      (x := Session.start ((withFlag "/w/wallet.s").keeping true) () sealedContract)
      (P := fun s ↦ let r := ended failing ((withFlag "/w/wallet.s").keeping true) s
        r.1 = .error (.toolFailed "tvm_linker" (.exited 1) "") ∧ ¬ r.2.store.Lacks)
      (by decide +kernel)
    obtain ⟨s', hs', hdir, done', made'⟩ := exists_of_map_decide
      (x := Session.start ((withFlag "/w/wallet.s").keeping false) () sealedContract)
      (P := fun s' ↦ let r' := ended failing ((withFlag "/w/wallet.s").keeping false) s'
        s'.store.dir? = some dir' ∧ r'.1 = .error (.io (.copyingTo contract) .notPermitted) ∧
          ¬ r'.2.store.Lacks) (by decide +kernel)
    exact ⟨s, s', hs, hs', hdir, done, done', made, made'⟩

end Build

end ContractBuild
