import ContractBuild.Proofs.Build.AssemblyOnly
import ContractBuild.Proofs.FileSystem.Destinations
import ContractBuild.Proofs.FileSystem.Stored
import ContractBuild.Proofs.Path.Parent
import ContractBuild.Proofs.Tool.Output

/-!
# Where the contract is put

The linker runs in a directory of its own and is told the file name of the output.  What it leaves there
is copied: the file of that name to the output, every other one beside it.  All of that lies in the
working directory, and the output holds what the linker wrote.
-/

namespace ContractBuild

open Build

variable {σ : Type} {tc : Toolchain σ} {o : BuildOptions} {h h₀ h₁ : Host} {dir asm out p : Path}
  {d a : Location} {n : Name} {f : File} {place : Place} {target : OutputTarget}
  {linked : Option Name} {paths : List Path}

/-! ## Copies out of the link directory -/

/-- Whether a file with some content is at a location. -/
def Host.HoldsAt (h : Host) (l : Location) (content : Bytes) : Prop :=
  ∃ g, h.tree.node? l = some (.file g) ∧ g.content = content

/-- A file that is found behind a directory lies in it. -/
theorem Host.entry_of_isFile (free : h₀.HasFree dir d) (houses : h₀.tree.Houses d h.tree)
    (hn : (Path.ofName n).IsName) (there : h.isFile (dir.join (.ofName n)) = true) :
    ∃ f, h.entry (dir.join (.ofName n)) = .ok (d ++ [n], .file f) := by
  unfold Host.isFile at there
  split at there
  next k f hf =>
    obtain rfl : k = d ++ [n] := free.location_of_join houses hn (Host.locate_of_entry hf)
    exact ⟨f, hf⟩
  next => cases there

namespace Build

/-- Copies change nothing but what their destinations lead to, and none of these is a directory. -/
theorem ends_copyEach (ht : h.tree.Sound) (ns : List Name) {s : Session σ}
    (hs : h.WrittenAt paths s.host) :
    Ends (copyEach tc dir target linked ns) s
      (fun _ s' ↦ h.WrittenAt (paths ++ ns.map (target.destination · linked)) s'.host ∧
        s'.events = s.events ++
          ns.map (fun m ↦ .echo s!"cp {m.display} {(target.destination m linked).display}") ∧
        ∀ m ∈ ns, ∃ place, h.locateNew (target.destination m linked) = .ok place ∧
          h.tree.directoryId? place.location = none)
      (fun _ _ ↦ True) := by
  induction ns generalizing s paths with
  | nil =>
    exact ends_pure.mpr ⟨by simpa using hs, by simp, fun m hm ↦ by cases hm⟩
  | cons m ms ih =>
    refine ends_bind.mpr (ends_bind.mpr (ends_echo.mpr (ends_bind.mpr (ends_host.mpr
      (ends_settle.mpr ⟨fun h' hcopy ↦ ?_, fun _ _ _ ↦ trivial⟩)))))
    obtain ⟨place, hplace, change⟩ := Host.writesOnly_of_copy hs.written.sound hcopy
    obtain ⟨place₀, hlocation, hplace₀⟩ := hs.written.locateNew_before ht hplace
    refine (ih (hs.concat ht hplace change)).mono ?_ fun _ _ _ ↦ trivial
    rintro _ s' ⟨written, events, located⟩
    refine ⟨by simpa using written, by simpa using events, fun m' hm' ↦ ?_⟩
    rcases List.mem_cons.mp hm' with rfl | hm'
    · refine ⟨place₀, hplace₀, ?_⟩
      obtain ⟨_, _, k, h₁, -, -, hcreate, -⟩ := Host.exists_of_copy hcopy
      obtain ⟨⟨place', hplace', rfl⟩, nowhere, -⟩ :=
        Host.writesOnly_create hs.written.sound hcreate
      obtain rfl := Except.ok.inj (hplace.symm.trans hplace')
      rw [hlocation, ← Option.not_isSome_iff_eq_none]
      intro there
      have same := hs.written.ways.forth _ (Tree.leads_of_directoryId? there)
      have here : s.host.tree.directoryId? place.location = none := nowhere
      rw [Tree.directoryId?_of_shape_eq same] at here
      simp [here] at there
    · exact located m' hm'

/-- The destination of a file holds its content after it has been copied, as long as no other
destination leads there or to the file itself. -/
theorem ends_copyEach_holds (ht : h.tree.Sound)
    (hsource : h.entry (dir.join (.ofName n)) = .ok (a, .file f))
    (hplace : h.locateNew (target.destination n linked) = .ok place) (ns : List Name)
    (hother : ∀ m ∈ ns, m ≠ n → h.Misses (target.destination m linked) place.location)
    (hspared : ∀ m ∈ ns, h.Misses (target.destination m linked) a) {s : Session σ}
    (hs : h.WrittenAt paths s.host) (hpaths : ∀ q ∈ paths, h.Misses q a)
    (hself : h.Misses (target.destination n linked) a)
    (hfile : ∀ x, s.host.tree.node? place.location = some x → ∃ g, x = .file g) :
    Ends (copyEach tc dir target linked ns) s
      (fun _ s' ↦ n ∈ ns ∨ s.host.HoldsAt place.location f.content →
        s'.host.HoldsAt place.location f.content)
      (fun _ _ ↦ True) := by
  induction ns generalizing s paths with
  | nil => exact ends_pure.mpr fun holds ↦ holds.resolve_left List.not_mem_nil
  | cons m ms ih =>
    refine ends_bind.mpr (ends_bind.mpr (ends_echo.mpr (ends_bind.mpr (ends_host.mpr
      (ends_settle.mpr ⟨fun h' hcopy ↦ ?_, fun _ _ _ ↦ trivial⟩)))))
    obtain ⟨goal, hgoal, change⟩ := Host.writesOnly_of_copy hs.written.sound hcopy
    have later (hfile' : ∀ x, h'.tree.node? place.location = some x → ∃ g, x = .file g) :=
      ih (fun m' hm' ↦ hother m' (List.mem_cons_of_mem _ hm'))
        (fun m' hm' ↦ hspared m' (List.mem_cons_of_mem _ hm'))
        (s := (s.echoed tc s!"cp {m.display} {(target.destination m linked).display}").withHost h')
        (hs.concat ht hgoal change)
        (fun q hq ↦ by
          rcases List.mem_append.mp hq with hq | hq
          · exact hpaths q hq
          · rw [List.mem_singleton.mp hq]
            exact hspared m List.mem_cons_self) hfile'
    by_cases hm : m = n
    · -- the file itself is copied, from a source that is still what it was
      subst hm
      obtain ⟨f', hf', hid, hcontent⟩ := Tree.exists_file_of_shape_eq
        (hs.elsewhere a hpaths) (Host.node?_of_entry hsource)
      have source := hs.written.entry_after ht hsource hf' rfl
      obtain ⟨place₀, hlocation, hplace₀⟩ := hs.written.locateNew_before ht hgoal
      obtain rfl := Except.ok.inj (hplace.symm.trans hplace₀)
      have apart : s.host.tree.fileId? goal.location ≠ some f'.id :=
        (hs.misses ht hself goal hgoal).2 _ (Tree.fileId?_eq_some.mpr ⟨f', hf', rfl⟩)
      rw [hlocation] at hfile later ⊢
      obtain ⟨g, hg, content, -⟩ := Host.file_of_copy hs.written.sound hcopy source hgoal hfile
      rw [if_neg apart, hcontent] at content
      refine (later fun x hx ↦ ⟨g, Option.some.inj (hx.symm.trans hg)⟩).mono
        (fun _ s' holds _ ↦ holds (.inr ⟨g, hg, content⟩)) fun _ _ _ ↦ trivial
    · -- another file is copied, and the destination stays as it is
      obtain ⟨hne, apart⟩ := hs.misses ht (hother m List.mem_cons_self hm) goal hgoal
      have same : h'.tree.shape place.location = s.host.tree.shape place.location := by
        refine (change.tree.elsewhere _ hne.symm).resolve_right ?_
        rintro ⟨file, name, -⟩
        obtain ⟨id, hid⟩ := Option.isSome_iff_exists.mp file
        exact apart id (name.trans hid) hid
      refine (later fun x ↦ Tree.isFile_of_shape_eq same hfile).mono (fun _ s' holds given ↦ ?_)
        fun _ _ _ ↦ trivial
      rcases given with hn | ⟨g, hg, content⟩
      · exact holds (.inl ((List.mem_cons.mp hn).resolve_left (Ne.symm hm)))
      · obtain ⟨g', hg', -, content'⟩ := Tree.exists_file_of_shape_eq same hg
        exact holds (.inr ⟨g', hg', content'.trans content⟩)

/-- What is copied from a private directory are the files in it. -/
theorem ends_copyOut {s : Session σ} (free : h₀.HasFree dir d)
    (kept : h₀.tree.Private d s.host.tree) :
    Ends (copyOut tc dir target linked) s
      (fun _ t ↦ ∃ names, (∀ m, m ∈ names ↔
          ∃ g, s.host.entry (dir.join (.ofName m)) = .ok (d ++ [m], .file g)) ∧
        (copyEach tc dir target linked names).runIn s = (.ok (), t))
      (fun _ _ ↦ True) := by
  refine ends_bind.mpr (ends_host.mpr (ends_bind.mpr (ends_value.mpr ⟨fun listed hlisted ↦ ?_,
    fun _ _ ↦ trivial⟩)))
  obtain ⟨l, hl, hlisted⟩ := exists_of_bind_eq_ok hlisted
  obtain ⟨⟨l', b⟩, hentry, hl⟩ := exists_of_bind_eq_ok hl
  obtain rfl : l' = d := free.eq_of_entry kept.toHouses hentry
  obtain rfl : l' = l := by
    split at hl
    next heq =>
      obtain ⟨rfl, -⟩ := Prod.mk.inj heq
      exact Except.ok.inj hl
    next => cases hl
  obtain rfl : s.host.tree.names l' = listed := by
    split at hlisted
    · exact Except.ok.inj hlisted
    · cases hlisted
  refine (ends_runIn _ _).mono (fun _ t ht ↦ ⟨_, fun m ↦ ?_, ht⟩) fun _ _ _ ↦ trivial
  rw [List.mem_filter, kept.sound.mem_names]
  constructor
  · rintro ⟨there, file⟩
    exact Host.entry_of_isFile free kept.toHouses (kept.named m there) file
  · rintro ⟨g, hg⟩
    rw [Host.node?_of_entry hg, Host.isFile, hg]
    exact ⟨rfl, rfl⟩

end Build

/-! ## The final link -/

/-- Behind a working directory, every destination beside a relative output lies in that directory. -/
theorem OutputTarget.components_destination {wd : Path} (hwd : wd.isAbsolute)
    (hrelative : p.isAbsolute = false) (hup : Path.Component.up ∉ p.components)
    (hn : p.fileName? = some n) {m : Name} (hm : (Path.ofName m).IsName) :
    ∃ below : List Name,
      (destination (.file (wd.join p)) m (some n)).components =
        wd.components ++ below.map .name := by
  obtain ⟨ns, hns⟩ := Path.exists_tail_eq_map hup
  by_cases hmn : m = n
  · subst hmn
    have own : destination (.file (wd.join p)) m (some m) = wd.join p := if_pos rfl
    exact ⟨ns, by rw [own, Path.components_join hwd hrelative, hns]⟩
  · have beside : destination (.file (wd.join p)) m (some n) =
        ((wd.join p).parent?.getD .here).join (.ofName m) :=
      if_neg fun h ↦ hmn (Option.some.inj h).symm
    refine ⟨ns.dropLast ++ [m], ?_⟩
    rw [beside, Path.components_beside hwd hrelative hn hm, hns]
    simp

/-- What leads out of a private directory misses what is in it: the files there are new. -/
theorem Tree.Private.misses (kept : h₀.tree.Private d h.tree) (ht : h₀.tree.Sound)
    (hplace : h.locateNew out = .ok place) (outside : ¬ d <+: place.location) (ha : d <+: a) :
    h.Misses out a := by
  intro q hq
  obtain rfl := Except.ok.inj (hplace.symm.trans hq)
  refine ⟨fun here ↦ outside (here ▸ ha), fun id hid hid' ↦ ?_⟩
  have new := kept.fresh a id ha hid
  have old := ht.file_lt
    ((Tree.fileId?_of_shape_eq (kept.elsewhere _ outside)).symm.trans hid')
  exact absurd old (Nat.not_lt_of_le new)

/-- A file that has been put outside a directory is there after the removal of that. -/
theorem Host.entry_of_removeDirectory (free : h₀.HasFree dir d) (houses : h₀.tree.Houses d h.tree)
    (hcwd : h.cwd = h₀.cwd) (hplace : h₀.locateNew out = .ok place)
    (hout : ¬ d <+: place.location) {content : Bytes} (holds : h.HoldsAt place.location content) :
    ∃ g, (h.removeDirectory dir).entry out = .ok (place.location, .file g) ∧
      g.content = content := by
  have within := (free.hasDirectory houses.sound houses.ways houses.home).removeDirectory
  obtain ⟨g, hg, hcontent⟩ := holds
  obtain ⟨g', hg', -, same⟩ := Tree.exists_file_of_shape_eq (within.elsewhere _ hout) hg
  have ways : h₀.tree.KeepsWays (h.removeDirectory dir).tree := by
    intro k hk
    obtain ⟨n, hn, -⟩ := (Option.any_eq_true _ _).mp hk
    exact (within.elsewhere k (free.not_prefix hn)).trans (houses.ways k hk)
  exact ⟨g', Host.entry_of_locateNew free.sound within.sound ways (within.cwd_eq.trans hcwd) hplace
    hg', same.trans hcontent⟩

namespace Build

/-- The call of the linker in a directory of its own. -/
def linkerCall (o : BuildOptions) (asm dir : Path) (n : Name) : Invocation :=
  (Command.compile o asm (o.absolute o.abi) (some (.ofName n))).inDir dir

/-- The session in which the linker has run, in a directory that has just been made. -/
def afterLinker (tc : Toolchain σ) (o : BuildOptions) (asm dir : Path) (n : Name) (s : Session σ)
    (h₁ : Host) : Session σ :=
  ((s.withHost h₁).echoed tc s!"cd {dir.display}").called tc (linkerCall o asm dir n)

/-- A final link that succeeds has run the linker in a new directory, copied what that left there, and
removed the directory. -/
theorem ends_finalLink_scoped {s : Session σ} (hstore : s.store.isPersistent = false)
    (houtput : o.output = some p) (hn : p.fileName? = some n) :
    Ends (finalLink tc o asm) s
      (fun target s' ↦ target = .file (o.workingDir.join p) ∧
        ∃ dir h₁ text t, s.host.makeTemporary "tvm-link-" = .ok (dir, h₁) ∧
          (tc.run (linkerCall o asm dir n) (tc.echo s!"cd {dir.display}" s.tools) h₁).outcome =
            .ok text ∧
          (copyOut tc dir target (some n)).runIn (afterLinker tc o asm dir n s h₁) = (.ok (), t) ∧
          s' = t.withHost (t.host.removeDirectory dir))
      (fun _ _ ↦ True) := by
  refine ends_finalLink (fun linkDir h₁ hopen ↦ ?_) fun _ _ ↦ trivial
  obtain ⟨_, hb, -⟩ | ⟨_, dir, -, rfl, hmade⟩ := ArtifactStore.cases_openLinkDir hopen
  · simp [ArtifactStore.isPersistent, hb] at hstore
  have told : (linkedOutput o (.scoped dir)) = some (.ofName n) := by
    simp [linkedOutput, houtput, hn]
  have goal : OutputTarget.resolve o.output o.workingDir = .file (o.workingDir.join p) := by
    rw [houtput]
    rfl
  unfold linkIn
  rw [told, goal]
  refine ends_bind.mpr (ends_echo.mpr (ends_bind.mpr (ends_tool.mpr
    ⟨fun text htext ↦ ?_, fun _ _ ↦ trivial⟩)))
  have copied := ends_runIn (copyOut tc dir (.file (o.workingDir.join p)) (some n))
    (afterLinker tc o asm dir n s h₁)
  refine ends_bind.mpr (copied.mono (fun _ t hcopied ↦ ends_pure.mpr ?_) fun _ _ _ ↦ trivial)
  exact ⟨rfl, dir, h₁, text, t, hmade, htext, hcopied, rfl⟩

/-- The final link of a build that does not keep its files tells the linker the last name of the output
and copies the files that it leaves, all to places in the working directory, and nothing else is
written.  The output holds what the linker wrote under that name, unless another of these files goes
to the same place. -/
theorem output_of_finalLink (htools : tc.LinksInPlace) {s : Session σ} (ht : s.host.tree.Sound)
    (hstore : s.store.isPersistent = false) (hwd : o.workingDir.isAbsolute)
    (houtput : o.output = some p) (hrelative : p.isAbsolute = false)
    (hup : Path.Component.up ∉ p.components) (hn : p.fileName? = some n)
    (hdone : ((finalLink tc o asm).runIn s).1 = .ok (.file out)) :
    let ended := ((finalLink tc o asm).runIn s).2
    let dest (m : Name) := OutputTarget.destination (.file out) m (some n)
    ∃ (dir : Path) (d : Location) (h₁ : Host) (names : List Name) (f : File),
      s.host.makeTemporary "tvm-link-" = .ok (dir, h₁) ∧
      let left := (afterLinker tc o asm dir n s h₁).host
      [Bytes.ofString "-o", n] <:+ (linkerCall o asm dir n).args ∧
      out = o.workingDir.join p ∧ dest n = out ∧
      ended.events = s.events ++ .echo s!"cd {dir.display}" :: .run (linkerCall o asm dir n) ::
        names.map (fun m ↦ .echo s!"cp {m.display} {(dest m).display}") ∧
      (∀ m, m ∈ names ↔ ∃ g, left.entry (dir.join (.ofName m)) = .ok (d ++ [m], .file g)) ∧
      left.entry (dir.join (.ofName n)) = .ok (d ++ [n], .file f) ∧
      (∀ m ∈ names, ∃ below : List Name,
        (dest m).components = o.workingDir.components ++ below.map .name) ∧
      (∀ k, ¬ d <+: k → (∀ m ∈ names, left.Misses (dest m) k) →
        ended.host.tree.shape k = s.host.tree.shape k) ∧
      ∀ place, s.host.locateNew out = .ok place →
        (∀ a, s.host.tree.node? place.location = some a → ∃ g, a = .file g) →
        (∀ m ∈ names, m ≠ n →
          left.Misses (dest m) place.location ∧ left.Misses (dest m) (d ++ [n])) →
        ∃ g, ended.host.entry out = .ok (place.location, .file g) ∧ g.content = f.content := by
  intro ended dest
  have linking : Ends (finalLink tc o asm) s _ _ := ends_finalLink_scoped hstore houtput hn
  unfold Ends at linking
  rcases hrun : (finalLink tc o asm).runIn s with ⟨result, s'⟩
  obtain rfl : ended = s' := congrArg Prod.snd hrun
  obtain rfl : result = .ok (.file out) := by rw [← hdone, hrun]
  rw [hrun] at linking
  obtain ⟨hout, dir, h₁, text, t, hmade, htext, hcopied, hended⟩ := linking
  obtain rfl := OutputTarget.file.inj hout
  obtain ⟨d, free, made, hcwd⟩ :=
    Host.private_makeTemporary ht Host.mem_temporaryStems_link hmade
  have told : [Bytes.ofString "-o", n] <:+ (linkerCall o asm dir n).args := List.suffix_append _ _
  obtain ⟨kept, file⟩ := htools (linkerCall o asm dir n) (tc.echo s!"cd {dir.display}" s.tools)
    s.host h₁ dir d n rfl rfl (Path.isName_of_fileName? hn) told free made
  -- what the linker has left
  let left := (afterLinker tc o asm dir n s h₁).host
  have kept : s.host.tree.Private d left.tree := kept
  have cwd : left.cwd = s.host.cwd := hcwd
  obtain ⟨f, source⟩ := Host.entry_of_isFile (h := left) free kept.toHouses
    (Path.isName_of_fileName? hn) (file text htext)
  -- what has been copied from it
  obtain ⟨names, hnames, hcopied⟩ := (ends_copyOut free kept).of_ok hcopied
  obtain ⟨written, events, located⟩ :=
    (ends_copyEach kept.sound names (.refl kept.sound)).of_ok hcopied
  have mem : n ∈ names := (hnames n).mpr ⟨f, source⟩
  have own : dest n = o.workingDir.join p := if_pos rfl
  have houses := kept.toHouses.of_sameWays written.written.sound written.written.ways
  refine ⟨dir, d, h₁, names, f, hmade, told, rfl, own, ?_, hnames, source, fun m hm ↦ ?_,
    fun k hk missed ↦ ?_, fun place hplace hfile hother ↦ ?_⟩
  · rw [hended]
    simpa [afterLinker] using events
  · obtain ⟨g, hg⟩ := (hnames m).mp hm
    have name : (Path.ofName m).IsName := kept.named m (by rw [Host.node?_of_entry hg]; rfl)
    exact OutputTarget.components_destination hwd hrelative hup hn name
  · have removed := (free.hasDirectory houses.sound houses.ways houses.home).removeDirectory
    have copied := written.elsewhere k fun q hq ↦ by
      obtain ⟨m, hm, rfl⟩ := List.mem_map.mp hq
      exact missed m hm
    rw [hended]
    exact (removed.elsewhere k hk).trans (copied.trans (kept.elsewhere k hk))
  · obtain ⟨place', hplace', nowhere⟩ := located n mem
    obtain ⟨outside, hlocation⟩ := free.location_of_locateNew kept.toHouses kept.toConfined cwd
      hplace (own ▸ hplace') nowhere
    have same := kept.elsewhere _ outside
    have self : left.Misses (dest n) (d ++ [n]) :=
      kept.misses ht hplace' (hlocation ▸ outside) (List.prefix_append _ _)
    have spared (m : Name) (hm : m ∈ names) : left.Misses (dest m) (d ++ [n]) := by
      by_cases hmn : m = n
      · subst hmn
        exact self
      · exact (hother m hm hmn).2
    have copies : Ends (copyEach tc dir _ _ names) _ _ _ :=
      ends_copyEach_holds kept.sound source hplace' names
        (fun m hm hne ↦ hlocation ▸ (hother m hm hne).1) spared (.refl kept.sound)
        (fun _ hq ↦ by cases hq) self fun x ↦ hlocation ▸ Tree.isFile_of_shape_eq same hfile
    have holds := copies.of_ok hcopied (.inl mem)
    rw [hended]
    exact Host.entry_of_removeDirectory free houses (written.written.cwd_eq.trans cwd) hplace outside
      (hlocation ▸ holds)

/-! ## Samples -/

/-- The host with assembly written by hand and a directory to work in. -/
def nested : Host :=
  { handwritten with
    tree := handwritten.tree.addDirectory [Bytes.ofString "w", Bytes.ofString "job"] programMode }

/-- Options for a build in that directory. -/
def inJob (output : String) : BuildOptions :=
  { BuildOptions.sample with workingDir := .ofString "/w/job", output := some (.ofString output) }

theorem sound_nested : nested.tree.Sound := sound_handwritten.addDirectory (by decide) (by decide) _

/-- The output of the sample holds what the linker wrote. -/
theorem output_of_finalLink_sample :
    let tc := Toolchain.linking (Bytes.ofString "boc")
    let o := inJob "./c.boc"
    let asm := Path.ofString "/w/wallet.s"
    ∃ s l g, Session.start o () nested = .ok s ∧
      ((finalLink tc o asm).runIn s).1 = .ok (.file (.ofString "/w/job/./c.boc")) ∧
      ((finalLink tc o asm).runIn s).2.host.entry (.ofString "/w/job/./c.boc") = .ok (l, .file g) ∧
      g.content = Bytes.ofString "boc" := by
  intro tc o asm
  let n : Name := Bytes.ofString "c.boc"
  let out := Path.ofString "/w/job/./c.boc"
  let place := Place.vacant [Bytes.ofString "w", Bytes.ofString "job", n]
  let written (s : Session Unit) : Bool :=
    (s.host.makeTemporary "tvm-link-").toOption.any fun made : Path × Host ↦
      (afterLinker tc o asm made.1 n s made.2).host.content? (made.1.join (.ofName n)) =
        some (Bytes.ofString "boc")
  obtain ⟨s, hs, hrun⟩ := exists_of_map_eq_ok_true (x := Session.start o () nested)
    (p := fun s ↦ s.store.isPersistent = false ∧ s.host.locateNew out = .ok place ∧
      ((finalLink tc o asm).runIn s).1 = .ok (.file out) ∧
      ((finalLink tc o asm).runIn s).2.events.length = s.events.length + 3 ∧ written s = true)
    (by decide +kernel)
  obtain ⟨hstore, hplace, hdone, hcount, hwritten⟩ := of_decide_eq_true hrun
  obtain ⟨_, stocked⟩ := Session.Stocked.of_start sound_nested hs
  have links : tc.LinksInPlace := Toolchain.linksInPlace_linking _
  have name : (Path.ofString "./c.boc").fileName? = some n := by decide
  obtain ⟨dir, d, h₁, names, f, hmade, -, -, -, hevents, hnames, hf, -, -, holds⟩ :=
    output_of_finalLink links stocked.sound hstore (by decide) rfl (by decide) (by decide) name hdone
  -- the linker has left nothing else
  have alone : ∀ m ∈ names, m = n := by
    have count := congrArg List.length hevents
    rw [hcount, List.length_append, List.length_cons, List.length_cons, List.length_map] at count
    obtain ⟨m, rfl⟩ := List.length_eq_one_iff.mp (by omega : names.length = 1)
    have mem : n ∈ [m] := (hnames n).mpr ⟨f, hf⟩
    intro m' hm'
    rw [List.mem_singleton.mp hm', List.mem_singleton.mp mem]
  have vacant : s.host.tree.node? place.location = none := Tree.shows_of_locate hplace
  obtain ⟨g, hg, content⟩ := holds place hplace
    (fun a ha ↦ by cases vacant.symm.trans ha) (fun m hm hne ↦ absurd (alone m hm) hne)
  have boc : f.content = Bytes.ofString "boc" := by
    simp only [written, hmade, Except.toOption, Option.any_some, Host.content?, hf] at hwritten
    exact Option.some.inj (of_decide_eq_true hwritten)
  exact ⟨s, _, g, hs, hdone, hg, content.trans boc⟩

/-- A final link can succeed for an output that names a directory: the linker is then told no output,
and what it leaves lands beside the working directory. -/
theorem finalLink_leaves_workingDir :
    let tc := Toolchain.linking (Bytes.ofString "boc")
    let output := Path.ofString "."
    let o := inJob "."
    let beside := Path.ofString "/w/contract.tvc"
    tc.LinksInPlace ∧ o.workingDir.isAbsolute ∧ o.output = some output ∧ output.raw ≠ [] ∧
      output.isAbsolute = false ∧ Path.Component.up ∉ output.components ∧
      ∃ s, Session.start o () nested = .ok s ∧ s.store.isPersistent = false ∧
        ((finalLink tc o (.ofString "/w/wallet.s")).runIn s).1 =
          .ok (.file (o.workingDir.join output)) ∧
        ((finalLink tc o (.ofString "/w/wallet.s")).runIn s).2.host.isFile
          (o.workingDir.join output) = false ∧
        (∃ i, .run i ∈ ((finalLink tc o (.ofString "/w/wallet.s")).runIn s).2.events ∧
          i.asksToLink ∧ Bytes.ofString "-o" ∉ i.args) ∧
        s.host.pathExists beside = false ∧
        ((finalLink tc o (.ofString "/w/wallet.s")).runIn s).2.host.read beside =
          .ok (Bytes.ofString "boc") := by
  intro tc output o beside
  let call : Invocation := (Command.compile o (.ofString "/w/wallet.s") (o.absolute o.abi) none).inDir
    (.ofString "/w/tvm-link-U00000")
  obtain ⟨s, hs, hrun⟩ := exists_of_map_eq_ok_true (x := Session.start o () nested)
    (p := fun s ↦
      let ended := (finalLink tc o (.ofString "/w/wallet.s")).runIn s
      s.store.isPersistent = false ∧ ended.1 = .ok (.file (o.workingDir.join output)) ∧
        ended.2.host.isFile (o.workingDir.join output) = false ∧ .run call ∈ ended.2.events ∧
        s.host.pathExists beside = false ∧
        ended.2.host.read beside = .ok (Bytes.ofString "boc")) (by decide +kernel)
  obtain ⟨hstore, hdone, hfile, hcall, hfree, hread⟩ := of_decide_eq_true hrun
  exact ⟨Toolchain.linksInPlace_linking _, by decide, rfl, by decide, by decide, by decide, s, hs,
    hstore, hdone, hfile, ⟨call, hcall, rfl, by decide⟩, hfree, hread⟩

end Build

end ContractBuild
