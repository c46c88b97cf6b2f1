import ContractBuild.Proofs.Build.CopyOut
import ContractBuild.Proofs.Build.MergedAssembly

/-!
# Assembly at its destination

The assembly is copied to its destination, unless the destination leads to it already, however it is
spelled and through whatever symbolic links.  What is not seen is a second name of the file: then the
copy empties the file before it reads it, and nothing is left of the assembly.
-/

namespace ContractBuild

open Build

variable {σ : Type} {tc : Toolchain σ} {o : BuildOptions} {s : Session σ} {h h' : Host}
  {asm dest : Path} {a k l : Location} {f g : File} {content : Bytes} {place : Place}

/-! ## Copies onto the file itself -/

namespace Host

/-- Permissions do not change what a file holds, under any of its names. -/
theorem content_of_permit (hl : h.tree.node? l = some (.file g)) (k : Location) (mode : Nat) :
    ∃ g', (h.permit k mode).tree.node? l = some (.file g') ∧ g'.content = g.content := by
  unfold permit reattribute
  split
  next b hb =>
    simp only [withTree, Tree.node?_onFile, hl, Option.map_some, Node.onFile]
    split
    · exact ⟨_, rfl, rfl⟩
    · exact ⟨_, rfl, rfl⟩
  next n hother hn =>
    have hne : l ≠ k := by
      rintro rfl
      exact hother g (Option.some.inj (hn.symm.trans hl))
    exact ⟨g, (Tree.node?_adjust_of_ne hne _ _).trans hl, rfl⟩
  next => exact ⟨g, hl, rfl⟩

/-- Appending nothing to a file changes nothing of what any file holds. -/
theorem content_of_append_nil (hk : h.tree.node? k = some (.file f)) (hh : h.append k [] = .ok h')
    (hl : h.tree.node? l = some (.file g)) :
    ∃ g', h'.tree.node? l = some (.file g') ∧ g'.content = g.content := by
  unfold append at hh
  rw [hk] at hh
  obtain rfl := Except.ok.inj hh
  simp only [withTree, Tree.node?_onFile, hl, Option.map_some, Node.onFile, if_true]
  exact ⟨_, rfl, by split <;> rfl⟩

/-- A file that is copied to another name of it is empty. -/
theorem empty_of_copy (ht : h.tree.Sound) (hh : h.copy asm dest = (.ok (), h'))
    (hasm : h.entry asm = .ok (a, .file f)) (hplace : h.locateNew dest = .ok place)
    (hid : h.tree.fileId? place.location = some f.id) :
    ∃ f', h'.tree.node? a = some (.file f') ∧ f'.content = [] := by
  obtain ⟨l, g, k, h₁, hentry, -, hcreate, -, happend⟩ := exists_of_copy hh
  obtain ⟨rfl, hg⟩ := Prod.mk.inj (Except.ok.inj (hasm.symm.trans hentry))
  obtain rfl := Node.file.inj hg
  obtain ⟨⟨place', hplace', rfl⟩, -⟩ := writesOnly_create ht hcreate
  obtain rfl := Except.ok.inj (hplace.symm.trans hplace')
  obtain ⟨b, hb, hbid⟩ := Tree.fileId?_eq_some.mp hid
  -- both names show the file once it is emptied
  obtain ⟨a₁, ha₁, empty⟩ := file_of_create_of_id hcreate (node?_of_entry hasm) hid
  obtain ⟨b₁, hb₁, -⟩ := file_of_create_of_id hcreate hb (hbid ▸ hid)
  obtain ⟨a₂, ha₂, kept⟩ := content_of_permit ha₁ place.location f.mode
  obtain ⟨b₂, hb₂, -⟩ := content_of_permit hb₁ place.location f.mode
  have nothing : h₁.contentAt a = [] := by simp only [contentAt, ha₁, empty]
  rw [nothing] at happend
  obtain ⟨f', hf', same⟩ := content_of_append_nil hb₂ happend ha₂
  exact ⟨f', hf', same.trans (kept.trans empty)⟩

/-- A destination that takes a copy is free or a file, if it is nothing that is neither a file nor a
directory. -/
theorem isFile_of_copy (ht : h.tree.Sound) (hh : h.copy asm dest = (.ok (), h'))
    (hplace : h.locateNew dest = .ok place)
    (hdest : ∀ l n, h.entry dest = .ok (l, n) → (∃ g, n = .file g) ∨ ∃ d, n = .directory d)
    {n : Node} (hn : h.tree.node? place.location = some n) : ∃ g, n = .file g := by
  obtain ⟨l, f, k, h₁, -, -, hcreate, -⟩ := exists_of_copy hh
  obtain ⟨⟨place', hplace', rfl⟩, noDirectory, -⟩ := writesOnly_create ht hcreate
  obtain rfl := Except.ok.inj (hplace.symm.trans hplace')
  have shows := Tree.shows_of_locate hplace
  cases place with
  | vacant k => cases shows.symm.trans hn
  | entry k m =>
    obtain rfl := Option.some.inj (shows.symm.trans hn)
    rcases hdest k m (entry_of_locate (Tree.locate_of_create hplace)) with file | ⟨d, rfl⟩
    · exact file
    · have directory : h.tree.directoryId? k = some d.id := by
        rw [Tree.directoryId?, show h.tree.node? k = _ from shows]
        rfl
      cases noDirectory.symm.trans directory

/-- After a copy to somewhere else, source and destination hold what the source held, unless they are
one file: then they are empty.  Everything else is as it was. -/
theorem files_of_copy (ht : h.tree.Sound) (hh : h.copy asm dest = (.ok (), h'))
    (hasm : h.entry asm = .ok (a, .file f))
    (hdest : ∀ l n, h.entry dest = .ok (l, n) → (∃ g, n = .file g) ∨ ∃ d, n = .directory d)
    (elsewhere : ∀ n, h.entry dest ≠ .ok (a, n)) :
    ∃ l g f', l ≠ a ∧ h'.entry dest = .ok (l, .file g) ∧ h'.entry asm = .ok (a, .file f') ∧
      (if h.tree.fileId? l = some f.id then g.content = [] ∧ f'.content = []
        else g.content = f.content ∧ f'.content = f.content) ∧
      ∀ k, k ≠ l → h.tree.fileId? k = none ∨ h.tree.fileId? k ≠ h.tree.fileId? l →
        h'.tree.shape k = h.tree.shape k := by
  obtain ⟨place, hplace, change⟩ := writesOnly_of_copy ht hh
  obtain ⟨g, hg, content, -⟩ := file_of_copy ht hh hasm hplace fun _ ↦
    isFile_of_copy ht hh hplace hdest
  have hl := node?_of_entry hasm
  have shows := Tree.shows_of_locate hplace
  have apart : place.location ≠ a := by
    cases place with
    | entry k n =>
      rintro rfl
      exact elsewhere n (entry_of_locate (Tree.locate_of_create hplace))
    | vacant k =>
      rintro rfl
      cases shows.symm.trans hl
  obtain ⟨f', hf', contents⟩ : ∃ f', h'.tree.node? a = some (.file f') ∧
      if h.tree.fileId? place.location = some f.id then g.content = [] ∧ f'.content = []
        else g.content = f.content ∧ f'.content = f.content := by
    split at content
    next twin =>
      obtain ⟨f', hf', empty⟩ := empty_of_copy ht hh hasm hplace twin
      exact ⟨f', hf', by rw [if_pos twin]; exact ⟨content, empty⟩⟩
    next other =>
      have shape := change.tree.shape_of_fileId? (Tree.fileId?_eq_some.mpr ⟨f, hl, rfl⟩) other
      obtain ⟨f', hf', -, kept⟩ := Tree.exists_file_of_shape_eq shape hl
      exact ⟨f', hf', by rw [if_neg other]; exact ⟨content, kept⟩⟩
  refine ⟨place.location, g, f', apart, ?_, ?_, contents, fun k hk hid ↦ ?_⟩
  · exact entry_of_locateNew ht change.written.sound change.written.ways.forth
      change.written.cwd_eq hplace hg
  · exact change.written.entry_after ht hasm hf' rfl
  · refine (change.tree.elsewhere k hk).resolve_right fun ⟨file, name, _⟩ ↦ ?_
    rcases hid with none | ne
    · simp [← name, none] at file
    · exact ne name

/-- A copy to a file of somebody else leaves the source as it was, unless that is the same file. -/
theorem entry_of_cleared (ht : h.tree.Sound) (withheld : h.Withholds dest g)
    (hasm : h.entry asm = .ok (a, .file f)) :
    ∃ f', (h.cleared g).entry asm = .ok (a, .file f') ∧
      f'.content = if f.id = g.id then [] else f.content := by
  obtain ⟨k, hentry, hwrite, -⟩ := withheld
  obtain ⟨-, -, change⟩ := writesOnly_create ht (create_of_entry ht hentry hwrite fileMode)
  have hl := node?_of_entry hasm
  split
  next same =>
    obtain ⟨f', hf', -, empty⟩ := file_of_cleared hl same
    exact ⟨f', change.written.entry_after ht hasm hf' rfl, empty⟩
  next other =>
    have kept := node?_cleared_of_ne hl other
    exact ⟨f, change.written.entry_after ht hasm kept rfl, rfl⟩

end Host

/-! ## Putting the assembly to its destination -/

namespace Build

/-- Nothing is done if the assembly is at its destination, and else it is copied. -/
theorem runIn_emitAssembly (tc : Toolchain σ) (o : BuildOptions) (s : Session σ) (asm : Path) :
    (emitAssembly tc o asm).runIn s =
      let dest := o.absolute o.assemblyOutput
      let noted := s.echoed tc s!"cp {asm.display} {dest.display}"
      if s.host.sameEntry asm dest then (.ok dest, s)
      else match s.host.copy asm dest with
        | (.ok (), h) => (.ok dest, noted.withHost h)
        | (.error cause, h) => (.error (.io (.copyingTo dest) cause), noted.withHost h) := by
  have asked : (emitAssembly tc o asm).runIn s =
      (if s.host.sameEntry asm (o.absolute o.assemblyOutput) then
          return o.absolute o.assemblyOutput
        else do
          copy tc asm asm.display (o.absolute o.assemblyOutput)
          return o.absolute o.assemblyOutput : Build σ Path).runIn s := rfl
  rw [asked]
  dsimp only
  split
  · rfl
  · rw [runIn_bind, runIn_copy]
    rcases s.host.copy asm (o.absolute o.assemblyOutput) with ⟨_ | _, h⟩ <;> rfl

/-- If putting the assembly to its destination succeeds, the destination leads to a file with the bytes
of the assembly, the assembly has kept them, and everything else is as it was, unless the destination is
a second name of the assembly: then both are empty.  Where the destination leads to the assembly itself
nothing happens at all.  Where the copy fails no file is changed, unless the destination is a file of
somebody else: then that is empty, and so is the assembly if it is the same file. -/
theorem emitted_assembly (tc : Toolchain σ) (o : BuildOptions) (ht : s.host.tree.Sound)
    (hasm : s.host.entry asm = .ok (a, .file f))
    (hdest : ∀ l n, s.host.entry (o.absolute o.assemblyOutput) = .ok (l, n) →
      (∃ g, n = .file g) ∨ ∃ d, n = .directory d) :
    let dest := o.absolute o.assemblyOutput
    let ended := (emitAssembly tc o asm).runIn s
    (∀ p, ended.1 = .ok p → p = dest ∧ ∃ l g f', ended.2.host.entry dest = .ok (l, .file g) ∧
      ended.2.host.entry asm = .ok (a, .file f') ∧
      (if l ≠ a ∧ s.host.tree.fileId? l = some f.id then g.content = [] ∧ f'.content = []
        else g.content = f.content ∧ f'.content = f.content) ∧
      ∀ k, k ≠ l → s.host.tree.fileId? k = none ∨ s.host.tree.fileId? k ≠ s.host.tree.fileId? l →
        ended.2.host.tree.shape k = s.host.tree.shape k) ∧
    (∀ n, s.host.entry dest = .ok (a, n) → ended = (.ok dest, s)) ∧
    ∀ e, ended.1 = .error e → ended.2.host = s.host ∨
      ∃ g f', s.host.Withholds dest g ∧ ended.2.host = s.host.cleared g ∧
        ended.2.host.entry asm = .ok (a, .file f') ∧
        f'.content = if f.id = g.id then [] else f.content := by
  intro dest ended
  have run : ended = _ := runIn_emitAssembly tc o s asm
  dsimp only at run
  have asked : s.host.sameEntry asm dest = true ↔ ∃ n, s.host.entry dest = .ok (a, n) :=
    Host.sameEntry_iff hasm
  by_cases same : s.host.sameEntry asm dest = true
  · rw [if_pos same] at run
    obtain ⟨n, hn⟩ := asked.mp same
    obtain rfl : Node.file f = n :=
      Option.some.inj ((Host.node?_of_entry hasm).symm.trans (Host.node?_of_entry hn))
    rw [run]
    refine ⟨fun p hp ↦ ⟨(Except.ok.inj hp).symm, a, f, f, hn, hasm, ?_, fun _ _ _ ↦ rfl⟩,
      fun _ _ ↦ rfl, fun _ he ↦ by cases he⟩
    rw [if_neg fun h ↦ h.1 rfl]
    exact ⟨rfl, rfl⟩
  rw [if_neg same] at run
  have elsewhere {n : Node} : s.host.entry dest ≠ .ok (a, n) := fun hn ↦ same (asked.mpr ⟨n, hn⟩)
  rcases hcopy : s.host.copy asm dest with ⟨cause | _, h'⟩
  · rw [hcopy] at run
    rw [run]
    refine ⟨fun _ hp ↦ (by cases hp), fun _ hn ↦ absurd hn elsewhere, fun _ _ ↦ ?_⟩
    refine (Host.host_of_copy_error ht hcopy).imp id ?_
    rintro ⟨g, withheld, -, rfl⟩
    obtain ⟨f', hf', content⟩ := Host.entry_of_cleared ht withheld hasm
    exact ⟨g, f', withheld, rfl, hf', content⟩
  · rw [hcopy] at run
    rw [run]
    refine ⟨fun p hp ↦ ⟨(Except.ok.inj hp).symm, ?_⟩, fun _ hn ↦ absurd hn elsewhere,
      fun _ he ↦ by cases he⟩
    obtain ⟨l, g, f', hne, hg, hf', contents, others⟩ := Host.files_of_copy ht hcopy hasm hdest
      fun _ ↦ elsewhere
    refine ⟨l, g, f', hg, hf', ?_, others⟩
    simpa only [hne, ne_eq, not_false_eq_true, true_and] using contents

/-! ## Samples -/

/-- The place at which assembly is asked for in the samples. -/
def outPlace : Location := [Bytes.ofString "w", Bytes.ofString "out.s"]

/-- The assembly that was written by hand. -/
def handFile : File :=
  { Attributes.fresh fileMode Tree.empty.now with id := 4, content := Bytes.ofString "hand" }

/-- The host on which a link to the assembly stands where it is asked for. -/
def linkedToHand : Host :=
  { handwritten with
    tree := (handwritten.tree.addFile outPlace [] fileMode).set outPlace
      (.link ⟨.ofString "./wallet.s", 0⟩) }

theorem sound_linkedToHand : linkedToHand.tree.Sound :=
  (sound_handwritten.addFile (by decide) (by decide) _ _).set (by decide)
    (Tree.node?_addFile_self (by decide) _ _ _) rfl rfl rfl

/-- The host on which the assembly has a second name where it is asked for. -/
def twinnedHand : Host :=
  { handwritten with tree := handwritten.tree.set outPlace (.file handFile) }

theorem sound_twinnedHand : twinnedHand.tree.Sound :=
  sound_handwritten.setFile (by decide) (by decide) (Nat.le_refl _) (by decide)

/-- Assembly that is asked for behind a link to it stays where it is. -/
theorem emitted_assembly_sample :
    let s : Session Unit := ⟨linkedToHand, .persistent intoFile.workingDir, (), []⟩
    let asm := Path.ofString "/w/wallet.s"
    let out := Path.ofString "/w/out.s"
    s.host.entry asm = .ok ([Bytes.ofString "w", Bytes.ofString "wallet.s"], .file handFile) ∧
      (emitAssembly .idle intoFile asm).runIn s = (.ok out, s) ∧
      ∃ l g, s.host.entry out = .ok (l, .file g) ∧ g.content = Bytes.ofString "hand" := by
  intro s asm out
  have hasm : s.host.entry asm =
      .ok ([Bytes.ofString "w", Bytes.ofString "wallet.s"], .file handFile) := by decide +kernel
  have hout : s.host.entry out =
      .ok ([Bytes.ofString "w", Bytes.ofString "wallet.s"], .file handFile) := by decide +kernel
  have same : intoFile.absolute intoFile.assemblyOutput = out := by decide +kernel
  obtain ⟨emitted, still, -⟩ := emitted_assembly Toolchain.idle intoFile sound_linkedToHand
    hasm fun l n hn ↦ by
      obtain ⟨-, rfl⟩ := Prod.mk.inj (Except.ok.inj (hout.symm.trans (same ▸ hn)))
      exact .inl ⟨_, rfl⟩
  rw [same] at emitted still
  have ended := still _ hout
  rw [ended] at emitted
  obtain ⟨-, l, g, f', hg, -, contents, -⟩ := emitted out rfl
  obtain ⟨rfl, hfile⟩ := Prod.mk.inj (Except.ok.inj (hg.symm.trans hout))
  rw [if_neg fun h ↦ h.1 rfl] at contents
  exact ⟨hasm, ended, _, g, hg, contents.1⟩

/-- Assembly that is asked for under a second name of its file is lost under both, and the build goes
on as if it were there. -/
theorem emitted_assembly_lost :
    let s : Session Unit := ⟨twinnedHand, .persistent intoFile.workingDir, (), []⟩
    let asm := Path.ofString "/w/wallet.s"
    let out := Path.ofString "/w/out.s"
    let ended := (emitAssembly .idle intoFile asm).runIn s
    s.host.tree.Sound ∧ s.host.read asm = .ok (Bytes.ofString "hand") ∧ ended.1 = .ok out ∧
      ended.2.host.read out = .ok [] ∧ ended.2.host.read asm = .ok [] := by
  intro s asm out ended
  exact ⟨sound_twinnedHand, by decide +kernel, by decide +kernel, by decide +kernel,
    by decide +kernel⟩

end Build

end ContractBuild
