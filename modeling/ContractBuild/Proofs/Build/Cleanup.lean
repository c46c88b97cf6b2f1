import ContractBuild.Proofs.Artifact.Names
import ContractBuild.Proofs.Build.Following
import ContractBuild.Proofs.FileSystem.Ways
import ContractBuild.Proofs.FileSystem.Removal
import ContractBuild.Proofs.Tool.Output

/-!
# Giving up what is temporary

The files on record lie in the directory of the store, whatever the tools do.  An ephemeral store
removes them and then that directory, and nothing outside it changes.
-/

namespace ContractBuild

variable {σ : Type} {tc : Toolchain σ} {o : BuildOptions} {dir : Path} {d : Location}

theorem Toolchain.KeepsSound.logging (htools : tc.KeepsSound) : tc.logging.KeepsSound :=
  fun i st h ht ↦ htools i st.1 h ht

/-- Reserving a file adds it, or does nothing. -/
theorem ArtifactStore.adds_reserve {h : Host} (ht : h.tree.Sound) (s : ArtifactStore)
    (kind : ArtifactKind) : h.Adds (s.reserve h kind).2.2 := by
  cases hr : (s.reserve h kind).1 with
  | error e =>
    rw [ArtifactStore.host_of_reserve_error hr]
    exact .refl ht
  | ok p => exact Host.adds_write ht (ArtifactStore.write_of_reserve hr).2

/-- New files have names in the directory that they go to. -/
theorem ArtifactStore.exists_name_of_nextPath {s : ArtifactStore} {kind : ArtifactKind} {p : Path}
    (hdir : s.dir? = some dir) (hnext : s.nextPath? kind = some p) :
    ∃ name : Path, name.IsName ∧ p = dir.join name := by
  rw [ArtifactStore.nextPath?, hdir, Option.map_some, Option.some.injEq] at hnext
  exact ⟨_, ArtifactKind.isName_fileName kind _, hnext.symm⟩

/-- Whether a session has a sound tree, a directory for new files and its files on record there. -/
structure Session.Stocked (dir : Path) (s : Session σ) : Prop where
  /-- The tree is sound. -/
  sound : s.host.tree.Sound
  /-- New files go to the directory. -/
  dir?_eq : s.store.dir? = some dir
  /-- The files on record are there. -/
  created : ∀ a ∈ s.store.created, ∃ name : Path, name.IsName ∧ a.path = dir.join name

namespace Session.Stocked

variable {s : Session σ}

/-- A reserved file lies in the directory. -/
theorem reserved (hs : s.Stocked dir) (kind : ArtifactKind) : (s.reserved kind).Stocked dir ∧
    ∀ p, (s.store.reserve s.host kind).1 = .ok p → ∃ name : Path, name.IsName ∧ p = dir.join name := by
  have named {p : Path} (hnext : s.store.nextPath? kind = some p) :=
    ArtifactStore.exists_name_of_nextPath hs.dir?_eq hnext
  refine ⟨⟨?_, ?_, fun a ha ↦ ?_⟩, fun p hp ↦ named (ArtifactStore.write_of_reserve hp).1⟩
  · exact (ArtifactStore.adds_reserve hs.sound s.store kind).sound
  · simpa [Session.reserved, ArtifactStore.dir?] using hs.dir?_eq
  · exact (ArtifactStore.mem_created_reserve ha).elim (hs.created a) named

theorem called (hs : s.Stocked dir) (htools : tc.KeepsSound) (i : Invocation) :
    (s.called tc i).Stocked dir :=
  ⟨htools i s.tools s.host hs.sound, hs.dir?_eq, hs.created⟩

/-- A session starts with a directory and nothing on record. -/
theorem of_start {tools : σ} {h : Host} (ht : h.tree.Sound) (hs : Session.start o tools h = .ok s) :
    ∃ dir, s.Stocked dir := by
  rcases Session.start_cases hs with ⟨-, rfl⟩ | ⟨-, dir, h', hmade, rfl⟩
  · exact ⟨o.workingDir, ht, rfl, fun a ha ↦ by cases ha⟩
  · obtain ⟨d, -, houses, -, -⟩ :=
      Host.houses_makeTemporary ht Host.mem_temporaryStems_build hmade
    exact ⟨dir, houses.sound, rfl, fun a ha ↦ by cases ha⟩

/-- Giving up what is temporary removes the files on record and then the directory. -/
theorem host_cleanup (hb : s.store.backend = .ephemeral (some dir)) :
    s.cleanup.host =
      (((s.store.created.filter fun a ↦ !a.persistent).map (·.path)).foldl Host.removeFile
        s.host).removeDirectory dir := by
  unfold Session.cleanup ArtifactStore.cleanup
  rw [hb]
  simp only [List.foldl_map]

/-- Nothing outside the directory changes. -/
theorem changesWithin_cleanup (hs : s.Stocked dir) (hb : s.store.backend = .ephemeral (some dir))
    (hd : s.host.HasDirectory dir d) : s.host.ChangesWithin s.cleanup.host d := by
  have names : ∀ p ∈ (s.store.created.filter fun a ↦ !a.persistent).map (·.path),
      ∃ name : Path, name.IsName ∧ p = dir.join name := by
    intro p hp
    obtain ⟨a, ha, rfl⟩ := List.mem_map.mp hp
    exact hs.created a (List.mem_filter.mp ha).1
  obtain ⟨removed, still⟩ := hd.removeFiles names
  rw [host_cleanup hb]
  exact removed.trans still.removeDirectory

end Session.Stocked

namespace Build

/-- The file of a stage lies in the directory, whatever its tool does. -/
theorem ends_produce_stocked (htools : tc.KeepsSound) {kind : ArtifactKind}
    {command : Path → Invocation} {s : Session σ} (hs : s.Stocked dir) :
    Ends (produce tc o kind command) s
      (fun p s' ↦ s'.Stocked dir ∧ ∃ name : Path, name.IsName ∧ p = dir.join name)
      (fun _ s' ↦ s'.Stocked dir) := by
  obtain ⟨reserved, named⟩ := hs.reserved kind
  refine ends_bind.mpr (ends_reserve.mpr ⟨fun p hp ↦ ?_, fun e he ↦ reserved⟩)
  have called := reserved.called htools ((command p).inDir o.workingDir)
  exact ends_bind.mpr (ends_tool.mpr ⟨fun _ _ ↦ ends_pure.mpr ⟨called, named p hp⟩, fun _ _ ↦ called⟩)

end Build

end ContractBuild
