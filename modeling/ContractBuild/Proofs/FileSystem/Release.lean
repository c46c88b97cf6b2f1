import ContractBuild.Proofs.FileSystem.Ways
import ContractBuild.Proofs.FileSystem.Removal

/-!
# Directories that are given up

A directory can be removed if its path leads to it and the user may change what has to be changed
for that.  Removing it leaves nothing of it and takes nothing else away.  What the path of a
directory leads to depends on directories and links only, so it can still be removed, or is still
gone, after files have been written anywhere.
-/

namespace ContractBuild

variable {h h' h'' : Host} {dir p name : Path} {d k l : Location}

namespace Tree.SameWays

variable {t t' : Tree}

theorem of_shape_eq (h : ∀ k, t'.shape k = t.shape k) : SameWays t t' :=
  ⟨fun k _ ↦ h k, fun k _ ↦ (h k).symm⟩

theorem directoryId?_eq (h : SameWays t t') (k : Location) :
    t'.directoryId? k = t.directoryId? k := by
  cases hk : t.leads k with
  | true => exact directoryId?_of_shape_eq (h.forth k hk)
  | false =>
    rw [directoryId?_of_not_leads hk, directoryId?_of_not_leads ((h.leads_eq k).trans hk)]

end Tree.SameWays

namespace Host

/-- A path that leads to a directory or a link leads to one in a host with the same directories and
links. -/
theorem locateLink_of_keepsWays (habs : dir.isAbsolute) (hplain : dir.endsInSlash = false)
    (ht : h.tree.Sound) (hways : h.tree.KeepsWays h'.tree) {n : Node}
    (hl : h.locateLink dir = .ok (.entry l n)) (lead : n.leads = true) :
    ∃ n', h'.locateLink dir = .ok (.entry l n') ∧ n'.leads = true := by
  obtain ⟨good, reaches⟩ := (locateLink_eq_ok_iff habs hplain).mp hl
  have shows : h.tree.node? l = some n := reaches.shows
  have onward : h.tree.leads l = true := by simp [Tree.leads, shows, lead]
  obtain ⟨n', hn', walk⟩ := reaches.walk_of_keepsWays ht hways (Tree.isSome_directoryId?_root _)
    (fun _ _ hp hlead ↦ by
      obtain ⟨-, rfl⟩ := Place.entry.inj hp
      cases hlead.symm.trans lead)
    fun _ hp ↦ by cases hp
  have onward' : h'.tree.leads l = true :=
    (Tree.leads_of_shape_eq (hways l onward)).trans onward
  refine ⟨n', (locateLink_eq_ok_iff habs hplain).mpr ⟨good, Tree.reaches_iff.mpr walk⟩, ?_⟩
  simpa [Tree.leads, show h'.tree.node? l = some n' from hn'] using onward'

/-! ## What can be removed, and what is gone -/

/-- Whether a path leads to a directory that the user may remove with all it holds. -/
structure Removable (h : Host) (dir : Path) (d : Location) : Prop extends
    h.HasDirectory dir d where
  /-- The directory above it may be changed. -/
  above : h.tree.allows d.dropLast .write = true
  /-- Anything may be done with it and with every directory in it. -/
  own : ∀ k, d <+: k → (h.tree.directoryId? k).isSome → ∀ what, h.tree.allows k what = true

/-- Whether there is no directory at a location, and none that a path leads to, nor a link. -/
structure Gone (h : Host) (dir : Path) (d : Location) : Prop where
  /-- The tree is sound. -/
  sound : h.tree.Sound
  /-- The path is absolute. -/
  isAbsolute : dir.isAbsolute
  /-- It does not end in a slash. -/
  endsInSlash : dir.endsInSlash = false
  /-- Nothing at the location leads on. -/
  free : h.tree.leads d = false
  /-- Nor does anything that the path leads to. -/
  nowhere : ∀ l n, h.locateLink dir = .ok (.entry l n) → n.leads = false

/-- Whether a directory can be removed or is gone. -/
def Releasable (h : Host) (dir : Path) (d : Location) : Prop := h.Removable dir d ∨ h.Gone dir d

/-- From one host to another a directory stays as one that can be removed, or goes, and does not
come back. -/
structure KeepsReleasable (h h' : Host) (dir : Path) (d : Location) : Prop where
  /-- It can still be removed, or is gone. -/
  removable : h.Removable dir d → h'.Releasable dir d
  /-- It is gone for good. -/
  gone : h.Gone dir d → h'.Gone dir d

namespace KeepsReleasable

theorem releasable (hk : h.KeepsReleasable h' dir d) (hr : h.Releasable dir d) :
    h'.Releasable dir d :=
  hr.elim hk.removable fun hg ↦ .inr (hk.gone hg)

theorem trans (first : h.KeepsReleasable h' dir d) (second : h'.KeepsReleasable h'' dir d) :
    h.KeepsReleasable h'' dir d :=
  ⟨fun hr ↦ second.releasable (first.removable hr), fun hg ↦ second.gone (first.gone hg)⟩

end KeepsReleasable

/-- What can be removed lies in a directory. -/
theorem HasDirectory.isSome_above (hd : h.HasDirectory dir d) :
    (h.tree.directoryId? d.dropLast).isSome := by
  obtain ⟨n, hn, -⟩ := hd.reaches
  exact hd.sound.directoryId?_dropLast (Tree.isSome_directoryId?.mpr ⟨n, hn⟩)

/-- A directory can be removed as long as directories and links stay. -/
theorem Removable.of_sameWays (hr : h.Removable dir d) (ht' : h'.tree.Sound)
    (ways : h.tree.SameWays h'.tree) : h'.Removable dir d where
  toHasDirectory := hr.of_ways ht' fun k _ ↦ ways.forth k
  above := by
    rw [Tree.allows_of_shape_eq (ways.forth _ (Tree.leads_of_directoryId? hr.isSome_above))]
    exact hr.above
  own k hk hdir what := by
    rw [ways.directoryId?_eq k] at hdir
    rw [Tree.allows_of_shape_eq (ways.forth k (Tree.leads_of_directoryId? hdir))]
    exact hr.own k hk hdir what

/-- A directory is gone as long as none comes, nor a link. -/
theorem Gone.of_keepsWays (hg : h.Gone dir d) (ht' : h'.tree.Sound)
    (back : h'.tree.KeepsWays h.tree) : h'.Gone dir d where
  sound := ht'
  isAbsolute := hg.isAbsolute
  endsInSlash := hg.endsInSlash
  free := by
    by_contra lead
    rw [Bool.not_eq_false] at lead
    exact absurd ((Tree.leads_of_shape_eq (back d lead)).trans lead) (by simp [hg.free])
  nowhere l n hl := by
    by_contra lead
    rw [Bool.not_eq_false] at lead
    obtain ⟨n', hn', lead'⟩ :=
      locateLink_of_keepsWays hg.isAbsolute hg.endsInSlash ht' back hl lead
    simp [hg.nowhere l n' hn'] at lead'

theorem keepsReleasable_of_sameWays (ht' : h'.tree.Sound) (ways : h.tree.SameWays h'.tree) :
    h.KeepsReleasable h' dir d :=
  ⟨fun hr ↦ .inl (hr.of_sameWays ht' ways), fun hg ↦ hg.of_keepsWays ht' ways.back⟩

/-! ## Hosts from which a directory has been removed -/

/-- From one host to another nothing has been removed but a directory with all it held. -/
structure Releases (h h' : Host) (d : Location) : Prop where
  /-- Every entry that does not lie there stays. -/
  kept : ∀ k, ¬ d <+: k → (h.tree.node? k).isSome → (h'.tree.node? k).isSome
  /-- No directory comes. -/
  made : ∀ k, (h'.tree.directoryId? k).isSome → (h.tree.directoryId? k).isSome
  /-- There is no directory at the location. -/
  gone : h'.tree.directoryId? d = none
  /-- Nothing lies below it. -/
  empty : ∀ k, d <+: k → k ≠ d → h'.tree.node? k = none

/-- A directory may be removed after files have been added. -/
theorem Adds.releases (first : h.Adds h') (second : h'.Releases h'' d) : h.Releases h'' d where
  kept k hk hn := second.kept k hk (first.kept k hn)
  made k hk := first.ways.directoryId?_eq k ▸ second.made k hk
  gone := second.gone
  empty := second.empty

theorem ChangesWithin.releases (hw : h.ChangesWithin h' d)
    (removed : ∀ k, d <+: k → h'.tree.node? k = none) : h.Releases h' d where
  kept k hk hn := by rwa [← Tree.isSome_shape, hw.elsewhere k hk, Tree.isSome_shape]
  made k hk := by
    have outside : ¬ d <+: k := fun hd ↦ by simp [Tree.directoryId?, removed k hd] at hk
    rwa [← Tree.directoryId?_of_shape_eq (hw.elsewhere k outside)]
  gone := by rw [Tree.directoryId?, removed d (List.prefix_refl d), Option.bind_none]
  empty k hk _ := removed k hk

/-- Where a directory is gone, nothing has to be removed. -/
theorem Gone.releases (hg : h.Gone dir d) : h.Releases h d := by
  have free := Tree.directoryId?_of_not_leads hg.free
  exact ⟨fun _ _ hn ↦ hn, fun _ hk ↦ hk, free,
    fun k hk hne ↦ hg.sound.node?_eq_none_of_prefix free hk hne.symm⟩

/-! ## Removing it -/

/-- What is not removed with a file is as it was. -/
theorem shape_removeFile (h : Host) (p : Path) (k : Location) :
    (h.removeFile p).tree.shape k = h.tree.shape k ∨ (h.removeFile p).tree.node? k = none := by
  unfold removeFile
  split
  next h' hh =>
    obtain ⟨place, -, hh⟩ := exists_of_bind_eq_ok hh
    split at hh
    next => cases hh
    next => split at hh <;> cases hh
    next l n _ =>
      split at hh
      · cases hh
      · obtain rfl := eq_of_changeAbove hh
        rw [withTree, Tree.shape_noteChange, ← Option.not_isSome_iff_eq_none,
          Tree.isSome_noteChange, Option.not_isSome_iff_eq_none, Tree.shape, Tree.shape]
        by_cases hk : k = l
        · by_cases hl : l = []
          · exact .inl (by rw [hk, hl, Tree.node?_root, Tree.node?_root])
          · exact .inr (hk ▸ Tree.node?_erase_self hl h.tree)
        · exact .inl (by rw [Tree.node?_erase_of_ne hk])
  next => exact .inl rfl

/-- A directory can be removed after a file in it has been removed. -/
theorem Removable.removeFile (hr : h.Removable dir d) (hname : name.IsName) :
    (h.removeFile (dir.join name)).Removable dir d := by
  obtain ⟨within, still⟩ := hr.toHasDirectory.removeFile hname
  refine ⟨still, ?_, fun k hk hdir what ↦ ?_⟩
  · rw [Tree.allows_of_shape_eq (within.elsewhere _ (Tree.not_prefix_dropLast hr.ne_nil))]
    exact hr.above
  · rcases h.shape_removeFile (dir.join name) k with same | none
    · rw [Tree.directoryId?_of_shape_eq same] at hdir
      rw [Tree.allows_of_shape_eq same]
      exact hr.own k hk hdir what
    · simp [Tree.directoryId?, none] at hdir

/-- So it can after several have been. -/
theorem Removable.removeFiles (hr : h.Removable dir d) {paths : List Path}
    (hpaths : ∀ p ∈ paths, ∃ name : Path, name.IsName ∧ p = dir.join name) :
    (paths.foldl Host.removeFile h).Removable dir d := by
  induction paths generalizing h with
  | nil => exact hr
  | cons p ps ih =>
    obtain ⟨name, hname, rfl⟩ := hpaths p List.mem_cons_self
    exact ih (hr.removeFile hname) fun q hq ↦ hpaths q (List.mem_cons_of_mem _ hq)

namespace Removable

variable (hr : h.Removable dir d)

include hr

/-- All of it is removed. -/
theorem node?_removeDirectory (hk : d <+: k) : (h.removeDirectory dir).tree.node? k = none := by
  refine hr.toHasDirectory.node?_removeDirectory (fun l e hl he ↦ ?_) hr.above hk
  have own := hr.own l hl (Tree.isSome_directoryId?.mpr ⟨e, he⟩)
  simp [isOpenDirectory, own]

/-- What is left is the host without it. -/
theorem sameWays_removeDirectory :
    (h.without d).tree.SameWays (h.removeDirectory dir).tree := by
  refine .of_shape_eq fun k ↦ ?_
  by_cases hk : d <+: k
  · rw [Tree.shape, hr.node?_removeDirectory hk, Tree.shape, node?_without_of_prefix hr.ne_nil hk]
  · rw [hr.removeDirectory.elsewhere k hk, shape_without hk]

/-- Its path leads nowhere any more. -/
theorem gone_removeDirectory : (h.removeDirectory dir).Gone dir d := by
  have within := hr.removeDirectory
  have removed {k : Location} (hk : d <+: k) := hr.node?_removeDirectory hk
  refine ⟨within.sound, hr.isAbsolute, hr.endsInSlash, ?_, fun l n hl ↦ ?_⟩
  · rw [Tree.leads, removed (List.prefix_refl d), Option.any_none]
  -- the path led to the directory by a way outside it, and that way is still there
  · by_contra lead
    rw [Bool.not_eq_false] at lead
    have ways : (h.removeDirectory dir).tree.KeepsWays (h.tree.eraseInside d) := by
      intro k hk
      have outside : ¬ d <+: k := fun hd ↦ by simp [Tree.leads, removed hd] at hk
      rw [within.elsewhere k outside]
      refine Tree.shape_eraseInside ?_
      by_contra below
      exact outside (Tree.isBelow_iff.mp (by simpa using below)).1
    obtain ⟨n', hn', -⟩ :
        ∃ n', (h.withTree (h.tree.eraseInside d)).locateLink dir = .ok (.entry l n') ∧ _ :=
      locateLink_of_keepsWays hr.isAbsolute hr.endsInSlash within.sound ways hl lead
    obtain ⟨e, he⟩ := hr.leads
    obtain ⟨rfl, -⟩ := Place.entry.inj (Except.ok.inj (hn'.symm.trans he))
    cases (removed (List.prefix_refl l)).symm.trans (Tree.shows_of_locate hl)

end Removable

/-- Where nothing is led to, no name behind it can be looked up. -/
theorem Gone.locateName_ne (hg : h.Gone dir d) (hname : name.IsName) (place : Place) :
    h.locateName (dir.join name) ≠ .ok place := by
  intro hp
  rw [locateName, Path.trimSlashes_of_endsInSlash (Path.endsInSlash_join hname)] at hp
  obtain ⟨⟨zero, -, short⟩, reaches⟩ :=
    (locateLink_eq_ok_iff (Path.isAbsolute_join hg.isAbsolute name)
      (Path.endsInSlash_join hname)).mp hp
  rw [Path.steps_join hname] at reaches
  obtain ⟨l, n, there, lead⟩ := reaches.of_append hg.sound (Tree.isSome_directoryId?_root _) (by simp)
  obtain ⟨bs, hbs⟩ := Path.eq_slash_cons hg.isAbsolute
  have start : dir.raw <+: (dir.join name).raw := Path.raw_prefix_join hname.isAbsolute
  have found : h.locateLink dir = .ok (.entry l n) :=
    (locateLink_eq_ok_iff hg.isAbsolute hg.endsInSlash).mpr
      ⟨⟨fun h0 ↦ zero (start.subset h0), by simp [hbs], Nat.lt_of_le_of_lt start.length_le short⟩,
        there⟩
  cases (hg.nowhere l n found).symm.trans lead

/-- Removing files from it changes nothing. -/
theorem Gone.removeFiles (hg : h.Gone dir d) {paths : List Path}
    (hpaths : ∀ p ∈ paths, ∃ name : Path, name.IsName ∧ p = dir.join name) :
    paths.foldl Host.removeFile h = h := by
  induction paths with
  | nil => rfl
  | cons p ps ih =>
    obtain ⟨name, hname, rfl⟩ := hpaths p List.mem_cons_self
    have refused : h.removeFile (dir.join name) = h := by
      unfold Host.removeFile unlink
      cases hp : h.locateName (dir.join name) with
      | ok place => exact absurd hp (hg.locateName_ne hname place)
      | error e => rfl
    rw [List.foldl_cons, refused]
    exact ih fun q hq ↦ hpaths q (List.mem_cons_of_mem _ hq)

/-- Nor does removing the directory. -/
theorem Gone.removeDirectory (hg : h.Gone dir d) : h.removeDirectory dir = h := by
  unfold Host.removeDirectory
  split
  next hl => cases hg.nowhere _ _ hl
  next hl => cases hg.nowhere _ _ hl
  next => rfl

namespace Releasable

/-- Giving a directory up with its files leaves nothing of it, and it is gone for good. -/
theorem close (hr : h.Releasable dir d) {paths : List Path}
    (hpaths : ∀ p ∈ paths, ∃ name : Path, name.IsName ∧ p = dir.join name) :
    h.Releases ((paths.foldl Host.removeFile h).removeDirectory dir) d ∧
      ((paths.foldl Host.removeFile h).removeDirectory dir).Gone dir d := by
  rcases hr with hr | hg
  · obtain ⟨removed, -⟩ := hr.toHasDirectory.removeFiles hpaths
    have still := hr.removeFiles hpaths
    refine ⟨(removed.trans still.removeDirectory).releases ?_, still.gone_removeDirectory⟩
    exact fun k hk ↦ still.node?_removeDirectory hk
  · rw [hg.removeFiles hpaths, hg.removeDirectory]
    exact ⟨hg.releases, hg⟩

theorem removeDirectory (hr : h.Releasable dir d) :
    h.Releases (h.removeDirectory dir) d ∧ (h.removeDirectory dir).Gone dir d :=
  hr.close (List.forall_mem_nil _)

/-- What is left is the host without it. -/
theorem sameWays (hr : h.Releasable dir d) :
    (h.without d).tree.SameWays (h.removeDirectory dir).tree := by
  rcases hr with hr | hg
  · exact hr.sameWays_removeDirectory
  · rw [hg.removeDirectory]
    have inside {k : Location} (hk : d <+: k) : h.tree.leads k = false := by
      by_cases hne : d = k
      · exact hne ▸ hg.free
      · have free := Tree.directoryId?_of_not_leads hg.free
        rw [Tree.leads, hg.sound.node?_eq_none_of_prefix free hk hne, Option.any_none]
    have ne : d ≠ [] := by
      rintro rfl
      cases hg.free
    refine ⟨keepsWays_of_without ne fun _ _ _ ↦ rfl, fun k lead ↦ shape_without fun hk ↦ ?_⟩
    cases (inside hk).symm.trans lead

end Releasable

/-! ## New temporary directories -/

/-- Hosts with the same directories and links have the same ones outside a directory. -/
theorem sameWays_without (hd : d ≠ []) (ways : h.tree.SameWays h'.tree) :
    (h.without d).tree.SameWays (h'.without d).tree :=
  ⟨keepsWays_of_without hd fun k hk lead ↦ (shape_without hk).trans (ways.forth k lead),
    keepsWays_of_without hd fun k hk lead ↦ (shape_without hk).trans (ways.back k lead)⟩

/-- The user may do anything with a temporary directory. -/
theorem allows_private (time : Moment) (what : Access) :
    (Attributes.fresh programMode time).allows what = true := by
  change Nat.testBit programMode (what.bit + 6) = true
  cases what <;> decide

variable {stem : String} (free : h.HasFree p d)

include free

theorem HasFree.ne_nil : d ≠ [] := by
  rintro rfl
  cases (Tree.node?_root _).symm.trans (free.node?_eq_none (List.prefix_refl []))

/-- A temporary directory that has just been made can be removed. -/
theorem HasFree.removable_of_makeTemporary (houses : h.tree.Houses d h'.tree)
    (hmade : h.makeTemporary stem = .ok (p, h')) : h'.Removable p d := by
  obtain ⟨allowed, rfl⟩ := free.eq_of_makeTemporary hmade
  refine ⟨free.hasDirectory houses.sound houses.ways houses.home, ?_, fun k hk hdir what ↦ ?_⟩
  · have home := isSome_directoryId?_of_vacant free.sound free.vacant
    rw [Tree.allows_of_shape_eq (houses.ways _ (Tree.leads_of_directoryId? home))]
    exact allowed
  · have here := free.node?_of_makeTemporary hmade hk
    split at here
    next =>
      rw [Tree.allows, here, Option.all_some, Node.allows, Node.attributes?, Option.all_some]
      exact allows_private h.tree.now what
    next => simp [Tree.directoryId?, here] at hdir

/-- Without it everything is as it was. -/
theorem HasFree.sameWays_without (confined : h.tree.Confined d h'.tree) :
    h.tree.SameWays (h'.without d).tree := by
  refine .of_shape_eq fun k ↦ ?_
  by_cases hk : d <+: k
  · rw [Tree.shape, node?_without_of_prefix free.ne_nil hk, Tree.shape, free.node?_eq_none hk]
  · rw [shape_without hk, confined.elsewhere k hk]

end Host

end ContractBuild
