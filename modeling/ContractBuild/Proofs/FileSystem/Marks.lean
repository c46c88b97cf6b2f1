import ContractBuild.Proofs.FileSystem.Destinations
import ContractBuild.Proofs.FileSystem.Release

/-!
# Directories that stay under their paths

A path marks a location if it names that and no link stands there.  What is removed under such a path
lies at the location or below it.  If the location also encloses what it holds, with no link in it and
no file that has another name outside, then whatever is written under a name behind the path stays
there, too.
-/

namespace ContractBuild.Host

variable {h h' h'' : Host} {dir name q : Path} {d k l : Location} {place : Place} {m : Manner}

/-! ## Paths that name a location -/

/-- Whether an absolute path names a location at which no link stands. -/
structure Marks (h : Host) (dir : Path) (d : Location) : Prop where
  /-- The tree is sound. -/
  sound : h.tree.Sound
  /-- The path is absolute. -/
  isAbsolute : dir.isAbsolute
  /-- It does not end in a slash. -/
  endsInSlash : dir.endsInSlash = false
  /-- It names the location. -/
  there : ∃ place, h.locateLink dir = .ok place ∧ place.location = d
  /-- No link stands there. -/
  plain : ∀ n, h.tree.node? d ≠ some (.link n)

/-- Whether an absolute path leads on, if it does at all, from a directory at a location. -/
structure LeadsOnlyTo (h : Host) (dir : Path) (d : Location) : Prop where
  /-- The tree is sound. -/
  sound : h.tree.Sound
  /-- The path is absolute. -/
  isAbsolute : dir.isAbsolute
  /-- It does not end in a slash. -/
  endsInSlash : dir.endsInSlash = false
  /-- What it leads to and what leads on is the directory. -/
  only : ∀ l n, h.locateLink dir = .ok (.entry l n) → n.leads = true →
    l = d ∧ (h.tree.directoryId? d).isSome

theorem Marks.leadsOnlyTo (hm : h.Marks dir d) : h.LeadsOnlyTo dir d where
  sound := hm.sound
  isAbsolute := hm.isAbsolute
  endsInSlash := hm.endsInSlash
  only l n hl lead := by
    obtain ⟨place, hplace, hd⟩ := hm.there
    obtain rfl := Except.ok.inj (hplace.symm.trans hl)
    obtain rfl : l = d := hd
    have shows : h.tree.node? l = some n := Tree.shows_of_locate hl
    cases n with
    | directory e => exact ⟨rfl, Tree.isSome_directoryId?.mpr ⟨e, shows⟩⟩
    | link e => exact absurd shows (hm.plain e)
    | _ => cases lead

/-- A new directory has its path. -/
theorem HasFree.marks (free : h.HasFree dir d) (houses : h.tree.Houses d h'.tree) :
    h'.Marks dir d := by
  obtain ⟨e, he⟩ := free.locateLink_eq houses
  refine ⟨houses.sound, free.isAbsolute, free.endsInSlash, ⟨_, he, rfl⟩, fun n hn ↦ ?_⟩
  cases (Tree.shows_of_locate he : h'.tree.node? d = _).symm.trans hn

/-- A path names the same location as long as directories and links stay. -/
theorem Marks.of_keepsWays (hm : h.Marks dir d) (ht' : h'.tree.Sound)
    (ways : h.tree.KeepsWays h'.tree) (plain : ∀ n, h'.tree.node? d ≠ some (.link n)) :
    h'.Marks dir d where
  sound := ht'
  isAbsolute := hm.isAbsolute
  endsInSlash := hm.endsInSlash
  there := by
    obtain ⟨place, hplace, hd⟩ := hm.there
    obtain ⟨good, reaches⟩ := (locateLink_eq_ok_iff hm.isAbsolute hm.endsInSlash).mp hplace
    have root := Tree.isSome_directoryId?_root h.tree
    obtain ⟨place', hplace', reaches'⟩ :=
      reaches.exists_of_keepsWays hm.sound ways root (.inr ⟨rfl, rfl⟩)
    exact ⟨place', (locateLink_eq_ok_iff hm.isAbsolute hm.endsInSlash).mpr ⟨good, reaches'⟩,
      hplace'.trans hd⟩
  plain := plain

theorem Marks.of_sameWays (hm : h.Marks dir d) (ht' : h'.tree.Sound)
    (ways : h.tree.SameWays h'.tree) : h'.Marks dir d :=
  hm.of_keepsWays ht' ways.forth fun n hn ↦ by
    obtain ⟨n', hn', -⟩ := ways.back.link hn
    exact hm.plain n' hn'

/-- A new directory does not come into its way. -/
theorem Marks.of_houses (hm : h.Marks dir d) (houses : h.tree.Houses l h'.tree)
    (confined : h.tree.Confined l h'.tree) : h'.Marks dir d := by
  refine hm.of_keepsWays houses.sound houses.ways fun n hn ↦ ?_
  by_cases hl : l <+: d
  · exact houses.not_link hl n hn
  · obtain ⟨n', hn', -⟩ := Tree.exists_link_of_shape_eq (confined.elsewhere d hl).symm hn
    exact hm.plain n' hn'

/-! ## What only removes -/

/-- Whether a host differs from an earlier one only at a location and below it, where no directory and
no link has come. -/
structure RemovesWithin (h h' : Host) (d : Location) : Prop extends h.ChangesWithin h' d where
  /-- What leads on was there. -/
  back : h'.tree.KeepsWays h.tree

namespace RemovesWithin

theorem refl (ht : h.tree.Sound) (d : Location) : h.RemovesWithin h d := ⟨.refl ht d, fun _ _ ↦ rfl⟩

theorem trans (first : h.RemovesWithin h' d) (second : h'.RemovesWithin h'' d) :
    h.RemovesWithin h'' d :=
  ⟨first.toChangesWithin.trans second.toChangesWithin, second.back.trans first.back⟩

/-- Erasing one location is a removal. -/
theorem of_erase {t : Tree} (ht : t.Sound) (hl : d <+: l)
    (same : ∀ k, t.shape k = (h.tree.erase l).shape k) : h.RemovesWithin (h.withTree t) d := by
  have elsewhere (k : Location) (hk : k ≠ l) : t.shape k = h.tree.shape k :=
    (same k).trans (congrArg _ (Tree.node?_erase_of_ne hk _))
  refine ⟨⟨ht, fun k hk ↦ elsewhere k ?_, rfl⟩, fun k lead ↦ ?_⟩
  · rintro rfl
    exact hk hl
  · by_cases hk : k = l
    · subst hk
      by_cases hroot : k = []
      · simp [hroot, withTree, Tree.shape]
      · rw [withTree, Tree.leads_of_shape_eq (same k), Tree.leads, Tree.node?_erase_self hroot] at lead
        cases lead
    · exact (elsewhere k hk).symm

end RemovesWithin

namespace LeadsOnlyTo

variable (hd : h.LeadsOnlyTo dir d)

include hd

/-- The path leads to nothing else as long as no directory and no link comes. -/
theorem of_keepsWays (ht' : h'.tree.Sound) (back : h'.tree.KeepsWays h.tree) :
    h'.LeadsOnlyTo dir d where
  sound := ht'
  isAbsolute := hd.isAbsolute
  endsInSlash := hd.endsInSlash
  only l n hl lead := by
    obtain ⟨n', hn', lead'⟩ :=
      locateLink_of_keepsWays hd.isAbsolute hd.endsInSlash ht' back hl lead
    obtain ⟨rfl, home⟩ := hd.only l n' hn' lead'
    have shows : h'.tree.node? l = some n := Tree.shows_of_locate hl
    have same := back l (by simp [Tree.leads, shows, lead])
    exact ⟨rfl, Tree.directoryId?_of_shape_eq same ▸ home⟩

/-- A name behind the path is one in the directory, if no link there is followed. -/
theorem location_of_join (hname : name.IsName)
    (hp : h.tree.locate h.here? m (dir.join name) = .ok place)
    (hlink : m.follow = true → ∀ n, h.tree.node? (d ++ [name.raw]) ≠ some (.link n)) :
    place.location = d ++ [name.raw] := by
  obtain ⟨⟨zero, -, short⟩, start, hstart, reaches⟩ := Tree.locate_eq_ok_iff.mp hp
  rw [if_pos (Path.isAbsolute_join hd.isAbsolute name), Option.some.injEq] at hstart
  subst hstart
  rw [Path.endsInSlash_join hname, Path.steps_join hname] at reaches
  obtain ⟨e, a, there, lead⟩ :=
    reaches.of_append hd.sound (Tree.isSome_directoryId?_root _) (List.cons_ne_nil _ _)
  obtain ⟨bs, hbs⟩ := Path.eq_slash_cons hd.isAbsolute
  have first : dir.raw <+: (dir.join name).raw := Path.raw_prefix_join hname.isAbsolute
  have found : h.locateLink dir = .ok (.entry e a) :=
    (locateLink_eq_ok_iff hd.isAbsolute hd.endsInSlash).mpr
      ⟨⟨fun h0 ↦ zero (first.subset h0), by simp [hbs], Nat.lt_of_le_of_lt first.length_le short⟩,
        there⟩
  obtain ⟨rfl, home⟩ := hd.only e a found lead
  obtain ⟨b, hb⟩ := Tree.isSome_directoryId?.mp home
  obtain rfl := Option.some.inj ((Tree.shows_of_locate found).symm.trans hb)
  -- behind the directory there is one more step
  obtain ⟨c, append⟩ := there.walk_append (List.cons_ne_nil (.enter name.raw) [])
  have last : h.tree.Reaches c m false e [.enter name.raw] place :=
    Tree.reaches_iff.mpr ((append m false).symm.trans reaches.walk_eq)
  cases last with
  | into _ _ next =>
    cases next
    rfl
  | follow _ hn hend _ => exact absurd hn (hlink (by simpa using hend) _)
  | link _ _ _ _ => rfl
  | last _ _ _ _ => rfl
  | free _ _ => rfl

/-! ## What is removed under such a path -/

/-- Removing a file behind the path changes nothing outside the directory. -/
theorem removeFile (hname : name.IsName) : h.RemovesWithin (h.removeFile (dir.join name)) d := by
  unfold Host.removeFile
  split
  next h' hh =>
    obtain ⟨place, hplace, hh⟩ := exists_of_bind_eq_ok hh
    rw [locateName, Path.trimSlashes_of_endsInSlash (Path.endsInSlash_join hname)] at hplace
    have shows := Tree.shows_of_locate hplace
    have there := hd.location_of_join hname hplace fun hfollow ↦ by cases hfollow
    split at hh
    next => cases hh
    next => split at hh <;> cases hh
    next k n hdir =>
      split at hh
      · cases hh
      · obtain rfl := eq_of_changeAbove hh
        obtain rfl : k = d ++ [name.raw] := there
        have directory : h.tree.directoryId? (d ++ [name.raw]) = none := by
          rw [Tree.directoryId?, shows]
          cases n with
          | directory e => exact absurd rfl (hdir e)
          | _ => rfl
        have sound := (hd.sound.erase_of_directoryId? directory).noteChange (d ++ [name.raw]).dropLast
        exact .of_erase sound (List.prefix_append _ _) fun k ↦ Tree.shape_noteChange _ _ k
  next => exact .refl hd.sound d

/-- So does removing several. -/
theorem removeFiles {paths : List Path}
    (hpaths : ∀ p ∈ paths, ∃ name : Path, name.IsName ∧ p = dir.join name) :
    h.RemovesWithin (paths.foldl Host.removeFile h) d := by
  induction paths generalizing h with
  | nil => exact .refl hd.sound d
  | cons p ps ih =>
    obtain ⟨name, hname, rfl⟩ := hpaths p List.mem_cons_self
    have first := hd.removeFile hname
    exact first.trans (ih (hd.of_keepsWays first.sound first.back) fun q hq ↦
      hpaths q (List.mem_cons_of_mem _ hq))

theorem emptied : h.RemovesWithin (h.withTree (emptied h.tree d)) d := by
  obtain ⟨sound, view⟩ := hd.sound.emptied d
  refine ⟨⟨sound, fun k hk ↦ congrArg _ ((view k).resolve_right fun below ↦ ?_), rfl⟩,
    fun k lead ↦ ?_⟩
  · exact hk (Tree.isBelow_iff.mp below.1).1
  · refine (congrArg _ ((view k).resolve_right fun gone ↦ ?_)).symm
    simp [withTree, Tree.leads, gone.2] at lead

/-- Removing the directory changes nothing outside it. -/
theorem removeDirectory : h.RemovesWithin (h.removeDirectory dir) d := by
  have outside := hd.emptied
  have emptied := hd.of_keepsWays outside.sound outside.back
  unfold Host.removeDirectory
  split
  next l e hl =>
    obtain ⟨rfl, -⟩ := hd.only l _ hl rfl
    split
    · exact .refl hd.sound l
    dsimp only
    split
    next h' hremoved =>
      obtain ⟨place, hplace, hremoved⟩ := exists_of_bind_eq_ok hremoved
      rw [locateName, Path.trimSlashes_of_endsInSlash hd.endsInSlash] at hplace
      split at hremoved
      next => cases hremoved
      next => cases hremoved
      next => cases hremoved
      next => cases hremoved
      next k n _ =>
        split at hremoved
        · cases hremoved
        split at hremoved
        next =>
          split at hremoved
          next hnames =>
            obtain ⟨rfl, -⟩ := emptied.only _ _ hplace rfl
            obtain rfl := eq_of_changeAbove hremoved
            have sound := (emptied.sound.erase fun k hk hn ↦
              emptied.sound.dropLast_ne_of_names_eq_nil hnames hk hn).noteChange k.dropLast
            exact outside.trans (.of_erase sound (List.prefix_refl _) fun k ↦
              Tree.shape_noteChange _ _ k)
          next => cases hremoved
        next => cases hremoved
    next => exact outside
  next l e hl =>
    obtain ⟨rfl, home⟩ := hd.only l _ hl rfl
    obtain ⟨b, hb⟩ := Tree.isSome_directoryId?.mp home
    cases (Tree.shows_of_locate hl : h.tree.node? l = _).symm.trans hb
  next => exact .refl hd.sound d

end LeadsOnlyTo

/-! ## What is written behind such a path -/

/-- Whether a location encloses what it holds: no link stands there or below it, and no file there has
another name elsewhere. -/
structure Encloses (h : Host) (d : Location) : Prop where
  /-- No link stands there. -/
  plain : ∀ k n, d <+: k → h.tree.node? k ≠ some (.link n)
  /-- All names of a file are there. -/
  own : ∀ k k' id, d <+: k → h.tree.fileId? k = some id → h.tree.fileId? k' = some id → d <+: k'

/-- From one host to another, files have been written at or below a location or under some paths, and
nowhere else. -/
structure Touches (h : Host) (d : Location) (paths : Path → Prop) (h' : Host) : Prop where
  /-- Only files have been written. -/
  written : h.Written h'
  /-- No file has got a second name. -/
  names : h.KeepsNames h'
  /-- What the paths do not lead to is as it was. -/
  elsewhere : ∀ k, ¬ d <+: k → (∀ q, paths q → h.Misses q k) → h'.tree.shape k = h.tree.shape k

/-- What a location encloses it encloses after files have been written, wherever that was. -/
theorem Encloses.of_written (he : h.Encloses d) (w : h.Written h') (names : h.KeepsNames h') :
    h'.Encloses d where
  plain k n hk hn := by
    obtain ⟨n', hn', -⟩ := w.ways.back.link hn
    exact he.plain k n' hk hn'
  own k k' id hk hid hid' := by
    by_cases hne : k = k'
    · exact hne ▸ hk
    · obtain ⟨before, before'⟩ := names k k' id hne hid hid'
      exact he.own k k' id hk before before'

/-- A new directory encloses what it holds. -/
theorem HasFree.encloses (free : h.HasFree dir d) (houses : h.tree.Houses d h'.tree)
    (confined : h.tree.Confined d h'.tree) : h'.Encloses d where
  plain _ n hk := houses.not_link hk n
  own k k' id hk hid hid' := by
    by_contra hk'
    have old := Tree.fileId?_of_shape_eq (confined.elsewhere k' hk') ▸ hid'
    exact absurd (free.sound.file_lt old) (Nat.not_lt.mpr (confined.fresh k id hk hid))

namespace Touches

variable {paths more : Path → Prop} {content : Bytes}

theorem refl (ht : h.tree.Sound) (d : Location) (paths : Path → Prop) : h.Touches d paths h :=
  ⟨.refl ht, .refl h, fun _ _ _ ↦ rfl⟩

/-- Files may be written under more paths. -/
theorem mono (t : h.Touches d paths h') (hmore : ∀ q, paths q → more q) : h.Touches d more h' :=
  ⟨t.written, t.names, fun k hk missed ↦ t.elsewhere k hk fun q hq ↦ missed q (hmore q hq)⟩

/-- One of the paths is written. -/
theorem along (t : h.Touches d paths h') (ht : h.tree.Sound) (hpath : paths q)
    (hq : h'.locateNew q = .ok place) (change : h'.WritesOnly h'' place.location) :
    h.Touches d paths h'' where
  written := t.written.trans change.written
  names := t.names.writesOnly t.written.sound change
  elsewhere k hk missed :=
    (((missed q hpath).after t.written ht t.names).shape_eq hq change).trans (t.elsewhere k hk missed)

/-- A file is copied to one of the paths, or not, as far as that succeeds. -/
theorem copy (t : h.Touches d paths h') (ht : h.tree.Sound) (source : Path) (hpath : paths q) :
    h.Touches d paths (h'.copy source q).2 := by
  rcases writesOnly_copy t.written.sound source q with ⟨e, fails⟩ | ⟨place, hplace, change⟩
  · exact (congrArg Prod.snd fails).symm ▸ t
  · exact t.along ht hpath hplace change

variable (t : h.Touches d paths h') (he : h.Encloses d)

include t he

theorem encloses : h'.Encloses d := he.of_written t.written t.names

/-- Something at the location or below it is written. -/
theorem within (hl : d <+: l) (change : h'.WritesOnly h'' l) : h.Touches d paths h'' where
  written := t.written.trans change.written
  names := t.names.writesOnly t.written.sound change
  elsewhere k hk missed := by
    have hne : k ≠ l := fun hkl ↦ hk (hkl ▸ hl)
    refine ((change.tree.elsewhere k hne).resolve_right ?_).trans (t.elsewhere k hk missed)
    rintro ⟨file, name, -⟩
    obtain ⟨id, hid⟩ := Option.isSome_iff_exists.mp file
    exact hk ((t.encloses he).own l k id hl hid (name.trans hid))

variable (hm : h'.Marks dir d) (hname : name.IsName)

include hm hname

/-- A name behind the path is one at the location. -/
theorem prefix_of_locate (hp : h'.tree.locate h'.here? m (dir.join name) = .ok place) :
    d <+: place.location := by
  rw [hm.leadsOnlyTo.location_of_join hname hp fun _ n ↦
    (t.encloses he).plain _ n (List.prefix_append d _)]
  exact List.prefix_append d _

/-- A file is written behind the path. -/
theorem write (hh : h'.write (dir.join name) content = .ok h'') : h.Touches d paths h'' := by
  obtain ⟨place, hplace, change⟩ := writesOnly_write hm.sound hh
  exact t.within he (t.prefix_of_locate he hm hname hplace) change

/-- What is opened for appending behind the path lies at the location or below it. -/
theorem prefix_of_appendTarget (hl : h'.appendTarget (dir.join name) = .ok l) : d <+: l := by
  obtain ⟨n, hn⟩ := entry_of_appendTarget hl
  exact t.prefix_of_locate he hm hname (locate_of_entry hn)

end Touches

end ContractBuild.Host
