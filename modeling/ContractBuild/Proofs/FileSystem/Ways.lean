import ContractBuild.Proofs.FileSystem.Operations

/-!
# Hosts on which files have been written

While files are written, created and removed, but no directory and no link, paths lead where they
led, in either direction: a path leads to a location now if it did before, and did so before if it
does now.  The identity of a file that was there before shows which file it was.
-/

namespace ContractBuild

namespace Tree

variable {t t' t'' : Tree}

/-- Two trees have the same directories and the same links. -/
structure SameWays (t t' : Tree) : Prop where
  /-- Those of the first are in the second. -/
  forth : t.KeepsWays t'
  /-- Those of the second are in the first. -/
  back : t'.KeepsWays t

namespace SameWays

theorem refl (t : Tree) : SameWays t t := ⟨fun _ _ ↦ rfl, fun _ _ ↦ rfl⟩

theorem symm (h : SameWays t t') : SameWays t' t := ⟨h.back, h.forth⟩

theorem trans (h : SameWays t t') (h' : SameWays t' t'') : SameWays t t'' where
  forth k hk := by
    have same := h.forth k hk
    rw [h'.forth k (by rw [leads_of_shape_eq same, hk]), same]
  back k hk := by
    have same := h'.back k hk
    rw [h.back k (by rw [leads_of_shape_eq same, hk]), same]

theorem leads_eq (h : SameWays t t') (k : Location) : t'.leads k = t.leads k := by
  cases hk : t.leads k with
  | true => rw [leads_of_shape_eq (h.forth k hk), hk]
  | false =>
    by_contra hk'
    rw [Bool.not_eq_false] at hk'
    rw [leads_of_shape_eq (h.back k hk'), hk'] at hk
    cases hk

end SameWays

namespace WritesOnly

variable {k k' l : Location} {id : Nat}

theorem sameWays (h : WritesOnly t t' l) : SameWays t t' :=
  ⟨h.keepsWays, fun _ hk ↦ (h.shape_of_leads_after hk).symm⟩

theorem fileId?_of_ne (h : WritesOnly t t' l) (hk : k ≠ l) : t'.fileId? k = t.fileId? k := by
  rcases h.elsewhere k hk with same | ⟨-, -, kept⟩
  · exact fileId?_of_shape_eq same
  · exact kept

/-- A file that was there before has no new names. -/
theorem fileId?_old (h : WritesOnly t t' l) (hid : id < t.nextId) (hk : t'.fileId? k = some id) :
    t.fileId? k = some id := by
  by_cases hkl : k = l
  · subst hkl
    rcases h.here with same | ⟨-, -, ids⟩
    · rwa [← fileId?_of_shape_eq same]
    · exact (ids id hk).resolve_right (Nat.not_le_of_lt hid)
  · rwa [← h.fileId?_of_ne hkl]

/-- Two names of one file were so before. -/
theorem fileId?_of_two (h : WritesOnly t t' l) (ht : t.Sound) (hne : k ≠ k')
    (hk : t'.fileId? k = some id) (hk' : t'.fileId? k' = some id) :
    t.fileId? k = some id ∧ t.fileId? k' = some id := by
  have old : id < t.nextId := by
    by_cases hkl : k = l
    · exact ht.file_lt ((h.fileId?_of_ne (hkl ▸ hne.symm)).symm.trans hk')
    · exact ht.file_lt ((h.fileId?_of_ne hkl).symm.trans hk)
  exact ⟨h.fileId?_old old hk, h.fileId?_old old hk'⟩

end WritesOnly

/-- A walk to where a file may be created, or to what a path names, ends there in any tree that has
the directories and links of the first.  Where a file may be created, nothing that leads on may have
come. -/
theorem Reaches.exists_of_keepsWays {b : Nat} {m : Manner} {sl : Bool} {dir : Location}
    {ss : List Step} {p : Place} (ht : t.Sound) (hways : t.KeepsWays t')
    (hdir : (t.directoryId? dir).isSome) (h : t.Reaches b m sl dir ss p)
    (hm : m.create = true ∧ (t.leads p.location = false → t'.leads p.location = false) ∨
      m.follow = false ∧ sl = false) :
    ∃ p', p'.location = p.location ∧ t'.Reaches b m sl dir ss p' := by
  have here {dir : Location} (h : (t.directoryId? dir).isSome) : t'.shape dir = t.shape dir :=
    hways _ (leads_of_directoryId? h)
  -- a last name is found or free in the other tree
  have ends {dir : Location} {n : Name} {b : Nat} {m : Manner} {sl : Bool}
      (hm : m.create = true ∧ t'.leads (dir ++ [n]) = false ∨ m.follow = false ∧ sl = false)
      (hin : t'.Admits m sl dir n []) :
      ∃ p', p'.location = dir ++ [n] ∧ t'.Reaches b m sl dir [.enter n] p' := by
    have plain : sl = false := hm.elim (fun hm ↦ by simpa [hm.1] using hin.2.1) And.right
    cases hn : t'.node? (dir ++ [n]) with
    | none => exact ⟨_, rfl, .free hin hn⟩
    | some a =>
      cases a with
      | directory d => exact ⟨.entry _ (.directory d), rfl, .into hin hn (.done hn)⟩
      | link k =>
        rcases hm with ⟨-, hlead⟩ | ⟨hfollow, hslash⟩
        · simp [leads, hn, Node.leads] at hlead
        · exact ⟨.entry _ (.link k), rfl, .link hin hn hfollow hslash⟩
      | _ => exact ⟨_, rfl, .last hin hn rfl plain⟩
  induction h with
  | done hn =>
    obtain ⟨d, hd⟩ := isSome_directoryId?.mp hdir
    obtain ⟨d', hd'⟩ := hways.directory hd
    exact ⟨.entry _ (.directory d'), rfl, .done hd'⟩
  | stay hrun _ ih =>
    obtain ⟨p', hp', next⟩ := ih hdir hm
    exact ⟨p', hp', .stay ((allows_of_shape_eq (here hdir) .run).trans hrun) next⟩
  | up hrun _ ih =>
    obtain ⟨p', hp', next⟩ := ih (ht.directoryId?_dropLast hdir) hm
    exact ⟨p', hp', .up ((allows_of_shape_eq (here hdir) .run).trans hrun) next⟩
  | into hin hn _ ih =>
    obtain ⟨p', hp', next⟩ := ih (isSome_directoryId?.mpr ⟨_, hn⟩) hm
    obtain ⟨d', hd'⟩ := hways.directory hn
    exact ⟨p', hp', .into (hin.of_shape_eq (here hdir)) hd' next⟩
  | @follow b m sl dir n k rest p hin hn hlast _ ih =>
    have start : (t.directoryId? (if k.target.isAbsolute then [] else dir)).isSome := by
      split
      · exact isSome_directoryId?_root t
      · exact hdir
    -- a link at the end is followed only where a file may be created
    have onward : m.create = true ∧ (t.leads p.location = false → t'.leads p.location = false) ∨
        (m.follow || decide (rest = [])) = false ∧
          (sl || (decide (rest = []) && k.target.endsInSlash)) = false := by
      refine hm.imp id ?_
      rintro ⟨hfollow, hslash⟩
      have more : rest ≠ [] := fun hnil ↦ hlast ⟨hnil, by simp [hfollow], by simp [hslash]⟩
      simp [hfollow, hslash, more]
    obtain ⟨p', hp', next⟩ := ih start onward
    obtain ⟨k', hk', target⟩ := hways.link hn
    exact ⟨p', hp', .follow (hin.of_shape_eq (here hdir)) hk' hlast (target ▸ next)⟩
  | link hin hn hfollow hslash =>
    obtain ⟨k', hk', -⟩ := hways.link hn
    exact ⟨.entry _ (.link k'), rfl, .link (hin.of_shape_eq (here hdir)) hk' hfollow hslash⟩
  | last hin hn hlead _ =>
    refine ends (hm.imp_left fun hm ↦ ⟨hm.1, hm.2 ?_⟩) (hin.of_shape_eq (here hdir))
    simpa [Place.location, leads, hn]
  | free hin hn =>
    refine ends (hm.imp_left fun hm ↦ ⟨hm.1, hm.2 ?_⟩) (hin.of_shape_eq (here hdir))
    simp [Place.location, leads, hn]

/-- A walk that follows a link at its end does not end at one. -/
theorem Reaches.not_link {b : Nat} {m : Manner} {sl : Bool} {dir : Location} {ss : List Step}
    {p : Place} (ht : t.Sound) (hm : m.follow = true) (hdir : (t.directoryId? dir).isSome)
    (h : t.Reaches b m sl dir ss p) (l : Location) (k : Link) : p ≠ .entry l (.link k) := by
  induction h with
  | done hn =>
    rintro heq
    obtain ⟨d, hd⟩ := isSome_directoryId?.mp hdir
    obtain ⟨-, rfl⟩ := Place.entry.inj heq
    cases hd.symm.trans hn
  | stay _ _ ih => exact ih hm hdir
  | up _ _ ih => exact ih hm (ht.directoryId?_dropLast hdir)
  | into _ hn _ ih => exact ih hm (isSome_directoryId?.mpr ⟨_, hn⟩)
  | follow _ _ _ _ ih =>
    refine ih (by simp [hm]) ?_
    split
    · exact isSome_directoryId?_root t
    · exact hdir
  | link _ _ hfollow _ => exact absurd hm (by simp [hfollow])
  | last _ _ hlead _ =>
    rintro heq
    obtain ⟨-, rfl⟩ := Place.entry.inj heq
    cases hlead
  | free _ _ => simp

end Tree

namespace Host

variable {h h' h'' : Host} {l k : Location} {p : Path} {n n' : Node} {place : Place}

/-- The place where a file is put that is written under a path. -/
def locateNew (h : Host) (p : Path) : Except IoError Place :=
  h.tree.locate h.here? ⟨true, true⟩ p

/-- A directory that a process is in is one. -/
theorem isSome_directoryId?_of_start (ht : h.tree.Sound) {start : Location}
    (hstart : (if p.isAbsolute then some [] else h.here?) = some start) :
    (h.tree.directoryId? start).isSome := by
  split at hstart
  · obtain rfl := Option.some.inj hstart
    exact Tree.isSome_directoryId?_root _
  · rw [ht.directory?_eq_some_iff.mp hstart]
    rfl

/-- A path under which a file can be written leads to the same place while directories and links
are kept. -/
theorem exists_locateNew_of_keepsWays (ht : h.tree.Sound) (ht' : h'.tree.Sound)
    (hways : h.tree.KeepsWays h'.tree) (hcwd : h'.cwd = h.cwd) (hp : h.locateNew p = .ok place)
    (hend : h.tree.leads place.location = false → h'.tree.leads place.location = false) :
    ∃ place', place'.location = place.location ∧ h'.locateNew p = .ok place' := by
  obtain ⟨good, start, hstart, reaches⟩ := Tree.locate_eq_ok_iff.mp hp
  have known := isSome_directoryId?_of_start ht hstart
  obtain ⟨place', hplace', reaches'⟩ := reaches.exists_of_keepsWays ht hways known (.inl ⟨rfl, hend⟩)
  refine ⟨place', hplace', Tree.locate_eq_ok_iff.mpr ⟨good, start, ?_, reaches'⟩⟩
  split at hstart
  next habs => rw [if_pos habs, hstart]
  next habs =>
    rw [if_neg habs, here?, hcwd]
    exact hways.directory?_eq ht ht' hstart

/-- A path under which a file can be written leads to the file that is there by now. -/
theorem entry_of_locateNew (ht : h.tree.Sound) (ht' : h'.tree.Sound)
    (hways : h.tree.KeepsWays h'.tree) (hcwd : h'.cwd = h.cwd) (hp : h.locateNew p = .ok place)
    {f : File} (hf : h'.tree.node? place.location = some (.file f)) :
    h'.entry p = .ok (place.location, .file f) := by
  obtain ⟨place', hl, hp'⟩ := exists_locateNew_of_keepsWays ht ht' hways hcwd hp fun _ ↦ by
    simp [Tree.leads, hf, Node.leads]
  have shows := Tree.shows_of_locate hp'
  cases place' with
  | entry k n =>
    obtain rfl : k = place.location := hl
    obtain rfl := Option.some.inj (shows.symm.trans hf)
    exact entry_of_locate (Tree.locate_of_create hp')
  | vacant k =>
    obtain rfl : k = place.location := hl
    cases shows.symm.trans hf

/-- What a path leads to is no link. -/
theorem entry_ne_link (ht : h.tree.Sound) (he : h.entry p = .ok (l, n)) (k : Link) :
    n ≠ .link k := by
  obtain ⟨-, start, hstart, reaches⟩ := Tree.locate_eq_ok_iff.mp (locate_of_entry he)
  rintro rfl
  exact reaches.not_link ht rfl (isSome_directoryId?_of_start ht hstart) l k rfl

/-- Whether a path leads to a file, under any of its names. -/
def leadsTo (h : Host) (f : File) (p : Path) : Bool :=
  match h.entry p with
  | .ok (_, .file g) => g.id = f.id
  | _ => false

theorem leadsTo_iff {f : File} :
    h.leadsTo f p = true ↔ ∃ k g, h.entry p = .ok (k, .file g) ∧ g.id = f.id := by
  unfold leadsTo
  rcases h.entry p with e | ⟨k, n⟩
  · simp
  · cases n <;> simp

/-- From one host to another, only files have been written. -/
structure Written (h h' : Host) : Prop where
  /-- The tree is sound. -/
  sound : h'.tree.Sound
  /-- No identity is given out a second time. -/
  nextId_le : h.tree.nextId ≤ h'.tree.nextId
  /-- Directories and links are those that were there. -/
  ways : h.tree.SameWays h'.tree
  /-- A file that was there before has no new names. -/
  old : ∀ k id, id < h.tree.nextId → h'.tree.fileId? k = some id → h.tree.fileId? k = some id
  /-- The process stays in its directory. -/
  cwd_eq : h'.cwd = h.cwd

/-- A file that is written is one of them. -/
theorem WritesOnly.written (hw : h.WritesOnly h' l) : h.Written h' where
  sound := hw.tree.sound
  nextId_le := hw.tree.nextId_le
  ways := hw.tree.sameWays
  old _ _ hid hk := hw.tree.fileId?_old hid hk
  cwd_eq := hw.cwd_eq

namespace Written

theorem refl (ht : h.tree.Sound) : h.Written h :=
  ⟨ht, Nat.le_refl _, .refl _, fun _ _ _ h ↦ h, rfl⟩

theorem trans (first : h.Written h') (second : h'.Written h'') : h.Written h'' where
  sound := second.sound
  nextId_le := Nat.le_trans first.nextId_le second.nextId_le
  ways := first.ways.trans second.ways
  old k id hid hk :=
    first.old k id hid (second.old k id (Nat.lt_of_lt_of_le hid first.nextId_le) hk)
  cwd_eq := second.cwd_eq.trans first.cwd_eq

variable (w : h.Written h') (ht : h.tree.Sound)

include w ht

/-- A path leads to what leads nowhere where it led before. -/
theorem entry_after (he : h.entry p = .ok (l, n)) (hn : h'.tree.node? l = some n')
    (hlead : n'.leads = false) : h'.entry p = .ok (l, n') :=
  entry_of_keepsWays ht w.sound w.ways.forth w.cwd_eq he hn hlead

/-- And it led there before if it does now. -/
theorem entry_before (he : h'.entry p = .ok (l, n)) (hn : h.tree.node? l = some n')
    (hlead : n'.leads = false) : h.entry p = .ok (l, n') :=
  entry_of_keepsWays w.sound ht w.ways.back w.cwd_eq.symm he hn hlead

/-- A path that leads to a file that was there before led to it. -/
theorem entry_of_old {place : Place} (hp : h'.locate p = .ok place) {id : Nat}
    (hid : id < h.tree.nextId) (hplace : h'.tree.fileId? place.location = some id) :
    ∃ g, h.entry p = .ok (place.location, .file g) ∧ g.id = id := by
  obtain ⟨g, hg, rfl⟩ := Tree.fileId?_eq_some.mp (w.old _ id hid hplace)
  obtain ⟨g', hg', -⟩ := Tree.fileId?_eq_some.mp hplace
  have shows := Tree.shows_of_locate hp
  cases place with
  | entry k n => exact ⟨g, w.entry_before ht (entry_of_locate hp) hg rfl, rfl⟩
  | vacant k => cases shows.symm.trans hg'

end Written

end Host

end ContractBuild

/-!
## Hosts to which files have been added

Writing and copying add an entry or change a file.  Whatever was there is there afterwards, and no
directory and no link comes.
-/

namespace ContractBuild.Host

variable {h h' h'' : Host} {l k : Location} {p source dest : Path} {mode : Nat} {content : Bytes}

/-- From one host to another, nothing has been removed, and nothing has come but files. -/
structure Adds (h h' : Host) : Prop where
  /-- The tree is sound. -/
  sound : h'.tree.Sound
  /-- Directories and links are those that were there. -/
  ways : h.tree.SameWays h'.tree
  /-- Every entry stays. -/
  kept : ∀ k, (h.tree.node? k).isSome → (h'.tree.node? k).isSome

namespace Adds

theorem refl (ht : h.tree.Sound) : h.Adds h := ⟨ht, .refl _, fun _ hk ↦ hk⟩

theorem trans (first : h.Adds h') (second : h'.Adds h'') : h.Adds h'' :=
  ⟨second.sound, first.ways.trans second.ways, fun k hk ↦ second.kept k (first.kept k hk)⟩

end Adds

/-- A change at one location removes nothing if something stands there afterwards. -/
theorem WritesOnly.adds (hw : h.WritesOnly h' l) (hl : (h'.tree.node? l).isSome) : h.Adds h' where
  sound := hw.tree.sound
  ways := hw.tree.sameWays
  kept k hk := by
    by_cases hkl : k = l
    · rwa [hkl]
    · rcases hw.tree.elsewhere k hkl with same | ⟨file, name, kept⟩
      · rwa [← Tree.isSome_shape, same, Tree.isSome_shape]
      · obtain ⟨id, hid⟩ := Option.isSome_iff_exists.mp file
        obtain ⟨f, hf, -⟩ := Tree.fileId?_eq_some.mp (kept.trans (name.trans hid))
        rw [hf]
        rfl

/-! ### What stands where something was written -/

theorem isSome_of_create (hh : h.create p mode = .ok (l, h')) : (h'.tree.node? l).isSome := by
  rcases cases_of_create hh with ⟨hplace, hchange⟩ | ⟨f, hplace, -, rfl⟩ | ⟨n, hplace, -, -, -, rfl⟩
  all_goals have shows := Tree.shows_of_locate hplace
  · obtain rfl := eq_of_changeAbove hchange
    have hne : l ≠ [] := by
      rintro rfl
      cases (Tree.node?_root _).symm.trans shows
    rw [withTree, Tree.isSome_noteChange, Tree.node?_addFile_self hne]
    rfl
  · rw [cleared, withTree, Tree.node?_onFile, Option.isSome_map]
    exact Option.isSome_of_eq_some shows
  · exact Option.isSome_of_eq_some shows

theorem isSome_of_append (hl : (h.tree.node? l).isSome) (hh : h.append l content = .ok h') :
    (h'.tree.node? l).isSome := by
  unfold append at hh
  split at hh
  next f hf =>
    obtain rfl := Except.ok.inj hh
    rwa [withTree, Tree.node?_onFile, Option.isSome_map]
  next =>
    split at hh
    · exact Except.ok.inj hh ▸ hl
    · cases hh
  next hn =>
    obtain rfl := Except.ok.inj hh
    have hne : l ≠ [] := fun hl ↦ by simp [hl] at hn
    rw [withTree, Tree.node?_set_self hne]
    rfl
  next => exact Except.ok.inj hh ▸ hl

theorem isSome_of_permit (hl : (h.tree.node? l).isSome) (hdir : h.tree.directoryId? l = none)
    (mode : Nat) : ((h.permit l mode).tree.node? l).isSome := by
  unfold permit reattribute
  split
  next => rwa [withTree, Tree.node?_onFile, Option.isSome_map]
  next n _ hn =>
    have hne : l ≠ [] := fun hl ↦ by simp [hl, Tree.directoryId?_root] at hdir
    rw [withTree, Tree.node?_adjust_self _ hne, Option.isSome_map]
    exact hl
  next => exact hl

/-! ### The operations -/

theorem adds_create (ht : h.tree.Sound) (hh : h.create p mode = .ok (l, h')) : h.Adds h' :=
  (writesOnly_create ht hh).2.2.adds (isSome_of_create hh)

theorem adds_append (ht : h.tree.Sound) (hh : h.append l content = .ok h') : h.Adds h' := by
  cases hl : h.tree.node? l with
  | none =>
    rw [append, hl] at hh
    exact Except.ok.inj hh ▸ .refl ht
  | some n =>
    exact (writesOnly_append ht hh).adds (isSome_of_append (Option.isSome_of_eq_some hl) hh)

theorem adds_write (ht : h.tree.Sound) (hh : h.write p content = .ok h') : h.Adds h' := by
  obtain ⟨⟨l, h₁⟩, hcreate, happend⟩ := exists_of_bind_eq_ok hh
  have created := adds_create ht hcreate
  exact created.trans (adds_append created.sound happend)

theorem adds_copy (ht : h.tree.Sound) (source dest : Path) :
    h.Adds (h.copy source dest).2 := by
  rcases h.cases_copy source dest with ⟨e, he⟩ | ⟨l, f, k, h₁, -, -, hcreate, filled⟩
  · rw [he]
    exact .refl ht
  have created := adds_create ht hcreate
  rcases filled with ⟨e, -, he⟩ | ⟨h', hfill, hdone⟩
  · rwa [he]
  obtain ⟨-, hdir, change⟩ := writesOnly_create ht hcreate
  have plain := change.tree.directoryId?_eq_none hdir
  have permitted := (writesOnly_permit created.sound plain f.mode).adds
    (isSome_of_permit (isSome_of_create hcreate) plain f.mode)
  rw [hdone]
  exact (created.trans permitted).trans (adds_append permitted.sound (fill_eq_ok.mp hfill).2)

/-- A path leads to something once it has been written. -/
theorem exists_entry_of_write (ht : h.tree.Sound) (hh : h.write p content = .ok h') :
    ∃ k n, h'.entry p = .ok (k, n) := by
  obtain ⟨⟨l, h₁⟩, hcreate, happend⟩ := exists_of_bind_eq_ok hh
  obtain ⟨⟨place, hplace, rfl⟩, -, change⟩ := writesOnly_create ht hcreate
  have written := change.trans ht (writesOnly_append change.tree.sound happend)
  have there := isSome_of_append (isSome_of_create hcreate) happend
  have sound := written.tree.sound
  obtain ⟨place', hl, hp⟩ := exists_locateNew_of_keepsWays ht sound written.tree.keepsWays
    written.cwd_eq hplace fun lead ↦ (written.tree.sameWays.leads_eq _).trans lead
  have shows := Tree.shows_of_locate hp
  cases place' with
  | entry k n => exact ⟨k, n, entry_of_locate (Tree.locate_of_create hp)⟩
  | vacant k =>
    obtain rfl : k = place.location := hl
    rw [show h'.tree.node? place.location = none from shows] at there
    cases there

end ContractBuild.Host
