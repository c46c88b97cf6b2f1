import ContractBuild.Proofs.Build.CopyOut
import ContractBuild.Proofs.Build.Counterparts
import ContractBuild.Proofs.Build.Release

/-!
# Files in the working directory and files in temporary directories

A build keeps its intermediate files in the working directory, or has a directory of its own for them
and one more for the link.  Two hosts on which the two have worked agree on every location that is none
of these directories and not that of an intermediate file.  When a file in the directory for the link is
copied, they also agree on the file that it goes to.
-/

namespace ContractBuild

open Build

namespace Tree

variable {t t' : Tree}

/-- A tree whose files are stored as in a coherent one is coherent. -/
theorem Coherent.of_stored (ht : t.Coherent) (ht' : t'.Sound)
    (same : ∀ k f, t'.stored k = some (.file f) → t.stored k = some (.file f)) : t'.Coherent where
  toSound := ht'
  one hk hl hid := ht.one (same _ _ hk) (same _ _ hl) hid

end Tree

namespace Host

variable {h h' h₀ : Host} {dir p : Path} {d k w l : Location} {n : Name} {stem : String} {c : Bytes}
  {place : Place}

/-- Whether a location is none that a build has for its directories: it lies in a directory, and it is
not called like a temporary directory if it is free. -/
structure Spare (h : Host) (k : Location) : Prop where
  /-- It lies in a directory. -/
  above : (h.tree.directoryId? k.dropLast).isSome
  /-- It is called otherwise. -/
  named : h.tree.node? k = none → ∀ stem ∈ temporaryStems, ¬ IsNamedAfter stem k

/-- Whether, besides, it is not that of an intermediate file. -/
structure Outer (h : Host) (w k : Location) : Prop extends h.Spare k where
  /-- It is not that of an intermediate file. -/
  apart : ∀ kind n, k ≠ ArtifactKind.place w kind n

/-- What stands there is no directory that a build has made. -/
theorem Spare.of_node? (ht : h.tree.Sound) {a : Node} (hk : h.tree.node? k = some a) : h.Spare k where
  above := by
    by_cases root : k = []
    · subst root
      exact Tree.isSome_directoryId?_root _
    · exact ht.parent root (by rw [hk]; rfl)
  named free := by
    rw [free] at hk
    cases hk

/-- Nor is it an intermediate file, if there is none. -/
theorem Outer.of_node? (hb : h.Blank dir w) {a : Node} (hk : h.tree.node? k = some a) :
    h.Outer w k where
  toSpare := .of_node? hb.sound hk
  apart kind n same := by
    rw [same, hb.free] at hk
    cases hk

theorem Outer.of_entry (hb : h.Blank dir w) {a : Node} (hp : h.entry p = .ok (k, a)) :
    h.Outer w k := .of_node? hb (node?_of_entry hp)

/-- A new temporary directory. -/
structure Opened (h : Host) (stem : String) (dir : Path) (d : Location) (h' : Host) : Prop where
  /-- It has been made. -/
  made : h.makeTemporary stem = .ok (dir, h')
  /-- Its name was free. -/
  free : h.HasFree dir d
  /-- It is the build's own. -/
  own : h.tree.Private d h'.tree
  /-- The process stays in its directory. -/
  cwd_eq : h'.cwd = h.cwd
  /-- It is called like this. -/
  named : IsNamedAfter stem d

theorem exists_opened (ht : h.tree.Sound) (hstem : stem ∈ temporaryStems)
    (hmade : h.makeTemporary stem = .ok (dir, h')) : ∃ d, h.Opened stem dir d h' := by
  obtain ⟨d, free, own, hcwd⟩ := private_makeTemporary ht hstem hmade
  exact ⟨d, hmade, free, own, hcwd, free.isNamedAfter hstem hmade⟩

namespace Opened

variable (opened : h.Opened stem dir d h')

include opened

/-- It is empty. -/
theorem node?_eq (hk : d <+: k) : h'.tree.node? k =
    if k = d then some (.directory (h.tree.newDirectory programMode)) else none :=
  opened.free.node?_of_makeTemporary opened.made hk

theorem stored_eq (hk : ¬ d <+: k) : h'.tree.stored k = h.tree.stored k :=
  Tree.stored_of_shape_eq (opened.own.elsewhere k hk)

/-- The tree stays coherent. -/
theorem coherent (ht : h.tree.Coherent) : h'.tree.Coherent :=
  ht.of_stored opened.own.sound fun k f hf ↦ by
    by_cases hk : d <+: k
    · rw [Tree.stored, opened.node?_eq hk] at hf
      split at hf <;> cases hf
    · rwa [← opened.stored_eq hk]

variable {K : Location → Prop} (hstem : stem ∈ temporaryStems) (hK : ∀ k, K k → h₀.Spare k)
  (keeps : h₀.KeepsAt K h)

include hstem hK keeps

/-- No location that builds spare lies in it. -/
theorem not_prefix (hk : K k) : ¬ d <+: k := by
  intro inside
  have none : h₀.tree.node? k = none := by
    rw [← Tree.stored_eq_none, ← keeps.stored k hk, Tree.stored_eq_none]
    exact opened.free.node?_eq_none inside
  by_cases same : d = k
  · exact (hK k hk).named none stem hstem (same ▸ opened.named)
  · obtain ⟨e, he⟩ := Tree.isSome_directoryId?.mp (hK k hk).above
    obtain ⟨e', he'⟩ := keeps.ways.directory he
    cases he'.symm.trans (opened.free.node?_eq_none (Tree.prefix_dropLast inside same))

/-- They store what they stored. -/
theorem keepsAt : h.KeepsAt K h' :=
  keepsAt_of_stored opened.own.sound opened.own.ways opened.cwd_eq fun _ hk ↦
    opened.stored_eq (opened.not_prefix hstem hK keeps hk)

end Opened

/-! ## What is left in a directory that has just been made -/

end Host

/-- Whether a file in a directory can have this name. -/
structure Path.Fits (dir : Path) (n : Name) : Prop where
  /-- No byte ends it. -/
  zero : 0 ∉ n
  /-- It is not too long. -/
  length : n.length ≤ nameLimit
  /-- Nor is its path. -/
  path : (dir.join (.ofName n)).raw.length < pathLimit

/-- A name behind the path of a directory is looked up there. -/
theorem Tree.locate_join {t : Tree} {here : Option Location} {m : Manner} {dir : Path} {d : Location}
    {n : Name} {e : Directory} {place : Place}
    (hdir : t.locate here ⟨true, false⟩ dir = .ok (.entry d (.directory e)))
    (hname : (Path.ofName n).IsName) (fits : dir.Fits n)
    (hlast : ∀ b, t.walk b m false d [.enter n] = .ok place) :
    t.locate here m (dir.join (.ofName n)) = .ok place := by
  obtain ⟨⟨hzero, hnil, -⟩, start, hstart, reaches⟩ := Tree.locate_eq_ok_iff.mp hdir
  obtain ⟨b, append⟩ := reaches.walk_append (List.cons_ne_nil (.enter n) [])
  refine Tree.locate_eq_ok_iff.mpr ⟨⟨?_, ?_, fits.path⟩, start, ?_, ?_⟩
  · rw [Path.join, hname.isAbsolute, if_neg Bool.false_ne_true]
    split
    · simp [Path.ofName, fits.zero, hzero]
    · simp [Path.ofName, fits.zero, hzero, Path.slash]
  · rw [Path.join, hname.isAbsolute, if_neg Bool.false_ne_true]
    split
    · simp [hnil]
    · simp
  · simpa only [Path.isAbsolute_join_iff hname.isAbsolute] using hstart
  · rw [Path.endsInSlash_join hname, Path.steps_join hname]
    exact Tree.reaches_iff.mpr ((append _ _).trans (hlast b))

namespace Host

variable {h h' h'' h₀ g : Host} {dir p : Path} {d k w l : Location} {n : Name} {stem : String}
  {c : Bytes} {place : Place} {linked : Option Name}

/-- Once a directory is there, its path leads to it. -/
theorem HasFree.locate_eq (free : h₀.HasFree dir d) (houses : h₀.tree.Houses d h.tree) :
    ∃ e, h.locate dir = .ok (.entry d (.directory e)) := by
  obtain ⟨e, located⟩ := free.locateLink_eq houses
  obtain ⟨good, start, hstart, reaches⟩ := Tree.locate_eq_ok_iff.mp located
  exact ⟨e, Tree.locate_eq_ok_iff.mpr ⟨good, start, hstart, reaches.of_directory⟩⟩

namespace Opened

variable (opened : h.Opened stem dir d h')

include opened

theorem removable (ways : h'.tree.SameWays g.tree) (ht : g.tree.Sound) : g.Removable dir d :=
  (opened.free.removable_of_makeTemporary opened.own.toHouses opened.made).of_sameWays ht ways

theorem directory_eq (own : h.tree.Private d g.tree) : g.directory dir = .ok d := by
  obtain ⟨e, located⟩ := opened.free.locate_eq own.toHouses
  rw [directory, entry_of_locate located]
  rfl

/-- The user may do anything there. -/
theorem allows (what : Access) : h'.tree.allows d what = true :=
  (opened.removable (.refl _) opened.own.sound).own d (List.prefix_refl d) opened.own.home what

/-- A file can be written there. -/
theorem takes (ht : h.tree.Coherent) (hname : (Path.ofName n).IsName) (fits : dir.Fits n) :
    h'.Takes (dir.join (.ofName n)) := by
  obtain ⟨e, located⟩ := opened.free.locate_eq opened.own.toHouses
  have free : h'.tree.node? (d ++ [n]) = none := by
    rw [opened.node?_eq (List.prefix_append _ _), if_neg (by simp)]
  have admits : h'.tree.Admits ⟨true, true⟩ false d n [] :=
    ⟨opened.allows .run, by simp, fits.length⟩
  refine (takes_iff (opened.coherent ht)).mpr ⟨.vacant (d ++ [n]), Tree.locate_join located hname fits
    fun b ↦ Tree.walk_free admits free, fun c ↦ ?_⟩
  rw [Place.location, refusal?_of_free (Tree.stored_eq_none.mpr free), List.dropLast_concat]
  exact if_pos (opened.allows .write)

end Opened

/-- A directory has been made, and a file with some bytes written in it. -/
structure Filled (h : Host) (stem : String) (dir : Path) (d : Location) (h' : Host) (n : Name)
    (c : Bytes) (g : Host) : Prop extends h.Opened stem dir d h' where
  /-- Only files have been written. -/
  written : h'.Written g
  /-- The tree is coherent. -/
  coherent : g.tree.Coherent
  /-- The directory is the build's own. -/
  kept : h.tree.Private d g.tree
  /-- The name can be given to a file there. -/
  fits : dir.Fits n
  /-- The file holds the bytes, and may be read. -/
  holds : ∃ f, g.tree.node? (d ++ [n]) = some (.file f) ∧ f.content = c ∧ f.allows .read = true
  /-- Nothing else is there. -/
  only : ∀ m, (g.tree.node? (d ++ [m])).isSome → m = n
  /-- Everything else is as it was. -/
  elsewhere : ∀ k, ¬ d <+: k → g.tree.stored k = h'.tree.stored k

theorem Opened.filled (opened : h.Opened stem dir d h') (ht : h.tree.Coherent)
    (hname : (Path.ofName n).IsName) (fits : dir.Fits n)
    (hg : h'.write (dir.join (.ofName n)) c = .ok g) : h.Filled stem dir d h' n c g := by
  have coherent := opened.coherent ht
  have free : h'.tree.stored (d ++ [n]) = none := by
    rw [Tree.stored_eq_none, opened.node?_eq (List.prefix_append _ _), if_neg (by simp)]
  obtain ⟨place, hplace, hopen, ow⟩ := overwrites_of_write coherent hg
  obtain there : place.location = d ++ [n] :=
    opened.free.location_of_join opened.own.toHouses hname hplace
  rw [there] at ow hopen
  have shown := ow.shown _ (Tree.shares_self_of_free free)
  obtain ⟨f, hf, stored⟩ := Tree.exists_node?_of_stored shown
  have readable : f.stored.allows .read = true := by
    rw [stored, File.allows_having, Tree.fileAt_of_free free]
    change fileMode.testBit 8 = true
    decide
  refine { opened with
    written := ow.change.written
    coherent := ow.coherent coherent
    kept := opened.own.writesOnly opened.free.sound ow.change.tree hname hf
    fits := fits
    holds := ⟨f, hf, (congrArg File.content stored).trans (File.content_having _ _ _), readable⟩
    only := fun m hm ↦ ?_
    elsewhere := fun k hk ↦ ow.kept k fun shares ↦ hk ?_ }
  · by_contra other
    have before := ow.change.tree.isSome_of_ne (by simpa using other) hm
    rw [opened.node?_eq (List.prefix_append _ _), if_neg (by simp)] at before
    cases before
  · rw [shares.eq_of_free free]
    exact List.prefix_append _ _

namespace Filled

variable (filled : h.Filled stem dir d h' n c g)

include filled

/-- The directory offers its file. -/
theorem offers : g.Offers dir d := by
  have removable := filled.removable filled.written.ways filled.written.sound
  have own (what : Access) : g.tree.allows d what = true :=
    removable.own d (List.prefix_refl d) filled.kept.home what
  refine ⟨filled.written.sound, filled.directory_eq filled.kept, own .read, own .run,
    fun m hm ↦ ?_, fun m hm ↦ ?_⟩
  all_goals
    have there := filled.written.sound.mem_names.mp hm
    obtain rfl := filled.only m there
  · exact ⟨filled.kept.named m there, filled.fits.zero, filled.fits.length, filled.fits.path⟩
  · obtain ⟨f, hf, -⟩ := filled.holds
    exact .inl (by rw [Tree.fileId?, hf]; rfl)

theorem filesIn_eq : g.filesIn d = [n] := by
  have distinct : (g.filesIn d).Nodup := by
    refine (g.pairwise_filesIn d).imp ?_
    rintro m _ ascends rfl
    exact List.lt_irrefl m ascends
  refine List.perm_singleton.mp ((List.perm_ext_iff_of_nodup distinct
    (List.nodup_singleton n)).mpr fun m ↦ ?_)
  rw [filled.offers.mem_filesIn, List.mem_singleton]
  constructor
  · rintro ⟨f, hf⟩
    exact filled.only m (by rw [hf]; rfl)
  · rintro rfl
    obtain ⟨f, hf, -⟩ := filled.holds
    exact ⟨f, hf⟩

/-- What is stored outside is kept. -/
theorem keepsAt_after (hstem : stem ∈ temporaryStems) (keeps : h₀.KeepsAt h₀.Spare h) :
    h₀.KeepsAt h₀.Spare g := by
  have outside (k : Location) (hk : h₀.Spare k) :=
    filled.not_prefix hstem (fun _ ↦ id) keeps hk
  refine keeps.trans (keepsAt_of_stored filled.written.sound filled.kept.ways
    (filled.written.cwd_eq.trans filled.cwd_eq) fun k hk ↦ ?_)
  rw [filled.elsewhere k (outside k hk), filled.stored_eq (outside k hk)]

/-- What a copy of the file writes outside of the directory are its bytes. -/
theorem overwrites_of_copy (outside : ∀ place, g.locateNew p = .ok place → ¬ d <+: place.location)
    (hcopy : g.copy (dir.join (.ofName n)) p = (.ok (), h'')) :
    ∃ place m, g.locateNew p = .ok place ∧ g.refusal? place.location c = none ∧
      g.Overwrites place.location c m h'' := by
  obtain ⟨f, hf, content, readable⟩ := filled.holds
  have copying := copies filled.coherent (filled.offers.entry_join hf) readable p
  rw [hcopy] at copying
  cases copying with | written _ written =>
  cases written with
  | @written place _ hplace hopen ow =>
    -- the file is new, so it does not stand where it goes
    have other : g.tree.fileId? place.location ≠ some f.id := by
      intro hid
      have new : h.tree.nextId ≤ f.id := filled.kept.fresh _ _ (List.prefix_append d [n])
        (Tree.fileId?_eq_some.mpr ⟨f, hf, rfl⟩)
      rw [Tree.fileId?_of_shape_eq (filled.kept.elsewhere _ (outside place hplace))] at hid
      exact absurd (filled.free.sound.file_lt hid) (Nat.not_lt_of_le new)
    rw [copied, if_neg other, content] at hopen ow
    exact ⟨place, f.mode, hplace, hopen, ow⟩

end Filled

/-- What was there before the directory leads on as it did, whatever changes in that. -/
theorem Opened.keepsWays (opened : h.Opened stem dir d h') (ways : h.tree.KeepsWays g.tree)
    (within : g.ChangesWithin h'' d) : h.tree.KeepsWays h''.tree := by
  intro k hk
  obtain ⟨a, ha, -⟩ := (Option.any_eq_true _ _).mp hk
  exact (within.elsewhere k (opened.free.not_prefix ha)).trans (ways k hk)

/-- When the directory is removed, everything else stays as it is. -/
theorem Opened.closed (opened : h.Opened stem dir d h') (ways : h'.tree.SameWays g.tree)
    (ht : g.tree.Coherent) :
    (g.removeDirectory dir).tree.Coherent ∧ h.tree.KeepsWays (g.removeDirectory dir).tree ∧
      g.ChangesWithin (g.removeDirectory dir) d := by
  have removable := opened.removable ways ht.toSound
  have within := removable.removeDirectory
  refine ⟨ht.of_stored within.sound fun k f hf ↦ ?_,
    opened.keepsWays (opened.own.ways.trans ways.forth) within, within⟩
  by_cases hk : d <+: k
  · rw [Tree.stored_eq_none.mpr (removable.node?_removeDirectory hk)] at hf
    cases hf
  · rwa [← Tree.stored_of_shape_eq (within.elsewhere k hk)]

/-! ## What is written in both builds -/

/-- Whether a file that is written under a path comes to where builds spare what stands, or the path
leads nowhere whatever comes elsewhere. -/
inductive Lands (h : Host) (p : Path) : Prop
  /-- It comes to a place. -/
  | place {place : Place} (hp : h.locateNew p = .ok place) (spare : h.Spare place.location)
  /-- There is none. -/
  | nowhere (none : ∀ h', h.Retains h.Spare h' → ∀ place, h'.locateNew p ≠ .ok place)

/-- Where the path leads later, it has led at first. -/
theorem Lands.exists_place (lands : h₀.Lands p) (ht : h₀.tree.Sound) (r : h₀.Retains h₀.Spare h)
    (hp : h.locateNew p = .ok place) : ∃ place₀, h₀.locateNew p = .ok place₀ ∧
      h₀.Spare place₀.location ∧ place.location = place₀.location := by
  cases lands with
  | @place place₀ hp₀ spare =>
    obtain ⟨place', same, hp'⟩ := r.locateNew ht hp₀ spare
    obtain rfl := Except.ok.inj (hp.symm.trans hp')
    exact ⟨place₀, hp₀, spare, same⟩
  | nowhere none => exact absurd hp (none h r place)

/-- While that is kept, the same may be written. -/
theorem KeepsAt.refusal?_eq {K : Location → Prop} (keeps : h₀.KeepsAt K h) (ht : h₀.tree.Sound)
    (hp : h₀.locateNew p = .ok place) (hK : K place.location) :
    h.refusal? place.location c = h₀.refusal? place.location c :=
  refusal?_of_keepsWays keeps.ways (leads_dropLast_of_locateNew ht hp) (keeps.stored _ hK) c

/-- It may be written once more. -/
theorem Becomes.refusal?_eq_none (w : h₀.Becomes h) (ht : h₀.tree.Sound)
    (hp : h₀.locateNew p = .ok place) (hopen : h₀.refusal? place.location c = none) :
    h.refusal? place.location c = none := by
  have node := w.nodes place.location
  generalize hn : h₀.tree.stored place.location = n, hn' : h.tree.stored place.location = n' at node
  cases node with
  | same =>
    rw [← hopen]
    exact refusal?_of_keepsWays w.written.ways.forth (leads_dropLast_of_locateNew ht hp)
      (hn'.trans hn.symm) c
  | made _ _ hwrite => rw [refusal?_of_file hn', if_pos hwrite]
  | rewritten _ hwrite => rw [refusal?_of_file hn', if_pos hwrite]

/-- A path that leads to where two hosts hold the same leads to the same bytes. -/
theorem Concur.content?_eq {K : Location → Prop} (C : Concur K h h') (ht : h₀.tree.Sound)
    (r : h₀.Retains h₀.Spare h) (r' : h₀.Retains h₀.Spare h') (hp : h₀.locateNew p = .ok place)
    (spare : h₀.Spare place.location) (hK : K place.location) : h'.content? p = h.content? p := by
  obtain ⟨here, same, hhere⟩ := r.locateNew ht hp spare
  obtain ⟨there, same', hthere⟩ := r'.locateNew ht hp spare
  rw [content?_of_locateNew r'.sound hthere, content?_of_locateNew r.sound hhere, same, same',
    C.contents _ hK]

/-- Two hosts that have come from a third hold the same at some locations.  Others that builds spare
come on the first only, if at all, and have one name. -/
structure Agree (K : Location → Prop) (h₀ h h' : Host) : Prop extends Concur K h h' where
  /-- The tree of the first is coherent. -/
  coherent : h.tree.Coherent
  /-- So is that of the second. -/
  coherent' : h'.tree.Coherent
  /-- What is spared leads on on the first as it did. -/
  retains : h₀.Retains h₀.Spare h
  /-- So it does on the second. -/
  retains' : h₀.Retains h₀.Spare h'
  /-- What is written elsewhere on the first shows there only. -/
  alone : ∀ k, h₀.Spare k → ¬ K k → h.Alone k
  /-- There is nothing on the second. -/
  free' : ∀ k, h₀.Spare k → ¬ K k → h'.tree.stored k = none

namespace Agree

variable {K : Location → Prop} {t t' : Host} {m m' : Nat}

/-- The same bytes are written to the same place. -/
theorem overwrites (agree : Agree K h₀ h h') (spare : h₀.Spare l) (ow : h.Overwrites l c m t)
    (ow' : h'.Overwrites l c m' t') (ht : t.tree.Coherent) (ht' : t'.tree.Coherent) :
    Agree (fun k ↦ K k ∨ k = l) h₀ t t' where
  toConcur := by
    by_cases hK : K l
    · have both := agree.toConcur.overwrites agree.coherent agree.coherent' ow ow' hK
      have same (k : Location) : K k ∨ k = l ↔ K k := or_iff_left_of_imp fun h ↦ h ▸ hK
      simpa only [same] using both
    · exact agree.toConcur.overwrites_alone agree.coherent agree.coherent' ow ow'
        (agree.alone l spare hK) (alone_of_free (agree.free' l spare hK))
  coherent := ht
  coherent' := ht'
  retains := agree.retains.written ow.change.written
  retains' := agree.retains'.written ow'.change.written
  alone k hk hK := (agree.alone k hk fun h ↦ hK (.inl h)).overwrites agree.coherent ow
  free' k hk hK := by
    have free := agree.free' k hk fun h ↦ hK (.inl h)
    exact (ow'.kept k fun shares ↦ hK (.inr (shares.symm.eq_of_free free).symm)).trans free

/-- The same bytes are written under the same path. -/
theorem write (agree : Agree K h₀ h h') (ht : h₀.tree.Sound) (lands : h₀.Lands p)
    (hh : h.write p c = .ok t) (hh' : h'.write p c = .ok t') :
    ∃ place, h₀.locateNew p = .ok place ∧ h₀.Spare place.location ∧
      Agree (fun k ↦ K k ∨ k = place.location) h₀ t t' := by
  obtain ⟨here, hhere, hopen, ow⟩ := overwrites_of_write agree.coherent hh
  obtain ⟨there, hthere, hopen', ow'⟩ := overwrites_of_write agree.coherent' hh'
  obtain ⟨place, hp, spare, same⟩ := lands.exists_place ht agree.retains hhere
  obtain ⟨place', hp', -, same'⟩ := lands.exists_place ht agree.retains' hthere
  obtain rfl := Except.ok.inj (hp.symm.trans hp')
  have coherent := ow.coherent agree.coherent
  have coherent' := ow'.coherent agree.coherent'
  rw [same] at ow
  rw [same'] at ow'
  exact ⟨place, hp, spare, agree.overwrites spare ow ow' coherent coherent'⟩

/-- The directory of the second is removed. -/
theorem closed (agree : Agree K h₀ h h') (hK : ∀ k, K k → h₀.Spare k)
    (outside : ∀ k, h₀.Spare k → ¬ d <+: k) (ways : h₀.tree.KeepsWays t'.tree)
    (ht' : t'.tree.Coherent) (within : h'.ChangesWithin t' d) : Agree K h₀ h t' := by
  have same (k : Location) (hk : h₀.Spare k) : t'.tree.stored k = h'.tree.stored k :=
    Tree.stored_of_shape_eq (within.elsewhere k (outside k hk))
  exact ⟨agree.toConcur.moved fun k hk ↦ same k (hK k hk), agree.coherent, ht', agree.retains,
    agree.retains'.moved ht'.toSound ways within.cwd_eq same, agree.alone, fun k hk hnot ↦
      (same k hk).trans (agree.free' k hk hnot)⟩

end Agree

/-- A file from the directory is copied to where on another host its bytes are written. -/
theorem Filled.agree {K : Location → Prop} {e g' : Host} (filled : h.Filled stem dir d h' n c g)
    (hstem : stem ∈ temporaryStems) (ht : h₀.tree.Sound) (keeps : h₀.KeepsAt h₀.Spare h)
    (before : Agree K h₀ e h) (hK : ∀ k, K k → h₀.Spare k) (becomes : h₀.Becomes e)
    (lands : h₀.Lands p) (hcopy : g.copy (dir.join (.ofName n)) p = (.ok (), g')) :
    ∃ place t, h₀.locateNew p = .ok place ∧ h₀.Spare place.location ∧ e.write p c = .ok t ∧
      Agree (fun k ↦ K k ∨ k = place.location) h₀ t (g'.removeDirectory dir) ∧
      h.tree.KeepsWays (g'.removeDirectory dir).tree := by
  have outside (k : Location) (hk : h₀.Spare k) : ¬ d <+: k :=
    filled.not_prefix hstem (fun _ ↦ id) keeps hk
  have kept := filled.keepsAt_after hstem keeps
  have same (k : Location) (hk : h₀.Spare k) : g.tree.stored k = h.tree.stored k :=
    (kept.stored k hk).trans (keeps.stored k hk).symm
  have start : Agree K h₀ e g :=
    { before with
      toConcur := before.toConcur.moved fun k hk ↦ same k (hK k hk)
      coherent' := filled.coherent
      retains' := kept.toRetains
      free' := fun k hk hnot ↦ (same k hk).trans (before.free' k hk hnot) }
  obtain ⟨there, m, hthere, hopen', ow'⟩ := filled.overwrites_of_copy (fun place hplace ↦ by
    obtain ⟨place₀, -, spare, at₀⟩ := lands.exists_place ht kept.toRetains hplace
    exact at₀ ▸ outside _ spare) hcopy
  obtain ⟨place, hplace, spare, there_eq⟩ := lands.exists_place ht kept.toRetains hthere
  rw [there_eq] at hopen' ow'
  obtain ⟨here, here_eq, hhere⟩ := before.retains.locateNew ht hplace spare
  have hopen : e.refusal? here.location c = none := by
    rw [here_eq]
    exact becomes.refusal?_eq_none ht hplace ((kept.refusal?_eq ht hplace spare).symm.trans hopen')
  obtain ⟨t, hwrite, ow⟩ := exists_write before.coherent hhere hopen
  have coherent := ow.coherent before.coherent
  have coherent' := ow'.coherent filled.coherent
  rw [here_eq] at ow
  have both := start.overwrites spare ow ow' coherent coherent'
  obtain ⟨closed, ways, within⟩ :=
    filled.closed (filled.written.ways.trans ow'.change.written.ways) coherent'
  exact ⟨place, t, hplace, spare, hwrite, both.closed (fun k hk ↦ hk.elim (hK k) (· ▸ spare)) outside
    (keeps.ways.trans ways) closed within, ways⟩

end Host

/-! ## Where two builds keep their files -/

section

variable {h h' : Host} {dir : Path} {w d : Location} {stem : String}

/-- The working directory. -/
def Site.working (ht : h.tree.Coherent) (habs : dir.isAbsolute) (hb : h.Blank dir w) :
    Site h (h.Outer w) where
  dir := dir
  base := h
  home := w
  isAbsolute := habs
  coherent := ht
  blank := hb
  keeps := .refl ht.toSound
  apart _ hk := hk.apart

/-- A directory that has just been made. -/
def Site.temporary {K : Location → Prop} (hK : ∀ k, K k → h.Spare k) (ht : h.tree.Coherent)
    (hstem : stem ∈ Host.temporaryStems) (opened : h.Opened stem dir d h') : Site h K where
  dir := dir
  base := h'
  home := d
  isAbsolute := opened.free.isAbsolute
  coherent := opened.coherent ht
  blank :=
    { sound := opened.own.sound
      home := by
        obtain ⟨e, located⟩ := opened.free.locate_eq opened.own.toHouses
        exact ⟨e, Host.entry_of_locate located⟩
      free := fun kind n ↦ by
        rw [opened.node?_eq (show d <+: kind.place d n from List.prefix_append _ _),
          if_neg (by simp [ArtifactKind.place])] }
  keeps := opened.keepsAt hstem hK (.refl ht.toSound)
  apart k hk kind n same :=
    opened.not_prefix hstem hK (.refl ht.toSound) hk (same ▸ List.prefix_append _ _)

/-- In a directory without intermediate files none holds anything. -/
theorem Host.Blank.content?_eq_none (hb : h.Blank dir w) (kind : ArtifactKind) (n : Nat) :
    h.content? (Plan.file dir kind n) = none := by
  refine Option.eq_none_iff_forall_not_mem.mpr fun c hc ↦ ?_
  obtain ⟨place, hplace, hcontent⟩ := (Host.content?_eq_some hb.sound).mp hc
  rw [hb.location_of_file (.refl hb.sound) hplace, Tree.content?, hb.free] at hcontent
  cases hcontent

end

/-! ## The programs that builds run -/

/-- The program that an event runs. -/
def Event.program? : Event → Option Path
  | .run i => some i.program
  | .echo _ => none

namespace Session

variable {σ : Type} {tc : Toolchain σ} {s s' : Session σ} {i i' : Invocation} {dir dir' : Path}

/-- The programs that have been run. -/
def programs (s : Session σ) : List Path := s.events.filterMap Event.program?

@[simp] theorem programs_called (tc : Toolchain σ) (s : Session σ) (i : Invocation) :
    (s.called tc i).programs = s.programs ++ [i.program] := by
  simp [programs, Event.program?]

@[simp] theorem programs_echoed (tc : Toolchain σ) (s : Session σ) (line : String) :
    (s.echoed tc line).programs = s.programs := by
  simp [programs, Event.program?]

/-- Whether two builds have run the same programs, with the same files on record, each in the directory
of its own: the first keeps its files. -/
structure Abreast (dir dir' : Path) (s s' : Session σ) : Prop where
  /-- The files on record are the same. -/
  created : ∃ slots : List (ArtifactKind × Nat), s.store.created = slots.map (Plan.artifact dir true) ∧
    s'.store.created = slots.map (Plan.artifact dir' false)
  /-- So are the programs. -/
  programs_eq : s'.programs = s.programs

theorem Parallel.abreast (hs : Parallel dir dir' s s') : Abreast dir dir' s s' where
  created := hs.created
  programs_eq := by
    have events := hs.events
    unfold programs
    generalize s.events = es, s'.events = es' at events
    induction events with
    | nil => rfl
    | cons head _ ih =>
      cases head with
      | run program _ _ => simp [Event.program?, program, ih]
      | append _ _ _ => rw [List.filterMap_cons_none rfl, List.filterMap_cons_none rfl, ih]

theorem Abreast.called (hs : Abreast dir dir' s s') (program : i'.program = i.program) :
    Abreast dir dir' (s.called tc i) (s'.called tc i') where
  created := hs.created
  programs_eq := by rw [programs_called, programs_called, hs.programs_eq, program]

end Session

end ContractBuild
