import ContractBuild.Proofs.FileSystem.Operations
import ContractBuild.Proofs.Path.Join

/-!
# Changes inside a directory

A directory is made where nothing was.  As long as it `Houses` nothing but files, and the ways
through the tree stay, the path of a name behind it leads into it.  As long as the changes to the
tree are `Confined` to it, everything else is as it was.
-/

namespace ContractBuild

namespace Tree

variable {t₀ t t' t'' : Tree} {d l k : Location}

theorem KeepsWays.trans (h : t.KeepsWays t') (h' : t'.KeepsWays t'') : t.KeepsWays t'' := by
  intro k hk
  have same := h k hk
  exact (h' k (by rw [leads_of_shape_eq same, hk])).trans same

/-- What lies below a location lies in something at or below it. -/
theorem prefix_dropLast (h : l <+: k) (hne : l ≠ k) : l <+: k.dropLast := by
  refine List.prefix_of_prefix_length_le h (List.dropLast_prefix k) ?_
  have lt : l.length < k.length :=
    Nat.lt_of_le_of_ne h.length_le fun heq ↦ hne (h.eq_of_length heq)
  rw [List.length_dropLast]
  omega

/-- Nothing lies in itself. -/
theorem not_prefix_dropLast (hl : l ≠ []) : ¬ l <+: l.dropLast := by
  intro h
  have short := h.length_le
  rw [List.length_dropLast] at short
  have long := List.length_pos_iff.mpr hl
  omega

/-- Whether a directory, which was not there in an earlier tree, holds files only. -/
structure Houses (t₀ : Tree) (d : Location) (t : Tree) : Prop where
  /-- The tree is sound. -/
  sound : t.Sound
  /-- The directories and links of the earlier tree are there. -/
  ways : t₀.KeepsWays t
  /-- The directory is there. -/
  home : (t.directoryId? d).isSome
  /-- Nothing in it leads on. -/
  flat : ∀ k, d <+: k → k ≠ d → t.leads k = false

/-- No link stands there or below it. -/
theorem Houses.not_link (h : Houses t₀ d t) (hk : d <+: k) (n : Link) :
    t.node? k ≠ some (.link n) := by
  intro hn
  by_cases hne : k = d
  · obtain ⟨e, he⟩ := isSome_directoryId?.mp h.home
    cases (hne ▸ hn).symm.trans he
  · cases (h.flat k hk hne).symm.trans
      (show t.leads k = true by simp [leads, hn, Node.leads])

/-- A change to a file does not matter to a directory that files lie in. -/
theorem Houses.writesOnly (h : Houses t₀ d t) (hw : WritesOnly t t' l) : Houses t₀ d t' where
  sound := hw.sound
  ways := h.ways.trans hw.keepsWays
  home := by
    rw [directoryId?_of_shape_eq (hw.shape_of_leads (leads_of_directoryId? h.home))]
    exact h.home
  flat k hk hne := by
    by_contra hlead
    rw [Bool.not_eq_false] at hlead
    have same := hw.shape_of_leads_after hlead
    rw [leads_of_shape_eq same, h.flat k hk hne] at hlead
    cases hlead

/-- Whether a tree differs from an earlier one only at a location and below it, where all files
are new. -/
structure Confined (t₀ : Tree) (d : Location) (t : Tree) : Prop where
  /-- No identity is given out a second time. -/
  nextId_le : t₀.nextId ≤ t.nextId
  /-- Everything else is as it was. -/
  elsewhere : ∀ k, ¬ d <+: k → t.shape k = t₀.shape k
  /-- Files at the location or below it have new identities. -/
  fresh : ∀ k id, d <+: k → t.fileId? k = some id → t₀.nextId ≤ id

/-- A change inside the directory stays there, since the file has no name elsewhere. -/
theorem Confined.writesOnly (h : Confined t₀ d t) (ht₀ : t₀.Sound) (hw : WritesOnly t t' l)
    (hl : d <+: l) : Confined t₀ d t' where
  nextId_le := Nat.le_trans h.nextId_le hw.nextId_le
  elsewhere k hk := by
    have hkl : k ≠ l := fun hkl ↦ hk (hkl ▸ hl)
    rcases hw.elsewhere k hkl with same | ⟨file, name, -⟩
    · rw [same, h.elsewhere k hk]
    · obtain ⟨id, hid⟩ := Option.isSome_iff_exists.mp file
      have new : t₀.nextId ≤ id := h.fresh l id hl hid
      have old : id < t₀.nextId := by
        refine ht₀.file_lt ((fileId?_of_shape_eq (h.elsewhere k hk)).symm.trans ?_)
        rw [name, hid]
      exact absurd old (Nat.not_lt_of_le new)
  fresh k id hk hid := by
    by_cases hkl : k = l
    · subst hkl
      rcases hw.here with same | ⟨-, -, ids⟩
      · exact h.fresh k id hk ((fileId?_of_shape_eq same).symm.trans hid)
      · exact (ids id hid).elim (h.fresh k id hk) (Nat.le_trans h.nextId_le)
    · rcases hw.elsewhere k hkl with same | ⟨-, -, kept⟩
      · exact h.fresh k id hk ((fileId?_of_shape_eq same).symm.trans hid)
      · exact h.fresh k id hk (kept.symm.trans hid)

end Tree

/-! ## Paths into the directory -/

namespace Host

variable {h₀ h : Host} {dir name : Path} {d : Location} {place : Place} {m : Manner}

/-- Whether an absolute path is a free name. -/
structure HasFree (h : Host) (dir : Path) (d : Location) : Prop where
  /-- The tree is sound. -/
  sound : h.tree.Sound
  /-- The path is absolute. -/
  isAbsolute : dir.isAbsolute
  /-- It does not end in a slash. -/
  endsInSlash : dir.endsInSlash = false
  /-- It ends in a name. -/
  named : ∃ n, dir.lastStep? = some (.enter n)
  /-- The name is free. -/
  vacant : h.locateLink dir = .ok (.vacant d)

/-- Nothing stands at a free name or below it. -/
theorem HasFree.node?_eq_none (free : h₀.HasFree dir d) {k : Location} (hk : d <+: k) :
    h₀.tree.node? k = none := by
  have here : h₀.tree.node? d = none := Tree.shows_of_locate free.vacant
  by_cases hne : d = k
  · rw [← hne, here]
  · exact free.sound.node?_eq_none_of_prefix (by simp [Tree.directoryId?, here]) hk hne

theorem HasFree.not_prefix (free : h₀.HasFree dir d) {k : Location} {n : Node}
    (hk : h₀.tree.node? k = some n) : ¬ d <+: k := by
  intro hd
  simp [free.node?_eq_none hd] at hk

/-- Once the directory is there, its path leads to it. -/
theorem HasFree.walk_eq (free : h₀.HasFree dir d) (houses : h₀.tree.Houses d h.tree) :
    ∃ n, h.tree.node? d = some (.directory n) ∧
      h.tree.walk linkLimit ⟨false, false⟩ false [] dir.steps = .ok (.entry d (.directory n)) := by
  obtain ⟨_, start, hstart, reaches⟩ := Tree.locate_eq_ok_iff.mp free.vacant
  rw [if_pos free.isAbsolute, Option.some.injEq] at hstart
  subst hstart
  rw [free.endsInSlash] at reaches
  have hd {l : Location} (hl : Place.vacant d = .vacant l) : (h.tree.directoryId? l).isSome :=
    Place.vacant.inj hl ▸ houses.home
  obtain ⟨n, hn, walk⟩ := reaches.walk_of_keepsWays free.sound houses.ways
    (Tree.isSome_directoryId?_root _) (fun _ _ hp ↦ by cases hp) fun _ ↦ hd
  obtain ⟨e, he⟩ := Tree.isSome_directoryId?.mp houses.home
  obtain rfl := Option.some.inj (hn.symm.trans he)
  exact ⟨e, he, walk⟩

theorem HasFree.locateLink_eq (free : h₀.HasFree dir d) (houses : h₀.tree.Houses d h.tree) :
    ∃ n, h.locateLink dir = .ok (.entry d (.directory n)) := by
  obtain ⟨good, _⟩ := Tree.locate_eq_ok_iff.mp free.vacant
  obtain ⟨n, -, walk⟩ := free.walk_eq houses
  refine ⟨n, Tree.locate_eq_ok_iff.mpr ⟨good, [], if_pos free.isAbsolute, ?_⟩⟩
  rw [free.endsInSlash]
  exact Tree.reaches_iff.mpr walk

/-- What the path leads to is the directory. -/
theorem HasFree.eq_of_entry (free : h₀.HasFree dir d) (houses : h₀.tree.Houses d h.tree)
    {l : Location} {n : Node} (he : h.entry dir = .ok (l, n)) : l = d := by
  obtain ⟨_, start, hstart, reaches⟩ := Tree.locate_eq_ok_iff.mp (locate_of_entry he)
  rw [if_pos free.isAbsolute, Option.some.injEq] at hstart
  subst hstart
  rw [free.endsInSlash] at reaches
  obtain ⟨e, -, walk⟩ := free.walk_eq houses
  have same := reaches.walk_eq.symm.trans (Tree.reaches_iff.mpr walk).of_directory.walk_eq
  exact (Place.entry.inj (Except.ok.inj same)).1

/-- A name behind the path of the directory leads into it. -/
theorem HasFree.location_of_join (free : h₀.HasFree dir d) (houses : h₀.tree.Houses d h.tree)
    (hname : name.IsName) {here : Option Location}
    (hp : h.tree.locate here m (dir.join name) = .ok place) : place.location = d ++ [name.raw] := by
  obtain ⟨_, start, hstart, reaches⟩ := Tree.locate_eq_ok_iff.mp hp
  rw [if_pos (Path.isAbsolute_join free.isAbsolute name), Option.some.injEq] at hstart
  subst hstart
  rw [Path.endsInSlash_join hname, Path.steps_join hname] at reaches
  obtain ⟨n, hn, walk⟩ := free.walk_eq houses
  obtain ⟨b, append⟩ :=
    (Tree.reaches_iff.mpr walk).walk_append (List.cons_ne_nil (.enter name.raw) [])
  have last : h.tree.Reaches b m false d [.enter name.raw] place :=
    Tree.reaches_iff.mpr ((append m false).symm.trans reaches.walk_eq)
  have flat : h.tree.leads (d ++ [name.raw]) = false :=
    houses.flat _ (List.prefix_append _ _) (by simp)
  cases last with
  | into _ hn _ => simp [Tree.leads, hn, Node.leads] at flat
  | follow _ hn _ _ => simp [Tree.leads, hn, Node.leads] at flat
  | link _ _ _ _ => rfl
  | last _ _ _ _ => rfl
  | free _ _ => rfl

end Host

end ContractBuild

/-!
## Temporary directories

A temporary directory has an absolute path, wherever the directory for temporary files is.
-/

namespace ContractBuild

namespace Path

theorem isAbsolute_ofLocation (l : Location) : (ofLocation l).isAbsolute := by
  cases l with
  | nil => rfl
  | cons n l => simp [ofLocation, isAbsolute]

end Path

namespace Host

variable {h h' : Host} {root p : Path} {stem : String}

theorem isAbsolute_temporaryRoot (hroot : h.temporaryRoot = .ok root) : root.isAbsolute := by
  unfold temporaryRoot at hroot
  split at hroot
  next habs =>
    obtain rfl := Except.ok.inj hroot
    exact habs
  next =>
    unfold currentDir at hroot
    cases hhere : h.here? with
    | none => simp [hhere, Except.map] at hroot
    | some l =>
      rw [hhere] at hroot
      obtain rfl := Except.ok.inj hroot
      exact Path.isAbsolute_join (Path.isAbsolute_ofLocation l) _

/-- A temporary directory is a new directory with one of the temporary names. -/
theorem cases_makeTemporary (hmade : h.makeTemporary stem = .ok (p, h')) :
    ∃ root rest, h.temporaryRoot = .ok root ∧ p = temporary root stem rest ∧
      h.makeDirectory p programMode = .ok h' := by
  obtain ⟨root, hroot, hmade⟩ := exists_of_bind_eq_ok hmade
  have found (left n : Nat) (hmade : h.makeTemporaryFrom root stem left n = .ok (p, h')) :
      ∃ rest, p = temporary root stem rest ∧ h.makeDirectory p programMode = .ok h' := by
    induction left generalizing n with
    | zero => cases hmade
    | succ left ih =>
      unfold makeTemporaryFrom at hmade
      dsimp only at hmade
      split at hmade
      next h'' hdir =>
        obtain ⟨rfl, rfl⟩ := Prod.mk.inj (Except.ok.inj hmade)
        exact ⟨_, rfl, hdir⟩
      next =>
        split at hmade
        · exact ih _ hmade
        · cases hmade
  obtain ⟨rest, hp, hdir⟩ := found _ _ hmade
  exact ⟨root, rest, hroot, hp, hdir⟩

theorem isAbsolute_of_makeTemporary (hmade : h.makeTemporary stem = .ok (p, h')) :
    p.isAbsolute := by
  obtain ⟨root, n, hroot, rfl, _⟩ := cases_makeTemporary hmade
  exact Path.isAbsolute_join (isAbsolute_temporaryRoot hroot) _

/-! ### The new directory -/

/-- What the directories of builds are called after. -/
def temporaryStems : List String := ["tvm-build-", "tvm-link-"]

theorem mem_temporaryStems_build : "tvm-build-" ∈ temporaryStems := List.mem_cons_self

theorem mem_temporaryStems_link : "tvm-link-" ∈ temporaryStems :=
  List.mem_cons_of_mem _ List.mem_cons_self

/-- Their names start with a plain character that is no dot, and go on with plain characters. -/
theorem isName_temporary (hstem : stem ∈ temporaryStems) (rest : TemporaryEnd) :
    (Path.ofString (stem ++ String.ofList rest.chars)).IsName := by
  obtain ⟨c, r, hstem, hplain, hc⟩ :
      ∃ c r, stem.toList = c :: r ∧ stem.toList.all Path.isPlain ∧ c ≠ '.' := by
    rcases List.mem_cons.mp hstem with rfl | hstem
    · exact ⟨_, _, rfl, by decide, by decide⟩
    · obtain rfl := List.mem_singleton.mp hstem
      exact ⟨_, _, rfl, by decide, by decide⟩
  refine Path.isName_ofString (c := c) (r := r ++ rest.chars) ?_ (fun d hd ↦ ?_) hc
  · simp [hstem]
  · rw [String.toList_append, String.toList_ofList] at hd
    rcases List.mem_append.mp hd with hd | hd
    · exact List.all_eq_true.mp hplain d hd
    · exact Path.isPlain_of_isAlphanum (List.all_eq_true.mp rest.isAlphanum d hd)

theorem cases_makeDirectory {mode : Nat} (hmade : h.makeDirectory p mode = .ok h') :
    ∃ d, h.locateName p = .ok (.vacant d) ∧
      h' = h.withTree ((h.tree.addDirectory d mode).noteChange d.dropLast) := by
  obtain ⟨place, hplace, hmade⟩ := exists_of_bind_eq_ok hmade
  split at hmade
  next d =>
    obtain rfl := eq_of_changeAbove hmade
    exact ⟨d, hplace, rfl⟩
  next => cases hmade

/-- A temporary directory is made in a directory that may be changed, and nothing else is. -/
theorem HasFree.eq_of_makeTemporary {d : Location} (free : h.HasFree p d)
    (hmade : h.makeTemporary stem = .ok (p, h')) : h.tree.allows d.dropLast .write = true ∧
      h' = h.withTree ((h.tree.addDirectory d programMode).noteChange d.dropLast) := by
  obtain ⟨root, n, -, -, hdir⟩ := cases_makeTemporary hmade
  obtain ⟨place, hplace, hdir⟩ := exists_of_bind_eq_ok hdir
  rw [locateName, Path.trimSlashes_of_endsInSlash free.endsInSlash] at hplace
  obtain rfl := Except.ok.inj (free.vacant.symm.trans hplace)
  dsimp only at hdir
  have allowed : h.tree.allows d.dropLast .write = true := by
    by_contra refused
    rw [changeAbove, if_neg refused] at hdir
    cases hdir
  obtain rfl := eq_of_changeAbove hdir
  exact ⟨allowed, rfl⟩

/-- The name of a temporary directory starts as it was asked for. -/
def IsNamedAfter (stem : String) (d : Location) : Prop :=
  ∃ rest, d.getLast? = some (Bytes.ofString stem ++ rest)

theorem HasFree.isNamedAfter {d : Location} (free : h.HasFree p d) (hstem : stem ∈ temporaryStems)
    (hmade : h.makeTemporary stem = .ok (p, h')) : IsNamedAfter stem d := by
  obtain ⟨root, n, -, rfl, -⟩ := cases_makeTemporary hmade
  have name := isName_temporary hstem n
  obtain ⟨-, start, -, reaches⟩ := Tree.locate_eq_ok_iff.mp free.vacant
  rw [free.endsInSlash, temporary, Path.steps_join name] at reaches
  refine ⟨Bytes.ofString (String.ofList n.chars), (reaches.getLast?_location rfl rfl).trans ?_⟩
  simp [Path.ofString, Bytes.ofString, Utf8.encode]

/-- It is the user's own and empty. -/
theorem HasFree.node?_of_makeTemporary {d k : Location} (free : h.HasFree p d)
    (hmade : h.makeTemporary stem = .ok (p, h')) (hk : d <+: k) :
    h'.tree.node? k =
      if k = d then some (.directory (h.tree.newDirectory programMode)) else none := by
  obtain ⟨-, rfl⟩ := free.eq_of_makeTemporary hmade
  have hd : d ≠ [] := by
    rintro rfl
    have vacant : h.tree.node? [] = none := Tree.shows_of_locate free.vacant
    simp at vacant
  have above : k ≠ d.dropLast := by
    rintro rfl
    exact Tree.not_prefix_dropLast hd hk
  rw [withTree, Tree.noteChange, Tree.node?_adjust_of_ne above]
  split
  next here => rw [here, Tree.node?_addDirectory_self hd]
  next hne => rw [Tree.node?_addDirectory_of_ne hne, free.node?_eq_none hk]

/-- A new directory is empty, and everything else is as it was. -/
theorem houses_addDirectory {t : Tree} {d : Location} (ht : t.Sound) (hfree : t.node? d = none)
    (hdir : (t.directoryId? d.dropLast).isSome) (mode : Nat) :
    t.Houses d ((t.addDirectory d mode).noteChange d.dropLast) ∧
      t.Confined d ((t.addDirectory d mode).noteChange d.dropLast) := by
  have hd : d ≠ [] := fun h ↦ by simp [h] at hfree
  have shape (k : Location) (hk : k ≠ d) :
      ((t.addDirectory d mode).noteChange d.dropLast).shape k = t.shape k := by
    rw [Tree.shape_noteChange, Tree.shape, Tree.node?_addDirectory_of_ne hk, Tree.shape]
  have here : (t.addDirectory d mode).node? d = some (.directory (t.newDirectory mode)) :=
    Tree.node?_addDirectory_self hd t mode
  have below (k : Location) (hk : d <+: k) (hne : k ≠ d) : t.node? k = none :=
    ht.node?_eq_none_of_prefix (by simp [Tree.directoryId?, hfree]) hk hne.symm
  have sound := (ht.addDirectory hfree hdir mode).noteChange d.dropLast
  refine ⟨⟨sound, fun k hk ↦ shape k ?_, ?_, fun k hk hne ↦ ?_⟩,
    ⟨Nat.le_succ _, fun k hk ↦ shape k ?_, fun k id hk hid ↦ ?_⟩⟩
  · rintro rfl
    simp [Tree.leads, hfree] at hk
  · rw [Tree.directoryId?_of_shape_eq (Tree.shape_noteChange _ _ d)]
    exact Tree.isSome_directoryId?.mpr ⟨_, here⟩
  · rw [Tree.leads_of_shape_eq (shape k hne), Tree.leads, below k hk hne]
    rfl
  · rintro rfl
    exact hk (List.prefix_refl _)
  · by_cases hne : k = d
    · rw [hne, Tree.fileId?_of_shape_eq (Tree.shape_noteChange _ _ d), Tree.fileId?, here] at hid
      cases hid
    · rw [Tree.fileId?_of_shape_eq (shape k hne), Tree.fileId?, below k hk hne] at hid
      cases hid

/-- Making a temporary directory makes a new directory and changes nothing else. -/
theorem houses_makeTemporary (ht : h.tree.Sound) (hstem : stem ∈ temporaryStems)
    (hmade : h.makeTemporary stem = .ok (p, h')) :
    ∃ d, h.HasFree p d ∧ h.tree.Houses d h'.tree ∧ h.tree.Confined d h'.tree ∧ h'.cwd = h.cwd := by
  obtain ⟨root, n, hroot, rfl, hdir⟩ := cases_makeTemporary hmade
  have name := isName_temporary hstem n
  have plain : (temporary root stem n).endsInSlash = false := Path.endsInSlash_join name
  obtain ⟨d, hd, rfl⟩ := cases_makeDirectory hdir
  rw [locateName, Path.trimSlashes_of_endsInSlash plain] at hd
  obtain ⟨houses, confined⟩ := houses_addDirectory ht (Tree.shows_of_locate hd)
    (isSome_directoryId?_of_vacant ht hd) programMode
  exact ⟨d, ⟨ht, isAbsolute_of_makeTemporary hmade, plain, ⟨_, Path.lastStep?_join name⟩, hd⟩,
    houses, confined, rfl⟩

end Host

end ContractBuild
