import ContractBuild.Proofs.FileSystem.Confined

/-!
# Removing a directory

A directory is emptied and then removed, as far as the user may.  Neither changes anything outside
the directory.
-/

namespace ContractBuild

namespace Tree

variable {t : Tree} {d k l : Location}

theorem isBelow_iff : isBelow d k = true ↔ d <+: k ∧ d ≠ k := by
  simp [isBelow]

/-- What does not lie below a directory lies in none that does. -/
theorem isBelow_dropLast (h : isBelow d k = false) : isBelow d k.dropLast = false := by
  rw [← Bool.not_eq_true] at h ⊢
  refine fun hup ↦ h ?_
  obtain ⟨hd, hne⟩ := isBelow_iff.mp hup
  refine isBelow_iff.mpr ⟨hd.trans (List.dropLast_prefix k), ?_⟩
  rintro rfl
  exact hne (hd.eq_of_length_le (List.dropLast_prefix d).length_le)

/-! ## Names in a directory -/

theorem mem_insertName {m n : Name} {ns : List Name} :
    m ∈ insertName n ns ↔ m = n ∨ m ∈ ns := by
  induction ns with
  | nil => simp [insertName]
  | cons a ns ih =>
    unfold insertName
    split
    · simp
    · split
      next h => simp [h]
      next => simp [ih, or_left_comm]

theorem pairwise_insertName {n : Name} {ns : List Name} (h : ns.Pairwise (· < ·)) :
    (insertName n ns).Pairwise (· < ·) := by
  induction ns with
  | nil => exact List.pairwise_singleton _ n
  | cons a ns ih =>
    obtain ⟨first, rest⟩ := List.pairwise_cons.mp h
    unfold insertName
    split
    next lt =>
      refine List.pairwise_cons.mpr ⟨fun m hm ↦ ?_, h⟩
      rcases List.mem_cons.mp hm with rfl | hm
      · exact lt
      · exact List.lt_trans lt (first m hm)
    next hlt =>
      split
      next => exact h
      next hne =>
        refine List.pairwise_cons.mpr ⟨fun m hm ↦ ?_, ih rest⟩
        rcases mem_insertName.mp hm with rfl | hm
        · exact Std.lt_of_le_of_ne (List.not_lt.mp hlt) (Ne.symm hne)
        · exact first m hm

/-- The names in a directory ascend. -/
theorem pairwise_names (t : Tree) (l : Location) : (t.names l).Pairwise (· < ·) := by
  unfold names
  induction t.entries with
  | nil => exact .nil
  | cons e es ih =>
    rw [List.foldr_cons]
    split
    next => exact pairwise_insertName ih
    next => exact ih

theorem nameIn?_eq_some_iff {n : Name} : nameIn? l k = some n ↔ k = l ++ [n] := by
  induction l generalizing k with
  | nil =>
    rcases k with _ | ⟨a, _ | ⟨b, k⟩⟩
    · simp [nameIn?]
    · simp [nameIn?]
    · simp [nameIn?]
  | cons a l ih =>
    cases k with
    | nil => simp [nameIn?]
    | cons b k =>
      unfold nameIn?
      split
      next h => simp [ih, h]
      next h => simp [Ne.symm h]

/-- The names in a directory are those under which something stands in it. -/
theorem Sound.mem_names (ht : t.Sound) {n : Name} :
    n ∈ t.names l ↔ (t.node? (l ++ [n])).isSome := by
  have listed : n ∈ t.names l ↔ ∃ e ∈ t.entries, e.1 = l ++ [n] := by
    unfold names
    induction t.entries with
    | nil => simp
    | cons e es ih =>
      rw [List.foldr_cons, List.exists_mem_cons_iff, ← ih]
      split
      next m hm =>
        rw [mem_insertName, nameIn?_eq_some_iff.mp hm]
        simp [eq_comm]
      next hnone =>
        have other : e.1 ≠ l ++ [n] := fun h ↦ by simp [nameIn?_eq_some_iff.mpr h] at hnone
        simp [other]
  rw [listed, Option.isSome_iff_exists]
  refine ⟨fun ⟨⟨k, a⟩, he, hk⟩ ↦ ⟨a, (ht.node?_eq_some_iff (by simp)).mpr (hk ▸ he)⟩, fun ⟨a, ha⟩ ↦ ?_⟩
  exact ⟨_, (ht.node?_eq_some_iff (by simp)).mp ha, rfl⟩

/-- In a directory without names nothing lies. -/
theorem Sound.dropLast_ne_of_names_eq_nil (ht : t.Sound) (hl : t.names l = []) (hk : k ≠ [])
    (hn : (t.node? k).isSome) : k.dropLast ≠ l := by
  rintro rfl
  rw [← List.dropLast_append_getLast hk, ← ht.mem_names, hl] at hn
  cases hn

/-- Emptying a directory keeps a tree sound, and whatever does not lie in the directory. -/
theorem Sound.emptied (ht : t.Sound) (d : Location) : (Host.emptied t d).Sound ∧
    ∀ k, (Host.emptied t d).node? k = t.node? k ∨
      isBelow d k = true ∧ (Host.emptied t d).node? k = none := by
  suffices ∃ p : Location → Bool, Host.emptied t d = t.keep p ∧
      (∀ k, isBelow d k = false → p k = true) ∧ ∀ k, p k = true → p k.dropLast = true by
    obtain ⟨p, hp, hout, hup⟩ := this
    rw [hp]
    refine ⟨ht.keep fun k _ hk _ ↦ hup k hk, fun k ↦ ?_⟩
    rw [node?_keep]
    split
    next => exact .inl rfl
    next hk =>
      refine .inr ⟨?_, rfl⟩
      by_contra hbelow
      exact hk (.inr (hout k (by simpa using hbelow)))
  unfold Host.emptied
  extract_lets blocked
  clear_value blocked
  split
  next =>
    refine ⟨fun k ↦ !isBelow d k, rfl, fun k hk ↦ by simp [hk], fun k hk ↦ ?_⟩
    simp only [Bool.not_eq_eq_eq_not, Bool.not_true] at hk ⊢
    exact isBelow_dropLast hk
  next =>
    refine ⟨fun k ↦ !isBelow d k || blocked.any fun b ↦ k <+: b || b <+: k, rfl,
      fun k hk ↦ by simp [hk], fun k hk ↦ ?_⟩
    simp only [Bool.or_eq_true, Bool.not_eq_eq_eq_not, Bool.not_true, List.any_eq_true,
      decide_eq_true_eq] at hk ⊢
    rcases hk with hk | ⟨b, hb, hk | hk⟩
    · exact .inl (isBelow_dropLast hk)
    · exact .inr ⟨b, hb, .inl ((List.dropLast_prefix k).trans hk)⟩
    · by_cases hbk : b = k
      · exact .inr ⟨b, hb, .inl (hbk ▸ List.dropLast_prefix k)⟩
      · exact .inr ⟨b, hb, .inr (prefix_dropLast hk hbk)⟩

/-! ## Emptied directories -/

theorem node?_eraseInside (t : Tree) (d k : Location) :
    (t.eraseInside d).node? k = if isBelow d k then none else t.node? k := by
  split
  next h => exact node?_eraseInside_of_isBelow h t
  next h => exact node?_eraseInside_of_not (by simpa using h) t

/-- Emptying a directory keeps a tree sound. -/
theorem Sound.eraseInside (ht : t.Sound) (d : Location) : (t.eraseInside d).Sound := by
  refine Sound.keep (p := fun k ↦ !isBelow d k) ht fun k _ hk _ ↦ ?_
  simp only [Bool.not_eq_eq_eq_not, Bool.not_true] at hk ⊢
  exact isBelow_dropLast hk

theorem leads_of_eraseInside (hk : (t.eraseInside d).leads k = true) :
    isBelow d k = false ∧ t.leads k = true := by
  unfold leads at hk ⊢
  rw [node?_eraseInside] at hk
  split at hk
  next => cases hk
  next h => exact ⟨by simpa using h, hk⟩

theorem shape_eraseInside (h : isBelow d k = false) : (t.eraseInside d).shape k = t.shape k := by
  simp [shape, node?_eraseInside, h]

end Tree

namespace Host

variable {h₀ h h' h'' : Host} {dir : Path} {d : Location}

/-- The change from one host to another is one at a location and below it. -/
structure ChangesWithin (h h' : Host) (d : Location) : Prop where
  /-- The tree is sound. -/
  sound : h'.tree.Sound
  /-- Everything else is as it was. -/
  elsewhere : ∀ k, ¬ d <+: k → h'.tree.shape k = h.tree.shape k
  /-- The process stays in its directory. -/
  cwd_eq : h'.cwd = h.cwd

namespace ChangesWithin

theorem refl (ht : h.tree.Sound) (d : Location) : h.ChangesWithin h d := ⟨ht, fun _ _ ↦ rfl, rfl⟩

theorem trans (first : h.ChangesWithin h' d) (second : h'.ChangesWithin h'' d) :
    h.ChangesWithin h'' d :=
  ⟨second.sound, fun k hk ↦ (second.elsewhere k hk).trans (first.elsewhere k hk),
    second.cwd_eq.trans first.cwd_eq⟩

end ChangesWithin

/-! ## Sound trees -/

/-- Removing a file or a link leaves a sound tree. -/
theorem sound_removeFile (ht : h.tree.Sound) (p : Path) : (h.removeFile p).tree.Sound := by
  unfold removeFile
  split
  next h' hh =>
    obtain ⟨place, hplace, hh⟩ := exists_of_bind_eq_ok hh
    have shows := Tree.shows_of_locate hplace
    split at hh
    next => cases hh
    next => split at hh <;> cases hh
    next k n hdir =>
      split at hh
      · cases hh
      · obtain rfl := eq_of_changeAbove hh
        refine (ht.erase_of_directoryId? ?_).noteChange _
        rw [Tree.directoryId?, shows]
        cases n with
        | directory e => exact absurd rfl (hdir e)
        | _ => rfl
  next => exact ht

theorem sound_removeEmpty {p : Path} (ht : h.tree.Sound) (hh : h.removeEmpty p = .ok h') : h'.tree.Sound := by
  obtain ⟨place, -, hh⟩ := exists_of_bind_eq_ok hh
  split at hh
  next => cases hh
  next => cases hh
  next => cases hh
  next => cases hh
  next l n _ _ =>
    split at hh
    · cases hh
    split at hh
    next =>
      split at hh
      next hnames =>
        obtain rfl := eq_of_changeAbove hh
        refine (ht.erase fun k hk hn ↦ ?_).noteChange _
        exact ht.dropLast_ne_of_names_eq_nil hnames hk hn
      next => cases hh
    next => cases hh

/-- So does removing a directory. -/
theorem sound_removeDirectory (ht : h.tree.Sound) (p : Path) :
    (h.removeDirectory p).tree.Sound := by
  unfold removeDirectory
  split
  next l d _ =>
    have left : (h.withTree (emptied h.tree l)).tree.Sound := (ht.emptied l).1
    split
    · exact ht
    · dsimp only
      split
      next h' hh => exact sound_removeEmpty left hh
      next => exact left
  next => exact sound_removeFile ht p
  next => exact ht

/-! ## Hosts without a directory -/

/-- The host without everything at a location and below it. -/
def without (h : Host) (d : Location) : Host := h.withTree (h.tree.keep fun k ↦ !decide (d <+: k))

theorem node?_without {k : Location} (hk : ¬ d <+: k) :
    (h.without d).tree.node? k = h.tree.node? k := by
  simp [without, withTree, Tree.node?_keep, hk]

theorem node?_without_of_prefix {k : Location} (hd : d ≠ []) (hk : d <+: k) :
    (h.without d).tree.node? k = none := by
  have hne : k ≠ [] := fun h ↦ hd (List.prefix_nil.mp (h ▸ hk))
  simp [without, withTree, Tree.node?_keep, hk, hne]

theorem shape_without {k : Location} (hk : ¬ d <+: k) :
    (h.without d).tree.shape k = h.tree.shape k := congrArg _ (node?_without hk)

/-- Directories and links outside a directory lead on as they did, whatever becomes of that. -/
theorem keepsWays_of_without (hd : d ≠ [])
    (hsame : ∀ k, ¬ d <+: k → h.tree.leads k = true → h'.tree.shape k = h.tree.shape k) :
    (h.without d).tree.KeepsWays h'.tree := by
  intro k hk
  by_cases hdk : d <+: k
  · simp [Tree.leads, node?_without_of_prefix hd hdk] at hk
  · have same := shape_without (h := h) hdk
    rw [hsame k hdk ((Tree.leads_of_shape_eq same).symm.trans hk), same]

theorem sound_without (ht : h.tree.Sound) (d : Location) : (h.without d).tree.Sound := by
  refine Tree.Sound.keep (p := fun k ↦ !decide (d <+: k)) ht fun k _ hk _ ↦ ?_
  simp only [Bool.not_eq_eq_eq_not, Bool.not_true, decide_eq_false_iff_not] at hk ⊢
  exact fun hup ↦ hk (hup.trans (List.dropLast_prefix k))

/-! ## Directories with whatever they hold -/

/-- Whether an absolute path that ends in a name leads to a directory, and would do so if nothing lay
below that. -/
structure HasDirectory (h : Host) (dir : Path) (d : Location) : Prop where
  /-- The tree is sound. -/
  sound : h.tree.Sound
  /-- The path is absolute. -/
  isAbsolute : dir.isAbsolute
  /-- It does not end in a slash. -/
  endsInSlash : dir.endsInSlash = false
  /-- It ends in a name. -/
  named : ∃ n, dir.lastStep? = some (.enter n)
  /-- It leads to the directory by a way outside that. -/
  leads : ∃ n, (h.withTree (h.tree.eraseInside d)).locateLink dir = .ok (.entry d (.directory n))

theorem locateLink_eq_ok_iff (habs : dir.isAbsolute) (hplain : dir.endsInSlash = false)
    {place : Place} : h.locateLink dir = .ok place ↔
      (0 ∉ dir.raw ∧ dir.raw ≠ [] ∧ dir.raw.length < pathLimit) ∧
        h.tree.Reaches linkLimit ⟨false, false⟩ false [] dir.steps place := by
  unfold locateLink
  simp [Tree.locate_eq_ok_iff, habs, hplain]

/-- A walk to a directory leads there while directories and links are kept. -/
theorem exists_reaches_directory {t t' : Tree} {ss : List Step} {n : Directory} (ht : t.Sound)
    (hways : t.KeepsWays t')
    (h : t.Reaches linkLimit ⟨false, false⟩ false [] ss (.entry d (.directory n))) :
    ∃ n', t'.node? d = some (.directory n') ∧
      t'.Reaches linkLimit ⟨false, false⟩ false [] ss (.entry d (.directory n')) := by
  obtain ⟨a, ha, walk⟩ := h.walk_of_keepsWays ht hways (Tree.isSome_directoryId?_root _)
    (fun _ _ hp hlead ↦ by cases hp; cases hlead) fun _ hp ↦ by cases hp
  obtain ⟨n', hn'⟩ := hways.directory h.shows
  obtain rfl := Option.some.inj (ha.symm.trans hn')
  exact ⟨n', hn', Tree.reaches_iff.mpr walk⟩

namespace HasDirectory

variable (hd : h.HasDirectory dir d)

include hd

theorem reaches : ∃ n, h.tree.node? d = some (.directory n) ∧
    h.tree.Reaches linkLimit ⟨false, false⟩ false [] dir.steps (.entry d (.directory n)) := by
  obtain ⟨n, hn⟩ := hd.leads
  obtain ⟨-, reaches⟩ := (locateLink_eq_ok_iff hd.isAbsolute hd.endsInSlash).mp hn
  refine exists_reaches_directory (hd.sound.eraseInside d) (fun k hk ↦ ?_) reaches
  exact (Tree.shape_eraseInside (Tree.leads_of_eraseInside hk).1).symm

/-- The path leads to the directory. -/
theorem locateLink_eq : ∃ n, h.locateLink dir = .ok (.entry d (.directory n)) := by
  obtain ⟨n, -, reaches⟩ := hd.reaches
  obtain ⟨n', hn'⟩ := hd.leads
  obtain ⟨good, -⟩ := (locateLink_eq_ok_iff hd.isAbsolute hd.endsInSlash).mp hn'
  exact ⟨n, (locateLink_eq_ok_iff hd.isAbsolute hd.endsInSlash).mpr ⟨good, reaches⟩⟩

/-- The directory is not the root, and its path still leads there after changes inside it. -/
theorem of_ways (ht' : h'.tree.Sound) (hways : ∀ k, Tree.isBelow d k = false →
    h.tree.leads k = true → h'.tree.shape k = h.tree.shape k) : h'.HasDirectory dir d := by
  refine ⟨ht', hd.isAbsolute, hd.endsInSlash, hd.named, ?_⟩
  obtain ⟨n, hn⟩ := hd.leads
  obtain ⟨good, reaches⟩ := (locateLink_eq_ok_iff hd.isAbsolute hd.endsInSlash).mp hn
  have ways : (h.tree.eraseInside d).KeepsWays (h'.tree.eraseInside d) := by
    intro k hk
    obtain ⟨hbelow, hlead⟩ := Tree.leads_of_eraseInside hk
    exact (Tree.shape_eraseInside hbelow).trans
      ((hways k hbelow hlead).trans (Tree.shape_eraseInside hbelow).symm)
  obtain ⟨n', -, reaches'⟩ := exists_reaches_directory (hd.sound.eraseInside d) ways reaches
  exact ⟨n', (locateLink_eq_ok_iff hd.isAbsolute hd.endsInSlash).mpr ⟨good, reaches'⟩⟩

/-- The directory is not the root. -/
theorem ne_nil : d ≠ [] := by
  obtain ⟨n, -, reaches⟩ := hd.reaches
  obtain ⟨name, hname⟩ := hd.named
  obtain ⟨ss, hss⟩ := List.getLast?_eq_some_iff.mp hname
  rw [hss] at reaches
  exact reaches.location_ne_nil rfl rfl

/-- A name behind the path is one in the directory, even if that is a link. -/
theorem location_of_join {name : Path} (hname : name.IsName) {place : Place}
    (hp : h.locateLink (dir.join name) = .ok place) : place.location = d ++ [name.raw] := by
  obtain ⟨n, -, reaches⟩ := hd.reaches
  obtain ⟨b, append⟩ := reaches.walk_append (List.cons_ne_nil (.enter name.raw) [])
  obtain ⟨-, all⟩ := (locateLink_eq_ok_iff (Path.isAbsolute_join hd.isAbsolute name)
    (Path.endsInSlash_join hname)).mp hp
  rw [Path.steps_join hname] at all
  have last : h.tree.Reaches b ⟨false, false⟩ false d [.enter name.raw] place :=
    Tree.reaches_iff.mpr ((append _ _).symm.trans all.walk_eq)
  cases last with
  | into _ _ next =>
    cases next
    rfl
  | follow _ _ hend _ => simp at hend
  | link _ _ _ _ => rfl
  | last _ _ _ _ => rfl
  | free _ _ => rfl

/-- Removing a file in the directory changes nothing outside, nor the directory itself. -/
theorem removeFile {name : Path} (hname : name.IsName) :
    h.ChangesWithin (h.removeFile (dir.join name)) d ∧
      (h.removeFile (dir.join name)).HasDirectory dir d := by
  unfold Host.removeFile
  split
  next h' hh =>
    obtain ⟨place, hplace, hh⟩ := exists_of_bind_eq_ok hh
    rw [locateName, Path.trimSlashes_of_endsInSlash (Path.endsInSlash_join hname)] at hplace
    have shows := Tree.shows_of_locate hplace
    have there := hd.location_of_join hname hplace
    split at hh
    next => cases hh
    next => split at hh <;> cases hh
    next k n hdir =>
      split at hh
      · cases hh
      · obtain rfl := eq_of_changeAbove hh
        obtain rfl : k = d ++ [name.raw] := there
        have directory : h.tree.directoryId? (d ++ [name.raw]) = none := by
          rw [Tree.directoryId?, shows]
          cases n with
          | directory e => exact absurd rfl (hdir e)
          | _ => rfl
        have sound := (hd.sound.erase_of_directoryId? directory).noteChange (d ++ [name.raw]).dropLast
        have same (k : Location) (hk : k ≠ d ++ [name.raw]) :
            ((h.tree.erase (d ++ [name.raw])).noteChange (d ++ [name.raw]).dropLast).shape k =
              h.tree.shape k :=
          (Tree.shape_noteChange _ _ k).trans (congrArg _ (Tree.node?_erase_of_ne hk _))
        refine ⟨⟨sound, fun k hk ↦ same k ?_, rfl⟩, hd.of_ways sound fun k hk _ ↦ same k ?_⟩
        · rintro rfl
          exact hk (List.prefix_append _ _)
        · rintro rfl
          have below : Tree.isBelow d (d ++ [name.raw]) = true :=
            Tree.isBelow_iff.mpr ⟨List.prefix_append _ _, by simp⟩
          rw [below] at hk
          cases hk
  next => exact ⟨.refl hd.sound d, hd⟩

/-- So does removing several. -/
theorem removeFiles {paths : List Path}
    (hpaths : ∀ p ∈ paths, ∃ name : Path, name.IsName ∧ p = dir.join name) :
    h.ChangesWithin (paths.foldl Host.removeFile h) d ∧
      (paths.foldl Host.removeFile h).HasDirectory dir d := by
  induction paths generalizing h with
  | nil => exact ⟨.refl hd.sound d, hd⟩
  | cons p ps ih =>
    obtain ⟨name, hname, rfl⟩ := hpaths p List.mem_cons_self
    obtain ⟨first, still⟩ := hd.removeFile hname
    obtain ⟨rest, last⟩ := ih still fun q hq ↦ hpaths q (List.mem_cons_of_mem _ hq)
    exact ⟨first.trans rest, last⟩

theorem emptied : h.ChangesWithin (h.withTree (emptied h.tree d)) d ∧
    (h.withTree (Host.emptied h.tree d)).HasDirectory dir d := by
  obtain ⟨sound, view⟩ := hd.sound.emptied d
  have outside (k : Location) (hk : Tree.isBelow d k = false) :
      (Host.emptied h.tree d).shape k = h.tree.shape k :=
    congrArg _ ((view k).resolve_right fun h ↦ by simp [h.1] at hk)
  refine ⟨⟨sound, fun k hk ↦ outside k ?_, rfl⟩, hd.of_ways sound fun k hk _ ↦ outside k hk⟩
  by_contra hbelow
  exact hk (Tree.isBelow_iff.mp (by simpa using hbelow)).1

/-- Removing the directory changes nothing outside it. -/
theorem removeDirectory : h.ChangesWithin (h.removeDirectory dir) d := by
  obtain ⟨outside, emptied⟩ := hd.emptied
  obtain ⟨n, hn⟩ := hd.locateLink_eq
  obtain ⟨e, he⟩ := emptied.locateLink_eq
  unfold Host.removeDirectory
  rw [hn]
  dsimp only
  split
  · exact .refl hd.sound d
  split
  next h' hremoved =>
    obtain ⟨place, hplace, hremoved⟩ := exists_of_bind_eq_ok hremoved
    rw [locateName, Path.trimSlashes_of_endsInSlash hd.endsInSlash, he] at hplace
    obtain rfl := Except.ok.inj hplace
    split at hremoved
    next heq => cases heq
    next => cases hremoved
    next => cases hremoved
    next => cases hremoved
    next l m _ heq =>
      obtain ⟨rfl, rfl⟩ := Place.entry.inj heq
      split at hremoved
      · cases hremoved
      · dsimp only at hremoved
        split at hremoved
        next hnames =>
          obtain rfl := eq_of_changeAbove hremoved
          refine outside.trans ⟨?_, fun k hk ↦ ?_, rfl⟩
          · refine (emptied.sound.erase fun k hk hn ↦ ?_).noteChange _
            exact emptied.sound.dropLast_ne_of_names_eq_nil hnames hk hn
          · refine (Tree.shape_noteChange _ _ k).trans (congrArg _ (Tree.node?_erase_of_ne ?_ _))
            rintro rfl
            exact hk (List.prefix_refl _)
        next => cases hremoved
  next => exact outside

/-- All of it is gone if every directory in it may be read and changed, and the one above it
changed. -/
theorem node?_removeDirectory
    (hopen : ∀ k e, d <+: k → h.tree.node? k = some (.directory e) →
      isOpenDirectory h.tree k = true)
    (hparent : h.tree.allows d.dropLast .write = true) {k : Location} (hk : d <+: k) :
    (h.removeDirectory dir).tree.node? k = none := by
  obtain ⟨outside, emptied⟩ := hd.emptied
  obtain ⟨e, he⟩ := hd.locateLink_eq
  obtain ⟨e', he'⟩ := emptied.locateLink_eq
  obtain ⟨name, hname⟩ := hd.named
  have all : Host.emptied h.tree d = h.tree.eraseInside d := by
    unfold Host.emptied
    rw [if_pos]
    rw [List.map_eq_nil_iff, List.filter_eq_nil_iff]
    rintro ⟨l, a⟩ hl
    have ha := (hd.sound.node?_eq_some_iff (hd.sound.named _ hl)).mpr hl
    cases a with
    | directory a =>
      simp only [Bool.and_eq_true, decide_eq_true_eq, Bool.not_eq_eq_eq_not, Bool.not_true, not_and,
        Bool.not_eq_false]
      exact fun hl ↦ hopen l a hl ha
    | _ => simp
  have inside {k : Location} (hk : Tree.isBelow d k = true) :
      (Host.emptied h.tree d).node? k = none := by
    rw [all]
    exact Tree.node?_eraseInside_of_isBelow hk h.tree
  have names : (Host.emptied h.tree d).names d = [] := by
    refine List.eq_nil_iff_forall_not_mem.mpr fun n hn ↦ ?_
    have below : Tree.isBelow d (d ++ [n]) = true :=
      Tree.isBelow_iff.mpr ⟨List.prefix_append _ _, by simp⟩
    have there : ((Host.emptied h.tree d).node? (d ++ [n])).isSome := emptied.sound.mem_names.mp hn
    rw [inside below] at there
    cases there
  have parent : (Host.emptied h.tree d).allows d.dropLast .write = true := by
    have above := Tree.not_prefix_dropLast hd.ne_nil
    exact (Tree.allows_of_shape_eq (outside.elsewhere _ above) .write).trans hparent
  have readable : h.tree.allows d .read = true :=
    (Bool.and_eq_true_iff.mp (hopen d e (List.prefix_refl d) (Tree.shows_of_locate he))).1
  unfold Host.removeDirectory
  rw [he]
  dsimp only
  rw [readable, Bool.not_true, if_neg Bool.false_ne_true]
  have removed : (h.withTree (Host.emptied h.tree d)).removeEmpty dir = .ok (h.withTree
      (((Host.emptied h.tree d).erase d).noteChange d.dropLast)) := by
    unfold removeEmpty locateName
    rw [hname, Path.trimSlashes_of_endsInSlash hd.endsInSlash, he']
    simp [withTree, parent, names, changeAbove, bind, Except.bind]
  rw [removed]
  dsimp only
  rw [← Option.not_isSome_iff_eq_none, withTree, Tree.isSome_noteChange,
    Option.not_isSome_iff_eq_none]
  by_cases hkd : k = d
  · rw [hkd, Tree.node?_erase_self hd.ne_nil]
  · rw [Tree.node?_erase_of_ne hkd]
    exact inside (Tree.isBelow_iff.mpr ⟨hk, Ne.symm hkd⟩)

end HasDirectory

/-- A directory that was made under a free name has its path, whatever it holds by now. -/
theorem HasFree.hasDirectory (free : h₀.HasFree dir d) (ht : h.tree.Sound)
    (hways : h₀.tree.KeepsWays h.tree) (hhome : (h.tree.directoryId? d).isSome) :
    h.HasDirectory dir d := by
  refine ⟨ht, free.isAbsolute, free.endsInSlash, free.named, ?_⟩
  obtain ⟨good, reaches⟩ :=
    (locateLink_eq_ok_iff free.isAbsolute free.endsInSlash).mp free.vacant
  have ways : h₀.tree.KeepsWays (h.tree.eraseInside d) := by
    intro k hk
    have hbelow : Tree.isBelow d k = false := by
      by_contra hbelow
      have hd := (Tree.isBelow_iff.mp (Bool.of_not_eq_false hbelow)).1
      simp [Tree.leads, free.node?_eq_none hd] at hk
    exact (Tree.shape_eraseInside hbelow).trans (hways k hk)
  obtain ⟨n, hn⟩ := Tree.isSome_directoryId?.mp hhome
  have here : (h.tree.eraseInside d).node? d = some (.directory n) := by
    rw [Tree.node?_eraseInside_of_not (by simp [Tree.isBelow]), hn]
  obtain ⟨a, ha, walk⟩ := reaches.walk_of_keepsWays free.sound ways
    (Tree.isSome_directoryId?_root _) (fun _ _ hp ↦ by cases hp) fun l hl ↦ by
      obtain rfl := Place.vacant.inj hl
      exact Tree.isSome_directoryId?.mpr ⟨n, here⟩
  obtain rfl := Option.some.inj (ha.symm.trans here)
  exact ⟨n, (locateLink_eq_ok_iff free.isAbsolute free.endsInSlash).mpr
    ⟨good, Tree.reaches_iff.mpr walk⟩⟩

end Host

end ContractBuild
