import ContractBuild.Proofs.FileSystem.Copies

/-!
# Overwriting files

Whatever a build writes, it overwrites the file at one place, or makes one there: with other bytes
under all names of the file, and with everything else as it was.  Whether it may depends on what is
stored only.
-/

namespace ContractBuild

namespace File

/-- What is stored of a file. -/
def stored (f : File) : File := { f with modified := 0, accessed := 0 }

/-- The file with other bytes and other permissions. -/
def having (f : File) (content : Bytes) (mode : Nat) : File := { f with content, mode }

@[simp] theorem having_self (f : File) : f.having f.content f.mode = f := rfl

@[simp] theorem having_having (f : File) (c c' : Bytes) (m m' : Nat) :
    (f.having c m).having c' m' = f.having c' m' := rfl

@[simp] theorem id_having (f : File) (c : Bytes) (m : Nat) : (f.having c m).id = f.id := rfl

@[simp] theorem content_having (f : File) (c : Bytes) (m : Nat) : (f.having c m).content = c := rfl

@[simp] theorem mode_having (f : File) (c : Bytes) (m : Nat) : (f.having c m).mode = m := rfl

@[simp] theorem isForeign_having (f : File) (c : Bytes) (m : Nat) :
    (f.having c m).isForeign = f.isForeign := rfl

/-- What the user may do depends on the permissions and on whose the file is. -/
theorem allows_congr {f g : File} (hmode : g.mode = f.mode) (hforeign : g.isForeign = f.isForeign)
    (what : Access) : g.allows what = f.allows what := by
  unfold Attributes.allows
  rw [hmode, hforeign]

@[simp] theorem allows_having (f : File) (c : Bytes) (what : Access) :
    (f.having c f.mode).allows what = f.allows what := rfl

end File

@[simp] theorem Node.stored_file (f : File) : Node.stored (.file f) = .file f.stored := rfl

/-! ## Coherent trees -/

namespace Tree

variable {t t' : Tree} {l k : Location} {f g : File} {n : Node}

/-- A tree in which the names of a file show one file. -/
structure Coherent (t : Tree) : Prop extends t.Sound where
  /-- Two names of a file show the same. -/
  one : ∀ {k l f g}, t.stored k = some (.file f) → t.stored l = some (.file g) → f.id = g.id → f = g

theorem Sound.mem_entries_of_stored (ht : t.Sound) (h : t.stored l = some (.file f)) :
    ∃ g, (l, .file g) ∈ t.entries ∧ g.stored = f := by
  obtain ⟨n, hn, hnf⟩ := Option.map_eq_some_iff.mp h
  have hl : l ≠ [] := by
    rintro rfl
    obtain rfl := Option.some.inj hn
    cases hnf
  cases n <;> cases hnf
  exact ⟨_, (ht.node?_eq_some_iff hl).mp hn, rfl⟩

/-- Whether a sound tree is coherent can be seen from its entries. -/
theorem Sound.coherent (ht : t.Sound)
    (one : ∀ e ∈ t.entries, ∀ e' ∈ t.entries, e.2.fileId?.isSome → e.2.fileId? = e'.2.fileId? →
      e.2.stored = e'.2.stored) : t.Coherent where
  toSound := ht
  one {k l f g} hk hl hid := by
    obtain ⟨f', hf', rfl⟩ := ht.mem_entries_of_stored hk
    obtain ⟨g', hg', rfl⟩ := ht.mem_entries_of_stored hl
    exact Node.file.inj (one _ hf' _ hg' rfl (congrArg some hid))

/-- The file at a location, or the one that would be made there. -/
def fileAt (t : Tree) (l : Location) : File :=
  match t.stored l with
  | some (.file f) => f
  | _ => (t.newFile [] fileMode).stored

theorem stored_of_file (h : t.node? l = some (.file f)) : t.stored l = some (.file f.stored) :=
  stored_of_node? h

theorem fileAt_of_stored (h : t.stored l = some (.file f)) : t.fileAt l = f := by
  rw [fileAt, h]

theorem fileAt_of_free (h : t.stored l = none) : t.fileAt l = (t.newFile [] fileMode).stored := by
  rw [fileAt, h]

theorem fileAt_of_other (h : t.stored l = some n) (hn : n.fileId? = none) :
    t.fileAt l = (t.newFile [] fileMode).stored := by
  rw [fileAt, h]
  cases n with
  | file f => cases hn
  | _ => rfl

theorem fileId?_of_stored (h : t.stored l = some (.file f)) : t.fileId? l = some f.id := by
  rw [fileId?_eq_bind_stored, h]
  rfl

theorem exists_stored_of_fileId? {id : Nat} (h : t.fileId? l = some id) :
    ∃ f, t.stored l = some (.file f) ∧ f.id = id := by
  obtain ⟨f, hf, hid⟩ := fileId?_eq_some.mp h
  exact ⟨_, stored_of_node? hf, hid⟩

theorem content?_of_stored (h : t.stored l = some (.file f)) : t.content? l = some f.content := by
  rw [content?_eq_bind_stored, h]
  rfl

/-- A file that is stored is there. -/
theorem exists_node?_of_stored (h : t.stored l = some (.file f)) :
    ∃ g, t.node? l = some (.file g) ∧ g.stored = f := by
  obtain ⟨n, hn, hf⟩ := Option.map_eq_some_iff.mp h
  cases n with
  | file g => exact ⟨g, hn, Node.file.inj hf⟩
  | _ => cases hf

/-- A file that would be made is empty. -/
theorem content_fileAt (t : Tree) (l : Location) :
    (t.fileAt l).content = (t.content? l).getD [] := by
  rw [content?_eq_bind_stored, fileAt]
  cases t.stored l with
  | none => rfl
  | some n => cases n <;> rfl

/-- Whether what is written at a location shows at another: a file stands there, or nothing, and
both are names of it. -/
def Shares (t : Tree) (l k : Location) : Prop :=
  (∀ n, t.stored l = some n → ∃ f, n = .file f) ∧
    (k = l ∨ ∃ id, t.fileId? l = some id ∧ t.fileId? k = some id)

/-- What shows the file at a location is that file. -/
theorem Coherent.stored_of_shares (ht : t.Coherent) (hk : t.Shares l k)
    (hl : t.stored l = some (.file f)) : t.stored k = some (.file f) := by
  rcases hk.2 with rfl | ⟨id, hid, hid'⟩
  · exact hl
  · obtain ⟨g, hg, rfl⟩ := exists_stored_of_fileId? hid'
    have same : g.id = f.id := Option.some.inj (hid.symm.trans (fileId?_of_stored hl))
    rw [hg, ht.one hg hl same]

theorem shares_of_stored (hl : t.stored l = some (.file f)) (hk : t.stored k = some (.file g))
    (hid : g.id = f.id) : t.Shares l k := by
  refine ⟨fun n hn ↦ ⟨f, Option.some.inj (hn.symm.trans hl)⟩, .inr ⟨f.id, fileId?_of_stored hl, ?_⟩⟩
  rw [fileId?_of_stored hk, hid]

theorem shares_self_of_free (hl : t.stored l = none) : t.Shares l l :=
  ⟨fun n hn ↦ (Option.some_ne_none n (hn.symm.trans hl)).elim, .inl rfl⟩

/-- Where nothing stands, nothing else shows what is written. -/
theorem Shares.eq_of_free (hk : t.Shares l k) (hl : t.stored l = none) : k = l := by
  refine hk.2.resolve_right fun ⟨id, hid, _⟩ ↦ ?_
  rw [fileId?_eq_bind_stored, hl] at hid
  cases hid

/-- At something other than a file nothing that is written shows. -/
theorem not_shares (hl : t.stored l = some n) (hn : n.fileId? = none) : ¬ t.Shares l k := by
  intro hk
  obtain ⟨f, rfl⟩ := hk.1 _ hl
  cases hn

/-- What stands at a location is nothing, a file or something else. -/
theorem stored_cases (t : Tree) (l : Location) :
    t.stored l = none ∨ (∃ f, t.stored l = some (.file f)) ∨
      ∃ n, t.stored l = some n ∧ n.fileId? = none := by
  cases hl : t.stored l with
  | none => exact .inl rfl
  | some n =>
    cases n with
    | file f => exact .inr (.inl ⟨f, rfl⟩)
    | _ => exact .inr (.inr ⟨_, rfl, rfl⟩)

end Tree

/-! ## The change that is made -/

namespace Host

variable {h h' h'' : Host} {l k : Location} {p source dest : Path} {content b c c' : Bytes}
  {m m' mode : Nat} {f : File} {n : Node} {place : Place}

/-- From one host to another, the file at a location has been given these bytes and permissions, or
has been made with them. -/
structure Overwrites (h : Host) (l : Location) (c : Bytes) (m : Nat) (h' : Host) : Prop where
  /-- Nothing has changed but what stands at the location. -/
  change : h.WritesOnly h' l
  /-- The file shows under all its names. -/
  shown : ∀ k, h.tree.Shares l k → h'.tree.stored k = some (.file ((h.tree.fileAt l).having c m))
  /-- Everything else is as it was. -/
  kept : ∀ k, ¬ h.tree.Shares l k → h'.tree.stored k = h.tree.stored k

/-- A change to a file shows under all its names. -/
theorem overwrites_onFile (ht : h.tree.Coherent) (hl : h.tree.node? l = some (.file f))
    {u : File → File} (hid : ∀ a, (u a).id = a.id)
    (hu : ∀ a : File, a.stored = f.stored → (u a).stored = f.stored.having c m) :
    h.Overwrites l c m (h.withTree (h.tree.onFile f.id u)) where
  change := ⟨Tree.writesOnly_onFile ht.toSound (Tree.fileId?_eq_some.mpr ⟨f, hl, rfl⟩) hid, rfl⟩
  shown k hk := by
    have hl' := Tree.stored_of_file hl
    obtain ⟨a, ha, same⟩ := Tree.exists_node?_of_stored (ht.stored_of_shares hk hl')
    have hida : a.id = f.id := congrArg (·.id) same
    rw [Tree.fileAt_of_stored hl', Tree.stored, withTree, Tree.node?_onFile, ha, Option.map_some,
      Option.map_some, Node.onFile, if_pos hida, Node.stored_file, hu a same]
  kept k hk := by
    rw [Tree.stored, withTree, Tree.node?_onFile, Tree.stored]
    cases hn : h.tree.node? k with
    | none => rfl
    | some n =>
      cases n with
      | file a =>
        have hida : a.id ≠ f.id := fun hida ↦
          hk (Tree.shares_of_stored (Tree.stored_of_file hl) (Tree.stored_of_file hn) hida)
        rw [Option.map_some, Node.onFile_of_ne hida]
      | _ => rfl

/-- Where something other than a file stands, there is nothing to overwrite. -/
theorem overwrites_of_other (hl : h.tree.stored l = some n) (hn : n.fileId? = none)
    (change : h.WritesOnly h' l) (kept : ∀ k, h'.tree.stored k = h.tree.stored k) :
    h.Overwrites l c m h' :=
  ⟨change, fun _ hk ↦ absurd hk (Tree.not_shares hl hn), fun k _ ↦ kept k⟩

/-- A new file is the only thing that is new. -/
theorem overwrites_addFile (ht : h.tree.Coherent) (hfree : h.tree.node? l = none)
    (hdir : (h.tree.directoryId? l.dropLast).isSome)
    (hh : h.changeAbove l (·.addFile l [] mode) = .ok h') : h.Overwrites l [] mode h' := by
  have change := writesOnly_changeAbove ht.toSound
    (Tree.writesOnly_addFile ht.toSound hfree hdir [] mode) hh
  have free : h.tree.stored l = none := Tree.stored_eq_none.mpr hfree
  have hl : l ≠ [] := fun hl ↦ by simp [hl] at hfree
  obtain rfl := eq_of_changeAbove hh
  have stored (k : Location) : ((h.tree.addFile l [] mode).noteChange l.dropLast).stored k =
      (h.tree.addFile l [] mode).stored k :=
    Tree.stored_of_shape_eq (Tree.shape_noteChange _ _ k)
  refine ⟨change, fun k hk ↦ ?_, fun k hk ↦ ?_⟩
  · obtain rfl := hk.eq_of_free free
    rw [withTree, stored, Tree.stored, Tree.node?_addFile_self hl, Tree.fileAt_of_free free]
    rfl
  · have hne : k ≠ l := fun hne ↦ by
      rw [hne] at hk
      exact hk (Tree.shares_self_of_free free)
    rw [withTree, stored, Tree.stored, Tree.node?_addFile_of_ne hne]
    rfl

theorem overwrites_append (ht : h.tree.Coherent) (hl : h.tree.stored l ≠ none)
    (hh : h.append l b = .ok h') :
    h.Overwrites l ((h.tree.fileAt l).content ++ b) (h.tree.fileAt l).mode h' := by
  have change := writesOnly_append ht.toSound hh
  unfold append at hh
  cases hn : h.tree.node? l with
  | none => exact absurd (Tree.stored_eq_none.mpr hn) hl
  | some n =>
    have stored := Tree.stored_of_node? hn
    rw [hn] at hh
    have same {h' : Host} (hh : Except.ok h = (Except.ok h' : Except IoError Host)) (k : Location) :
        h'.tree.stored k = h.tree.stored k := by rw [Except.ok.inj hh]
    cases n with
    | file f =>
      obtain rfl := Except.ok.inj hh
      rw [Tree.fileAt_of_stored (Tree.stored_of_file hn)]
      refine overwrites_onFile ht hn (fun a ↦ ?_) fun a ha ↦ ?_
      · split <;> rfl
      · rw [← ha]
        split
        next hempty =>
          rw [hempty, List.append_nil]
          rfl
        next => rfl
    | device d =>
      refine overwrites_of_other stored rfl change ?_
      cases d with
      | full =>
        dsimp only at hh
        split at hh
        · exact same hh
        · cases hh
      | _ => exact same hh
    | descriptor i written =>
      refine overwrites_of_other stored rfl change fun k ↦ ?_
      obtain rfl := Except.ok.inj hh
      by_cases hk : k = l
      · subst hk
        have hne : k ≠ [] := fun hne ↦ by simp [hne] at hn
        rw [withTree, Tree.stored, Tree.node?_set_self hne, stored]
        rfl
      · rw [withTree, Tree.stored, Tree.node?_set_of_ne hk]
        rfl
    | directory d => exact overwrites_of_other stored rfl change (same hh)
    | link a => exact overwrites_of_other stored rfl change (same hh)

theorem overwrites_permit (ht : h.tree.Coherent) (hl : h.tree.stored l ≠ none)
    (hdir : h.tree.directoryId? l = none) (m : Nat) :
    h.Overwrites l (h.tree.fileAt l).content m (h.permit l m) := by
  have change := writesOnly_permit ht.toSound hdir m
  cases hn : h.tree.node? l with
  | none => exact absurd (Tree.stored_eq_none.mpr hn) hl
  | some n =>
    have stored := Tree.stored_of_node? hn
    cases n with
    | file f =>
      rw [permit, reattribute, hn, Tree.fileAt_of_stored (Tree.stored_of_file hn)]
      exact overwrites_onFile ht hn (fun _ ↦ rfl) fun a ha ↦ by
        rw [← ha]
        rfl
    | directory d => simp [Tree.directoryId?, hn, Node.directoryId?] at hdir
    | _ =>
      refine overwrites_of_other stored rfl change fun k ↦ ?_
      rw [permit, reattribute, hn]
      by_cases hk : k = l
      · subst hk
        have hne : k ≠ [] := fun hne ↦ by simp [hne] at hn
        rw [withTree, Tree.stored, Tree.node?_adjust_self _ hne, hn, stored]
        rfl
      · rw [withTree, Tree.stored, Tree.node?_adjust_of_ne hk]
        rfl

/-- A file is overwritten with what it holds if nothing happens. -/
theorem Overwrites.refl (ht : h.tree.Coherent) (hl : h.tree.stored l ≠ none) :
    h.Overwrites l (h.tree.fileAt l).content (h.tree.fileAt l).mode h where
  change := .refl ht.toSound l
  shown k hk := by
    rcases h.tree.stored_cases l with free | ⟨f, hf⟩ | ⟨n, hn, hother⟩
    · exact absurd free hl
    · rw [ht.stored_of_shares hk hf, Tree.fileAt_of_stored hf, File.having_self]
    · exact absurd hk (Tree.not_shares hn hother)
  kept _ _ := rfl

namespace Overwrites

variable (ow : h.Overwrites l c m h')

include ow

/-- The file at the location afterwards. -/
theorem fileAt_eq (hl : h.tree.Shares l l) : h'.tree.fileAt l = (h.tree.fileAt l).having c m :=
  Tree.fileAt_of_stored (ow.shown l hl)

/-- What is stored afterwards is stored before, or is the file. -/
theorem cases_stored (hk : h'.tree.stored k = some n) :
    (h.tree.Shares l k ∧ n = .file ((h.tree.fileAt l).having c m)) ∨
      ¬ h.tree.Shares l k ∧ h.tree.stored k = some n := by
  by_cases hshares : h.tree.Shares l k
  · exact .inl ⟨hshares, Option.some.inj (hk.symm.trans (ow.shown k hshares))⟩
  · exact .inr ⟨hshares, (ow.kept k hshares).symm.trans hk⟩

/-- Bytes and permissions only matter where there is a file. -/
theorem congr (hsame : h.tree.Shares l l → c = c' ∧ m = m') : h.Overwrites l c' m' h' where
  change := ow.change
  shown k hk := by
    obtain ⟨rfl, rfl⟩ := hsame ⟨hk.1, .inl rfl⟩
    exact ow.shown k hk
  kept := ow.kept

/-- Something stands at the location afterwards. -/
theorem stored_ne_none : h'.tree.stored l ≠ none := by
  by_cases hl : h.tree.Shares l l
  · rw [ow.shown l hl]
    exact Option.some_ne_none _
  · rw [ow.kept l hl]
    exact fun free ↦ hl (Tree.shares_self_of_free free)

variable (ht : h.tree.Coherent)

include ht

/-- What shows the file afterwards showed it before, or is the new file itself. -/
theorem shares_iff : h'.tree.Shares l k ↔ h.tree.Shares l k := by
  rcases h.tree.stored_cases l with hl | ⟨f, hl⟩ | ⟨n, hl, hn⟩
  · have here := ow.shown l (Tree.shares_self_of_free hl)
    constructor
    · rintro ⟨-, rfl | ⟨id, hid, hid'⟩⟩
      · exact Tree.shares_self_of_free hl
      · by_contra hk
        rw [Tree.fileId?_of_stored here] at hid
        rw [Tree.fileId?_eq_bind_stored, ow.kept k hk, ← Tree.fileId?_eq_bind_stored] at hid'
        have old := ht.file_lt hid'
        rw [← Option.some.inj hid, Tree.fileAt_of_free hl] at old
        exact absurd old (Nat.lt_irrefl _)
    · intro hk
      obtain rfl := hk.eq_of_free hl
      exact ⟨fun n hn ↦ ⟨_, Option.some.inj (hn.symm.trans here)⟩, .inl rfl⟩
  · have self : h.tree.Shares l l := Tree.shares_of_stored hl hl rfl
    have here := ow.shown l self
    rw [Tree.fileAt_of_stored hl] at here
    constructor
    · rintro ⟨-, rfl | ⟨id, hid, hid'⟩⟩
      · exact self
      · by_contra hk
        rw [Tree.fileId?_of_stored here] at hid
        rw [Tree.fileId?_eq_bind_stored, ow.kept k hk, ← Tree.fileId?_eq_bind_stored] at hid'
        exact hk ⟨self.1, .inr ⟨id, by rw [← hid, Tree.fileId?_of_stored hl]; rfl, hid'⟩⟩
    · intro hk
      have there := ow.shown k hk
      rw [Tree.fileAt_of_stored hl] at there
      exact Tree.shares_of_stored here there rfl
  · have here := ow.kept l (Tree.not_shares hl hn)
    exact ⟨fun hk ↦ absurd hk (Tree.not_shares (here.trans hl) hn),
      fun hk ↦ absurd hk (Tree.not_shares hl hn)⟩

/-- Of two changes at a location the second one counts. -/
theorem trans (second : h'.Overwrites l c' m' h'') : h.Overwrites l c' m' h'' where
  change := ow.change.trans ht.toSound second.change
  shown k hk := by
    have self : h.tree.Shares l l := ⟨hk.1, .inl rfl⟩
    rw [second.shown k ((ow.shares_iff ht).mpr hk), ow.fileAt_eq self, File.having_having]
  kept k hk := (second.kept k fun hk' ↦ hk ((ow.shares_iff ht).mp hk')).trans (ow.kept k hk)

/-- The tree stays coherent. -/
theorem coherent : h'.tree.Coherent where
  toSound := ow.change.tree.sound
  one {k k' f g} hk hk' hid := by
    -- a file that does not show the change has another identity than the one that does
    have apart {k : Location} {g : File} (hshares : ¬ h.tree.Shares l k)
        (hk : h.tree.stored k = some (.file g)) (hl : h.tree.Shares l l) :
        g.id ≠ (h.tree.fileAt l).id := by
      intro hid
      rcases h.tree.stored_cases l with free | ⟨f, hf⟩ | ⟨n, hn, hn'⟩
      · have old := ht.file_lt (Tree.fileId?_of_stored hk)
        rw [hid, Tree.fileAt_of_free free] at old
        exact absurd old (Nat.lt_irrefl _)
      · rw [Tree.fileAt_of_stored hf] at hid
        exact hshares (Tree.shares_of_stored hf hk hid)
      · exact Tree.not_shares hn hn' hl
    rcases ow.cases_stored hk with ⟨hs, hf⟩ | ⟨hs, hf⟩ <;>
      rcases ow.cases_stored hk' with ⟨hs', hg⟩ | ⟨hs', hg⟩
    · exact Node.file.inj (hf.trans hg.symm)
    · obtain rfl := Node.file.inj hf
      exact absurd hid.symm (apart hs' hg ⟨hs.1, .inl rfl⟩)
    · obtain rfl := Node.file.inj hg
      exact absurd hid (apart hs hf ⟨hs'.1, .inl rfl⟩)
    · exact ht.one hf hg hid

/-- Adding to what has been written is writing more. -/
theorem append (hh : h'.append l b = .ok h'') : h.Overwrites l (c ++ b) m h'' := by
  refine ow.trans ht ((overwrites_append (ow.coherent ht) ow.stored_ne_none hh).congr ?_)
  intro hl
  rw [ow.fileAt_eq ((ow.shares_iff ht).mp hl)]
  exact ⟨rfl, rfl⟩

theorem permit (hdir : h.tree.directoryId? l = none) (m' : Nat) :
    h.Overwrites l c m' (h'.permit l m') := by
  have hdir' := ow.change.tree.directoryId?_eq_none hdir
  refine ow.trans ht ((overwrites_permit (ow.coherent ht) ow.stored_ne_none hdir' m').congr ?_)
  intro hl
  rw [ow.fileAt_eq ((ow.shares_iff ht).mp hl)]
  exact ⟨rfl, rfl⟩

end Overwrites

/-! ## Opening files for writing -/

/-- Why some bytes are not written to what stands at a location, or to a new file there. -/
def refusal? (h : Host) (l : Location) (b : Bytes) : Option IoError :=
  match h.tree.stored l with
  | none => if h.tree.allows l.dropLast .write then none else some .notPermitted
  | some (.directory _) => some .isADirectory
  | some (.device .terminal) => some .noDevice
  | some (.device .full) => if b = [] then none else some .noSpace
  | some (.file f) => if f.allows .write then none else some .notPermitted
  | some _ => none

theorem refusal?_of_file (hl : h.tree.stored l = some (.file f)) (b : Bytes) :
    h.refusal? l b = if f.allows .write then none else some .notPermitted := by
  rw [refusal?, hl]

theorem refusal?_of_free (hl : h.tree.stored l = none) (b : Bytes) :
    h.refusal? l b = if h.tree.allows l.dropLast .write then none else some .notPermitted := by
  rw [refusal?, hl]

/-- Where something stands, only that decides. -/
theorem refusal?_of_stored_eq (hl : h'.tree.stored l = h.tree.stored l)
    (hsome : h.tree.stored l ≠ none ∨ h'.tree.allows l.dropLast .write = h.tree.allows l.dropLast .write)
    (b : Bytes) : h'.refusal? l b = h.refusal? l b := by
  rw [refusal?, refusal?, hl]
  rcases hsome with hsome | allows
  · cases hn : h.tree.stored l with
    | none => exact absurd hn hsome
    | some n =>
      cases n with
      | device d => cases d <;> rfl
      | _ => rfl
  · rw [allows]

/-- So it is where nothing stands in a directory that is kept. -/
theorem refusal?_of_keepsWays (ways : h.tree.KeepsWays h'.tree)
    (hroom : h.tree.stored l = none → h.tree.leads l.dropLast = true)
    (same : h'.tree.stored l = h.tree.stored l) (b : Bytes) : h'.refusal? l b = h.refusal? l b := by
  refine refusal?_of_stored_eq same ?_ b
  by_cases free : h.tree.stored l = none
  · exact .inr (Tree.allows_of_shape_eq (ways _ (hroom free)) _)
  · exact .inl free

theorem Alike.refusal?_eq (a : h.Alike h') (l : Location) (b : Bytes) :
    h'.refusal? l b = h.refusal? l b :=
  refusal?_of_stored_eq (a.tree l) (.inr (a.tree.allows_eq _ _)) b

/-- A new file lies in a directory. -/
theorem leads_dropLast_of_locateNew (ht : h.tree.Sound) (hp : h.locateNew p = .ok place)
    (hfree : h.tree.stored place.location = none) :
    h.tree.leads place.location.dropLast = true := by
  have shows := Tree.shows_of_locate hp
  cases place with
  | entry l n => cases (Tree.stored_eq_none.mp hfree).symm.trans shows
  | vacant l => exact Tree.leads_of_directoryId? (isSome_directoryId?_of_vacant ht hp)

/-- What may be appended to is what may be opened for writing. -/
theorem appendTarget_eq_ok :
    h.appendTarget p = .ok l ↔ ∃ n, h.entry p = .ok (l, n) ∧ h.refusal? l [] = none := by
  constructor
  · intro hl
    obtain ⟨n, hentry⟩ := entry_of_appendTarget hl
    refine ⟨n, hentry, ?_⟩
    rw [appendTarget, hentry] at hl
    rw [refusal?, Tree.stored_of_node? (node?_of_entry hentry)]
    cases n with
    | directory d => cases hl
    | device d =>
      cases d with
      | terminal => cases hl
      | _ => rfl
    | file f =>
      by_cases hwrite : f.allows .write = true
      · exact if_pos hwrite
      · exact absurd ((if_neg hwrite).symm.trans hl) (by simp)
    | _ => rfl
  · rintro ⟨n, hentry, hopen⟩
    rw [refusal?, Tree.stored_of_node? (node?_of_entry hentry)] at hopen
    rw [appendTarget, hentry]
    cases n with
    | directory d => cases hopen
    | device d =>
      cases d with
      | terminal => cases hopen
      | _ => rfl
    | file f =>
      by_cases hwrite : f.allows .write = true
      · exact if_pos hwrite
      · exact absurd ((if_neg hwrite).symm.trans hopen) (by simp)
    | _ => rfl

/-- What may be appended to leads nowhere. -/
theorem exists_of_appendTarget (ht : h.tree.Sound) (hl : h.appendTarget p = .ok l) :
    ∃ n, h.entry p = .ok (l, n) ∧ n.leads = false ∧ h.tree.stored l = some n.stored ∧
      h.refusal? l [] = none := by
  obtain ⟨n, hentry, hopen⟩ := appendTarget_eq_ok.mp hl
  have there := Tree.stored_of_node? (node?_of_entry hentry)
  refine ⟨n, hentry, ?_, there, hopen⟩
  cases n with
  | directory d =>
    rw [refusal?, there] at hopen
    cases hopen
  | link a => exact absurd rfl (entry_ne_link ht hentry a)
  | _ => rfl

/-- What is opened for writing is overwritten with nothing. -/
theorem overwrites_create (ht : h.tree.Coherent) (hh : h.create p mode = .ok (l, h')) :
    ∃ place m, h.locateNew p = .ok place ∧ place.location = l ∧ h.refusal? l [] = none ∧
      (mode = fileMode ∨ h.tree.stored l ≠ none → m = (h.tree.fileAt l).mode) ∧
      h.Overwrites l [] m h' := by
  rcases cases_of_create hh with ⟨hplace, hchange⟩ | ⟨f, hplace, hwrite, rfl⟩ |
    ⟨n, hplace, hother, hdir, hterminal, rfl⟩
  all_goals have shows := Tree.shows_of_locate hplace
  · have free : h.tree.stored l = none := Tree.stored_eq_none.mpr shows
    have dir := isSome_directoryId?_of_vacant ht.toSound hplace
    refine ⟨_, mode, hplace, rfl, ?_, fun hmode ↦ ?_, overwrites_addFile ht shows dir hchange⟩
    · unfold changeAbove at hchange
      rw [refusal?_of_free free]
      split at hchange
      next hwrite => rw [if_pos hwrite]
      next => cases hchange
    · rw [hmode.resolve_right fun hsome ↦ hsome free, Tree.fileAt_of_free free]
      rfl
  · have stored := Tree.stored_of_file shows
    refine ⟨_, f.mode, hplace, rfl, ?_, fun _ ↦ ?_, overwrites_onFile ht shows (fun _ ↦ rfl) ?_⟩
    · rw [refusal?_of_file stored]
      exact if_pos hwrite
    · rw [Tree.fileAt_of_stored stored]
      rfl
    · intro a ha
      have hmode : a.mode = f.mode := congrArg (·.mode) ha
      rw [← ha, ← hmode]
      rfl
  · have stored := Tree.stored_of_node? shows
    have other : n.stored.fileId? = none := (Node.fileId?_stored n).trans hother
    refine ⟨_, _, hplace, rfl, ?_, fun _ ↦ rfl,
      overwrites_of_other stored other (.refl ht.toSound _) fun _ ↦ rfl⟩
    rw [refusal?, stored]
    cases n with
    | file f => cases hother
    | directory d => cases hdir
    | device d =>
      cases d with
      | terminal => exact absurd rfl hterminal
      | _ => rfl
    | _ => rfl

/-! ## Where writing fails -/

/-- Only the device without room takes nothing and refuses everything else. -/
theorem refusal?_eq_of_ne_full (hl : h.tree.stored l ≠ some (.device .full)) (b : Bytes) :
    h.refusal? l b = h.refusal? l [] := by
  unfold refusal?
  split <;> first | rfl | contradiction

/-- What takes some bytes is open for writing. -/
theorem refusal?_nil (hb : h.refusal? l b = none) : h.refusal? l [] = none := by
  by_cases full : h.tree.stored l = some (.device .full)
  · rw [refusal?, full]
    exact if_pos rfl
  · rwa [← refusal?_eq_of_ne_full full b]

/-- What is open for writing takes some bytes, or refuses them. -/
theorem Overwrites.cases_append (ow : h.Overwrites l c m h') (hopen : h.refusal? l [] = none)
    (b : Bytes) :
    (∃ e, h.refusal? l b = some e ∧ h'.append l b = .error e) ∨
      h.refusal? l b = none ∧ ∃ h'', h'.append l b = .ok h'' := by
  by_cases full : h.tree.stored l = some (.device .full)
  · have there := (ow.kept l (Tree.not_shares full rfl)).trans full
    obtain ⟨n, hn, hfull⟩ := Option.map_eq_some_iff.mp there
    cases n <;> simp only [Node.stored, Node.timeless, reduceCtorEq, Node.device.injEq] at hfull
    subst hfull
    rw [refusal?, full, Host.append, hn]
    by_cases hb : b = []
    · exact .inr ⟨if_pos hb, h', if_pos hb⟩
    · exact .inl ⟨.noSpace, if_neg hb, if_neg hb⟩
  · refine .inr ⟨(refusal?_eq_of_ne_full full b).trans hopen, ?_⟩
    have there : h'.tree.stored l ≠ some (.device .full) := by
      by_cases hl : h.tree.Shares l l
      · rw [ow.shown l hl]
        simp
      · rwa [ow.kept l hl]
    unfold Host.append
    cases hn : h'.tree.node? l with
    | none => exact ⟨_, rfl⟩
    | some n =>
      cases n with
      | device d =>
        cases d with
        | full => exact absurd (Tree.stored_of_node? hn) there
        | _ => exact ⟨_, rfl⟩
      | _ => exact ⟨_, rfl⟩

/-- Opening a path for writing fails where the path leads nowhere, or to what refuses it. -/
theorem cases_create (h : Host) (p : Path) (mode : Nat) :
    (∃ e, h.locateNew p = .error e ∧ h.create p mode = .error e) ∨
      ∃ place, h.locateNew p = .ok place ∧
        ((∃ e, h.refusal? place.location [] = some e ∧ h.create p mode = .error e) ∨
          h.refusal? place.location [] = none ∧
            ∃ h', h.create p mode = .ok (place.location, h')) := by
  unfold create
  cases hplace : h.locateNew p with
  | error e =>
    rw [locateNew] at hplace
    exact .inl ⟨e, rfl, by rw [hplace]; rfl⟩
  | ok place =>
    refine .inr ⟨place, rfl, ?_⟩
    have shows := Tree.shows_of_locate hplace
    rw [locateNew] at hplace
    rw [hplace]
    cases place with
    | vacant k =>
      have free : h.tree.stored k = none := Tree.stored_eq_none.mpr shows
      simp only [Place.location, refusal?_of_free free, changeAbove, bind, Except.bind]
      by_cases hwrite : h.tree.allows k.dropLast .write = true
      · simp [hwrite, pure, Except.pure]
      · simp [hwrite]
    | entry k n =>
      have stored := Tree.stored_of_node? shows
      simp only [Place.location, refusal?, stored]
      cases n with
      | file f =>
        by_cases hwrite : f.allows .write = true
        · exact .inr ⟨if_pos hwrite, _, if_pos hwrite⟩
        · exact .inl ⟨.notPermitted, if_neg hwrite, if_neg hwrite⟩
      | device d =>
        cases d with
        | terminal => exact .inl ⟨_, rfl, rfl⟩
        | _ => exact .inr ⟨rfl, _, rfl⟩
      | directory d => exact .inl ⟨_, rfl, rfl⟩
      | _ => exact .inr ⟨rfl, _, rfl⟩

/-- What comes of writing under a path: it leads nowhere, or what stands there refuses the bytes, or
it is overwritten with them. -/
inductive Attempts (h : Host) (p : Path) (b : Location → Bytes) (m : Location → Nat) :
    Except IoError Host → Prop
  /-- The path leads nowhere. -/
  | lost {e : IoError} (hp : h.locateNew p = .error e) : Attempts h p b m (.error e)
  /-- What stands at the place refuses the bytes. -/
  | refused {place : Place} {e : IoError} (hp : h.locateNew p = .ok place)
      (hb : h.refusal? place.location (b place.location) = some e) : Attempts h p b m (.error e)
  /-- They are written. -/
  | written {place : Place} {h' : Host} (hp : h.locateNew p = .ok place)
      (hb : h.refusal? place.location (b place.location) = none)
      (ow : h.Overwrites place.location (b place.location) (m place.location) h') :
      Attempts h p b m (.ok h')

/-- What refuses to be emptied refuses whatever else is written to it. -/
theorem refusal?_of_nil {e : IoError} (hl : h.refusal? l [] = some e) (b : Bytes) :
    h.refusal? l b = some e := by
  rwa [refusal?_eq_of_ne_full]
  intro full
  rw [refusal?, full] at hl
  cases hl

/-- Writing is such an attempt. -/
theorem attempts_write (ht : h.tree.Coherent) (p : Path) (b : Bytes) :
    h.Attempts p (fun _ ↦ b) (fun l ↦ (h.tree.fileAt l).mode) (h.write p b) := by
  change h.Attempts _ _ _ (h.create p fileMode >>= _)
  rcases h.cases_create p fileMode with ⟨e, hplace, hcreate⟩ | ⟨place, hplace, hcreate⟩
  · rw [hcreate]
    exact .lost hplace
  rcases hcreate with ⟨e, hrefused, hcreate⟩ | ⟨hopen, h₁, hcreate⟩
  · rw [hcreate]
    exact .refused hplace (refusal?_of_nil hrefused b)
  obtain ⟨_, m, -, -, -, hmode, created⟩ := overwrites_create ht hcreate
  obtain rfl := hmode (.inl rfl)
  rw [hcreate]
  change h.Attempts _ _ _ (h₁.append place.location b)
  rcases created.cases_append hopen b with ⟨e, hrefused, hfails⟩ | ⟨htaken, h', happend⟩
  · rw [hfails]
    exact .refused hplace hrefused
  · rw [happend]
    exact .written hplace htaken (created.append ht happend)

/-! ## Copies -/

theorem contentAt_eq (h : Host) (l : Location) : h.contentAt l = (h.tree.content? l).getD [] := by
  unfold contentAt Tree.content?
  rcases h.tree.node? l with _ | n
  · rfl
  · cases n <;> rfl

theorem permitted_of_allows {e : Location × Node} {what : Access} (h : e.2.allows what = true) :
    permitted e what = .ok e := if_pos h

theorem permitted_of_not_allows {e : Location × Node} {what : Access} (h : ¬ e.2.allows what = true) :
    permitted e what = .error .notPermitted := if_neg h

/-- What a copy of a file writes to a location: nothing if that is the file itself, which has been
emptied by then. -/
def copied (h : Host) (f : File) (l : Location) : Bytes :=
  if h.tree.fileId? l = some f.id then [] else f.content

/-- What is left of a file once something has been opened for writing. -/
theorem Overwrites.contentAt_eq (ow : h.Overwrites l [] m h') (hk : h.tree.node? k = some (.file f)) :
    h'.contentAt k = h.copied f l := by
  have hid : h.tree.fileId? k = some f.id := Tree.fileId?_eq_some.mpr ⟨f, hk, rfl⟩
  rw [Host.contentAt_eq, copied]
  split
  next same =>
    have shares : h.tree.Shares l k := by
      obtain ⟨g, hg, -⟩ := Tree.exists_stored_of_fileId? same
      exact ⟨fun n hn ↦ ⟨g, Option.some.inj (hn.symm.trans hg)⟩, .inr ⟨f.id, same, hid⟩⟩
    rw [Tree.content?_of_stored (ow.shown k shares)]
    rfl
  next other =>
    have apart : ¬ h.tree.Shares l k := by
      rintro ⟨-, rfl | ⟨id, here, there⟩⟩
      · exact other hid
      · exact other (here.trans (there.symm.trans hid))
    rw [Tree.content?_of_stored ((ow.kept k apart).trans (Tree.stored_of_file hk))]
    rfl

theorem isOwn_eq_all_stored (h : Host) (l : Location) :
    h.isOwn l = (h.tree.stored l).all fun n ↦ n.attributes?.all (!·.isForeign) := by
  unfold isOwn Tree.stored
  rcases h.tree.node? l with _ | n
  · rfl
  · cases n <;> rfl

/-- What can be opened is withheld exactly if it is not the user's own. -/
theorem withholds_iff (ht : h.tree.Sound) (hp : h.locateNew p = .ok place)
    (hopen : h.refusal? place.location [] = none) :
    (∃ f, h.Withholds p f) ↔ h.isOwn place.location = false := by
  rw [isOwn_eq_all_stored]
  constructor
  · rintro ⟨f, l, hentry, hwrite, foreign⟩
    obtain rfl := Except.ok.inj (hp.symm.trans (locateNew_of_entry ht hentry rfl))
    rw [Place.location, Tree.stored_of_file (node?_of_entry hentry)]
    change (!f.isForeign) = false
    rw [foreign, Bool.not_true]
  · intro foreign
    have shows := Tree.shows_of_locate hp
    cases place with
    | vacant l =>
      rw [Place.location, Tree.stored_eq_none.mpr shows] at foreign
      cases foreign
    | entry l n =>
      have hentry := entry_of_locate (Tree.locate_of_create hp)
      have stored : h.tree.stored l = some n.stored := Tree.stored_of_node? shows
      rw [Place.location, stored] at foreign
      rw [Place.location] at hopen
      cases n with
      | file f =>
        have other : (!f.isForeign) = false := foreign
        refine ⟨f, l, hentry, ?_, by simpa using other⟩
        by_contra hclosed
        have there : h.tree.stored l = some (.file f.stored) := stored
        have closed : ¬ f.stored.allows .write = true := hclosed
        rw [refusal?_of_file there, if_neg closed] at hopen
        cases hopen
      | directory d =>
        rw [refusal?, stored] at hopen
        cases hopen
      | _ => cases foreign

/-- A file stays the property of whom it belongs to, and a new one is the user's. -/
theorem Overwrites.isOwn_eq (ow : h.Overwrites l c m h') : h'.isOwn l = h.isOwn l := by
  rw [isOwn_eq_all_stored, isOwn_eq_all_stored]
  rcases h.tree.stored_cases l with hl | ⟨f, hl⟩ | ⟨n, hl, hn⟩
  · rw [ow.shown l (Tree.shares_self_of_free hl), hl, Tree.fileAt_of_free hl]
    rfl
  · rw [ow.shown l (Tree.shares_of_stored hl hl rfl), hl, Tree.fileAt_of_stored hl]
    rfl
  · rw [ow.kept l (Tree.not_shares hl hn)]

/-- What comes of copying a file: its bytes and permissions are put where the path leads, unless
that refuses them.  A file of somebody else is only emptied. -/
inductive Copies (h : Host) (f : File) (dest : Path) : Except IoError Unit × Host → Prop
  /-- They are refused. -/
  | refused {e : IoError} (hr : h.Attempts dest (h.copied f) (fun _ ↦ f.mode) (.error e)) :
      Copies h f dest (.error e, h)
  /-- The file is emptied, and its permissions cannot be changed. -/
  | withheld {h' : Host} (foreign : ∃ g, h.Withholds dest g)
      (hr : h.Attempts dest (fun _ ↦ []) (fun l ↦ (h.tree.fileAt l).mode) (.ok h')) :
      Copies h f dest (.error .notAllowed, h')
  /-- They are put there. -/
  | written {h' : Host} (own : ¬ ∃ g, h.Withholds dest g)
      (hr : h.Attempts dest (h.copied f) (fun _ ↦ f.mode) (.ok h')) : Copies h f dest (.ok (), h')

/-- A copy leaves the permissions of its source, even where it empties that. -/
theorem Copies.exists_source {g : File} {r : Except IoError Unit × Host}
    (hr : h.Copies g dest r) (ht : h.tree.Coherent) (hk : h.tree.stored k = some (.file f))
    (hm : g.mode = f.mode) : ∃ c, r.2.tree.stored k = some (.file (f.having c f.mode)) := by
  have after {l : Location} {c : Bytes} {m : Nat} {h' : Host} (ow : h.Overwrites l c m h')
      (hm : h.tree.fileAt l = f → m = f.mode) :
      ∃ c, h'.tree.stored k = some (.file (f.having c f.mode)) := by
    by_cases shares : h.tree.Shares l k
    · rcases h.tree.stored_cases l with free | ⟨a, ha⟩ | ⟨n, hn, hother⟩
      · obtain rfl := shares.eq_of_free free
        cases hk.symm.trans free
      · obtain rfl := Node.file.inj (Option.some.inj (hk.symm.trans (ht.stored_of_shares shares ha)))
        have there := Tree.fileAt_of_stored ha
        exact ⟨c, by rw [ow.shown k shares, there, hm there]⟩
      · exact absurd shares (Tree.not_shares hn hother)
    · exact ⟨f.content, (ow.kept k shares).trans hk⟩
  cases hr with
  | refused _ => exact ⟨f.content, hk⟩
  | withheld _ hr =>
    cases hr with
    | written _ _ ow => exact after ow fun there ↦ congrArg (·.mode) there
  | written _ hr =>
    cases hr with
    | written _ _ ow => exact after ow fun _ ↦ hm

/-- Where bytes are refused, opening the place has changed nothing. -/
theorem eq_of_create_of_refusal? {h₁ : Host} {e : IoError} (hcreate : h.create p mode = .ok (l, h₁))
    (hopen : h.refusal? l [] = none) (hb : h.refusal? l b = some e) : h₁ = h := by
  have full : h.tree.stored l = some (.device .full) := by
    by_contra hfull
    rw [refusal?_eq_of_ne_full hfull, hopen] at hb
    cases hb
  obtain ⟨n, hn, same⟩ := Option.map_eq_some_iff.mp full
  rcases cases_of_create hcreate with ⟨hplace, -⟩ | ⟨f, hplace, -, -⟩ | ⟨n, -, -, -, -, rfl⟩
  · cases (Tree.shows_of_locate hplace).symm.trans hn
  · obtain rfl := Option.some.inj ((Tree.shows_of_locate hplace).symm.trans hn)
    cases same
  · rfl

/-- So it is with a copy of a file that may be read. -/
theorem copies (ht : h.tree.Coherent) (hentry : h.entry source = .ok (k, .file f))
    (hread : f.allows .read = true) (dest : Path) : h.Copies f dest (h.copy source dest) := by
  unfold copy
  rw [copySource_eq_ok.mpr ⟨hentry, hread⟩]
  rcases h.cases_create dest f.mode with ⟨e, hplace, hcreate⟩ | ⟨place, hplace, hcreate⟩
  · simp only [hcreate]
    exact .refused (.lost hplace)
  rcases hcreate with ⟨e, hrefused, hcreate⟩ | ⟨hopen, h₁, hcreate⟩
  · simp only [hcreate]
    exact .refused (.refused hplace (refusal?_of_nil hrefused _))
  obtain ⟨-, hdir, -⟩ := writesOnly_create ht.toSound hcreate
  obtain ⟨_, m, -, -, -, hmode, created⟩ := overwrites_create ht hcreate
  simp only [hcreate, fill]
  by_cases own : h₁.isOwn place.location = true
  · have permitted := created.permit ht hdir f.mode
    have mine : ¬ ∃ g, h.Withholds dest g := by
      rw [withholds_iff ht.toSound hplace hopen, ← created.isOwn_eq, own]
      decide
    rw [if_pos own, created.contentAt_eq (node?_of_entry hentry)]
    rcases permitted.cases_append hopen (h.copied f place.location) with
      ⟨e, hrefused, hfails⟩ | ⟨htaken, h', happend⟩
    · obtain rfl := eq_of_create_of_refusal? hcreate hopen hrefused
      simp only [hfails]
      exact .refused (.refused hplace hrefused)
    · simp only [happend]
      exact .written mine (.written hplace htaken (permitted.append ht happend))
  · have foreign : h.isOwn place.location = false := by
      rw [← created.isOwn_eq]
      simpa using own
    have there : h.tree.stored place.location ≠ none := by
      intro free
      rw [isOwn_eq_all_stored, free] at foreign
      cases foreign
    obtain rfl := hmode (.inr there)
    rw [if_neg own]
    exact .withheld ((withholds_iff ht.toSound hplace hopen).mpr foreign)
      (.written hplace hopen created)

/-- A file of somebody else that the user may write refuses nothing. -/
theorem Attempts.not_withholds {b : Location → Bytes} {m : Location → Nat} {e : IoError}
    (hr : h.Attempts p b m (.error e)) (ht : h.tree.Sound) : ¬ ∃ f, h.Withholds p f := by
  rintro ⟨f, l, hentry, hwrite, -⟩
  have hplace := locateNew_of_entry ht hentry rfl
  cases hr with
  | lost hp => cases hp.symm.trans hplace
  | refused hp hb =>
    obtain rfl := Except.ok.inj (hp.symm.trans hplace)
    rw [Place.location, refusal?_of_file (Tree.stored_of_file (node?_of_entry hentry))] at hb
    cases (if_pos hwrite).symm.trans hb

/-- What is no file or may not be read is not copied. -/
theorem copySource_eq_error (hentry : h.entry source = .ok (k, n))
    (hn : n.allows .read = false ∨ n.fileId? = none) :
    h.copySource source = .error (if n.allows .read = false then .notPermitted
      else if n = .device .terminal then .noDevice else notARegularFile) := by
  rw [copySource, hentry]
  change permitted (k, n) .read >>= _ = _
  by_cases hread : n.allows .read = true
  · rw [permitted_of_allows (e := (k, n)) hread, if_neg (by simp [hread])]
    cases n with
    | file f => simp [hread, Node.fileId?] at hn
    | device d => cases d <;> rfl
    | _ => rfl
  · rw [permitted_of_not_allows (e := (k, n)) hread, if_pos (by simpa using hread)]
    rfl

/-- Nothing else is not. -/
theorem not_copied {e : IoError} (hentry : h.entry source = .ok (k, n))
    (hh : h.copySource source = .error e) : n.allows .read = false ∨ n.fileId? = none := by
  by_contra hfile
  obtain ⟨hread, hid⟩ := not_or.mp hfile
  rw [Bool.not_eq_false] at hread
  cases n with
  | file f => cases (copySource_eq_ok.mpr ⟨hentry, hread⟩).symm.trans hh
  | _ => exact hid rfl

/-! ## Hosts that are alike -/

namespace Alike

variable {e : IoError} (a : h.Alike h')

include a

/-- An attempt that fails on one of them fails on the other, for the same reason. -/
theorem attempts_error {b b' : Location → Bytes} {m m' : Location → Nat} {r : Except IoError Host}
    (hr : h.Attempts p b m (.error e)) (hr' : h'.Attempts p b' m' r) (hb : ∀ l, b' l = b l) :
    r = .error e := by
  have same := a.map_locate ⟨true, true⟩ p
  cases hr with
  | lost hp =>
    rcases cases_of_map_eq same with ⟨x, hx', hx⟩ | ⟨_, _, _, hx, -⟩
    · obtain rfl := Except.error.inj (hx.symm.trans hp)
      cases hr' with
      | lost hp' => exact congrArg _ (Except.error.inj (hp'.symm.trans hx'))
      | refused hp' _ => cases hp'.symm.trans hx'
      | written hp' _ _ => cases hp'.symm.trans hx'
    · cases hx.symm.trans hp
  | refused hp hrefused =>
    rcases cases_of_map_eq same with ⟨_, _, hx⟩ | ⟨x', x, hx', hx, hlocation⟩
    · cases hx.symm.trans hp
    obtain rfl := Except.ok.inj (hx.symm.trans hp)
    rw [← hb, ← hlocation, ← a.refusal?_eq] at hrefused
    cases hr' with
    | lost hp' => cases hp'.symm.trans hx'
    | refused hp' hrefused' =>
      obtain rfl := Except.ok.inj (hp'.symm.trans hx')
      exact congrArg _ (Option.some.inj (hrefused'.symm.trans hrefused))
    | written hp' htaken _ =>
      obtain rfl := Except.ok.inj (hp'.symm.trans hx')
      cases htaken.symm.trans hrefused

theorem append_error (hh : h.append l c = .error e) : h'.append l c = .error e := by
  unfold append at hh ⊢
  cases hn : h.tree.node? l with
  | none =>
    rw [hn] at hh
    cases hh
  | some n =>
    obtain ⟨n', hn', stored⟩ := a.tree.exists_node? hn
    rw [hn] at hh
    rw [hn']
    cases n <;> cases n' <;> simp only [Node.stored, Node.timeless, reduceCtorEq] at stored
    case device d d' =>
      obtain rfl := Node.device.inj stored
      cases d' with
      | full =>
        dsimp only at hh ⊢
        split at hh
        next => cases hh
        next hne => rw [if_neg hne, Except.error.inj hh]
      | _ => cases hh
    all_goals cases hh

variable (ht : h.tree.Coherent) (ht' : h'.tree.Coherent)

include ht ht'

/-- What is not written on one is not written on the other, for the same reason. -/
theorem write_error (hh : h.write p c = .error e) : h'.write p c = .error e := by
  have hr := attempts_write ht p c
  rw [hh] at hr
  exact a.attempts_error hr (attempts_write ht' p c) fun _ ↦ rfl

omit ht ht'

/-- What is no source of a copy on one is none on the other, for the same reason. -/
theorem copySource_error (hh : h.copySource source = .error e) :
    h'.copySource source = .error e := by
  rcases cases_of_map_eq (a.map_entry source) with ⟨x, hs', hs⟩ | ⟨⟨k', n'⟩, ⟨k, n⟩, hs', hs, same⟩
  · rw [copySource, hs] at hh
    rw [copySource, hs', ← hh]
  obtain ⟨rfl, hn⟩ := Prod.mk.inj same
  have allows : n'.allows .read = n.allows .read := by
    rw [← Node.allows_stored, hn, Node.allows_stored]
  have id : n'.fileId? = n.fileId? := by rw [← Node.fileId?_stored, hn, Node.fileId?_stored]
  have terminal : n' = .device .terminal ↔ n = .device .terminal := by
    cases n <;> cases n' <;> simp only [Node.stored, Node.timeless, reduceCtorEq] at hn ⊢
    rw [hn]
  have other := not_copied hs hh
  rw [copySource_eq_error hs other] at hh
  rw [copySource_eq_error hs' (by rwa [allows, id]), ← hh]
  simp only [allows, terminal]

theorem withholds (hp : ∃ f, h'.Withholds p f) : ∃ f, h.Withholds p f := by
  obtain ⟨f', l, hentry, hwrite, foreign⟩ := hp
  rcases cases_of_map_eq (a.map_entry p) with ⟨x, hs', -⟩ | ⟨⟨k', n'⟩, ⟨k, n⟩, hs', hs, same⟩
  · cases hs'.symm.trans hentry
  obtain ⟨rfl, rfl⟩ := Prod.mk.inj (Except.ok.inj (hs'.symm.trans hentry))
  obtain ⟨rfl, hn⟩ := Prod.mk.inj same
  cases n <;> simp only [Node.stored, Node.timeless, reduceCtorEq] at hn
  case file f =>
    have same : f'.stored = f.stored := Node.file.inj hn
    refine ⟨f, _, hs, ?_, (congrArg (·.isForeign) same).symm.trans foreign⟩
    exact (congrArg (fun f : File ↦ f.allows .write) same).symm.trans hwrite

/-- A copy that is refused on one of them is refused on the other, for the same reason. -/
theorem eq_of_copies {f f' : File} {r : Except IoError Unit × Host}
    (hr : h.Attempts dest (h.copied f) (fun _ ↦ f.mode) (.error e)) (hr' : h'.Copies f' dest r)
    (same : f'.stored = f.stored) : r = (.error e, h') := by
  have hb (l : Location) : h'.copied f' l = h.copied f l := by
    have hid : f'.id = f.id := congrArg (·.id) same
    have hcontent : f'.content = f.content := congrArg (·.content) same
    rw [copied, copied, a.tree.fileId?_eq, hid, hcontent]
  cases hr' with
  | refused hr' => rw [Except.error.inj (a.attempts_error hr hr' hb)]
  | withheld foreign hr' => exact absurd (a.withholds foreign) (hr.not_withholds a.sound)
  | written own hr' => cases a.attempts_error hr hr' hb

end Alike

end Host

end ContractBuild
