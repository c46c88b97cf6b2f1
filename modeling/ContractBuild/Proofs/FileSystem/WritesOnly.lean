import ContractBuild.Proofs.FileSystem.Sound

/-!
# Changes at one location

`WritesOnly` says that a change to a tree leaves everything as it was but what stands at one
location: a file there may be written, replaced or removed, and a new one may be put there.  If
the file has other names, it is changed under these as well.  Directories and links stay, so paths
lead where they led.
-/

namespace ContractBuild

/-- Whether a node leads on to other entries. -/
def Node.leads : Node → Bool
  | .directory _ | .link _ => true
  | _ => false

@[simp] theorem Node.leads_timeless (n : Node) : n.timeless.leads = n.leads := by
  cases n <;> rfl

namespace Tree

variable {t t' t'' : Tree} {l k : Location}

/-- Whether what stands at a location leads on. -/
def leads (t : Tree) (l : Location) : Bool := (t.node? l).any Node.leads

theorem leads_of_shape_eq (h : t'.shape k = t.shape l) : t'.leads k = t.leads l := by
  have any_shape (t : Tree) (l : Location) : t.leads l = (t.shape l).any Node.leads := by
    unfold leads shape
    cases t.node? l <;> simp
  rw [any_shape, any_shape, h]

/-- Files lead nowhere. -/
theorem not_leads_of_fileId? {id : Nat} (h : t.fileId? l = some id) : t.leads l = false := by
  obtain ⟨f, hf, _⟩ := fileId?_eq_some.mp h
  rw [leads, hf]
  rfl

/-- The change from one tree to another is one of what stands at a location. -/
structure WritesOnly (t t' : Tree) (l : Location) : Prop where
  /-- The tree stays sound. -/
  sound : t'.Sound
  /-- No identity is given out a second time. -/
  nextId_le : t.nextId ≤ t'.nextId
  /-- Elsewhere only other names of the file show the change. -/
  elsewhere : ∀ k, k ≠ l → t'.shape k = t.shape k ∨
    (t.fileId? l).isSome ∧ t.fileId? k = t.fileId? l ∧ t'.fileId? k = t.fileId? k
  /-- What leads on is not replaced, and a file that is new has a new identity. -/
  here : t'.shape l = t.shape l ∨ t.leads l = false ∧ t'.leads l = false ∧
    ∀ id, t'.fileId? l = some id → t.fileId? l = some id ∨ t.nextId ≤ id

namespace WritesOnly

theorem of_shape_eq (hsound : t'.Sound) (hid : t.nextId ≤ t'.nextId)
    (hshape : ∀ k, t'.shape k = t.shape k) : WritesOnly t t' l :=
  ⟨hsound, hid, fun k _ ↦ .inl (hshape k), .inl (hshape l)⟩

theorem refl (ht : t.Sound) (l : Location) : WritesOnly t t l :=
  of_shape_eq ht (Nat.le_refl _) fun _ ↦ rfl

/-- Two changes at a location are one. -/
theorem trans (ht : t.Sound) (h : WritesOnly t t' l) (h' : WritesOnly t' t'' l) :
    WritesOnly t t'' l where
  sound := h'.sound
  nextId_le := Nat.le_trans h.nextId_le h'.nextId_le
  elsewhere k hk := by
    rcases h.elsewhere k hk with same | ⟨file, name, kept⟩
    · rcases h'.elsewhere k hk with same' | ⟨file', name', kept'⟩
      · exact .inl (same'.trans same)
      · have kept := fileId?_of_shape_eq same
        obtain ⟨id, hid⟩ := Option.isSome_iff_exists.mp file'
        -- the file was there before: its identity is older than the first change
        have old : t.fileId? k = some id := by rw [← kept, name', hid]
        have here : t.fileId? l = some id := by
          rcases h.here with same | ⟨_, _, ids⟩
          · rw [← fileId?_of_shape_eq same, hid]
          · exact (ids id hid).resolve_right (Nat.not_le_of_lt (ht.file_lt old))
        exact .inr ⟨by simp [here], by rw [old, here], by rw [kept', kept]⟩
    · refine .inr ⟨file, name, ?_⟩
      rcases h'.elsewhere k hk with same' | ⟨_, _, kept'⟩
      · rw [fileId?_of_shape_eq same', kept]
      · rw [kept', kept]
  here := by
    rcases h.here with same | ⟨lead, lead', ids⟩
    · rcases h'.here with same' | ⟨lead', lead'', ids'⟩
      · exact .inl (same'.trans same)
      · refine .inr ⟨by rw [← leads_of_shape_eq same, lead'], lead'', fun id hid ↦ ?_⟩
        exact (ids' id hid).imp (fun h' ↦ by rw [← fileId?_of_shape_eq same, h'])
          (Nat.le_trans h.nextId_le)
    · rcases h'.here with same' | ⟨_, lead'', ids'⟩
      · refine .inr ⟨lead, by rw [leads_of_shape_eq same', lead'], fun id hid ↦ ids id ?_⟩
        rw [← fileId?_of_shape_eq same', hid]
      · refine .inr ⟨lead, lead'', fun id hid ↦ ?_⟩
        exact (ids' id hid).elim (ids id) fun new ↦ .inr (Nat.le_trans h.nextId_le new)

/-- What leads on stays. -/
theorem shape_of_leads (h : WritesOnly t t' l) (hk : t.leads k) : t'.shape k = t.shape k := by
  by_cases hkl : k = l
  · subst hkl
    exact h.here.resolve_right fun w ↦ by simp [hk] at w
  · refine (h.elsewhere k hkl).resolve_right fun ⟨file, name, _⟩ ↦ ?_
    obtain ⟨id, hid⟩ := Option.isSome_iff_exists.mp file
    simp [not_leads_of_fileId? (name.trans hid)] at hk

/-- What leads on was there before. -/
theorem shape_of_leads_after (h : WritesOnly t t' l) (hk : t'.leads k) :
    t'.shape k = t.shape k := by
  by_cases hkl : k = l
  · subst hkl
    exact h.here.resolve_right fun w ↦ by simp [hk] at w
  · refine (h.elsewhere k hkl).resolve_right fun ⟨file, name, kept⟩ ↦ ?_
    obtain ⟨id, hid⟩ := Option.isSome_iff_exists.mp file
    simp [not_leads_of_fileId? (kept.trans (name.trans hid))] at hk

/-- A file that does not stand at the location stays as it is. -/
theorem shape_of_fileId? (h : WritesOnly t t' l) {id : Nat} (hk : t.fileId? k = some id)
    (hl : t.fileId? l ≠ some id) : t'.shape k = t.shape k := by
  have hkl : k ≠ l := fun hkl ↦ hl (hkl ▸ hk)
  exact (h.elsewhere k hkl).resolve_right fun ⟨_, name, _⟩ ↦ hl (name ▸ hk)

end WritesOnly

/-! ## The changes that operations make -/

/-- A new file is one at its location. -/
theorem writesOnly_addFile (ht : t.Sound) (hfree : t.node? l = none)
    (hdir : (t.directoryId? l.dropLast).isSome) (content : Bytes) (mode : Nat) :
    WritesOnly t (t.addFile l content mode) l where
  sound := ht.addFile hfree hdir content mode
  nextId_le := Nat.le_succ _
  elsewhere k hk := .inl (by simp only [shape, node?_addFile_of_ne hk])
  here := by
    have hl : l ≠ [] := fun h ↦ by simp [h] at hfree
    refine .inr ⟨by simp [leads, hfree], by simp [leads, hl, Node.leads], fun id hid ↦ .inr ?_⟩
    simp only [fileId?, node?_addFile_self hl, Option.bind_some, Node.fileId?, newFile,
      Option.some.injEq] at hid
    exact Nat.le_of_eq hid

/-- That a directory has been changed is no change but of its times. -/
theorem writesOnly_noteChange (ht : t.Sound) (k l : Location) : WritesOnly t (t.noteChange k) l :=
  .of_shape_eq (ht.noteChange k) (Nat.le_refl _) (shape_noteChange t k)

/-- A change to a file is one at each of its names. -/
theorem writesOnly_onFile (ht : t.Sound) {id : Nat} (hl : t.fileId? l = some id) {f : File → File}
    (hf : ∀ a, (f a).id = a.id) : WritesOnly t (t.onFile id f) l where
  sound := ht.onFile id hf
  nextId_le := Nat.le_refl _
  elsewhere k _ := by
    by_cases hk : t.fileId? k = some id
    · exact .inr ⟨by simp [hl], by rw [hk, hl], fileId?_onFile t id hf k⟩
    · refine .inl ?_
      simp only [shape, node?_onFile, Option.map_map]
      cases hn : t.node? k with
      | none => rfl
      | some n =>
        cases n with
        | file a =>
          have ha : a.id ≠ id := fun ha ↦ hk (fileId?_eq_some.mpr ⟨a, hn, ha⟩)
          simp [Node.onFile_of_ne ha]
        | _ => rfl
  here := by
    refine .inr ⟨not_leads_of_fileId? hl, ?_, fun id' hid' ↦ .inl ?_⟩
    · exact not_leads_of_fileId? ((fileId?_onFile t id hf l).trans hl)
    · rwa [fileId?_onFile t id hf] at hid'

/-- What leads nowhere may become something else that is neither file nor directory. -/
theorem writesOnly_set (ht : t.Sound) (hl : l ≠ []) {m n : Node} (hm : t.node? l = some m)
    (hmlead : m.leads = false) (hlead : n.leads = false) (hfile : n.fileId? = none) :
    WritesOnly t (t.set l n) l where
  sound := by
    refine ht.set hl hm ?_ ?_ hfile
    · cases m <;> first | rfl | cases hmlead
    · cases n <;> first | rfl | cases hlead
  nextId_le := Nat.le_refl _
  elsewhere k hk := .inl (by simp only [shape, node?_set_of_ne hk])
  here := by
    refine .inr ⟨by simp [leads, hm, hmlead], by simp [leads, hl, hlead], fun id hid ↦ ?_⟩
    simp [fileId?, hl, hfile] at hid

end Tree

end ContractBuild
