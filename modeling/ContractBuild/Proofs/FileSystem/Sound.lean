import ContractBuild.FileSystem.Tree
import Mathlib.Data.List.Induction
import Mathlib.Data.List.Nodup

/-!
# Sound trees

A tree is sound if every location is listed once, if every entry lies in a directory, and if the
identities of files and directories are those that have been given out, for directories each to
one.  Every change that the operations on a host make keeps a tree sound.

What an entry is apart from its times is its `shape`.
-/

namespace ContractBuild

/-! ## Nodes -/

namespace Node

/-- A node without its times. -/
def timeless : Node → Node
  | .file f => .file { f with modified := 0, accessed := 0 }
  | .directory d => .directory { d with modified := 0, accessed := 0 }
  | .link k => .link { k with modified := 0 }
  | n => n

/-- The identity of a file. -/
def fileId? : Node → Option Nat
  | .file f => some f.id
  | _ => none

/-- The identity of a directory. -/
def directoryId? : Node → Option Nat
  | .directory d => some d.id
  | _ => none

@[simp] theorem fileId?_timeless (n : Node) : n.timeless.fileId? = n.fileId? := by
  cases n <;> rfl

@[simp] theorem directoryId?_timeless (n : Node) : n.timeless.directoryId? = n.directoryId? := by
  cases n <;> rfl

@[simp] theorem allows_timeless (n : Node) (what : Access) :
    n.timeless.allows what = n.allows what := by
  cases n <;> rfl

/-- Other times are not another node. -/
theorem timeless_withAttributes (n : Node) {change : Attributes → Attributes}
    (hmode : ∀ a, (change a).mode = a.mode) (hforeign : ∀ a, (change a).isForeign = a.isForeign) :
    (n.withAttributes change).timeless = n.timeless := by
  cases n <;> simp [withAttributes, timeless, hmode, hforeign]

theorem fileId?_eq_some {n : Node} {id : Nat} :
    n.fileId? = some id ↔ ∃ f, n = .file f ∧ f.id = id := by
  cases n <;> simp [fileId?]

theorem directoryId?_eq_some {n : Node} {id : Nat} :
    n.directoryId? = some id ↔ ∃ d, n = .directory d ∧ d.id = id := by
  cases n <;> simp [directoryId?]

end Node

namespace Tree

/-- What stands at a location, apart from its times. -/
def shape (t : Tree) (l : Location) : Option Node := (t.node? l).map Node.timeless

/-- The identity of the file at a location. -/
def fileId? (t : Tree) (l : Location) : Option Nat := (t.node? l).bind Node.fileId?

/-- The identity of the directory at a location. -/
def directoryId? (t : Tree) (l : Location) : Option Nat := (t.node? l).bind Node.directoryId?

variable {t t' : Tree} {l k : Location}

theorem isSome_shape : (t.shape l).isSome = (t.node? l).isSome := Option.isSome_map

theorem fileId?_of_shape_eq (h : t'.shape k = t.shape l) : t'.fileId? k = t.fileId? l := by
  unfold shape at h
  unfold fileId?
  cases hk : t'.node? k <;> cases hl : t.node? l <;> simp_all
  rw [← Node.fileId?_timeless, h, Node.fileId?_timeless]

theorem directoryId?_of_shape_eq (h : t'.shape k = t.shape l) :
    t'.directoryId? k = t.directoryId? l := by
  unfold shape at h
  unfold directoryId?
  cases hk : t'.node? k <;> cases hl : t.node? l <;> simp_all
  rw [← Node.directoryId?_timeless, h, Node.directoryId?_timeless]

/-- A file with other times is the same file with the same content. -/
theorem exists_file_of_shape_eq (h : t'.shape k = t.shape l) {f : File}
    (hf : t.node? l = some (.file f)) :
    ∃ f', t'.node? k = some (.file f') ∧ f'.id = f.id ∧ f'.content = f.content := by
  rw [shape, shape, hf, Option.map_some, Option.map_eq_some_iff] at h
  obtain ⟨n, hn, timeless⟩ := h
  cases n with
  | file f' =>
    obtain ⟨-, id, content⟩ := File.mk.inj (Node.file.inj timeless)
    exact ⟨f', hn, id, content⟩
  | _ => cases timeless

/-- Where nothing stood, or a file, it is so still. -/
theorem isFile_of_shape_eq {t t' : Tree} {k : Location} (h : t'.shape k = t.shape k)
    (hfile : ∀ n, t.node? k = some n → ∃ f, n = .file f) {n : Node} (hn : t'.node? k = some n) :
    ∃ f, n = .file f := by
  rw [shape, hn, Option.map_some, shape, eq_comm, Option.map_eq_some_iff] at h
  obtain ⟨n', hn', timeless⟩ := h
  obtain ⟨f, rfl⟩ := hfile n' hn'
  cases n with
  | file f' => exact ⟨f', rfl⟩
  | _ => cases timeless

theorem directoryId?_root (t : Tree) : t.directoryId? [] = some root.id := by
  simp [directoryId?, Node.directoryId?]

/-- Nothing but files, and directories, have such identities. -/
theorem fileId?_eq_some {id : Nat} :
    t.fileId? l = some id ↔ ∃ f, t.node? l = some (.file f) ∧ f.id = id := by
  unfold fileId?
  cases t.node? l <;> simp [Node.fileId?_eq_some]

theorem directoryId?_eq_some {id : Nat} :
    t.directoryId? l = some id ↔ ∃ d, t.node? l = some (.directory d) ∧ d.id = id := by
  unfold directoryId?
  cases t.node? l <;> simp [Node.directoryId?_eq_some]

theorem isSome_directoryId? : (t.directoryId? l).isSome ↔ ∃ d, t.node? l = some (.directory d) := by
  rw [Option.isSome_iff_exists]
  simp only [directoryId?_eq_some]
  exact ⟨fun ⟨_, d, hd, _⟩ ↦ ⟨d, hd⟩, fun ⟨d, hd⟩ ↦ ⟨_, d, hd, rfl⟩⟩

/-! ## Soundness -/

/-- The invariant of the trees that a system has. -/
structure Sound (t : Tree) : Prop where
  /-- Every location is listed once. -/
  nodup : (t.entries.map Prod.fst).Nodup
  /-- The root is not listed. -/
  named : ∀ e ∈ t.entries, e.1 ≠ []
  /-- Every entry lies in a directory. -/
  parent : ∀ {l}, l ≠ [] → (t.node? l).isSome → (t.directoryId? l.dropLast).isSome
  /-- The identities of files have been given out. -/
  file_lt : ∀ {l id}, t.fileId? l = some id → id < t.nextId
  /-- So have those of directories. -/
  directory_lt : ∀ {l id}, t.directoryId? l = some id → id < t.nextId
  /-- No two directories share theirs. -/
  directory_inj : ∀ {l k id}, t.directoryId? l = some id → t.directoryId? k = some id → l = k

theorem find_eq_some_iff {es : List (Location × Node)} (hes : (es.map Prod.fst).Nodup) {n : Node} :
    find es l = some n ↔ (l, n) ∈ es := by
  induction es with
  | nil => simp [find]
  | cons e es ih =>
    obtain ⟨k, m⟩ := e
    obtain ⟨fresh, hes⟩ := List.nodup_cons.mp hes
    by_cases hk : k = l
    · subst hk
      have absent : (k, n) ∉ es := fun h ↦ fresh (List.mem_map.mpr ⟨_, h, rfl⟩)
      simp [find, absent, eq_comm]
    · simp [find, hk, ih hes, Ne.symm hk]

/-- What stands at a location is what is listed under it. -/
theorem Sound.node?_eq_some_iff (ht : t.Sound) (hl : l ≠ []) {n : Node} :
    t.node? l = some n ↔ (l, n) ∈ t.entries := by
  rw [node?, if_neg hl]
  exact find_eq_some_iff ht.nodup

/-- A directory is found by its identity. -/
theorem Sound.directory?_eq_some_iff (ht : t.Sound) {id : Nat} :
    t.directory? id = some l ↔ t.directoryId? l = some id := by
  unfold directory?
  split
  next hroot =>
    rw [Option.some.injEq, hroot]
    refine ⟨fun h ↦ ?_, fun h ↦ ht.directory_inj (directoryId?_root t) h⟩
    rw [← h]
    exact directoryId?_root t
  next hroot =>
    let p (e : Location × Node) : Bool := match e.2 with
      | .directory d => d.id = id
      | _ => false
    have listed (e : Location × Node) (he : e ∈ t.entries) (hp : p e) :
        t.directoryId? e.1 = some id := by
      obtain ⟨k, n⟩ := e
      have hn : t.node? k = some n := (ht.node?_eq_some_iff (ht.named _ he)).mpr he
      cases n with
      | directory d => exact directoryId?_eq_some.mpr ⟨d, hn, by simpa [p] using hp⟩
      | _ => cases hp
    change (t.entries.find? p).map (·.1) = some l ↔ _
    rw [Option.map_eq_some_iff]
    constructor
    · rintro ⟨e, he, rfl⟩
      exact listed e (List.mem_of_find?_eq_some he) (List.find?_some he)
    · intro h
      have hl : l ≠ [] := fun hl ↦ by
        rw [hl, directoryId?_root, Option.some.injEq] at h
        exact hroot h.symm
      obtain ⟨d, hd, hid⟩ := directoryId?_eq_some.mp h
      have mem := (ht.node?_eq_some_iff hl).mp hd
      have found : (t.entries.find? p).isSome :=
        List.find?_isSome.mpr ⟨_, mem, by simpa [p] using hid⟩
      obtain ⟨e, he⟩ := Option.isSome_iff_exists.mp found
      have here := listed e (List.mem_of_find?_eq_some he) (List.find?_some he)
      exact ⟨e, he, ht.directory_inj here h⟩

/-- What something stands below is a directory. -/
theorem Sound.isSome_directoryId?_of_prefix (ht : t.Sound) (hk : (t.node? k).isSome) (hl : l <+: k)
    (hne : l ≠ k) : (t.directoryId? l).isSome := by
  obtain ⟨r, rfl⟩ := hl
  induction r using List.reverseRecOn with
  | nil => exact absurd (List.append_nil l).symm hne
  | append_singleton r n ih =>
    have above : (t.directoryId? (l ++ r)).isSome := by
      have := ht.parent (by simp) hk
      rwa [← List.append_assoc, List.dropLast_concat] at this
    by_cases hr : r = []
    · rwa [hr, List.append_nil] at above
    · obtain ⟨d, hd⟩ := isSome_directoryId?.mp above
      exact ih (by simp [hd]) (by simpa using hr)

/-- Nothing stands below what is no directory. -/
theorem Sound.node?_eq_none_of_prefix (ht : t.Sound) (hl : t.directoryId? l = none) (hk : l <+: k)
    (hne : l ≠ k) : t.node? k = none := by
  rw [← Option.not_isSome_iff_eq_none]
  intro some
  simpa [hl] using ht.isSome_directoryId?_of_prefix some hk hne

/-! ## Changes that keep a tree sound -/

/-- A change that keeps all directories keeps a tree sound, if what is new lies in a directory and
has an identity that has been given out. -/
theorem Sound.of_directories_eq (ht : t.Sound) (hnodup : (t'.entries.map Prod.fst).Nodup)
    (hnamed : ∀ e ∈ t'.entries, e.1 ≠ []) (hid : t.nextId ≤ t'.nextId)
    (hdirs : ∀ l, t'.directoryId? l = t.directoryId? l)
    (hfiles : ∀ l id, t'.fileId? l = some id → id < t'.nextId)
    (hnew : ∀ l, l ≠ [] → (t'.node? l).isSome →
      (t.node? l).isSome ∨ (t.directoryId? l.dropLast).isSome) : t'.Sound where
  nodup := hnodup
  named := hnamed
  parent hl h := by
    rw [hdirs]
    exact (hnew _ hl h).elim (ht.parent hl) id
  file_lt h := hfiles _ _ h
  directory_lt h := Nat.lt_of_lt_of_le (ht.directory_lt (hdirs _ ▸ h)) hid
  directory_inj h h' := ht.directory_inj (hdirs _ ▸ h) (hdirs _ ▸ h')

/-- Times do not matter. -/
theorem Sound.of_shape_eq (ht : t.Sound)
    (hkeys : t'.entries.map Prod.fst = t.entries.map Prod.fst) (hid : t.nextId ≤ t'.nextId)
    (hshape : ∀ l, t'.shape l = t.shape l) : t'.Sound := by
  refine ht.of_directories_eq (hkeys ▸ ht.nodup) (fun e he ↦ ?_) hid
    (fun l ↦ directoryId?_of_shape_eq (hshape l)) (fun l id h ↦ ?_) fun l _ h ↦ .inl ?_
  · have mem : e.1 ∈ t.entries.map Prod.fst := hkeys ▸ List.mem_map_of_mem he
    obtain ⟨e', he', hkey⟩ := List.mem_map.mp mem
    exact hkey ▸ ht.named e' he'
  · rw [fileId?_of_shape_eq (hshape l)] at h
    exact Nat.lt_of_lt_of_le (ht.file_lt h) hid
  · rw [← isSome_shape] at h ⊢
    exact hshape l ▸ h

theorem node?_set {l : Location} (hl : l ≠ []) (n : Node) (k : Location) :
    (t.set l n).node? k = if k = l then some n else t.node? k := by
  split
  next h => rw [h, node?_set_self hl]
  next h => exact node?_set_of_ne h t n

theorem nodup_set (ht : t.Sound) (l : Location) (n : Node) :
    ((t.set l n).entries.map Prod.fst).Nodup := by
  refine List.nodup_cons.mpr ⟨?_, ?_⟩
  · simp
  · exact (ht.nodup.sublist (List.filter_sublist.map _))

theorem named_set (ht : t.Sound) (hl : l ≠ []) (n : Node) :
    ∀ e ∈ (t.set l n).entries, e.1 ≠ [] := by
  intro e he
  rcases List.mem_cons.mp he with rfl | he
  · exact hl
  · exact ht.named e (List.mem_filter.mp he).1

/-- The system that holds only its root is sound. -/
theorem sound_empty : empty.Sound := by
  have node (l : Location) : empty.node? l = if l = [] then some (.directory root) else none := rfl
  have directory {l : Location} {id : Nat} (h : empty.directoryId? l = some id) :
      l = [] ∧ id = root.id := by
    rw [directoryId?, node] at h
    split at h
    next hl => exact ⟨hl, (Option.some.inj h).symm⟩
    next => cases h
  refine ⟨.nil, fun _ h ↦ (by cases h), fun hl h ↦ ?_, fun h ↦ ?_, fun h ↦ ?_, fun h h' ↦ ?_⟩
  · rw [node, if_neg hl] at h
    cases h
  · rw [fileId?, node] at h
    split at h <;> cases h
  · rw [(directory h).2]
    decide
  · rw [(directory h).1, (directory h').1]

/-- A name for a file keeps a tree sound if it is free in a directory. -/
theorem Sound.setFile (ht : t.Sound) (hfree : t.node? l = none)
    (hdir : (t.directoryId? l.dropLast).isSome) {f : File} {n : Nat} (hn : t.nextId ≤ n)
    (hf : f.id < n) : Sound { t.set l (.file f) with nextId := n } := by
  have hl : l ≠ [] := fun h ↦ by simp [h] at hfree
  have view (k : Location) : ({ t.set l (.file f) with nextId := n } : Tree).node? k =
      if k = l then some (.file f) else t.node? k := node?_set hl _ k
  refine ht.of_directories_eq (nodup_set ht l _) (named_set ht hl _) hn
    (fun k ↦ ?_) (fun k id h ↦ ?_) fun k _ h ↦ ?_
  · simp only [directoryId?, view]
    split
    next hk => simp [hk, hfree, Node.directoryId?]
    next => rfl
  · simp only [fileId?, view] at h
    split at h
    · simp only [Option.bind_some, Node.fileId?, Option.some.injEq] at h
      exact h ▸ hf
    · exact Nat.lt_of_lt_of_le (ht.file_lt h) hn
  · rw [view] at h
    split at h
    next hk => exact .inr (hk ▸ hdir)
    next => exact .inl h

/-- So does a new file. -/
theorem Sound.addFile (ht : t.Sound) (hfree : t.node? l = none)
    (hdir : (t.directoryId? l.dropLast).isSome) (content : Bytes) (mode : Nat) :
    (t.addFile l content mode).Sound :=
  ht.setFile hfree hdir (Nat.le_succ _) (Nat.lt_succ_self _)

/-- So does a new directory. -/
theorem Sound.addDirectory (ht : t.Sound) (hfree : t.node? l = none)
    (hdir : (t.directoryId? l.dropLast).isSome) (mode : Nat) : (t.addDirectory l mode).Sound := by
  have hl : l ≠ [] := fun h ↦ by simp [h] at hfree
  have view (k : Location) : (t.addDirectory l mode).node? k =
      if k = l then some (.directory (t.newDirectory mode)) else t.node? k := node?_set hl _ k
  have ids (k : Location) : (t.addDirectory l mode).directoryId? k =
      if k = l then some t.nextId else t.directoryId? k := by
    simp only [directoryId?, view]
    split <;> rfl
  have old {k : Location} {id : Nat} (h : t.directoryId? k = some id) : k ≠ l ∧ id ≠ t.nextId := by
    refine ⟨?_, Nat.ne_of_lt (ht.directory_lt h)⟩
    rintro rfl
    simp [directoryId?, hfree] at h
  have kept {k : Location} (h : (t.directoryId? k).isSome) :
      ((t.addDirectory l mode).directoryId? k).isSome := by
    rw [ids]
    split
    · rfl
    · exact h
  constructor
  · exact nodup_set ht l _
  · exact named_set ht hl _
  · intro k hk h
    rw [view] at h
    split at h
    next hkl => exact kept (hkl ▸ hdir)
    next => exact kept (ht.parent hk h)
  · intro k id h
    simp only [fileId?, view] at h
    split at h
    · cases h
    · exact Nat.lt_succ_of_lt (ht.file_lt h)
  · intro k id h
    rw [ids] at h
    split at h
    · obtain rfl := Option.some.inj h
      exact Nat.lt_succ_self _
    · exact Nat.lt_succ_of_lt (ht.directory_lt h)
  · intro k k' id h h'
    rw [ids] at h h'
    split at h
    next hk =>
      split at h'
      next hk' => rw [hk, hk']
      next => exact absurd (Option.some.inj h).symm (old h').2
    next =>
      split at h'
      next => exact absurd (Option.some.inj h').symm (old h).2
      next => exact ht.directory_inj h h'

/-- Something new in the place of something that was no directory keeps a tree sound. -/
theorem Sound.set (ht : t.Sound) (hl : l ≠ []) {m n : Node} (hm : t.node? l = some m)
    (hmdir : m.directoryId? = none) (hdir : n.directoryId? = none) (hfile : n.fileId? = none) :
    (t.set l n).Sound := by
  refine ht.of_directories_eq (nodup_set ht l n) (named_set ht hl n) (Nat.le_refl _) (fun k ↦ ?_)
    (fun k id h ↦ ?_) fun k _ h ↦ ?_
  · simp only [directoryId?, node?_set hl]
    split
    next hk => simp [hk, hm, hmdir, hdir]
    next => rfl
  · simp only [fileId?, node?_set hl] at h
    split at h
    · simp [hfile] at h
    · exact ht.file_lt h
  · rw [node?_set hl] at h
    split at h
    next hk => exact .inl (by simp [hk, hm])
    next => exact .inl h

/-- The tree with the entries at some locations only. -/
def keep (t : Tree) (p : Location → Bool) : Tree :=
  { t with entries := t.entries.filter fun e ↦ p e.1 }

theorem node?_keep {p : Location → Bool} (k : Location) :
    (t.keep p).node? k = if k = [] ∨ p k then t.node? k else none := by
  unfold node? keep
  by_cases hk : k = []
  · simp [hk]
  simp only [hk, if_false, false_or]
  split
  next hp => exact find_filter_of_true (fun _ ↦ hp) t.entries
  next hp =>
    induction t.entries with
    | nil => rfl
    | cons e es ih =>
      by_cases he : p e.1
      · have hne : e.1 ≠ k := fun h ↦ hp (h ▸ he)
        simp [he, find, hne, ih]
      · simpa [he] using ih

theorem node?_of_keep {p : Location → Bool} {n : Node} (h : (t.keep p).node? k = some n) :
    t.node? k = some n ∧ (k = [] ∨ p k) := by
  rw [node?_keep] at h
  split at h
  next hp => exact ⟨h, hp⟩
  next => cases h

/-- Entries can be removed if what lies in a directory that is removed is removed as well. -/
theorem Sound.keep (ht : t.Sound) {p : Location → Bool}
    (hp : ∀ k, (t.node? k).isSome → p k → k.dropLast ≠ [] → p k.dropLast) : (t.keep p).Sound := by
  have file {k : Location} {id : Nat} (h : (t.keep p).fileId? k = some id) :
      t.fileId? k = some id := by
    obtain ⟨f, hf, hid⟩ := fileId?_eq_some.mp h
    exact fileId?_eq_some.mpr ⟨f, (node?_of_keep hf).1, hid⟩
  have directory {k : Location} {id : Nat} (h : (t.keep p).directoryId? k = some id) :
      t.directoryId? k = some id := by
    obtain ⟨d, hd, hid⟩ := directoryId?_eq_some.mp h
    exact directoryId?_eq_some.mpr ⟨d, (node?_of_keep hd).1, hid⟩
  refine ⟨ht.nodup.sublist (List.filter_sublist.map _),
    fun e he ↦ ht.named e (List.mem_filter.mp he).1, fun {k} hk h ↦ ?_, fun h ↦ ht.file_lt (file h),
    fun h ↦ ht.directory_lt (directory h),
    fun h h' ↦ ht.directory_inj (directory h) (directory h')⟩
  obtain ⟨n, hn⟩ := Option.isSome_iff_exists.mp h
  obtain ⟨hn, hpk⟩ := node?_of_keep hn
  have there : (t.node? k).isSome := by simp [hn]
  obtain ⟨d, hd⟩ := isSome_directoryId?.mp (ht.parent hk there)
  refine isSome_directoryId?.mpr ⟨d, ?_⟩
  rw [node?_keep, if_pos, hd]
  by_cases habove : k.dropLast = []
  · exact .inl habove
  · exact .inr (hp k there (hpk.resolve_left hk) habove)

theorem erase_eq_keep (t : Tree) (l : Location) : t.erase l = t.keep (· ≠ l) := rfl

/-- What nothing lies in can be removed. -/
theorem Sound.erase (ht : t.Sound) (hempty : ∀ k, k ≠ [] → (t.node? k).isSome → k.dropLast ≠ l) :
    (t.erase l).Sound := by
  rw [erase_eq_keep]
  refine ht.keep fun k hk _ habove ↦ ?_
  have hne : k ≠ [] := by
    rintro rfl
    exact habove rfl
  simpa using hempty k hne hk

/-- What is no directory can be removed. -/
theorem Sound.erase_of_directoryId? (ht : t.Sound) (hdir : t.directoryId? l = none) :
    (t.erase l).Sound := by
  refine ht.erase fun k hne hk habove ↦ ?_
  simpa [habove, hdir] using ht.parent hne hk

theorem fileId?_onFile (t : Tree) (id : Nat) {f : File → File} (hf : ∀ a, (f a).id = a.id)
    (k : Location) : (t.onFile id f).fileId? k = t.fileId? k := by
  have node (n : Node) : (n.onFile id f).fileId? = n.fileId? := by
    cases n with
    | file a =>
      simp only [Node.onFile, Node.fileId?]
      split
      · rw [hf]
      · rfl
    | _ => rfl
  simp only [fileId?, node?_onFile]
  cases t.node? k <;> simp [node]

theorem directoryId?_onFile (t : Tree) (id : Nat) (f : File → File) (k : Location) :
    (t.onFile id f).directoryId? k = t.directoryId? k := by
  simp only [directoryId?, node?_onFile]
  cases t.node? k with
  | none => rfl
  | some n => cases n <;> rfl

/-- A file may be changed under all its names. -/
theorem Sound.onFile (ht : t.Sound) (id : Nat) {f : File → File} (hf : ∀ a, (f a).id = a.id) :
    (t.onFile id f).Sound := by
  have keys : (t.onFile id f).entries.map Prod.fst = t.entries.map Prod.fst := by
    simp [Tree.onFile]
  refine ht.of_directories_eq (keys ▸ ht.nodup) (fun e he ↦ ?_) (Nat.le_refl _)
    (directoryId?_onFile t id f) (fun k id' h ↦ ?_) fun k _ h ↦ .inl ?_
  · obtain ⟨e', he', rfl⟩ := List.mem_map.mp he
    exact ht.named e' he'
  · rw [fileId?_onFile t id hf] at h
    exact ht.file_lt h
  · simpa [node?_onFile] using h

/-! ## Times of directories -/

theorem node?_adjust_self (t : Tree) (hl : l ≠ []) (f : Node → Node) :
    (t.adjust l f).node? l = (t.node? l).map f := by
  simp only [node?, if_neg hl, adjust]
  induction t.entries with
  | nil => rfl
  | cons e es ih =>
    by_cases h : e.1 = l
    · simp [find, h]
    · simpa [find, h] using ih

/-- That a directory has been changed shows in its times only. -/
theorem shape_noteChange (t : Tree) (l k : Location) : (t.noteChange l).shape k = t.shape k := by
  by_cases hk : k = l
  · subst hk
    by_cases hl : k = []
    · simp [shape, hl]
    · rw [shape, noteChange, node?_adjust_self t hl, Option.map_map, shape]
      congr 1
      funext n
      exact n.timeless_withAttributes (fun _ ↦ rfl) fun _ ↦ rfl
  · rw [shape, noteChange, node?_adjust_of_ne hk, shape]

theorem isSome_noteChange (t : Tree) (l k : Location) :
    ((t.noteChange l).node? k).isSome = (t.node? k).isSome := by
  rw [← isSome_shape, shape_noteChange, isSome_shape]

theorem keys_adjust (t : Tree) (l : Location) (f : Node → Node) :
    (t.adjust l f).entries.map Prod.fst = t.entries.map Prod.fst := by
  simp only [adjust, List.map_map]
  refine List.map_congr_left fun e _ ↦ ?_
  simp only [Function.comp_apply]
  split <;> rfl

theorem Sound.noteChange (ht : t.Sound) (l : Location) : (t.noteChange l).Sound :=
  ht.of_shape_eq (keys_adjust t l _) (Nat.le_refl _) (shape_noteChange t l)

end Tree

end ContractBuild
