import ContractBuild.FileSystem.Host
import ContractBuild.Proofs.FileSystem.Walk

/-!
# What operations on files change

Creating, writing, copying and removing a file is a change at the one location that its path leads
to.  After such changes a path leads where it led before, unless what stood there has gone.
-/

namespace ContractBuild

/-- What comes out of two operations in a row came out of the second. -/
theorem exists_of_bind_eq_ok {ε α β : Type} {x : Except ε α} {f : α → Except ε β} {b : β}
    (h : x >>= f = .ok b) : ∃ a, x = .ok a ∧ f a = .ok b := by
  cases x with
  | error e => cases h
  | ok a => exact ⟨a, rfl, h⟩

/-! ## Looking up paths -/

namespace Tree

variable {t t' : Tree} {dir dir' : Option Location} {m : Manner} {p : Path} {place : Place}

/-- A path that leads somewhere is one that may be followed, from a directory that is there. -/
theorem locate_eq_ok_iff : t.locate dir m p = .ok place ↔
    (0 ∉ p.raw ∧ p.raw ≠ [] ∧ p.raw.length < pathLimit) ∧
      ∃ start, (if p.isAbsolute then some [] else dir) = some start ∧
        t.Reaches linkLimit m p.endsInSlash start p.steps place := by
  unfold locate
  simp only [reaches_iff]
  by_cases hzero : 0 ∈ p.raw
  · simp [hzero]
  by_cases hempty : p.raw = []
  · simp [hempty]
  by_cases hlen : pathLimit ≤ p.raw.length
  · simp [hzero, hempty, hlen, Nat.not_lt_of_le hlen]
  simp only [hzero, hempty, hlen, if_false, not_false_eq_true, ne_eq, Nat.lt_of_not_le hlen,
    true_and, and_self]
  generalize (if p.isAbsolute = true then some [] else dir) = start
  cases start <;> simp

theorem shows_of_locate (hp : t.locate dir m p = .ok place) : t.Shows place := by
  obtain ⟨_, start, _, reaches⟩ := locate_eq_ok_iff.mp hp
  exact reaches.shows

/-- A path leads where it led in a tree with the same directories and links, if what stands there
is still something of its sort. -/
theorem locate_of_keepsWays (ht : t.Sound) (hways : t.KeepsWays t')
    (hdir : ∀ l, dir = some l → (t.directoryId? l).isSome ∧ dir' = some l)
    (hp : t.locate dir m p = .ok place)
    (hentry : ∀ l n, place = .entry l n → n.leads = false →
      ∃ n', t'.node? l = some n' ∧ n'.leads = false)
    (hvacant : ∀ l, place = .vacant l → (t'.directoryId? l).isSome) :
    ∃ n', t'.node? place.location = some n' ∧
      t'.locate dir' m p = .ok (.entry place.location n') := by
  obtain ⟨good, start, hstart, h⟩ := locate_eq_ok_iff.mp hp
  have known : (t.directoryId? start).isSome ∧
      (if p.isAbsolute then some [] else dir') = some start := by
    split at hstart
    next habs =>
      obtain rfl := Option.some.inj hstart
      exact ⟨isSome_directoryId?_root t, if_pos habs⟩
    next habs => exact ⟨(hdir _ hstart).1, by rw [if_neg habs, (hdir _ hstart).2]⟩
  obtain ⟨n', hn', walk⟩ := h.walk_of_keepsWays ht hways known.1 hentry hvacant
  exact ⟨n', hn', locate_eq_ok_iff.mpr ⟨good, start, known.2, reaches_iff.mpr walk⟩⟩

/-- A path that a file may be created at leads there in any case. -/
theorem locate_of_create (hp : t.locate dir m p = .ok place) :
    t.locate dir { m with create := false } p = .ok place := by
  obtain ⟨good, start, hstart, h⟩ := locate_eq_ok_iff.mp hp
  exact locate_eq_ok_iff.mpr ⟨good, start, hstart, h.of_create⟩

end Tree

/-! ## Changes of a host -/

namespace Host

variable {h h' h'' : Host} {l : Location} {p source dest : Path} {mode : Nat} {content : Bytes}

/-- The change from one host to another is one of what stands at a location. -/
structure WritesOnly (h h' : Host) (l : Location) : Prop where
  /-- It is one of the tree. -/
  tree : h.tree.WritesOnly h'.tree l
  /-- The process stays in its directory. -/
  cwd_eq : h'.cwd = h.cwd

namespace WritesOnly

theorem refl (ht : h.tree.Sound) (l : Location) : h.WritesOnly h l := ⟨.refl ht l, rfl⟩

theorem trans (ht : h.tree.Sound) (first : h.WritesOnly h' l) (second : h'.WritesOnly h'' l) :
    h.WritesOnly h'' l :=
  ⟨first.tree.trans ht second.tree, second.cwd_eq.trans first.cwd_eq⟩

end WritesOnly

theorem eq_of_changeAbove {change : Tree → Tree} (hh : h.changeAbove l change = .ok h') :
    h' = h.withTree ((change h.tree).noteChange l.dropLast) := by
  unfold changeAbove at hh
  split at hh
  · exact (Except.ok.inj hh).symm
  · cases hh

theorem writesOnly_changeAbove (ht : h.tree.Sound) {change : Tree → Tree}
    (hchange : h.tree.WritesOnly (change h.tree) l) (hh : h.changeAbove l change = .ok h') :
    h.WritesOnly h' l := by
  obtain rfl := eq_of_changeAbove hh
  exact ⟨hchange.trans ht (Tree.writesOnly_noteChange hchange.sound _ l), rfl⟩

/-- A free name at the end of a path lies in a directory. -/
theorem isSome_directoryId?_of_vacant (ht : h.tree.Sound) {m : Manner}
    (hp : h.tree.locate h.here? m p = .ok (.vacant l)) :
    (h.tree.directoryId? l.dropLast).isSome := by
  obtain ⟨_, start, hstart, reaches⟩ := Tree.locate_eq_ok_iff.mp hp
  refine reaches.parent ht ?_ rfl
  split at hstart
  · obtain rfl := Option.some.inj hstart
    exact Tree.isSome_directoryId?_root _
  · rw [ht.directory?_eq_some_iff.mp hstart]
    rfl

/-- The host in which a file holds nothing. -/
def cleared (h : Host) (f : File) : Host :=
  h.withTree (h.tree.onFile f.id (·.withContent [] h.tree.now))

/-- What is opened for writing is a free name, which gets a new file, a file, which is emptied, or
something that is neither a file nor a directory. -/
theorem cases_of_create (hh : h.create p mode = .ok (l, h')) :
    (h.tree.locate h.here? ⟨true, true⟩ p = .ok (.vacant l) ∧
        h.changeAbove l (·.addFile l [] mode) = .ok h') ∨
      (∃ f, h.tree.locate h.here? ⟨true, true⟩ p = .ok (.entry l (.file f)) ∧
        f.allows .write = true ∧ h' = h.cleared f) ∨
      ∃ n, h.tree.locate h.here? ⟨true, true⟩ p = .ok (.entry l n) ∧ n.fileId? = none ∧
        n.directoryId? = none ∧ n ≠ .device .terminal ∧ h' = h := by
  obtain ⟨place, hplace, hh⟩ := exists_of_bind_eq_ok hh
  split at hh
  next k =>
    obtain ⟨h'', hchange, hh⟩ := exists_of_bind_eq_ok hh
    obtain ⟨rfl, rfl⟩ := Prod.mk.inj (Except.ok.inj hh)
    exact .inl ⟨hplace, hchange⟩
  next => cases hh
  next => cases hh
  next k f =>
    split at hh
    next hwrite =>
      obtain ⟨rfl, rfl⟩ := Prod.mk.inj (Except.ok.inj hh)
      exact .inr (.inl ⟨f, hplace, hwrite, rfl⟩)
    next => cases hh
  next k n hdir hterminal hfile =>
    obtain ⟨rfl, rfl⟩ := Prod.mk.inj (Except.ok.inj hh)
    refine .inr (.inr ⟨n, hplace, ?_, ?_, hterminal, rfl⟩)
    · cases n with
      | file f => exact absurd rfl (hfile f)
      | _ => rfl
    · cases n with
      | directory d => exact absurd rfl (hdir d)
      | _ => rfl

/-- Opening a path for writing changes nothing but what stands at its place, and no directory
stands there. -/
theorem writesOnly_create (ht : h.tree.Sound) (hh : h.create p mode = .ok (l, h')) :
    (∃ place, h.tree.locate h.here? ⟨true, true⟩ p = .ok place ∧ place.location = l) ∧
      h.tree.directoryId? l = none ∧ h.WritesOnly h' l := by
  rcases cases_of_create hh with ⟨hplace, hchange⟩ | ⟨f, hplace, -, rfl⟩ |
    ⟨n, hplace, -, hdir, -, rfl⟩
  all_goals refine ⟨⟨_, hplace, rfl⟩, ?_⟩
  all_goals have shows := Tree.shows_of_locate hplace
  · refine ⟨?_, writesOnly_changeAbove ht ?_ hchange⟩
    · rw [Tree.directoryId?, shows]
      rfl
    · exact Tree.writesOnly_addFile ht shows (isSome_directoryId?_of_vacant ht hplace) [] mode
  · have hfile : h.tree.fileId? l = some f.id := Tree.fileId?_eq_some.mpr ⟨f, shows, rfl⟩
    refine ⟨?_, Tree.writesOnly_onFile ht hfile fun _ ↦ rfl, rfl⟩
    rw [Tree.directoryId?, shows]
    rfl
  · exact ⟨by rw [Tree.directoryId?, shows]; exact hdir, .refl ht _⟩

/-- Adding to a file changes nothing but the file. -/
theorem writesOnly_append (ht : h.tree.Sound) (hh : h.append l content = .ok h') :
    h.WritesOnly h' l := by
  unfold append at hh
  split at hh
  next f hf =>
    obtain rfl := Except.ok.inj hh
    refine ⟨Tree.writesOnly_onFile ht (Tree.fileId?_eq_some.mpr ⟨f, hf, rfl⟩) fun a ↦ ?_, rfl⟩
    split
    · rfl
    · rfl
  next =>
    split at hh
    · obtain rfl := Except.ok.inj hh
      exact .refl ht l
    · cases hh
  next hn =>
    obtain rfl := Except.ok.inj hh
    have hl : l ≠ [] := fun hl ↦ by simp [hl] at hn
    exact ⟨Tree.writesOnly_set ht hl hn rfl rfl rfl, rfl⟩
  next =>
    obtain rfl := Except.ok.inj hh
    exact .refl ht l

/-- Other permissions change nothing but what they are put on. -/
theorem writesOnly_permit (ht : h.tree.Sound) (hl : h.tree.directoryId? l = none) (mode : Nat) :
    h.WritesOnly (h.permit l mode) l := by
  unfold permit reattribute
  split
  next f hf =>
    exact ⟨Tree.writesOnly_onFile ht (Tree.fileId?_eq_some.mpr ⟨f, hf, rfl⟩) fun _ ↦ rfl, rfl⟩
  next n hfile hn =>
    -- links, devices and descriptors have no permissions
    have plain : n.withAttributes ({ · with mode }) = n := by
      cases n with
      | file f => exact absurd rfl (hfile f)
      | directory d => simp [Tree.directoryId?, hn, Node.directoryId?] at hl
      | _ => rfl
    have same (k : Location) : (h.tree.adjust l (·.withAttributes ({ · with mode }))).shape k =
        h.tree.shape k := by
      by_cases hk : k = l
      · have hne : k ≠ [] := fun hk' ↦ by simp [← hk, hk', Tree.directoryId?_root] at hl
        rw [Tree.shape, hk, Tree.node?_adjust_self _ (hk ▸ hne), hn, Option.map_some, plain,
          Tree.shape, hn]
      · rw [Tree.shape, Tree.node?_adjust_of_ne hk, Tree.shape]
    have sound := ht.of_shape_eq (Tree.keys_adjust h.tree l _) (Nat.le_refl _) same
    exact ⟨.of_shape_eq sound (Nat.le_refl _) same, rfl⟩
  next => exact .refl ht l

/-- Writing a file changes nothing but what stands at its place. -/
theorem writesOnly_write (ht : h.tree.Sound) (hh : h.write p content = .ok h') :
    ∃ place, h.tree.locate h.here? ⟨true, true⟩ p = .ok place ∧ h.WritesOnly h' place.location := by
  obtain ⟨⟨l, h₁⟩, hcreate, hh⟩ := exists_of_bind_eq_ok hh
  obtain ⟨⟨place, hplace, rfl⟩, _, created⟩ := writesOnly_create ht hcreate
  exact ⟨place, hplace, created.trans ht (writesOnly_append created.tree.sound hh)⟩

/-! ## Entries -/

theorem locate_of_entry {n : Node} (he : h.entry p = .ok (l, n)) :
    h.locate p = .ok (.entry l n) := by
  obtain ⟨place, hplace, he⟩ := exists_of_bind_eq_ok he
  split at he
  · obtain ⟨rfl, rfl⟩ := Prod.mk.inj (Except.ok.inj he)
    exact hplace
  · cases he

theorem entry_of_locate {n : Node} (hp : h.locate p = .ok (.entry l n)) :
    h.entry p = .ok (l, n) := by
  rw [entry, hp]
  rfl

theorem node?_of_entry {n : Node} (he : h.entry p = .ok (l, n)) : h.tree.node? l = some n :=
  Tree.shows_of_locate (locate_of_entry he)

/-- A path leads to the entry of another exactly if it leads to its location. -/
theorem sameEntry_iff {n : Node} (hp : h.entry p = .ok (l, n)) :
    h.sameEntry p dest = true ↔ ∃ m, h.entry dest = .ok (l, m) := by
  unfold sameEntry canonical?
  rw [hp]
  rcases h.entry dest with e | ⟨k, m⟩
  · simp
  · simp [eq_comm]

/-- A path leads to the same location in a tree with the same directories and links, if something of
its sort stands there still. -/
theorem exists_entry_of_keepsWays (ht : h.tree.Sound) (ht' : h'.tree.Sound)
    (hways : h.tree.KeepsWays h'.tree) (hcwd : h'.cwd = h.cwd) {n : Node}
    (he : h.entry p = .ok (l, n))
    (hend : n.leads = false → ∃ n', h'.tree.node? l = some n' ∧ n'.leads = false) :
    ∃ n', h'.tree.node? l = some n' ∧ h'.entry p = .ok (l, n') := by
  have hdir (k : Location) (hk : h.here? = some k) :
      (h.tree.directoryId? k).isSome ∧ h'.here? = some k := by
    refine ⟨by rw [ht.directory?_eq_some_iff.mp hk]; rfl, ?_⟩
    rw [here?, hcwd]
    exact hways.directory?_eq ht ht' hk
  obtain ⟨n', hn', locate⟩ := Tree.locate_of_keepsWays ht hways hdir (locate_of_entry he)
    (fun _ _ hk hlead ↦ by
      obtain ⟨rfl, rfl⟩ := Place.entry.inj hk
      exact hend hlead)
    fun _ hk ↦ by cases hk
  exact ⟨n', hn', entry_of_locate locate⟩

/-- A path leads to a file in a tree with the same directories and links, as long as something of
its sort is there. -/
theorem entry_of_keepsWays (ht : h.tree.Sound) (ht' : h'.tree.Sound)
    (hways : h.tree.KeepsWays h'.tree) (hcwd : h'.cwd = h.cwd) {n n' : Node}
    (he : h.entry p = .ok (l, n)) (hn : h'.tree.node? l = some n') (hlead : n'.leads = false) :
    h'.entry p = .ok (l, n') := by
  obtain ⟨b, hb, hentry⟩ :=
    exists_entry_of_keepsWays ht ht' hways hcwd he fun _ ↦ ⟨n', hn, hlead⟩
  obtain rfl := Option.some.inj (hn.symm.trans hb)
  exact hentry

/-- What is opened for appending is what the path leads to. -/
theorem entry_of_appendTarget (hl : h.appendTarget p = .ok l) : ∃ n, h.entry p = .ok (l, n) := by
  obtain ⟨⟨k, n⟩, hentry, hl⟩ := exists_of_bind_eq_ok hl
  refine ⟨n, ?_⟩
  split at hl
  next => cases hl
  next => cases hl
  next k' n' _ _ heq =>
    obtain ⟨rfl, rfl⟩ := Prod.mk.inj heq
    split at hl
    · obtain rfl := Except.ok.inj hl
      exact hentry
    · cases hl

/-- After a file is written under one name, it holds what was written under all its names. -/
theorem content_of_write (hh : h.write p content = .ok h') {k x : Location} {g a : File}
    (hp : h.entry p = .ok (k, .file g)) (hx : h.tree.node? x = some (.file a))
    (ha : a.id = g.id) :
    ∃ a', h'.tree.node? x = some (.file a') ∧ a'.id = a.id ∧ a'.content = content := by
  obtain ⟨⟨k', h₁⟩, hcreate, happend⟩ := exists_of_bind_eq_ok hh
  obtain ⟨place, hplace, hcreate⟩ := exists_of_bind_eq_ok hcreate
  obtain rfl := Except.ok.inj ((Tree.locate_of_create hplace).symm.trans (locate_of_entry hp))
  dsimp only at hcreate
  split at hcreate
  next =>
    obtain ⟨rfl, rfl⟩ := Prod.mk.inj (Except.ok.inj hcreate)
    have hk := node?_of_entry hp
    simp only [append, withTree, Tree.node?_onFile, hk, Option.map_some, Node.onFile_self]
      at happend
    obtain rfl := Except.ok.inj happend
    simp only [Tree.node?_onFile, hx, Option.map_some, Node.onFile, ha, File.withContent, if_true]
    by_cases hempty : content = []
    · exact ⟨_, rfl, by simp [hempty]⟩
    · exact ⟨_, rfl, by simp [hempty]⟩
  next => cases hcreate

/-! ## Copies -/

theorem copySource_eq_ok {f : File} : h.copySource source = .ok (l, f) ↔
    h.entry source = .ok (l, .file f) ∧ f.allows .read = true := by
  unfold copySource
  cases hentry : h.entry source with
  | error e => simp [bind, Except.bind]
  | ok e =>
    obtain ⟨k, n⟩ := e
    by_cases hread : n.allows .read = true
    · simp only [permitted, hread, bind, Except.bind, if_true]
      cases n with
      | file g =>
        simp only [Except.ok.injEq, Prod.mk.injEq, Node.file.injEq]
        refine ⟨fun same ↦ ⟨same, ?_⟩, And.left⟩
        obtain ⟨-, rfl⟩ := same
        exact hread
      | device d => cases d <;> simp
      | _ => simp
    · simp only [permitted, hread, bind, Except.bind]
      refine ⟨fun refused ↦ (by cases refused), fun ⟨same, allowed⟩ ↦ ?_⟩
      obtain ⟨-, rfl⟩ := Prod.mk.inj (Except.ok.inj same)
      exact absurd allowed hread

/-- A copy reads a file, opens its destination and fills that with what the file holds by then.  It
does nothing if it cannot open the destination, and nothing else if it cannot fill it. -/
theorem cases_copy (h : Host) (source dest : Path) :
    (∃ e, h.copy source dest = (.error e, h)) ∨
      ∃ l f k h₁, h.entry source = .ok (l, .file f) ∧ f.allows .read = true ∧
        h.create dest f.mode = .ok (k, h₁) ∧
        ((∃ e, h₁.fill k f.mode (h₁.contentAt l) = .error e ∧
            h.copy source dest = (.error e, h₁)) ∨
          ∃ h', h₁.fill k f.mode (h₁.contentAt l) = .ok h' ∧
            h.copy source dest = (.ok (), h')) := by
  unfold copy
  cases hsource : h.copySource source with
  | error e => exact .inl ⟨e, rfl⟩
  | ok read =>
    obtain ⟨l, f⟩ := read
    cases hcreate : h.create dest f.mode with
    | error e => exact .inl ⟨e, by simp only [hcreate]⟩
    | ok created =>
      obtain ⟨k, h₁⟩ := created
      obtain ⟨hentry, hread⟩ := copySource_eq_ok.mp hsource
      refine .inr ⟨l, f, k, h₁, hentry, hread, hcreate, ?_⟩
      cases hfill : h₁.fill k f.mode (h₁.contentAt l) with
      | error e => exact .inl ⟨e, rfl, by simp only [hcreate, hfill]⟩
      | ok h' => exact .inr ⟨h', rfl, by simp only [hcreate, hfill]⟩

theorem fill_eq_ok {k : Location} : h.fill k mode content = .ok h' ↔
    h.isOwn k = true ∧ (h.permit k mode).append k content = .ok h' := by
  unfold fill
  split <;> simp_all

/-- What has been copied has been read, and written to what was opened. -/
theorem exists_of_copy (hh : h.copy source dest = (.ok (), h')) :
    ∃ l f k h₁, h.entry source = .ok (l, .file f) ∧ f.allows .read = true ∧
      h.create dest f.mode = .ok (k, h₁) ∧ h₁.isOwn k = true ∧
      (h₁.permit k f.mode).append k (h₁.contentAt l) = .ok h' := by
  rcases h.cases_copy source dest with ⟨e, he⟩ | ⟨l, f, k, h₁, hentry, hread, hcreate, filled⟩
  · cases he.symm.trans hh
  · rcases filled with ⟨e, -, he⟩ | ⟨h'', hfill, hdone⟩
    · cases he.symm.trans hh
    · obtain rfl := congrArg Prod.snd (hdone.symm.trans hh)
      obtain ⟨own, happend⟩ := fill_eq_ok.mp hfill
      exact ⟨l, f, k, h₁, hentry, hread, hcreate, own, happend⟩

theorem read_of_entry {f : File} (he : h.entry p = .ok (l, .file f)) (hread : f.allows .read = true) :
    h.read p = .ok f.content := by
  have allowed : (Node.file f).allows .read = true := hread
  simp only [read, he, permitted, allowed, bind, Except.bind, if_true, contentAt, node?_of_entry he]

/-- A copy changes nothing but what stands at its destination, and not even that if it is not
opened. -/
theorem writesOnly_copy (ht : h.tree.Sound) (source dest : Path) :
    (∃ e, h.copy source dest = (.error e, h)) ∨
      ∃ place, h.tree.locate h.here? ⟨true, true⟩ dest = .ok place ∧
        h.WritesOnly (h.copy source dest).2 place.location := by
  rcases h.cases_copy source dest with failed | ⟨l, f, k, h₁, -, -, hcreate, filled⟩
  · exact .inl failed
  obtain ⟨⟨place, hplace, rfl⟩, hdir, created⟩ := writesOnly_create ht hcreate
  refine .inr ⟨place, hplace, ?_⟩
  rcases filled with ⟨e, -, he⟩ | ⟨h', hfill, hdone⟩
  · rwa [he]
  · have permitted := writesOnly_permit created.tree.sound
      (created.tree.directoryId?_eq_none hdir) f.mode
    have appended := writesOnly_append permitted.tree.sound (fill_eq_ok.mp hfill).2
    rw [hdone]
    exact created.trans ht (permitted.trans created.tree.sound appended)

theorem writesOnly_of_copy (ht : h.tree.Sound) (hh : h.copy source dest = (.ok (), h')) :
    ∃ place, h.tree.locate h.here? ⟨true, true⟩ dest = .ok place ∧
      h.WritesOnly h' place.location := by
  rcases writesOnly_copy ht source dest with ⟨e, he⟩ | opened
  · cases he.symm.trans hh
  · rwa [hh] at opened

/-- After a copy to one name of a file, the file holds what was copied under all its names. -/
theorem content_of_copy (hh : h.copy source dest = (.ok (), h')) {k x : Location} {f g a : File}
    (hsource : h.entry source = .ok (l, .file f)) (hdest : h.entry dest = .ok (k, .file g))
    (hne : f.id ≠ g.id) (hx : h.tree.node? x = some (.file a)) (ha : a.id = g.id) :
    ∃ a', h'.tree.node? x = some (.file a') ∧ a'.id = a.id ∧ a'.content = f.content := by
  obtain ⟨l', f', k', h₁, hsource', -, hcreate, -, happend⟩ := exists_of_copy hh
  obtain ⟨rfl, hf⟩ := Prod.mk.inj (Except.ok.inj (hsource.symm.trans hsource'))
  obtain rfl := Node.file.inj hf
  obtain ⟨place, hplace, hcreate⟩ := exists_of_bind_eq_ok hcreate
  obtain rfl := Except.ok.inj ((Tree.locate_of_create hplace).symm.trans (locate_of_entry hdest))
  dsimp only at hcreate
  split at hcreate
  next =>
    obtain ⟨rfl, rfl⟩ := Prod.mk.inj (Except.ok.inj hcreate)
    have hk := node?_of_entry hdest
    have hl := node?_of_entry hsource
    simp only [permit, reattribute, append, contentAt, withTree, Tree.node?_onFile, hk, hl,
      Option.map_some, Node.onFile_self, Node.onFile_of_ne hne] at happend
    obtain rfl := Except.ok.inj happend
    simp only [Tree.node?_onFile, hx, Option.map_some, Node.onFile, ha, File.withContent, if_true]
    by_cases hempty : f.content = []
    · exact ⟨_, rfl, by simp [hempty]⟩
    · exact ⟨_, rfl, by simp [hempty]⟩
  next => cases hcreate

end Host

end ContractBuild
