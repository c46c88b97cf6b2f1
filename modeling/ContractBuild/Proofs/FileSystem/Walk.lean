import ContractBuild.FileSystem.Locate
import ContractBuild.Proofs.FileSystem.WritesOnly

/-!
# Where a walk leads

`Reaches` describes a walk by what it meets on its way.  A walk depends on the directories and
links of a tree only, so it ends at the same place in any tree that still has them, whatever else
has changed; and a walk that goes on behind a directory goes on from there.
-/

namespace ContractBuild

/-- The location that a path leads to. -/
def Place.location : Place → Location
  | .entry l _ => l
  | .vacant l => l

namespace Tree

/-- Whether a walk that goes on with `rest` may look for a name in a directory. -/
def Admits (t : Tree) (m : Manner) (sl : Bool) (dir : Location) (n : Name) (rest : List Step) :
    Prop :=
  t.allows dir .run = true ∧ ¬ (rest = [] ∧ sl = true ∧ m.create = true) ∧ n.length ≤ nameLimit

/-- A walk that ends at a place. -/
inductive Reaches (t : Tree) : Nat → Manner → Bool → Location → List Step → Place → Prop
  /-- There are no more steps. -/
  | done {b m sl dir n} (hn : t.node? dir = some n) : Reaches t b m sl dir [] (.entry dir n)
  /-- It stays in its directory. -/
  | stay {b m sl dir rest p} (hrun : t.allows dir .run = true)
      (next : Reaches t b m sl dir rest p) : Reaches t b m sl dir (.stay :: rest) p
  /-- It goes to the directory above. -/
  | up {b m sl dir rest p} (hrun : t.allows dir .run = true)
      (next : Reaches t b m sl dir.dropLast rest p) : Reaches t b m sl dir (.up :: rest) p
  /-- It enters a directory. -/
  | into {b m sl dir n d rest p} (hin : t.Admits m sl dir n rest)
      (hn : t.node? (dir ++ [n]) = some (.directory d))
      (next : Reaches t b m sl (dir ++ [n]) rest p) : Reaches t b m sl dir (.enter n :: rest) p
  /-- It follows a link. -/
  | follow {b m sl dir n k rest p} (hin : t.Admits m sl dir n rest)
      (hn : t.node? (dir ++ [n]) = some (.link k))
      (hend : ¬ (rest = [] ∧ ¬ m.follow = true ∧ ¬ sl = true))
      (next : Reaches t b { m with follow := m.follow || rest = [] }
        (sl || (rest = [] && k.target.endsInSlash)) (if k.target.isAbsolute then [] else dir)
        (k.target.steps ++ rest) p) : Reaches t (b + 1) m sl dir (.enter n :: rest) p
  /-- It ends at a link. -/
  | link {b m sl dir n k} (hin : t.Admits m sl dir n [])
      (hn : t.node? (dir ++ [n]) = some (.link k)) (hfollow : m.follow = false)
      (hslash : sl = false) : Reaches t b m sl dir [.enter n] (.entry (dir ++ [n]) (.link k))
  /-- It ends at something that leads nowhere. -/
  | last {b m sl dir n a} (hin : t.Admits m sl dir n [])
      (hn : t.node? (dir ++ [n]) = some a) (hlead : a.leads = false) (hslash : sl = false) :
      Reaches t b m sl dir [.enter n] (.entry (dir ++ [n]) a)
  /-- It ends at a free name. -/
  | free {b m sl dir n} (hin : t.Admits m sl dir n []) (hn : t.node? (dir ++ [n]) = none) :
      Reaches t b m sl dir [.enter n] (.vacant (dir ++ [n]))

/-! ## The steps of a walk -/

variable {t t' : Tree} {b : Nat} {m : Manner} {sl : Bool} {dir e : Location} {n : Name}
  {rest ss : List Step} {p : Place} {d : Directory}

theorem walk_nil (t : Tree) (b : Nat) (m : Manner) (sl : Bool) (dir : Location) :
    t.walk b m sl dir [] = match t.node? dir with
      | some n => .ok (.entry dir n)
      | none => .error .notFound := by
  cases b <;> rfl

section

attribute [local simp] walk scan

theorem walk_stay (hrun : t.allows dir .run = true) :
    t.walk b m sl dir (.stay :: rest) = t.walk b m sl dir rest := by
  cases b <;> simp [hrun]

theorem walk_up (hrun : t.allows dir .run = true) :
    t.walk b m sl dir (.up :: rest) = t.walk b m sl dir.dropLast rest := by
  cases b <;> simp [hrun]

theorem walk_into (hin : t.Admits m sl dir n rest) {d : Directory}
    (hn : t.node? (dir ++ [n]) = some (.directory d)) :
    t.walk b m sl dir (.enter n :: rest) = t.walk b m sl (dir ++ [n]) rest := by
  obtain ⟨hrun, hslash, hlen⟩ := hin
  cases b <;> simp [hrun, hslash, Nat.not_lt_of_le hlen, hn]

theorem walk_follow (hin : t.Admits m sl dir n rest) {k : Link}
    (hn : t.node? (dir ++ [n]) = some (.link k))
    (hend : ¬ (rest = [] ∧ ¬ m.follow = true ∧ ¬ sl = true)) :
    t.walk (b + 1) m sl dir (.enter n :: rest) =
      t.walk b { m with follow := m.follow || rest = [] }
        (sl || (rest = [] && k.target.endsInSlash)) (if k.target.isAbsolute then [] else dir)
        (k.target.steps ++ rest) := by
  obtain ⟨hrun, hslash, hlen⟩ := hin
  simp only [walk, scan, hrun, hslash, Nat.not_lt_of_le hlen, hn, hend]
  simp

theorem walk_link (hin : t.Admits m sl dir n []) {k : Link}
    (hn : t.node? (dir ++ [n]) = some (.link k)) (hfollow : m.follow = false)
    (hslash : sl = false) :
    t.walk b m sl dir [.enter n] = .ok (.entry (dir ++ [n]) (.link k)) := by
  obtain ⟨hrun, -, hlen⟩ := hin
  cases b <;> simp [hrun, hslash, hfollow, Nat.not_lt_of_le hlen, hn]

theorem walk_last (hin : t.Admits m sl dir n []) {a : Node}
    (hn : t.node? (dir ++ [n]) = some a) (hlead : a.leads = false) (hslash : sl = false) :
    t.walk b m sl dir [.enter n] = .ok (.entry (dir ++ [n]) a) := by
  obtain ⟨hrun, -, hlen⟩ := hin
  cases a with
  | directory d => cases hlead
  | link k => cases hlead
  | _ => cases b <;> simp [hrun, hslash, Nat.not_lt_of_le hlen, hn]

theorem walk_free (hin : t.Admits m sl dir n []) (hn : t.node? (dir ++ [n]) = none) :
    t.walk b m sl dir [.enter n] = .ok (.vacant (dir ++ [n])) := by
  obtain ⟨hrun, hslash, hlen⟩ := hin
  simp only [true_and] at hslash
  cases b <;> simp [hrun, hslash, Nat.not_lt_of_le hlen, hn]

end

/-- A walk that is described by what it meets is one of the tree. -/
theorem Reaches.walk_eq (h : t.Reaches b m sl dir ss p) : t.walk b m sl dir ss = .ok p := by
  induction h with
  | done hn => rw [walk_nil, hn]
  | stay hrun _ ih => rw [walk_stay hrun, ih]
  | up hrun _ ih => rw [walk_up hrun, ih]
  | into hin hn _ ih => rw [walk_into hin hn, ih]
  | follow hin hn hend _ ih => rw [walk_follow hin hn hend, ih]
  | link hin hn hfollow hslash => exact walk_link hin hn hfollow hslash
  | last hin hn hlead hslash => exact walk_last hin hn hlead hslash
  | free hin hn => exact walk_free hin hn

/-- Whether the detours of a scan are described by what they meet. -/
def DescribesDetours (t : Tree) (b : Nat) (detour : Detour → Except IoError Place) : Prop :=
  ∀ x p, detour x = .ok p → ∃ b', b = b' + 1 ∧
    Reaches t b' { x.manner with follow := x.manner.follow || x.rest = [] }
      (x.slashed || (x.rest = [] && x.target.endsInSlash))
      (if x.target.isAbsolute then [] else x.dir) (x.target.steps ++ x.rest) p

theorem reaches_of_scan_enter {detour : Detour → Except IoError Place}
    (hdetour : t.DescribesDetours b detour)
    (ih : t.scan detour m sl (dir ++ [n]) rest = .ok p → Reaches t b m sl (dir ++ [n]) rest p)
    (h : t.scan detour m sl dir (.enter n :: rest) = .ok p) :
    Reaches t b m sl dir (.enter n :: rest) p := by
  unfold scan at h
  split at h
  · cases h
  next hrun =>
  split at h
  · cases h
  next hslash =>
  split at h
  · cases h
  next hlen =>
  have hin : t.Admits m sl dir n rest := ⟨by simpa using hrun, hslash, Nat.le_of_not_lt hlen⟩
  split at h
  next hn =>
    split at h
    next hrest =>
      subst hrest
      obtain rfl := Except.ok.inj h
      exact .free hin hn
    next => cases h
  next d hn => exact .into hin hn (ih h)
  next k hn =>
    split at h
    next hend =>
      obtain ⟨rfl, hfollow, hplain⟩ := hend
      obtain rfl := Except.ok.inj h
      exact .link hin hn (by simpa using hfollow) (by simpa using hplain)
    next hend =>
      obtain ⟨b', rfl, next⟩ := hdetour _ _ h
      exact .follow hin hn hend next
  next a hdir hlink hn =>
    split at h
    next hend =>
      obtain ⟨rfl, hplain⟩ := hend
      obtain rfl := Except.ok.inj h
      refine .last hin hn ?_ (by simpa using hplain)
      cases a with
      | directory d => exact absurd rfl (hdir d)
      | link k => exact absurd rfl (hlink k)
      | _ => rfl
    next => cases h

/-- A scan is described by what it meets if its detours are. -/
theorem reaches_of_scan {detour : Detour → Except IoError Place}
    (hdetour : t.DescribesDetours b detour) (h : t.scan detour m sl dir ss = .ok p) :
    Reaches t b m sl dir ss p := by
  induction ss generalizing dir with
  | nil =>
    unfold scan at h
    split at h
    next n hn =>
      obtain rfl := Except.ok.inj h
      exact .done hn
    next => cases h
  | cons s rest ih =>
    cases s with
    | stay =>
      unfold scan at h
      split at h
      · cases h
      next hrun => exact .stay (by simpa using hrun) (ih h)
    | up =>
      unfold scan at h
      split at h
      · cases h
      next hrun => exact .up (by simpa using hrun) (ih h)
    | enter n => exact reaches_of_scan_enter hdetour ih h

/-- Every walk is described by what it meets. -/
theorem reaches_iff : t.Reaches b m sl dir ss p ↔ t.walk b m sl dir ss = .ok p := by
  refine ⟨Reaches.walk_eq, fun h ↦ ?_⟩
  induction b generalizing m sl dir ss p with
  | zero =>
    unfold walk at h
    exact reaches_of_scan (fun _ _ h ↦ by cases h) h
  | succ b ih =>
    unfold walk at h
    exact reaches_of_scan (fun _ _ h ↦ ⟨b, rfl, ih h⟩) h

/-- A walk to the place of a new entry is also one to what may be there already. -/
theorem Reaches.of_create (h : t.Reaches b m sl dir ss p) :
    t.Reaches b { m with create := false } sl dir ss p := by
  have relax {t : Tree} {m : Manner} {sl : Bool} {dir : Location} {n : Name} {rest : List Step}
      (hin : t.Admits m sl dir n rest) : t.Admits { m with create := false } sl dir n rest :=
    ⟨hin.1, by simp, hin.2.2⟩
  induction h with
  | done hn => exact .done hn
  | stay hrun _ ih => exact .stay hrun ih
  | up hrun _ ih => exact .up hrun ih
  | into hin hn _ ih => exact .into (relax hin) hn ih
  | follow hin hn hend _ ih => exact .follow (relax hin) hn hend ih
  | link hin hn hfollow hslash => exact .link (relax hin) hn hfollow hslash
  | last hin hn hlead hslash => exact .last (relax hin) hn hlead hslash
  | free hin hn => exact .free (relax hin) hn

/-- A walk to a directory that does not follow a link at its end need not. -/
theorem Reaches.of_directory {l : Location}
    (h : t.Reaches b m sl dir ss (.entry l (.directory d))) :
    t.Reaches b { m with follow := true } sl dir ss (.entry l (.directory d)) := by
  generalize hp : Place.entry l (.directory d) = p at h
  induction h with
  | done hn => exact .done hn
  | stay hrun _ ih => exact .stay hrun (ih hp)
  | up hrun _ ih => exact .up hrun (ih hp)
  | into hin hn _ ih => exact .into hin hn (ih hp)
  | follow hin hn _ _ ih => exact .follow hin hn (by simp) (ih hp)
  | link _ _ _ _ => cases hp
  | last _ _ hlead _ =>
    obtain ⟨-, rfl⟩ := Place.entry.inj hp
    cases hlead
  | free _ _ => cases hp

/-! ## Where it ends -/

/-- Whether a place is what stands at its location. -/
def Shows (t : Tree) : Place → Prop
  | .entry l n => t.node? l = some n
  | .vacant l => t.node? l = none

/-- A walk ends at what stands there. -/
theorem Reaches.shows (h : t.Reaches b m sl dir ss p) : t.Shows p := by
  induction h with
  | done hn => exact hn
  | stay _ _ ih => exact ih
  | up _ _ ih => exact ih
  | into _ _ _ ih => exact ih
  | follow _ _ _ _ ih => exact ih
  | link _ hn _ _ => exact hn
  | last _ hn _ _ => exact hn
  | free _ hn => exact hn

theorem Sound.directoryId?_dropLast (ht : t.Sound) (h : (t.directoryId? dir).isSome) :
    (t.directoryId? dir.dropLast).isSome := by
  by_cases hdir : dir = []
  · rwa [hdir] at h ⊢
  · obtain ⟨d, hd⟩ := isSome_directoryId?.mp h
    exact ht.parent hdir (by simp [hd])

theorem isSome_directoryId?_root (t : Tree) : (t.directoryId? []).isSome := by
  simp [directoryId?_root]

/-- A walk stays among directories: a free name at its end lies in one. -/
theorem Reaches.parent (ht : t.Sound) (hdir : (t.directoryId? dir).isSome)
    (h : t.Reaches b m sl dir ss p) {l : Location} (hp : p = .vacant l) :
    (t.directoryId? l.dropLast).isSome := by
  induction h with
  | done _ => cases hp
  | stay _ _ ih => exact ih hdir hp
  | up _ _ ih => exact ih (ht.directoryId?_dropLast hdir) hp
  | into _ hn _ ih => exact ih (isSome_directoryId?.mpr ⟨_, hn⟩) hp
  | follow _ _ _ _ ih =>
    refine ih ?_ hp
    split
    · exact isSome_directoryId?_root t
    · exact hdir
  | link _ _ _ _ => cases hp
  | last _ _ _ _ => cases hp
  | free _ _ =>
    obtain rfl := Place.vacant.inj hp
    rwa [List.dropLast_concat]

/-- A walk to what leads nowhere is also one to the place of a new entry. -/
theorem Reaches.to_create (h : t.Reaches b m sl dir ss p) {l : Location} {n : Node}
    (hp : p = .entry l n) (hn : n.leads = false) (ht : t.Sound)
    (hdir : (t.directoryId? dir).isSome) :
    sl = false ∧ t.Reaches b { m with create := true } sl dir ss p := by
  have strengthen {t : Tree} {m : Manner} {sl : Bool} {dir : Location} {n : Name} {rest : List Step}
      (hin : t.Admits m sl dir n rest) (hslash : sl = false) :
      t.Admits { m with create := true } sl dir n rest :=
    ⟨hin.1, by simp [hslash], hin.2.2⟩
  induction h with
  | done hdone =>
    obtain ⟨d, hd⟩ := isSome_directoryId?.mp hdir
    obtain ⟨-, rfl⟩ := Place.entry.inj hp
    obtain rfl := Option.some.inj (hd.symm.trans hdone)
    cases hn
  | stay hrun _ ih =>
    obtain ⟨hslash, next⟩ := ih hp hdir
    exact ⟨hslash, .stay hrun next⟩
  | up hrun _ ih =>
    obtain ⟨hslash, next⟩ := ih hp (ht.directoryId?_dropLast hdir)
    exact ⟨hslash, .up hrun next⟩
  | into hin hnode _ ih =>
    obtain ⟨hslash, next⟩ := ih hp (isSome_directoryId?.mpr ⟨_, hnode⟩)
    exact ⟨hslash, .into (strengthen hin hslash) hnode next⟩
  | follow hin hnode hend _ ih =>
    obtain ⟨hslash, next⟩ := ih hp (by
      split
      · exact isSome_directoryId?_root t
      · exact hdir)
    obtain ⟨hslash, -⟩ := Bool.or_eq_false_iff.mp hslash
    exact ⟨hslash, .follow (strengthen hin hslash) hnode hend next⟩
  | link hin hnode hfollow hslash =>
    exact ⟨hslash, .link (strengthen hin hslash) hnode hfollow hslash⟩
  | last hin hnode hlead hslash => exact ⟨hslash, .last (strengthen hin hslash) hnode hlead hslash⟩
  | free _ _ => cases hp

/-! ## Walks in changed trees -/

/-- The change from one tree to another leaves every directory and every link as it is. -/
def KeepsWays (t t' : Tree) : Prop := ∀ l, t.leads l = true → t'.shape l = t.shape l

theorem leads_of_directoryId? (h : (t.directoryId? dir).isSome) : t.leads dir = true := by
  obtain ⟨d, hd⟩ := isSome_directoryId?.mp h
  simp [leads, hd, Node.leads]

/-- A link with other times is one to the same target. -/
theorem exists_link_of_shape_eq {l : Location} {k : Link} (h : t'.shape l = t.shape l)
    (hk : t.node? l = some (.link k)) :
    ∃ k', t'.node? l = some (.link k') ∧ k'.target = k.target := by
  rw [shape, shape, hk, Option.map_some, Option.map_eq_some_iff] at h
  obtain ⟨n, hn, timeless⟩ := h
  cases n with
  | link k' =>
    obtain ⟨target, _⟩ := Link.mk.inj (Node.link.inj timeless)
    exact ⟨k', hn, target⟩
  | _ => cases timeless

/-- What leads nowhere is no directory. -/
theorem directoryId?_of_not_leads (h : t.leads dir = false) : t.directoryId? dir = none := by
  rw [← Option.not_isSome_iff_eq_none]
  exact fun hdir ↦ by cases h.symm.trans (leads_of_directoryId? hdir)

/-- No directory comes where none was. -/
theorem WritesOnly.directoryId?_eq_none {l : Location} (h : WritesOnly t t' l)
    (hl : t.directoryId? l = none) : t'.directoryId? l = none := by
  rcases h.here with same | ⟨_, lead, _⟩
  · rw [directoryId?_of_shape_eq same, hl]
  · rw [← Option.not_isSome_iff_eq_none]
    intro hdir
    simp [leads_of_directoryId? hdir] at lead

theorem WritesOnly.keepsWays {l : Location} (h : WritesOnly t t' l) : t.KeepsWays t' :=
  fun _ hk ↦ h.shape_of_leads hk

theorem allows_of_shape_eq (h : t'.shape e = t.shape dir) (what : Access) :
    t'.allows e what = t.allows dir what := by
  have all_shape (t : Tree) (l : Location) :
      t.allows l what = (t.shape l).all (·.allows what) := by
    unfold allows shape
    cases t.node? l <;> simp
  rw [all_shape, all_shape, h]

theorem Admits.of_shape_eq (h : t.Admits m sl dir n rest) (heq : t'.shape dir = t.shape dir) :
    t'.Admits m sl dir n rest := ⟨(allows_of_shape_eq heq .run).trans h.1, h.2⟩

namespace KeepsWays

theorem directory (h : t.KeepsWays t') {l : Location} {d : Directory}
    (hd : t.node? l = some (.directory d)) : ∃ d', t'.node? l = some (.directory d') := by
  have same : t'.shape l = t.shape l := h l (by simp [leads, hd, Node.leads])
  have file := directoryId?_of_shape_eq same
  rw [directoryId?_eq_some.mpr ⟨d, hd, rfl⟩] at file
  obtain ⟨d', hd', _⟩ := directoryId?_eq_some.mp file
  exact ⟨d', hd'⟩

theorem link (h : t.KeepsWays t') {l : Location} {k : Link} (hk : t.node? l = some (.link k)) :
    ∃ k', t'.node? l = some (.link k') ∧ k'.target = k.target :=
  exists_link_of_shape_eq (h l (by simp [leads, hk, Node.leads])) hk

/-- The current directory of a process is where it was. -/
theorem directory?_eq (h : t.KeepsWays t') (ht : t.Sound) (ht' : t'.Sound) {id : Nat} {l : Location}
    (hl : t.directory? id = some l) : t'.directory? id = some l := by
  have hid : t.directoryId? l = some id := ht.directory?_eq_some_iff.mp hl
  have same := h l (leads_of_directoryId? (by simp [hid]))
  exact ht'.directory?_eq_some_iff.mpr ((directoryId?_of_shape_eq same).trans hid)

end KeepsWays

/-- A walk ends where it did in a tree with the same directories and links, if what stands there
is still something of its sort. -/
theorem Reaches.walk_of_keepsWays (ht : t.Sound) (hways : t.KeepsWays t')
    (hdir : (t.directoryId? dir).isSome) (h : t.Reaches b m sl dir ss p)
    (hentry : ∀ l n, p = .entry l n → n.leads = false →
      ∃ n', t'.node? l = some n' ∧ n'.leads = false)
    (hvacant : ∀ l, p = .vacant l → (t'.directoryId? l).isSome) :
    ∃ n', t'.node? p.location = some n' ∧
      t'.walk b m sl dir ss = .ok (.entry p.location n') := by
  induction h with
  | @done b m sl dir n hn =>
    obtain ⟨d, hd⟩ := isSome_directoryId?.mp hdir
    obtain ⟨d', hd'⟩ := hways.directory hd
    refine ⟨_, hd', ?_⟩
    rw [walk_nil, hd']
    rfl
  | stay hrun _ ih =>
    rw [walk_stay ((allows_of_shape_eq (hways _ (leads_of_directoryId? hdir)) .run).trans hrun)]
    exact ih hdir hentry hvacant
  | up hrun _ ih =>
    rw [walk_up ((allows_of_shape_eq (hways _ (leads_of_directoryId? hdir)) .run).trans hrun)]
    exact ih (ht.directoryId?_dropLast hdir) hentry hvacant
  | into hin hn _ ih =>
    obtain ⟨d', hd'⟩ := hways.directory hn
    rw [walk_into (hin.of_shape_eq (hways _ (leads_of_directoryId? hdir))) hd']
    exact ih (isSome_directoryId?.mpr ⟨_, hn⟩) hentry hvacant
  | follow hin hn hend _ ih =>
    obtain ⟨k', hk', target⟩ := hways.link hn
    rw [walk_follow (hin.of_shape_eq (hways _ (leads_of_directoryId? hdir))) hk' hend, target]
    refine ih ?_ hentry hvacant
    split
    · exact isSome_directoryId?_root t
    · exact hdir
  | link hin hn hfollow hslash =>
    obtain ⟨k', hk', _⟩ := hways.link hn
    exact ⟨_, hk', walk_link (hin.of_shape_eq (hways _ (leads_of_directoryId? hdir))) hk' hfollow
      hslash⟩
  | last hin hn hlead hslash =>
    obtain ⟨n', hn', hlead'⟩ := hentry _ _ rfl hlead
    exact ⟨n', hn', walk_last (hin.of_shape_eq (hways _ (leads_of_directoryId? hdir))) hn' hlead'
      hslash⟩
  | free hin hn =>
    obtain ⟨d, hd⟩ := isSome_directoryId?.mp (hvacant _ rfl)
    refine ⟨_, hd, ?_⟩
    rw [walk_into (hin.of_shape_eq (hways _ (leads_of_directoryId? hdir))) hd, walk_nil, hd]
    rfl

/-- What is left of a walk behind a directory is a walk from there. -/
theorem Reaches.walk_append (h : t.Reaches b m sl dir ss (.entry e (.directory d)))
    (hrest : rest ≠ []) :
    ∃ b', ∀ m sl, t.walk b m sl dir (ss ++ rest) = t.walk b' m sl e rest := by
  generalize hp : Place.entry e (.directory d) = p at h
  induction h with
  | @done b m sl dir n hn =>
    obtain ⟨rfl, rfl⟩ := Place.entry.inj hp
    exact ⟨b, fun _ _ ↦ rfl⟩
  | stay hrun _ ih =>
    obtain ⟨b', ih⟩ := ih hp
    exact ⟨b', fun m sl ↦ by rw [List.cons_append, walk_stay hrun, ih]⟩
  | up hrun _ ih =>
    obtain ⟨b', ih⟩ := ih hp
    exact ⟨b', fun m sl ↦ by rw [List.cons_append, walk_up hrun, ih]⟩
  | into hin hn _ ih =>
    obtain ⟨b', ih⟩ := ih hp
    refine ⟨b', fun m sl ↦ ?_⟩
    rw [List.cons_append, walk_into ⟨hin.1, by simp [hrest], hin.2.2⟩ hn, ih]
  | @follow b m sl dir n k rest' p hin hn hend _ ih =>
    obtain ⟨b', ih⟩ := ih hp
    refine ⟨b', fun m sl ↦ ?_⟩
    have more : rest' ++ rest ≠ [] := by simp [hrest]
    rw [List.cons_append, walk_follow ⟨hin.1, by simp [hrest], hin.2.2⟩ hn (by simp [hrest]), ← ih,
      List.append_assoc]
    simp [more]
  | link _ _ _ _ => cases hp
  | last _ _ hlead _ =>
    obtain ⟨rfl, rfl⟩ := Place.entry.inj hp
    cases hlead
  | free _ _ => cases hp

/-- A walk that goes on behind some steps has come to a directory there, or to a link. -/
theorem Reaches.of_append (ht : t.Sound) (hdir : (t.directoryId? dir).isSome)
    (h : t.Reaches b m sl dir (ss ++ rest) p) (hrest : rest ≠ []) :
    ∃ e a, t.Reaches b ⟨false, false⟩ false dir ss (.entry e a) ∧ a.leads = true := by
  generalize hss : ss ++ rest = all at h
  have here {b : Nat} {dir : Location} (hdir : (t.directoryId? dir).isSome) :
      ∃ e a, t.Reaches b ⟨false, false⟩ false dir [] (.entry e a) ∧ a.leads = true := by
    obtain ⟨d, hd⟩ := isSome_directoryId?.mp hdir
    exact ⟨dir, .directory d, .done hd, rfl⟩
  have single {ss : List Step} {s : Step} (hs : ss ++ rest = [s]) : ss = [] := by
    cases ss with
    | nil => rfl
    | cons s' ss => exact absurd (List.append_eq_nil_iff.mp (List.cons.inj hs).2).2 hrest
  induction h generalizing ss with
  | done hn => exact absurd (List.append_eq_nil_iff.mp hss).2 hrest
  | stay hrun _ ih =>
    rcases ss with _ | ⟨s, ss⟩
    · exact here hdir
    · obtain ⟨rfl, rfl⟩ := List.cons.inj hss
      obtain ⟨e, a, reaches, lead⟩ := ih hdir rfl
      exact ⟨e, a, .stay hrun reaches, lead⟩
  | up hrun _ ih =>
    rcases ss with _ | ⟨s, ss⟩
    · exact here hdir
    · obtain ⟨rfl, rfl⟩ := List.cons.inj hss
      obtain ⟨e, a, reaches, lead⟩ := ih (ht.directoryId?_dropLast hdir) rfl
      exact ⟨e, a, .up hrun reaches, lead⟩
  | into hin hn _ ih =>
    rcases ss with _ | ⟨s, ss⟩
    · exact here hdir
    · obtain ⟨rfl, rfl⟩ := List.cons.inj hss
      obtain ⟨e, a, reaches, lead⟩ := ih (isSome_directoryId?.mpr ⟨_, hn⟩) rfl
      exact ⟨e, a, .into ⟨hin.1, by simp, hin.2.2⟩ hn reaches, lead⟩
  | @follow b m sl dir n k rest' p hin hn hend _ ih =>
    rcases ss with _ | ⟨s, ss⟩
    · exact here hdir
    · obtain ⟨rfl, rfl⟩ := List.cons.inj hss
      have admits (rest : List Step) : t.Admits ⟨false, false⟩ false dir n rest :=
        ⟨hin.1, by simp, hin.2.2⟩
      by_cases hnil : ss = []
      · subst hnil
        exact ⟨_, _, .link (admits []) hn rfl rfl, rfl⟩
      · have start : (t.directoryId? (if k.target.isAbsolute then [] else dir)).isSome := by
          split
          · exact isSome_directoryId?_root t
          · exact hdir
        obtain ⟨e, a, reaches, lead⟩ := ih start (List.append_assoc k.target.steps ss _)
        exact ⟨e, a, .follow (admits ss) hn (by simp [hnil]) (by simpa [hnil] using reaches), lead⟩
  | link _ _ _ _ => exact (single hss) ▸ here hdir
  | last _ _ _ _ => exact (single hss) ▸ here hdir
  | free _ _ => exact (single hss) ▸ here hdir

/-- A walk that ends with a name and does not follow a link there ends at that name. -/
theorem Reaches.getLast?_location (h : t.Reaches b m sl dir (ss ++ [.enter n]) p)
    (hfollow : m.follow = false) (hslash : sl = false) : p.location.getLast? = some n := by
  generalize hss : ss ++ [Step.enter n] = all at h
  -- the last name is the only step, or it comes behind the first one
  have only {ss : List Step} {n' : Name} (hss : ss ++ [Step.enter n] = [.enter n']) : n' = n := by
    rcases ss with _ | ⟨s, ss⟩
    · exact (Step.enter.inj (List.cons.inj hss).1).symm
    · simp at hss
  induction h generalizing ss with
  | done _ => simp at hss
  | stay _ _ ih =>
    rcases ss with _ | ⟨s, ss⟩
    · simp at hss
    · exact ih hfollow hslash (List.cons.inj hss).2
  | up _ _ ih =>
    rcases ss with _ | ⟨s, ss⟩
    · simp at hss
    · exact ih hfollow hslash (List.cons.inj hss).2
  | into _ _ next ih =>
    rcases ss with _ | ⟨s, ss⟩
    · obtain ⟨hn, rfl⟩ := List.cons.inj hss
      obtain rfl := Step.enter.inj hn
      cases next
      simp [Place.location]
    · exact ih hfollow hslash (List.cons.inj hss).2
  | @follow b m sl dir n' k rest p _ _ hend _ ih =>
    rcases ss with _ | ⟨s, ss⟩
    · obtain rfl := (List.cons.inj hss).2
      simp [hfollow, hslash] at hend
    · obtain rfl := (List.cons.inj hss).2
      exact ih (by simp [hfollow]) (by simp [hslash]) (List.append_assoc ..)
  | link _ _ _ _ => simp [Place.location, only hss]
  | last _ _ _ _ => simp [Place.location, only hss]
  | free _ _ => simp [Place.location, only hss]

/-- Nor does it end at the root. -/
theorem Reaches.location_ne_nil (h : t.Reaches b m sl dir (ss ++ [.enter n]) p)
    (hfollow : m.follow = false) (hslash : sl = false) : p.location ≠ [] := by
  intro hnil
  have last := h.getLast?_location hfollow hslash
  rw [hnil] at last
  cases last

end Tree

end ContractBuild
