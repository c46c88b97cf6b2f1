import ContractBuild.Proofs.FileSystem.Ways

/-!
# What a tree stores

Times come and go, and so does what a process has written to what it holds open.  The rest of a node
is what is stored.  Two hosts that store the same are alike: a path leads to the same place on both,
and where it leads nowhere it fails with the same error.
-/

namespace ContractBuild

/-- Two results that look the same are the same error or two values that look the same. -/
theorem cases_of_map_eq {ε α β γ : Type} {f : α → γ} {g : β → γ} {x : Except ε α} {y : Except ε β}
    (h : x.map f = y.map g) :
    (∃ e, x = .error e ∧ y = .error e) ∨ ∃ a b, x = .ok a ∧ y = .ok b ∧ f a = g b := by
  rcases x with e | a <;> rcases y with e' | b
  · exact .inl ⟨e, rfl, congrArg _ (Except.error.inj h).symm⟩
  · cases h
  · cases h
  · exact .inr ⟨a, b, rfl, rfl, Except.ok.inj h⟩

/-! ## Nodes -/

namespace Node

/-- What is stored of a node: no times, and nothing of what was written to an open file. -/
def stored : Node → Node
  | .descriptor k _ => .descriptor k []
  | n => n.timeless

@[simp] theorem stored_timeless (n : Node) : n.timeless.stored = n.stored := by cases n <;> rfl

@[simp] theorem fileId?_stored (n : Node) : n.stored.fileId? = n.fileId? := by cases n <;> rfl

@[simp] theorem directoryId?_stored (n : Node) : n.stored.directoryId? = n.directoryId? := by
  cases n <;> rfl

@[simp] theorem allows_stored (n : Node) (what : Access) : n.stored.allows what = n.allows what := by
  cases n <;> rfl

@[simp] theorem leads_stored (n : Node) : n.stored.leads = n.leads := by cases n <;> rfl

/-- The bytes in a file. -/
def content? : Node → Option Bytes
  | .file f => some f.content
  | _ => none

@[simp] theorem content?_stored (n : Node) : n.stored.content? = n.content? := by cases n <;> rfl

end Node

/-! ## Trees -/

namespace Tree

variable {t t' : Tree} {l k : Location}

/-- What is stored at a location. -/
def stored (t : Tree) (l : Location) : Option Node := (t.node? l).map Node.stored

/-- The bytes in the file at a location. -/
def content? (t : Tree) (l : Location) : Option Bytes := (t.node? l).bind Node.content?

theorem stored_of_node? {n : Node} (h : t.node? l = some n) : t.stored l = some n.stored := by
  rw [stored, h, Option.map_some]

theorem stored_eq_none : t.stored l = none ↔ t.node? l = none := Option.map_eq_none_iff

theorem stored_of_shape_eq (h : t'.shape k = t.shape l) : t'.stored k = t.stored l := by
  have view (t : Tree) (l : Location) : t.stored l = (t.shape l).map Node.stored := by
    unfold stored shape
    cases t.node? l <;> simp
  rw [view, view, h]

/-- What is seen of what is stored is seen of what is there. -/
theorem bind_stored {α : Type} {f : Node → Option α} (hf : ∀ n : Node, f n.stored = f n) :
    (t.stored l).bind f = (t.node? l).bind f := by
  unfold stored
  cases t.node? l <;> simp [hf]

theorem fileId?_eq_bind_stored : t.fileId? l = (t.stored l).bind Node.fileId? :=
  (bind_stored Node.fileId?_stored).symm

theorem content?_eq_bind_stored : t.content? l = (t.stored l).bind Node.content? :=
  (bind_stored Node.content?_stored).symm

theorem directoryId?_eq_bind_stored : t.directoryId? l = (t.stored l).bind Node.directoryId? :=
  (bind_stored Node.directoryId?_stored).symm

theorem allows_eq_all_stored (what : Access) :
    t.allows l what = (t.stored l).all (·.allows what) := by
  unfold allows stored
  cases t.node? l <;> simp

theorem leads_eq_any_stored : t.leads l = (t.stored l).any Node.leads := by
  unfold leads stored
  cases t.node? l <;> simp

theorem leads_of_stored_eq (h : t'.stored k = t.stored l) : t'.leads k = t.leads l := by
  rw [leads_eq_any_stored, leads_eq_any_stored, h]

theorem fileId?_of_stored_eq (h : t'.stored k = t.stored l) : t'.fileId? k = t.fileId? l := by
  rw [fileId?_eq_bind_stored, fileId?_eq_bind_stored, h]

theorem content?_of_stored_eq (h : t'.stored k = t.stored l) : t'.content? k = t.content? l := by
  rw [content?_eq_bind_stored, content?_eq_bind_stored, h]

/-- What is stored of what leads on is its shape. -/
theorem shape_of_stored_eq (h : t'.stored k = t.stored l) (hl : t.leads l = true) :
    t'.shape k = t.shape l := by
  have view {t : Tree} {l : Location} (hl : t.leads l = true) : t.shape l = t.stored l := by
    rw [leads] at hl
    rw [shape, stored]
    cases hn : t.node? l with
    | none => rfl
    | some n =>
      rw [hn] at hl
      cases n <;> first | rfl | cases hl
  rw [view hl, view ((leads_of_stored_eq h).trans hl), h]

/-- Whether two trees store the same. -/
def Alike (t t' : Tree) : Prop := ∀ l, t'.stored l = t.stored l

namespace Alike

variable (h : t.Alike t')

include h

theorem allows_eq (l : Location) (what : Access) : t'.allows l what = t.allows l what := by
  rw [allows_eq_all_stored, allows_eq_all_stored, h]

theorem directoryId?_eq (l : Location) : t'.directoryId? l = t.directoryId? l := by
  rw [directoryId?_eq_bind_stored, directoryId?_eq_bind_stored, h]

theorem fileId?_eq (l : Location) : t'.fileId? l = t.fileId? l := fileId?_of_stored_eq (h l)

/-- What stands at a location stands there in both. -/
theorem exists_node? {n : Node} (hn : t.node? l = some n) :
    ∃ n', t'.node? l = some n' ∧ n'.stored = n.stored := by
  have same := h l
  rw [stored, stored, hn] at same
  exact Option.map_eq_some_iff.mp same

theorem node?_eq_none (hn : t.node? l = none) : t'.node? l = none := by
  rw [← stored_eq_none, h, stored_eq_none, hn]

/-- A scan goes the same way in both trees if its detours do. -/
theorem map_scan {detour detour' : Detour → Except IoError Place}
    (hdetour : ∀ x, (detour' x).map Place.location = (detour x).map Place.location) (m : Manner)
    (sl : Bool) (dir : Location) (ss : List Step) :
    (t'.scan detour' m sl dir ss).map Place.location =
      (t.scan detour m sl dir ss).map Place.location := by
  induction ss generalizing dir with
  | nil =>
    unfold scan
    cases hn : t.node? dir with
    | none => rw [h.node?_eq_none hn]
    | some n =>
      obtain ⟨n', hn', -⟩ := h.exists_node? hn
      rw [hn']
      rfl
  | cons s rest ih =>
    cases s with
    | stay =>
      simp only [scan, h.allows_eq]
      split
      · rfl
      · exact ih dir
    | up =>
      simp only [scan, h.allows_eq]
      split
      · rfl
      · exact ih _
    | enter n =>
      simp only [scan, h.allows_eq]
      split
      · rfl
      split
      · rfl
      split
      · rfl
      cases hn : t.node? (dir ++ [n]) with
      | none =>
        rw [h.node?_eq_none hn]
      | some a =>
        obtain ⟨a', ha', stored⟩ := h.exists_node? hn
        rw [ha']
        cases a <;> cases a' <;> simp only [Node.stored, Node.timeless, reduceCtorEq] at stored
        case directory => exact ih _
        case link k k' =>
          obtain ⟨target, -⟩ := Link.mk.inj (Node.link.inj stored)
          dsimp only
          split
          · rfl
          · rw [target]
            exact hdetour _
        all_goals
          dsimp only
          split
          · rfl
          · rfl

theorem map_walk (b : Nat) (m : Manner) (sl : Bool) (dir : Location) (ss : List Step) :
    (t'.walk b m sl dir ss).map Place.location = (t.walk b m sl dir ss).map Place.location := by
  induction b generalizing m sl dir ss with
  | zero => exact h.map_scan (fun _ ↦ rfl) m sl dir ss
  | succ b ih => exact h.map_scan (fun x ↦ ih _ _ _ _) m sl dir ss

theorem map_locate (dir : Option Location) (m : Manner) (p : Path) :
    (t'.locate dir m p).map Place.location = (t.locate dir m p).map Place.location := by
  unfold locate
  split
  · rfl
  split
  · rfl
  split
  · rfl
  split
  · exact h.map_walk ..
  · rfl

/-- A directory is found by its identity in both. -/
theorem directory?_eq (ht : t.Sound) (ht' : t'.Sound) (id : Nat) :
    t'.directory? id = t.directory? id := by
  refine Option.ext fun l ↦ ?_
  rw [ht'.directory?_eq_some_iff, h.directoryId?_eq, ← ht.directory?_eq_some_iff]

end Alike

end Tree

/-! ## Hosts -/

namespace Host

variable {h h' : Host} {l : Location} {p : Path} {n : Node} {place : Place}

/-- Whether a process sees the same on two hosts. -/
structure Alike (h h' : Host) : Prop where
  /-- The first tree is sound. -/
  sound : h.tree.Sound
  /-- So is the second. -/
  sound' : h'.tree.Sound
  /-- They store the same. -/
  tree : h.tree.Alike h'.tree
  /-- The process is in the same directory. -/
  cwd_eq : h'.cwd = h.cwd

namespace Alike

variable (a : h.Alike h')

include a

theorem here?_eq : h'.here? = h.here? := by
  rw [here?, here?, a.cwd_eq, a.tree.directory?_eq a.sound a.sound']

/-- A path leads to the same place on both, or fails with the same error. -/
theorem map_locate (m : Manner) (p : Path) :
    (h'.tree.locate h'.here? m p).map Place.location =
      (h.tree.locate h.here? m p).map Place.location := by
  rw [a.here?_eq]
  exact a.tree.map_locate _ m p

/-- The entry that a path leads to is the same on both. -/
theorem map_entry (p : Path) :
    (h'.entry p).map (fun e ↦ (e.1, e.2.stored)) = (h.entry p).map fun e ↦ (e.1, e.2.stored) := by
  unfold entry locate
  rcases cases_of_map_eq (a.map_locate ⟨true, false⟩ p) with
    ⟨e, hp', hp⟩ | ⟨place', place, hp', hp, here⟩
  · rw [hp, hp']
  rw [hp, hp']
  have shows := Tree.shows_of_locate hp
  have shows' := Tree.shows_of_locate hp'
  cases place with
  | vacant l =>
    have free := a.tree.node?_eq_none shows
    cases place' with
    | vacant l' => rfl
    | entry l' n' =>
      obtain rfl : l' = l := here
      cases free.symm.trans shows'
  | entry l n =>
    obtain ⟨b, hb, stored⟩ := a.tree.exists_node? shows
    cases place' with
    | vacant l' =>
      obtain rfl : l' = l := here
      cases hb.symm.trans shows'
    | entry l' n' =>
      obtain rfl : l' = l := here
      obtain rfl := Option.some.inj (hb.symm.trans shows')
      exact congrArg (fun m ↦ Except.ok (l', m)) stored

theorem pathExists_eq (p : Path) : h'.pathExists p = h.pathExists p := by
  unfold pathExists
  rcases cases_of_map_eq (a.map_entry p) with ⟨e, hp', hp⟩ | ⟨x', x, hp', hp, -⟩
  · rw [hp, hp']
  · rw [hp, hp']
    rfl

end Alike

/-- The bytes in the file that a path leads to. -/
def content? (h : Host) (p : Path) : Option Bytes :=
  match h.entry p with
  | .ok (_, n) => n.content?
  | .error _ => none

/-- A path to what leads nowhere is one under which it can be written. -/
theorem locateNew_of_entry (ht : h.tree.Sound) (he : h.entry p = .ok (l, n))
    (hn : n.leads = false) : h.locateNew p = .ok (.entry l n) := by
  obtain ⟨good, start, hstart, reaches⟩ := Tree.locate_eq_ok_iff.mp (locate_of_entry he)
  obtain ⟨-, creates⟩ := reaches.to_create rfl hn ht (isSome_directoryId?_of_start ht hstart)
  exact Tree.locate_eq_ok_iff.mpr ⟨good, start, hstart, creates⟩

/-- What is in the file that a path leads to is what is in the file that is written under it. -/
theorem content?_eq_some (ht : h.tree.Sound) {c : Bytes} : h.content? p = some c ↔
    ∃ place, h.locateNew p = .ok place ∧ h.tree.content? place.location = some c := by
  unfold content?
  constructor
  · intro hc
    rcases he : h.entry p with x | ⟨l, n⟩
    · rw [he] at hc
      cases hc
    · rw [he] at hc
      have hn : n.leads = false := by
        cases n with
        | file f => rfl
        | _ => cases hc
      refine ⟨_, locateNew_of_entry ht he hn, ?_⟩
      rw [Tree.content?, Place.location, node?_of_entry he]
      exact hc
  · rintro ⟨place, hplace, hc⟩
    have shows := Tree.shows_of_locate hplace
    rw [Tree.content?] at hc
    cases place with
    | vacant l =>
      rw [Place.location, shows] at hc
      cases hc
    | entry l n =>
      rw [Place.location, shows] at hc
      rw [entry_of_locate (Tree.locate_of_create hplace)]
      exact hc

/-- What is read is what is stored. -/
theorem read_congr {k : Location} {n' : Node} (he : h.entry p = .ok (l, n))
    (he' : h'.entry p = .ok (k, n')) (hn : n'.stored = n.stored) : h'.read p = h.read p := by
  have allows : n'.allows .read = n.allows .read := by
    rw [← Node.allows_stored, hn, Node.allows_stored]
  have here := node?_of_entry he
  have there := node?_of_entry he'
  simp only [read, he, he', bind, Except.bind, permitted, allows]
  by_cases hread : n.allows .read = true
  · simp only [hread, if_true]
    cases n <;> cases n' <;> simp only [Node.stored, Node.timeless, reduceCtorEq] at hn
    case file f f' =>
      have same : f'.content = f.content := congrArg (·.content) (Node.file.inj hn)
      simp only [contentAt, here, there, same]
    case directory => rfl
    case link => simp only [contentAt, here, there]
    case device d d' =>
      obtain rfl := Node.device.inj hn
      cases d' <;> simp only [contentAt, here, there]
    case descriptor => simp only [contentAt, here, there]
  · simp [hread]

namespace Alike

variable (a : h.Alike h')

include a

theorem read_eq (p : Path) : h'.read p = h.read p := by
  rcases cases_of_map_eq (a.map_entry p) with ⟨e, hp', hp⟩ | ⟨x', x, hp', hp, same⟩
  · rw [read, read, hp, hp']
    rfl
  · exact read_congr hp hp' (Prod.mk.inj same).2

theorem appendTarget_eq (p : Path) : h'.appendTarget p = h.appendTarget p := by
  unfold appendTarget
  rcases cases_of_map_eq (a.map_entry p) with ⟨e, hp', hp⟩ | ⟨⟨l', n'⟩, ⟨l, n⟩, hp', hp, same⟩
  · rw [hp, hp']
  obtain ⟨rfl, hn⟩ := Prod.mk.inj same
  have allows : n'.allows .write = n.allows .write := by
    rw [← Node.allows_stored, hn, Node.allows_stored]
  rw [hp, hp']
  simp only [bind, Except.bind]
  cases n <;> cases n' <;> simp only [Node.stored, Node.timeless, reduceCtorEq] at hn
  case device d d' =>
    obtain rfl := Node.device.inj hn
    cases d' <;> rfl
  all_goals simp only [allows]

end Alike

end Host

end ContractBuild
