import ContractBuild.Proofs.Build.Cleanup
import ContractBuild.Proofs.Build.Following

/-!
# Calls of a store

A store of intermediate files can be called in any order, and other programs change the files in
between.  Whatever is called and whether it fails or not, the files on record have different paths:
each is the directory with a name that shows a kind and a number, and no number of a kind is used
again.
-/

namespace ContractBuild

/-- A call of a store, or what becomes of the files between two calls. -/
inductive StoreCall
  /-- A file of a kind is reserved. -/
  | reserve (kind : ArtifactKind)
  /-- A directory for the final link is opened. -/
  | openLinkDir
  /-- The open directory with this number is given up. -/
  | closeLinkDir (n : Nat)
  /-- What is temporary is removed, as it also is when the store is given up. -/
  | cleanup
  /-- Somebody else changes the files. -/
  | external (t : Tree)

/-- A store, its host and the directories that it has opened for final links. -/
structure StoreState where
  /-- The store. -/
  store : ArtifactStore
  /-- Its host. -/
  host : Host
  /-- The open directories. -/
  links : List LinkDir

namespace StoreCall

/-- The state after a call, whatever that gives. -/
def perform (x : StoreState) : StoreCall → StoreState
  | reserve kind => ⟨(x.store.reserve x.host kind).2.1, (x.store.reserve x.host kind).2.2, x.links⟩
  | openLinkDir =>
    match x.store.openLinkDir x.host with
    | .ok (dir, h) => ⟨x.store, h, x.links ++ [dir]⟩
    | .error _ => x
  | closeLinkDir n =>
    match x.links[n]? with
    | some dir => ⟨x.store, dir.close x.host, x.links.eraseIdx n⟩
    | none => x
  | cleanup => ⟨(x.store.cleanup x.host).1, (x.store.cleanup x.host).2, x.links⟩
  | external t => { x with host := x.host.withTree t }

/-- Whether a call removes what is temporary. -/
def isCleanup : StoreCall → Bool
  | cleanup => true
  | _ => false

end StoreCall

namespace StoreState

/-- The state after several calls. -/
def after (x : StoreState) (calls : List StoreCall) : StoreState := calls.foldl StoreCall.perform x

theorem after_cons (x : StoreState) (c : StoreCall) (calls : List StoreCall) :
    x.after (c :: calls) = (c.perform x).after calls := rfl

end StoreState

/-! ## The files on record -/

namespace ArtifactStore

variable {s : ArtifactStore} {h : Host} {dir : Path} {kind : ArtifactKind}

/-- Whether the files on record have, in a directory, the names of different numbers of kinds, which
all have been used up. -/
structure Numbered (s : ArtifactStore) (dir : Path) : Prop where
  /-- New files go to the directory, or nowhere. -/
  dir?_eq : s.dir? = some dir ∨ s.dir? = none
  /-- The files on record are those of some numbers. -/
  created_eq : ∃ slots : List (ArtifactKind × Nat), slots.Nodup ∧
    (∀ c ∈ slots, c.2 < s.asked.count c.1) ∧
    s.created = slots.map fun c ↦ ⟨Plan.file dir c.1 c.2, c.1, s.isPersistent⟩

theorem isPersistent_congr {s' : ArtifactStore} (hb : s'.backend = s.backend) :
    s'.isPersistent = s.isPersistent := by rw [isPersistent, isPersistent, hb]

theorem isPersistent_of_ephemeral {dir : Option Path} (hb : s.backend = .ephemeral dir) :
    s.isPersistent = false := by rw [isPersistent, hb]

/-- One more question uses up a number and changes nothing on record. -/
theorem Numbered.ask (hs : s.Numbered dir) (kind : ArtifactKind) : (s.ask kind).Numbered dir := by
  obtain ⟨hdir, slots, nodup, used, hcreated⟩ := hs
  refine ⟨hdir, slots, nodup, fun c hc ↦ ?_, hcreated⟩
  exact Nat.lt_of_lt_of_le (used c hc) (List.Sublist.count_le _ (List.sublist_append_left _ _))

/-- A file that is reserved gets a number that has not been used. -/
theorem Numbered.reserve (hs : s.Numbered dir) (h : Host) (kind : ArtifactKind) :
    (s.reserve h kind).2.1.Numbered dir := by
  cases hr : (s.reserve h kind).1 with
  | error e =>
    rw [reserve_of_error hr]
    exact hs.ask kind
  | ok p =>
    have hnext := (write_of_reserve hr).1
    obtain ⟨hdir, slots, nodup, used, hcreated⟩ := hs
    have here : s.dir? = some dir := hdir.resolve_right fun hnone ↦ by
      simp [nextPath?, hnone] at hnext
    obtain rfl : p = Plan.file dir kind (s.asked.count kind) := by
      rw [nextPath?, here] at hnext
      exact (Option.some.inj hnext).symm
    rw [(reserve_of_ok hr hnext).2]
    refine ⟨.inl here, slots ++ [(kind, s.asked.count kind)], ?_, fun c hc ↦ ?_, ?_⟩
    · refine List.nodup_append.mpr ⟨nodup, List.nodup_singleton _, fun c hc c' hc' ↦ ?_⟩
      rintro rfl
      obtain rfl := List.mem_singleton.mp hc'
      exact Nat.lt_irrefl _ (used _ hc)
    · change c.2 < (s.asked ++ [kind]).count c.1
      rw [List.count_append]
      rcases List.mem_append.mp hc with hc | hc
      · exact Nat.lt_of_lt_of_le (used c hc) (Nat.le_add_right _ _)
      · obtain rfl := List.mem_singleton.mp hc
        simp
    · change s.created ++ _ = _
      rw [hcreated, List.map_append]
      rfl

/-- Removing what is temporary leaves the record. -/
theorem Numbered.cleanup (hs : s.Numbered dir) (h : Host) : (s.cleanup h).1.Numbered dir := by
  obtain ⟨hdir, slots, nodup, used, hcreated⟩ := hs
  obtain ⟨backend, created, asked⟩ := s
  cases backend with
  | persistent d => exact ⟨hdir, slots, nodup, used, hcreated⟩
  | ephemeral d => exact ⟨.inr rfl, slots, nodup, used, hcreated⟩

/-- So it is with nothing on record. -/
theorem numbered_of_nil (hs : s.created = []) (hdir : s.dir? = some dir ∨ s.dir? = none) :
    s.Numbered dir :=
  ⟨hdir, [], .nil, List.forall_mem_nil _, hs⟩

theorem exists_numbered (hs : s.created = []) : ∃ dir, s.Numbered dir := by
  cases hdir : s.dir? with
  | none => exact ⟨.here, numbered_of_nil hs (.inr hdir)⟩
  | some dir => exact ⟨dir, numbered_of_nil hs (.inl hdir)⟩

/-- Files on record have different paths. -/
theorem Numbered.nodup (hs : s.Numbered dir) : (s.created.map (·.path)).Nodup := by
  obtain ⟨-, slots, nodup, -, hcreated⟩ := hs
  rw [hcreated, List.map_map]
  refine List.Nodup.map (fun c c' hcc ↦ ?_) nodup
  obtain ⟨hkind, hn⟩ := ArtifactKind.join_fileName_inj hcc
  exact Prod.ext hkind hn

/-- Whether the files on record have different paths, and one that is reserved gets another. -/
structure Distinct (s : ArtifactStore) : Prop where
  /-- The paths are different. -/
  nodup : (s.created.map (·.path)).Nodup
  /-- A path that is on record is not given out again. -/
  fresh : ∀ (h : Host) (kind : ArtifactKind) p, (s.reserve h kind).1 = .ok p →
    p ∉ s.created.map (·.path)

theorem Numbered.distinct (hs : s.Numbered dir) : s.Distinct where
  nodup := hs.nodup
  fresh h kind p hp := by
    have after := (hs.reserve h kind).nodup
    rw [(reserve_of_ok hp (write_of_reserve hp).1).2, record, List.map_append] at after
    exact List.disjoint_singleton.mp (List.disjoint_of_nodup_append after)

/-- A file on record lies in the directory under the name of its kind and a number. -/
theorem Numbered.exists_of_mem (hs : s.Numbered dir) {a : Artifact} (ha : a ∈ s.created) :
    ∃ n, n < s.asked.count a.kind ∧ a = ⟨Plan.file dir a.kind n, a.kind, s.isPersistent⟩ := by
  obtain ⟨-, slots, -, used, hcreated⟩ := hs
  rw [hcreated] at ha
  obtain ⟨c, hc, rfl⟩ := List.mem_map.mp ha
  exact ⟨c.2, used c hc, rfl⟩

end ArtifactStore

/-- What is on record keeps its form in every call. -/
theorem StoreCall.numbered_perform {x : StoreState} {dir : Path} (hx : x.store.Numbered dir)
    (c : StoreCall) : (c.perform x).store.Numbered dir := by
  cases c with
  | reserve kind => exact hx.reserve x.host kind
  | openLinkDir =>
    rw [perform]
    split <;> exact hx
  | closeLinkDir n =>
    rw [perform]
    split <;> exact hx
  | cleanup => exact hx.cleanup x.host
  | external t => exact hx

theorem StoreState.numbered_after {x : StoreState} {dir : Path} (hx : x.store.Numbered dir)
    (calls : List StoreCall) : (x.after calls).store.Numbered dir := by
  induction calls generalizing x with
  | nil => exact hx
  | cons c calls ih => exact ih (c.numbered_perform hx)

end ContractBuild
