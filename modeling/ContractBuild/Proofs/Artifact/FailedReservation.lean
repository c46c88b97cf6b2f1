import ContractBuild.Proofs.Artifact.Calls
import ContractBuild.Proofs.Build.AssemblyOnly

/-!
# Reservations that fail

A reservation that fails changes no file and puts nothing on record, but it has used up a number.
Whatever is called afterwards, the store goes on as if there had been one more file of that kind:
files of other kinds get the paths they would have got, and each file of that kind gets the path of
the next number.
-/

namespace ContractBuild

variable {x y : StoreState} {dir p : Path} {kind k : ArtifactKind} {h : Host} {n m : Nat}

/-! ## Reservations under a number -/

namespace ArtifactStore

/-- What the reservation of the file of a kind that `n` others came before gives, in a directory or
in a closed store. -/
def reservation (dir : Option Path) (h : Host) (kind : ArtifactKind) (n : Nat) :
    Except BuildError Path :=
  match dir with
  | none => .error (.io .creatingArtifact (.refused "artifact store already cleaned up"))
  | some dir =>
    match h.write (Plan.file dir kind n) [] with
    | .ok _ => .ok (Plan.file dir kind n)
    | .error cause => .error (.io (.creating (Plan.file dir kind n)) cause)

/-- The store comes into a reservation with its directory and its next number only. -/
theorem reserve_eq_reservation (s : ArtifactStore) (h : Host) (kind : ArtifactKind) :
    (s.reserve h kind).1 = reservation s.dir? h kind (s.asked.count kind) := by
  cases hdir : s.dir? with
  | none =>
    rw [reserve, nextPath?, hdir]
    rfl
  | some dir =>
    rw [reserve, nextPath?, hdir]
    change Prod.fst (match h.write (Plan.file dir kind (s.asked.count kind)) [] with
      | .ok h' => _
      | .error cause => _) = _
    rw [reservation]
    split <;> rfl

/-- The path that a result of a reservation names. -/
def named? : Except BuildError Path → Option Path
  | .ok p => some p
  | .error (.io (.creating p) _) => some p
  | .error _ => none

/-- Whether it succeeds or not, a reservation in a directory names the file of its number. -/
theorem named?_reservation (dir : Path) (h : Host) (kind : ArtifactKind) (n : Nat) :
    named? (reservation (some dir) h kind n) = some (Plan.file dir kind n) := by
  rw [reservation]
  split <;> rfl

/-- So reservations under different numbers give different results. -/
theorem reservation_inj (h : Host) (hmn : reservation (some dir) h kind m = reservation (some dir) h kind n) :
    m = n := by
  have same := congrArg named? hmn
  rw [named?_reservation, named?_reservation] at same
  exact (ArtifactKind.join_fileName_inj (Option.some.inj same)).2

/-- A failed reservation names the file and the cause. -/
theorem cause_of_reservation {e : BuildError} (he : reservation (some dir) h kind n = .error e) :
    ∃ cause, h.write (Plan.file dir kind n) [] = .error cause ∧
      e = .io (.creating (Plan.file dir kind n)) cause := by
  rw [reservation] at he
  split at he
  next => cases he
  next cause hwrite => exact ⟨cause, hwrite, (Except.error.inj he).symm⟩

end ArtifactStore

/-! ## Numbers that are used up -/

namespace ArtifactStore

theorem asked_reserve (s : ArtifactStore) (h : Host) (k : ArtifactKind) :
    (s.reserve h k).2.1.asked = s.asked ++ [k] := by
  rw [reserve]
  split
  next => rfl
  next => split <;> rfl

theorem asked_cleanup (s : ArtifactStore) (h : Host) : (s.cleanup h).1.asked = s.asked := by
  obtain ⟨backend, created, asked⟩ := s
  cases backend <;> rfl

/-- Where a store keeps its files after a cleanup depends on where it kept them before. -/
theorem backend_cleanup_congr {s s' : ArtifactStore} (hb : s'.backend = s.backend) (h h' : Host) :
    (s'.cleanup h').1.backend = (s.cleanup h).1.backend := by
  rw [cleanup, cleanup, hb]
  cases hs : s.backend with
  | persistent dir => exact hb
  | ephemeral dir => rfl

/-- What a cleanup does depends on the place of the files and on the record. -/
theorem cleanup_congr {s s' : ArtifactStore} (hb : s'.backend = s.backend)
    (hc : s'.created = s.created) (h : Host) :
    (s'.cleanup h).2 = (s.cleanup h).2 ∧ (s'.cleanup h).1.created = (s.cleanup h).1.created := by
  rw [cleanup, cleanup, hb, hc]
  cases s.backend with
  | persistent dir => exact ⟨rfl, hc⟩
  | ephemeral dir => exact ⟨rfl, rfl⟩

/-- What a reservation does depends besides on the next path. -/
theorem reserve_congr {s s' : ArtifactStore} (hb : s'.backend = s.backend)
    (hc : s'.created = s.created) (hnext : s'.nextPath? k = s.nextPath? k) (h : Host) :
    (s'.reserve h k).2.2 = (s.reserve h k).2.2 ∧
      (s'.reserve h k).2.1.created = (s.reserve h k).2.1.created := by
  rw [reserve, reserve, hnext]
  cases s.nextPath? k with
  | none => exact ⟨rfl, hc⟩
  | some p =>
    cases hwrite : h.write p [] with
    | error cause =>
      exact ⟨by simp only [hwrite], by simpa only [hwrite, created_ask] using hc⟩
    | ok h' =>
      refine ⟨by simp only [hwrite], ?_⟩
      simp only [hwrite]
      change s'.created ++ [⟨p, k, s'.isPersistent⟩] = s.created ++ [⟨p, k, s.isPersistent⟩]
      rw [hc, isPersistent_congr hb]

end ArtifactStore

/-! ## Stores with one number more used up -/

namespace StoreState

/-- Whether a store is like another one that has been asked once less for files of a kind. -/
structure Ahead (kind : ArtifactKind) (x y : StoreState) : Prop where
  /-- The files go to the same place. -/
  backend_eq : y.store.backend = x.store.backend
  /-- One number of that kind has been used up besides. -/
  count_eq : ∀ k, y.store.asked.count k = x.store.asked.count k + if k = kind then 1 else 0

namespace Ahead

theorem dir?_eq (hxy : Ahead kind x y) : y.store.dir? = x.store.dir? := by
  rw [ArtifactStore.dir?, ArtifactStore.dir?, hxy.backend_eq]

/-- What the two give, where the other programs have left the same files or not. -/
theorem reserve_eq (hxy : Ahead kind x y) (h : Host) (k : ArtifactKind) :
    (y.store.reserve h k).1 = ArtifactStore.reservation x.store.dir? h k
      (x.store.asked.count k + if k = kind then 1 else 0) := by
  rw [ArtifactStore.reserve_eq_reservation, hxy.dir?_eq, hxy.count_eq]

end Ahead

end StoreState

namespace StoreCall

/-- Whether two calls are the same, apart from what other programs leave. -/
inductive Alike : StoreCall → StoreCall → Prop
  | same (c : StoreCall) : Alike c c
  | external (t t' : Tree) : Alike (.external t) (.external t')

/-- Opening or giving up a link directory leaves the store. -/
theorem store_perform {c : StoreCall} (hr : ∀ k, c ≠ .reserve k) (hc : c ≠ .cleanup) :
    (c.perform x).store = x.store := by
  cases c with
  | reserve k => exact absurd rfl (hr k)
  | cleanup => exact absurd rfl hc
  | external t => rfl
  | openLinkDir =>
    rw [perform]
    split <;> rfl
  | closeLinkDir n =>
    rw [perform]
    split <;> rfl

/-- A call uses up the same numbers whether it succeeds or not. -/
theorem ahead_perform (hxy : x.Ahead kind y) {c c' : StoreCall} (hc : Alike c c') :
    (c.perform x).Ahead kind (c'.perform y) := by
  cases hc with
  | external t t' => exact ⟨hxy.backend_eq, hxy.count_eq⟩
  | same c =>
    by_cases hr : ∃ k, c = .reserve k
    · obtain ⟨k, rfl⟩ := hr
      refine ⟨?_, fun k' ↦ ?_⟩
      · rw [perform, perform, ArtifactStore.backend_reserve, ArtifactStore.backend_reserve]
        exact hxy.backend_eq
      · rw [perform, perform, ArtifactStore.asked_reserve, ArtifactStore.asked_reserve,
          List.count_append, List.count_append, hxy.count_eq]
        omega
    · by_cases hc : c = .cleanup
      · subst hc
        refine ⟨ArtifactStore.backend_cleanup_congr hxy.backend_eq _ _, fun k ↦ ?_⟩
        rw [perform, perform, ArtifactStore.asked_cleanup, ArtifactStore.asked_cleanup]
        exact hxy.count_eq k
      · have other (k : ArtifactKind) : c ≠ .reserve k := fun h ↦ hr ⟨k, h⟩
        refine ⟨?_, ?_⟩
        · rw [store_perform other hc, store_perform other hc]
          exact hxy.backend_eq
        · rw [store_perform other hc, store_perform other hc]
          exact hxy.count_eq

end StoreCall

namespace StoreState

theorem Ahead.after (hxy : x.Ahead kind y) {calls calls' : List StoreCall}
    (hcalls : List.Forall₂ StoreCall.Alike calls calls') :
    (x.after calls).Ahead kind (y.after calls') := by
  induction hcalls generalizing x y with
  | nil => exact hxy
  | cons hc _ ih => exact ih (StoreCall.ahead_perform hxy hc)

/-- Whether nothing but the number tells two stores apart. -/
structure Beside (kind : ArtifactKind) (x y : StoreState) : Prop extends Ahead kind x y where
  /-- They stand on the same files. -/
  host_eq : y.host = x.host
  /-- They have the same files on record. -/
  created_eq : y.store.created = x.store.created
  /-- They have opened the same directories. -/
  links_eq : y.links = x.links

/-- It stays so as long as no file of that kind is asked for. -/
theorem Beside.perform (hxy : x.Beside kind y) {c : StoreCall} (hc : c ≠ .reserve kind) :
    (c.perform x).Beside kind (c.perform y) := by
  have ahead := StoreCall.ahead_perform hxy.toAhead (.same c)
  suffices same : (c.perform y).host = (c.perform x).host ∧
      (c.perform y).store.created = (c.perform x).store.created ∧
      (c.perform y).links = (c.perform x).links from ⟨ahead, same.1, same.2.1, same.2.2⟩
  obtain ⟨⟨hb, hcount⟩, hh, hcreated, hlinks⟩ := hxy
  cases c with
  | reserve k =>
    have hk : k ≠ kind := fun h ↦ hc (h ▸ rfl)
    have next : y.store.nextPath? k = x.store.nextPath? k := by
      rw [ArtifactStore.nextPath?, ArtifactStore.nextPath?, ArtifactStore.dir?, hb, hcount,
        if_neg hk, Nat.add_zero, ← ArtifactStore.dir?]
    obtain ⟨host, created⟩ := ArtifactStore.reserve_congr hb hcreated next x.host
    rw [StoreCall.perform, StoreCall.perform, hh]
    exact ⟨host, created, hlinks⟩
  | openLinkDir =>
    have opened : y.store.openLinkDir y.host = x.store.openLinkDir x.host := by
      rw [ArtifactStore.openLinkDir, ArtifactStore.openLinkDir, hb, hh]
    rw [StoreCall.perform, StoreCall.perform, opened, hlinks]
    split
    next => exact ⟨rfl, hcreated, rfl⟩
    next => exact ⟨hh, hcreated, hlinks⟩
  | closeLinkDir n =>
    rw [StoreCall.perform, StoreCall.perform, hlinks, hh]
    split
    next => exact ⟨rfl, hcreated, rfl⟩
    next => exact ⟨hh, hcreated, hlinks⟩
  | cleanup =>
    obtain ⟨host, created⟩ := ArtifactStore.cleanup_congr hb hcreated x.host
    rw [StoreCall.perform, StoreCall.perform, hh]
    exact ⟨host, created, hlinks⟩
  | external t =>
    rw [StoreCall.perform, StoreCall.perform, hh]
    exact ⟨rfl, hcreated, hlinks⟩

theorem Beside.after (hxy : x.Beside kind y) {calls : List StoreCall}
    (hcalls : .reserve kind ∉ calls) : (x.after calls).Beside kind (y.after calls) := by
  induction calls generalizing x y with
  | nil => exact hxy
  | cons c calls ih =>
    have hc : c ≠ .reserve kind := fun h ↦ hcalls (h ▸ List.mem_cons_self)
    exact ih (hxy.perform hc) fun h ↦ hcalls (List.mem_cons_of_mem _ h)

/-- A reservation that fails leaves everything but the number. -/
theorem beside_reserve {e : BuildError} (he : (x.store.reserve x.host kind).1 = .error e) :
    x.Beside kind ((StoreCall.reserve kind).perform x) where
  backend_eq := ArtifactStore.backend_reserve x.store x.host kind
  count_eq k := by
    rw [StoreCall.perform, ArtifactStore.asked_reserve, List.count_append, List.count_singleton]
    simp only [beq_iff_eq, eq_comm (a := k)]
  host_eq := ArtifactStore.host_of_reserve_error he
  created_eq := (congrArg ArtifactStore.created (ArtifactStore.reserve_of_error he) :)
  links_eq := rfl

end StoreState

/-! ## What is called after a failure -/

/-- A reservation that fails in an open store names the file that could not be created, and leaves
the files, the record and the open directories.  Whatever is called afterwards, in either case with
other programs that do what they like, files of other kinds get the paths that they would have got.
A file of that kind gets the path of the number after its own, so that it has the same result only
if the store has been closed.  As long as none of that kind is asked for, nothing tells the two
stores apart. -/
theorem reserve_after_failure (hdir : x.store.dir? = some dir) {e : BuildError}
    (failed : (x.store.reserve x.host kind).1 = .error e) :
    let y := (StoreCall.reserve kind).perform x
    (∃ cause, x.host.write (Plan.file dir kind (x.store.asked.count kind)) [] = .error cause ∧
      e = .io (.creating (Plan.file dir kind (x.store.asked.count kind))) cause) ∧
    y.host = x.host ∧ y.store.created = x.store.created ∧ y.links = x.links ∧
    (∀ calls calls', List.Forall₂ StoreCall.Alike calls calls' → ∀ h k,
      let without := x.after calls
      let n := without.store.asked.count k
      (without.store.reserve h k).1 = ArtifactStore.reservation without.store.dir? h k n ∧
      ((y.after calls').store.reserve h k).1 = ArtifactStore.reservation without.store.dir? h k
        (if k = kind then n + 1 else n) ∧
      (((y.after calls').store.reserve h k).1 = (without.store.reserve h k).1 ↔
        k ≠ kind ∨ without.store.dir? = none)) ∧
    ∀ calls, .reserve kind ∉ calls → (y.after calls).host = (x.after calls).host ∧
      (y.after calls).store.created = (x.after calls).store.created ∧
      (y.after calls).links = (x.after calls).links := by
  intro y
  have beside : x.Beside kind y := StoreState.beside_reserve failed
  refine ⟨?_, beside.host_eq, beside.created_eq, beside.links_eq, fun calls calls' hcalls h k ↦ ?_,
    fun calls hcalls ↦ ?_⟩
  · rw [ArtifactStore.reserve_eq_reservation, hdir] at failed
    exact ArtifactStore.cause_of_reservation failed
  · intro without n
    have ahead : without.Ahead kind (y.after calls') := beside.toAhead.after hcalls
    have plain := ArtifactStore.reserve_eq_reservation without.store h k
    refine ⟨plain, ?_, ?_⟩
    · rw [ahead.reserve_eq]
      split <;> rfl
    · rw [ahead.reserve_eq, plain]
      constructor
      · intro same
        by_contra both
        obtain ⟨hk, there⟩ := not_or.mp both
        obtain ⟨d, hd⟩ := Option.ne_none_iff_exists'.mp there
        rw [hd, if_pos (not_not.mp hk)] at same
        exact absurd (ArtifactStore.reservation_inj h same) (Nat.succ_ne_self n)
      · rintro (hk | closed)
        · rw [if_neg hk, Nat.add_zero]
        · rw [closed]
          rfl
  · have still := beside.after hcalls
    exact ⟨still.host_eq, still.created_eq, still.links_eq⟩

/-! ## Samples -/

/-- A store that keeps its files where a directory has the name of the first of them. -/
def obstructed : StoreState where
  store := .persistent (.ofString "/w")
  host := { Build.handwritten with
    tree := Build.handwritten.tree.addDirectory
      [Bytes.ofString "w", Bytes.ofString "1-clang.ll"] programMode }
  links := []

/-- Once the directory has been removed, the file is reserved under the second number. -/
theorem reserve_after_failure_sample :
    let y := (StoreCall.reserve .frontend).perform obstructed
    let cleared := [StoreCall.external Build.handwritten.tree]
    (obstructed.store.reserve obstructed.host .frontend).1 =
        .error (.io (.creating (.ofString "/w/1-clang.ll")) .isADirectory) ∧
      ((y.after cleared).store.reserve Build.handwritten .frontend).1 =
        .ok (.ofString "/w/1-clang-2.ll") := by
  intro y cleared
  have failed : (obstructed.store.reserve obstructed.host .frontend).1 =
      .error (.io (.creating (.ofString "/w/1-clang.ll")) .isADirectory) := by decide +kernel
  refine ⟨failed, ?_⟩
  have opened : obstructed.store.dir? = some (.ofString "/w") := rfl
  obtain ⟨-, -, -, -, later, -⟩ := reserve_after_failure opened failed
  have alike : List.Forall₂ StoreCall.Alike cleared cleared := .cons (.same _) .nil
  rw [(later cleared cleared alike Build.handwritten .frontend).2.1]
  decide +kernel

/-- Without the reservation that failed it would have got the first. -/
theorem failed_reservation_shows :
    let y := (StoreCall.reserve .frontend).perform obstructed
    let cleared := [StoreCall.external Build.handwritten.tree]
    obstructed.store.dir? = some (.ofString "/w") ∧
      (obstructed.store.reserve obstructed.host .frontend).1 =
        .error (.io (.creating (.ofString "/w/1-clang.ll")) .isADirectory) ∧
      ((y.after cleared).store.reserve (y.after cleared).host .frontend).1 =
        .ok (.ofString "/w/1-clang-2.ll") ∧
      ((obstructed.after cleared).store.reserve (obstructed.after cleared).host .frontend).1 =
        .ok (.ofString "/w/1-clang.ll") := by
  decide +kernel

end ContractBuild
