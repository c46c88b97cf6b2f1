import ContractBuild.Proofs.Artifact.Calls
import ContractBuild.Proofs.Build.Release

/-!
# The life of a store

An ephemeral store is open until its first cleanup and closed from then on.  While it is open its
directory is there and new files go into it; once it is closed the directory is gone, and nothing is
reserved any more.  A persistent store stays as it is.  Other programs may change the files in
between in any way, but for the directory of the store itself.
-/

namespace ContractBuild

variable {h h' : Host} {dir p : Path} {d l : Location}

namespace Host

/-- A name in a directory that leads to something is taken. -/
theorem HasDirectory.isSome_of_entry (hd : h.HasDirectory dir d) {name : Path} (hname : name.IsName)
    {n : Node} (he : h.entry (dir.join name) = .ok (l, n)) :
    (h.tree.node? (d ++ [name.raw])).isSome := by
  obtain ⟨n, -, reaches⟩ := hd.reaches
  obtain ⟨b, append⟩ := reaches.walk_append (List.cons_ne_nil (.enter name.raw) [])
  obtain ⟨-, start, hstart, all⟩ := Tree.locate_eq_ok_iff.mp (locate_of_entry he)
  rw [if_pos (Path.isAbsolute_join hd.isAbsolute name), Option.some.injEq] at hstart
  subst hstart
  rw [Path.endsInSlash_join hname, Path.steps_join hname] at all
  have last : h.tree.Reaches b ⟨true, false⟩ false d [.enter name.raw] (.entry l _) :=
    Tree.reaches_iff.mpr ((append _ _).symm.trans all.walk_eq)
  cases last with
  | into _ hn _ => exact Option.isSome_of_eq_some hn
  | follow _ hn _ _ => exact Option.isSome_of_eq_some hn
  | link _ hn _ _ => exact Option.isSome_of_eq_some hn
  | last _ hn _ _ => exact Option.isSome_of_eq_some hn

/-- What has just been made for a link is not what was made for a build. -/
theorem IsNamedAfter.ne (hd : IsNamedAfter "tvm-build-" d) (hl : IsNamedAfter "tvm-link-" l) :
    d ≠ l := by
  rintro rfl
  obtain ⟨r, hr⟩ := hd
  obtain ⟨r', hr'⟩ := hl
  have same := Option.some.inj (hr.symm.trans hr')
  have build : (Bytes.ofString "tvm-build-" ++ r).take 5 = (Bytes.ofString "tvm-b").take 5 := rfl
  have link : (Bytes.ofString "tvm-link-" ++ r').take 5 = (Bytes.ofString "tvm-l").take 5 := rfl
  exact absurd (build.symm.trans ((congrArg _ same).trans link)) (by decide)

/-- Whether a directory stays where its path leads, and does not come once it is gone. -/
structure Leaves (h h' : Host) (dir : Path) (d : Location) : Prop where
  /-- The tree is sound. -/
  sound : h'.tree.Sound
  /-- The directory stays. -/
  stays : h.HasDirectory dir d → h'.HasDirectory dir d
  /-- It does not come. -/
  away : h.tree.directoryId? d = none → h'.tree.directoryId? d = none

/-- So it is as long as directories and links stay. -/
theorem leaves_of_sameWays (ht' : h'.tree.Sound) (ways : h.tree.SameWays h'.tree) :
    h.Leaves h' dir d where
  sound := ht'
  stays hd := hd.of_ways ht' fun k _ ↦ ways.forth k
  away hd := (ways.directoryId?_eq d).trans hd

/-- Making a directory for a link leaves that of a build. -/
theorem leaves_of_makeTemporary (ht : h.tree.Sound) (hd : IsNamedAfter "tvm-build-" d)
    (hmade : h.makeTemporary "tvm-link-" = .ok (p, h')) : h.Leaves h' dir d := by
  obtain ⟨l, free, houses, confined, -⟩ :=
    houses_makeTemporary ht Host.mem_temporaryStems_link hmade
  have hl := free.isNamedAfter Host.mem_temporaryStems_link hmade
  refine ⟨houses.sound, fun there ↦ there.of_ways houses.sound fun k _ ↦ houses.ways k,
    fun away ↦ ?_⟩
  by_cases hld : l <+: d
  · exact Tree.directoryId?_of_not_leads (houses.flat d hld (hd.ne hl))
  · exact (Tree.directoryId?_of_shape_eq (confined.elsewhere d hld)).trans away

/-- Removing one directory leaves another one that does not lie there, nor its path. -/
theorem Releasable.leaves (hr : h.Releasable p l)
    (hout : h.HasDirectory dir d → (h.without l).HasDirectory dir d) :
    h.Leaves (h.removeDirectory p) dir d := by
  obtain ⟨released, gone⟩ := hr.removeDirectory
  refine ⟨gone.sound, fun there ↦ ?_, fun away ↦ ?_⟩
  · exact (hout there).of_ways gone.sound fun k _ ↦ hr.sameWays.forth k
  · by_contra come
    have was := released.made d (Option.isSome_iff_ne_none.mpr come)
    rw [away] at was
    cases was

end Host

/-! ## Calls that leave the directory of the store -/

namespace StoreCall

/-- Whether a call finds and leaves the directory of a store as it has to be: other programs leave
it, and whatever is given up can be removed or is gone. -/
def Spares (dir : Path) (d : Location) (x : StoreState) : StoreCall → Prop
  | reserve _ => True
  | openLinkDir => True
  | closeLinkDir n => ∀ p, x.links[n]? = some (.scoped p) → ∃ l, x.host.Releasable p l ∧
      (x.host.HasDirectory dir d → (x.host.without l).HasDirectory dir d)
  | cleanup => x.host.Releasable dir d
  | external t => x.host.Leaves (x.host.withTree t) dir d

end StoreCall

namespace StoreState

/-- Whether all of some calls do. -/
def Spares (dir : Path) (d : Location) (x : StoreState) : List StoreCall → Prop
  | [] => True
  | c :: calls => c.Spares dir d x ∧ (c.perform x).Spares dir d calls

/-- The state of an ephemeral store that is open or not. -/
structure Ephemeral (dir : Path) (d : Location) (isOpen : Bool) (x : StoreState) : Prop where
  /-- The tree is sound. -/
  sound : x.host.tree.Sound
  /-- The directory has been made for a build. -/
  named : Host.IsNamedAfter "tvm-build-" d
  /-- The files on record are those of some numbers. -/
  numbered : x.store.Numbered dir
  /-- The store goes on with its directory, if it is open. -/
  backend_eq : x.store.backend = .ephemeral (if isOpen then some dir else none)
  /-- The directory is there, or it is not. -/
  there : if isOpen then x.host.HasDirectory dir d else x.host.tree.directoryId? d = none

namespace Ephemeral

variable {x : StoreState} {isOpen : Bool}

/-- It stays so as long as the directory is left, and the store goes on with it. -/
theorem of_leaves (hx : x.Ephemeral dir d isOpen) {y : StoreState}
    (leaves : x.host.Leaves y.host dir d) (numbered : y.store.Numbered dir)
    (backend_eq : y.store.backend = x.store.backend) : y.Ephemeral dir d isOpen := by
  refine ⟨leaves.sound, hx.named, numbered, backend_eq.trans hx.backend_eq, ?_⟩
  have there := hx.there
  cases isOpen with
  | true => exact leaves.stays there
  | false => exact leaves.away there

theorem reserve (hx : x.Ephemeral dir d isOpen) (kind : ArtifactKind) :
    ((StoreCall.reserve kind).perform x).Ephemeral dir d isOpen := by
  have adds := ArtifactStore.adds_reserve hx.sound x.store kind
  exact hx.of_leaves (Host.leaves_of_sameWays adds.sound adds.ways) (hx.numbered.reserve x.host kind)
    (ArtifactStore.backend_reserve x.store x.host kind)

/-- A link directory is made by an ephemeral store in either case. -/
theorem openLinkDir_eq (hx : x.Ephemeral dir d isOpen) : x.store.openLinkDir x.host =
    match x.host.makeTemporary "tvm-link-" with
    | .ok (p, h') => .ok (.scoped p, h')
    | .error cause => .error (.io .creatingLinkDirectory cause) := by
  obtain ⟨⟨backend, created, asked⟩, host, links⟩ := x
  obtain rfl : backend = .ephemeral (if isOpen then some dir else none) := hx.backend_eq
  rfl

theorem openLinkDir (hx : x.Ephemeral dir d isOpen) :
    (StoreCall.openLinkDir.perform x).Ephemeral dir d isOpen := by
  rw [StoreCall.perform, hx.openLinkDir_eq]
  cases hmade : x.host.makeTemporary "tvm-link-" with
  | error cause => exact hx
  | ok made =>
    exact hx.of_leaves (Host.leaves_of_makeTemporary hx.sound hx.named hmade) hx.numbered rfl

theorem closeLinkDir (hx : x.Ephemeral dir d isOpen) {n : Nat}
    (hc : (StoreCall.closeLinkDir n).Spares dir d x) :
    ((StoreCall.closeLinkDir n).perform x).Ephemeral dir d isOpen := by
  rw [StoreCall.perform]
  split
  next link hlink =>
    rcases link with q | q
    · obtain ⟨l, hr, hout⟩ := hc q hlink
      exact hx.of_leaves (hr.leaves hout) hx.numbered rfl
    · exact ⟨hx.sound, hx.named, hx.numbered, hx.backend_eq, hx.there⟩
  next => exact hx

/-- The names of the files on record, behind the directory. -/
theorem exists_name (hx : x.Ephemeral dir d isOpen) :
    ∀ q ∈ (x.store.created.filter fun a ↦ !a.persistent).map (·.path),
      ∃ name : Path, name.IsName ∧ q = dir.join name := by
  intro q hq
  obtain ⟨a, ha, rfl⟩ := List.mem_map.mp hq
  obtain ⟨n, -, hn⟩ := hx.numbered.exists_of_mem (List.mem_filter.mp ha).1
  exact ⟨_, ArtifactKind.isName_fileName a.kind n, congrArg Artifact.path hn⟩

/-- An open store that is given up removes its directory and nothing else, and is closed. -/
theorem cleanup_of_open (hx : x.Ephemeral dir d true) (hr : x.host.Releasable dir d) :
    x.host.Releases (x.store.cleanup x.host).2 d ∧ (x.store.cleanup x.host).2.Gone dir d ∧
      (StoreCall.cleanup.perform x).Ephemeral dir d false := by
  have removed : (x.store.cleanup x.host).2 =
      (((x.store.created.filter fun a ↦ !a.persistent).map (·.path)).foldl Host.removeFile
        x.host).removeDirectory dir := by
    rw [ArtifactStore.cleanup, hx.backend_eq]
    simp only [List.foldl_map, if_true]
  obtain ⟨released, gone⟩ := hr.close hx.exists_name
  rw [← removed] at released gone
  refine ⟨released, gone, gone.sound, hx.named, hx.numbered.cleanup x.host, ?_, released.gone⟩
  rw [StoreCall.perform, ArtifactStore.cleanup, hx.backend_eq]
  rfl

/-- A closed store has nothing to give up. -/
theorem cleanup_of_closed (hx : x.Ephemeral dir d false) (hr : x.host.Releasable dir d) :
    x.store.cleanup x.host = (x.store, x.host) := by
  have gone : x.host.Gone dir d := hr.resolve_left fun removable ↦ by
    obtain ⟨n, hn, -⟩ := removable.reaches
    have away : x.host.tree.directoryId? d = none := hx.there
    simp [Tree.directoryId?, hn, Node.directoryId?] at away
  have removed := gone.removeFiles hx.exists_name
  rw [List.foldl_map] at removed
  have backend : x.store.backend = .ephemeral none := hx.backend_eq
  obtain ⟨⟨backend', created, asked⟩, host, links⟩ := x
  obtain rfl : backend' = .ephemeral none := backend
  exact congrArg (Prod.mk _) removed

/-- What a call leaves: only giving the store up closes it. -/
theorem perform (hx : x.Ephemeral dir d isOpen) {c : StoreCall} (hc : c.Spares dir d x) :
    (c.perform x).Ephemeral dir d (isOpen && !c.isCleanup) := by
  cases c with
  | reserve kind => simpa [StoreCall.isCleanup] using hx.reserve kind
  | openLinkDir => simpa [StoreCall.isCleanup] using hx.openLinkDir
  | closeLinkDir n => simpa [StoreCall.isCleanup] using hx.closeLinkDir hc
  | external t =>
    simpa [StoreCall.isCleanup] using hx.of_leaves (y := (StoreCall.external t).perform x) hc
      hx.numbered rfl
  | cleanup =>
    rw [StoreCall.isCleanup, Bool.not_true, Bool.and_false]
    cases isOpen with
    | true => exact (hx.cleanup_of_open hc).2.2
    | false =>
      have same := hx.cleanup_of_closed hc
      rw [StoreCall.perform, same]
      exact hx

/-- What several calls leave. -/
theorem after (hx : x.Ephemeral dir d isOpen) {calls : List StoreCall}
    (hcalls : x.Spares dir d calls) :
    (x.after calls).Ephemeral dir d (isOpen && !calls.any StoreCall.isCleanup) := by
  induction calls generalizing x isOpen with
  | nil => simpa [StoreState.after] using hx
  | cons c calls ih =>
    rw [after_cons, List.any_cons, Bool.not_or, ← Bool.and_assoc]
    exact ih (hx.perform hcalls.1) hcalls.2

end Ephemeral

/-! ## What a store does in each of its states -/

/-- Whether a reserved file has this path, is there under a name in the directory, and is on
record. -/
structure Reserves (dir : Path) (d : Location) (x : StoreState) (kind : ArtifactKind) (p : Path) :
    Prop where
  /-- The path is a name behind that of the directory. -/
  named : ∃ name : Path, name.IsName ∧ p = dir.join name ∧
    ((((StoreCall.reserve kind).perform x).host.tree.node? (d ++ [name.raw])).isSome)
  /-- It leads to something. -/
  exist : ((StoreCall.reserve kind).perform x).host.pathExists p = true
  /-- The file is on record as one that does not stay. -/
  recorded : ((StoreCall.reserve kind).perform x).store.created = x.store.created ++ [⟨p, kind, false⟩]

/-- Whether a new directory is made for each link, which is gone once it has been given up. -/
structure LinksAfresh (x : StoreState) : Prop where
  /-- A directory that can be made is new, and can be removed. -/
  fresh : ∀ p h', x.host.makeTemporary "tvm-link-" = .ok (p, h') →
    x.store.openLinkDir x.host = .ok (.scoped p, h') ∧ ∃ l, x.host.HasFree p l ∧
      h'.Removable p l ∧ ∀ h'' : Host, h''.Releasable p l → (LinkDir.close (.scoped p) h'').Gone p l
  /-- Otherwise that is the error. -/
  failed : ∀ cause, x.host.makeTemporary "tvm-link-" = .error cause →
    x.store.openLinkDir x.host = .error (.io .creatingLinkDirectory cause)

/-- What an ephemeral store does before its first cleanup. -/
structure Open (dir : Path) (d : Location) (x : StoreState) : Prop where
  /-- The directory is there. -/
  there : x.host.HasDirectory dir d
  /-- Files are reserved in it. -/
  reserves : ∀ kind p, (x.store.reserve x.host kind).1 = .ok p → x.Reserves dir d kind p
  /-- No file on record stays. -/
  temporary : ∀ a ∈ x.store.created, a.persistent = false
  /-- Links are made in directories of their own. -/
  links : x.LinksAfresh
  /-- The directory is removed with the store, and nothing else, if it can be. -/
  released : x.host.Releasable dir d → x.host.Releases (x.store.cleanup x.host).2 d ∧
    (x.store.cleanup x.host).2.Gone dir d

/-- What an ephemeral store does from its first cleanup on. -/
structure Closed (dir : Path) (d : Location) (x : StoreState) : Prop where
  /-- The directory is not there. -/
  gone : x.host.tree.directoryId? d = none
  /-- No file is reserved, and nothing changes. -/
  refuses : ∀ kind, (x.store.reserve x.host kind).1 =
      .error (.io .creatingArtifact (.refused "artifact store already cleaned up")) ∧
    (x.store.reserve x.host kind).2.1.created = x.store.created ∧
    (x.store.reserve x.host kind).2.2 = x.host
  /-- Links are still made in directories of their own. -/
  links : x.LinksAfresh
  /-- Nothing is given up any more. -/
  done : x.host.Releasable dir d → x.store.cleanup x.host = (x.store, x.host)

namespace Ephemeral

variable {x : StoreState} {isOpen : Bool}

theorem linksAfresh (hx : x.Ephemeral dir d isOpen) : x.LinksAfresh where
  fresh p h' hmade := by
    obtain ⟨l, free, houses, -, -⟩ :=
      Host.houses_makeTemporary hx.sound Host.mem_temporaryStems_link hmade
    refine ⟨by rw [hx.openLinkDir_eq, hmade], l, free, free.removable_of_makeTemporary houses hmade, ?_⟩
    exact fun h'' hr ↦ hr.removeDirectory.2
  failed cause hfailed := by rw [hx.openLinkDir_eq, hfailed]

theorem isPersistent_eq (hx : x.Ephemeral dir d isOpen) : x.store.isPersistent = false :=
  ArtifactStore.isPersistent_of_ephemeral hx.backend_eq

theorem reserves (hx : x.Ephemeral dir d true) {kind : ArtifactKind}
    (hp : (x.store.reserve x.host kind).1 = .ok p) : x.Reserves dir d kind p := by
  have still := hx.reserve kind
  obtain ⟨hnext, hwrite⟩ := ArtifactStore.write_of_reserve hp
  have hdir : x.store.dir? = some dir := by
    rw [ArtifactStore.dir?, hx.backend_eq]
    rfl
  obtain ⟨name, hname, rfl⟩ := ArtifactStore.exists_name_of_nextPath hdir hnext
  obtain ⟨k, n, he⟩ := Host.exists_entry_of_write hx.sound hwrite
  refine ⟨⟨name, hname, rfl, still.there.isSome_of_entry hname he⟩, ?_, ?_⟩
  · rw [Host.pathExists, StoreCall.perform, he]
    rfl
  · rw [StoreCall.perform, (ArtifactStore.reserve_of_ok hp hnext).2, ← hx.isPersistent_eq]
    rfl

theorem toOpen (hx : x.Ephemeral dir d true) : x.Open dir d where
  there := hx.there
  reserves _ _ hp := hx.reserves hp
  temporary a ha := by
    obtain ⟨n, -, hn⟩ := hx.numbered.exists_of_mem ha
    rw [hn]
    exact hx.isPersistent_eq
  links := hx.linksAfresh
  released hr := ⟨(hx.cleanup_of_open hr).1, (hx.cleanup_of_open hr).2.1⟩

theorem toClosed (hx : x.Ephemeral dir d false) : x.Closed dir d where
  gone := hx.there
  refuses kind := by
    have next : x.store.nextPath? kind = none := by
      rw [ArtifactStore.nextPath?, ArtifactStore.dir?, hx.backend_eq]
      rfl
    rw [ArtifactStore.reserve, next]
    exact ⟨rfl, rfl, rfl⟩
  links := hx.linksAfresh
  done := hx.cleanup_of_closed

/-- A store starts open, with a new directory. -/
theorem exists_of_ephemeral (ht : h.tree.Sound) {s : ArtifactStore}
    (hs : ArtifactStore.ephemeral h = .ok (s, h')) : ∃ dir d, s.dir? = some dir ∧ h.HasFree dir d ∧
      h'.Removable dir d ∧ (⟨s, h', []⟩ : StoreState).Ephemeral dir d true := by
  unfold ArtifactStore.ephemeral at hs
  split at hs
  next dir h'' hmade =>
    obtain ⟨rfl, rfl⟩ := Prod.mk.inj (Except.ok.inj hs)
    obtain ⟨d, free, houses, -, -⟩ :=
      Host.houses_makeTemporary ht Host.mem_temporaryStems_build hmade
    have removable := free.removable_of_makeTemporary houses hmade
    refine ⟨dir, d, rfl, free, removable, removable.sound, ?_, ?_, rfl, removable.toHasDirectory⟩
    · exact free.isNamedAfter Host.mem_temporaryStems_build hmade
    · exact ArtifactStore.numbered_of_nil rfl (.inl rfl)
  next => cases hs

end Ephemeral

/-! ## Stores that keep their files -/

/-- The state of a store that keeps its files in a working directory. -/
structure Persistent (dir : Path) (x : StoreState) : Prop where
  /-- The tree is sound. -/
  sound : x.host.tree.Sound
  /-- The store keeps its files there. -/
  backend_eq : x.store.backend = .persistent dir
  /-- The files on record are those of some numbers. -/
  numbered : x.store.Numbered dir
  /-- Links are made there. -/
  links : ∀ link ∈ x.links, link = .working dir

/-- What such a store does. -/
structure Keeps (dir : Path) (x : StoreState) : Prop where
  /-- Every file on record stays. -/
  kept : ∀ a ∈ x.store.created, a.persistent = true
  /-- Links are made in the working directory. -/
  link : x.store.openLinkDir x.host = .ok (.working dir, x.host)
  /-- No call removes anything. -/
  adds : ∀ c : StoreCall, (∀ t, c ≠ .external t) → x.host.Adds (c.perform x).host

namespace Persistent

variable {x : StoreState}

theorem openLinkDir_eq (hx : x.Persistent dir) :
    x.store.openLinkDir x.host = .ok (.working dir, x.host) := by
  rw [ArtifactStore.openLinkDir, hx.backend_eq]

theorem cleanup_eq (hx : x.Persistent dir) : x.store.cleanup x.host = (x.store, x.host) := by
  rw [ArtifactStore.cleanup, hx.backend_eq]

/-- A call adds files or changes nothing, unless it is not one of the store. -/
theorem perform (hx : x.Persistent dir) {c : StoreCall} (hc : ∀ t, c = .external t → t.Sound) :
    (c.perform x).Persistent dir ∧
      ((∀ t, c ≠ .external t) → x.host.Adds (c.perform x).host) := by
  cases c with
  | reserve kind =>
    have adds := ArtifactStore.adds_reserve hx.sound x.store kind
    refine ⟨⟨adds.sound, ?_, hx.numbered.reserve x.host kind, hx.links⟩, fun _ ↦ adds⟩
    exact (ArtifactStore.backend_reserve x.store x.host kind).trans hx.backend_eq
  | openLinkDir =>
    rw [StoreCall.perform, hx.openLinkDir_eq]
    refine ⟨⟨hx.sound, hx.backend_eq, hx.numbered, fun link hlink ↦ ?_⟩, fun _ ↦ .refl hx.sound⟩
    exact (List.mem_append.mp hlink).elim (hx.links link) List.mem_singleton.mp
  | closeLinkDir n =>
    rw [StoreCall.perform]
    split
    next link hlink =>
      obtain rfl := hx.links link (List.mem_of_getElem? hlink)
      refine ⟨⟨hx.sound, hx.backend_eq, hx.numbered, fun link hlink ↦ ?_⟩, fun _ ↦ .refl hx.sound⟩
      exact hx.links link (List.mem_of_mem_eraseIdx hlink)
    next => exact ⟨hx, fun _ ↦ .refl hx.sound⟩
  | cleanup =>
    rw [StoreCall.perform, hx.cleanup_eq]
    exact ⟨hx, fun _ ↦ .refl hx.sound⟩
  | external t =>
    exact ⟨⟨hc t rfl, hx.backend_eq, hx.numbered, hx.links⟩, fun hne ↦ absurd rfl (hne t)⟩

theorem after (hx : x.Persistent dir) {calls : List StoreCall}
    (hcalls : ∀ t, .external t ∈ calls → t.Sound) : (x.after calls).Persistent dir := by
  induction calls generalizing x with
  | nil => exact hx
  | cons c calls ih =>
    refine ih (hx.perform fun t ht ↦ hcalls t ?_).1 fun t ht ↦ hcalls t (List.mem_cons_of_mem _ ht)
    exact ht ▸ List.mem_cons_self

theorem keeps (hx : x.Persistent dir) : x.Keeps dir where
  kept a ha := by
    obtain ⟨n, -, hn⟩ := hx.numbered.exists_of_mem ha
    rw [hn, ArtifactStore.isPersistent, hx.backend_eq]
  link := hx.openLinkDir_eq
  adds _ hc := (hx.perform fun t ht ↦ absurd ht (hc t)).2 hc

end Persistent

end StoreState

/-! ## Builds with a closed store -/

section ClosedStore

variable {σ : Type} {tc : Toolchain σ} {o : BuildOptions}

/-- From one session to another nothing has been done but ask a closed store for files. -/
structure Session.Idle (s s' : Session σ) : Prop where
  /-- The files are as they were. -/
  host_eq : s'.host = s.host
  /-- No tool has run, and no line has been noted. -/
  tools_eq : s'.tools = s.tools
  /-- So the events tell. -/
  events_eq : s'.events = s.events

namespace Build

variable {s : Session σ} (hs : s.store.backend = .ephemeral none)

include hs

/-- No stage gets a file. -/
theorem ends_produce_closed {kind : ArtifactKind} {command : Path → Invocation} :
    Ends (produce tc o kind command) s (fun _ _ ↦ False) (fun _ s' ↦ s.Idle s') := by
  have next : s.store.nextPath? kind = none := by
    rw [ArtifactStore.nextPath?, ArtifactStore.dir?, hs]
    rfl
  refine ends_bind.mpr (ends_reserve.mpr ⟨fun p hp ↦ ?_, fun e he ↦ ?_⟩)
  · cases (ArtifactStore.write_of_reserve hp).1.symm.trans next
  · exact ⟨ArtifactStore.host_of_reserve_error he, rfl, rfl⟩

/-- Without inputs there is nothing to do; otherwise the first one fails. -/
theorem ends_modulesOf_closed {kind : ArtifactKind}
    {command : BuildOptions → Path → Path → Invocation} (files : List InputFile) :
    Ends (modulesOf tc o kind command files) s (fun _ s' ↦ s' = s) (fun _ s' ↦ s.Idle s') := by
  cases files with
  | nil => exact ends_pure.mpr rfl
  | cons f fs =>
    refine ends_bind.mpr (ends_bind.mpr ?_)
    exact (ends_produce_closed hs).mono (fun _ _ no ↦ no.elim) fun _ _ idle ↦ idle

/-- Whatever the inputs are, the modules are not linked. -/
theorem ends_assembleAll_closed (inputs : ClassifiedInputs) :
    Ends (assembleAll tc o inputs) s (fun _ _ ↦ False) (fun _ s' ↦ s.Idle s') := by
  have compiled : Ends (compileSources tc o inputs) s (fun _ s' ↦ s' = s) (fun _ s' ↦ s.Idle s') := by
    refine (ends_modulesOf_closed hs _).bind ?_
    rintro _ _ rfl
    refine (ends_modulesOf_closed hs _).bind ?_
    rintro _ _ rfl
    exact ends_pure.mpr rfl
  refine compiled.bind ?_
  rintro _ _ rfl
  refine Ends.bind (ends_modulesOf_closed hs _) ?_
  rintro _ _ rfl
  exact Ends.bind (ends_produce_closed hs) fun _ _ no ↦ no.elim

/-- A whole build fails before it does anything that can be seen. -/
theorem ends_run_closed (paths : List Path) : Ends (run tc o paths) s (fun _ _ ↦ False)
    (fun _ s' ↦ s'.tools = s.tools ∧ s'.events = s.events) := by
  have staged : Ends (stages tc o paths) s (fun _ _ ↦ False) (fun _ s' ↦ s.Idle s') := by
    unfold stages classified
    cases classify paths with
    | error e => exact ⟨rfl, rfl, rfl⟩
    | ok inputs =>
      refine ends_bind.mpr (ends_pure.mpr (ends_bind.mpr ?_))
      unfold checkInputs
      refine ends_bind.mpr (ends_host.mpr ?_)
      cases firstMissing? o s.host inputs with
      | some p => exact ends_throw.mpr ⟨rfl, rfl, rfl⟩
      | none =>
        exact ends_pure.mpr (Ends.bind (ends_assembleAll_closed hs inputs) fun _ _ no ↦ no.elim)
  exact ends_andFinally.mpr (staged.mono (fun _ _ no ↦ no) fun _ _ idle ↦
    ⟨idle.tools_eq, idle.events_eq⟩)

end Build

theorem ArtifactStore.backend_cleanup {s : ArtifactStore} (hs : s.isPersistent = false) (h : Host) :
    (s.cleanup h).1.backend = .ephemeral none := by
  obtain ⟨backend, created, asked⟩ := s
  cases backend with
  | persistent dir => cases hs
  | ephemeral dir => rfl

/-- After a whole build, whatever else is called, an ephemeral store is closed. -/
theorem Session.backend_after {s : Session σ} (hs : s.store.isPersistent = false)
    (calls : List Call) : (s.after tc o calls).store.isPersistent = false ∧
      (calls.any Call.isRun = true → (s.after tc o calls).store.backend = .ephemeral none) := by
  have temporary := Session.lasting_store tc (P := fun s ↦ s.isPersistent = false)
    fun s h kind hs ↦ (ArtifactStore.isPersistent_congr (ArtifactStore.backend_reserve s h kind)).trans hs
  induction calls using List.reverseRecOn with
  | nil => exact ⟨hs, fun none ↦ by cases none⟩
  | append_singleton calls c ih =>
    rw [after_concat]
    obtain ⟨m, hm, heq⟩ := c.exists_of_perform (o := o) temporary
      (temporary.finalLink fun _ _ hs ↦ hs) ih.1
    have cleaned : m.cleanup.store.backend = .ephemeral none :=
      ArtifactStore.backend_cleanup hm m.host
    rw [List.any_append, List.any_cons, List.any_nil, Bool.or_false, Bool.or_eq_true, heq]
    split
    next => exact ⟨ArtifactStore.isPersistent_of_ephemeral cleaned, fun _ ↦ cleaned⟩
    next other =>
      refine ⟨hm, fun ran ↦ ?_⟩
      have closed : (c.perform tc o (s.after tc o calls)).store.backend = .ephemeral none :=
        c.store_perform (P := fun s ↦ s.backend = .ephemeral none)
          (fun s h kind hs ↦ (ArtifactStore.backend_reserve s h kind).trans hs)
          (fun s h hs ↦
            ArtifactStore.backend_cleanup (ArtifactStore.isPersistent_of_ephemeral hs) h)
          (ih.2 (ran.resolve_right other))
      rwa [heq, if_neg other] at closed

end ClosedStore

/-! ## The whole life -/

open StoreState in
/-- In any sequence of calls in which other programs leave the directory of an ephemeral store, and
in which it can be removed when the store is given up, the store is open before the first cleanup and
closed from then on.  A store that keeps its files does so whatever is called.  So of the builds in
one session that does not keep its files, all but the first fail before they do anything. -/
theorem store_life_cycle {σ : Type} (tc : Toolchain σ) (o : BuildOptions) (ht : h.tree.Sound) :
    (∀ s h', ArtifactStore.ephemeral h = .ok (s, h') →
      ∃ dir d, s.dir? = some dir ∧ h.HasFree dir d ∧ h'.Removable dir d ∧
        ∀ calls, StoreState.Spares dir d ⟨s, h', []⟩ calls →
          let x := after ⟨s, h', []⟩ calls
          if calls.any StoreCall.isCleanup then x.Closed dir d else x.Open dir d) ∧
    (∀ wd calls, (∀ t, .external t ∈ calls → t.Sound) →
      (after ⟨.persistent wd, h, []⟩ calls).Keeps wd) ∧
    ∀ tools s, o.saveTemps = false → Session.start o tools h = .ok s →
      ∀ calls, calls.any Call.isRun = true → ∀ h' paths,
        let t := (s.after tc o calls).withHost h'
        ∃ e t', (Build.run tc o paths).runIn t = (.error e, t') ∧ t'.tools = t.tools ∧
          t'.events = t.events := by
  refine ⟨fun s h' hs ↦ ?_, fun wd calls hcalls ↦ ?_, ?_⟩
  · obtain ⟨dir, d, hdir, free, removable, start⟩ := Ephemeral.exists_of_ephemeral ht hs
    refine ⟨dir, d, hdir, free, removable, fun calls hcalls ↦ ?_⟩
    have last := start.after hcalls
    rw [Bool.true_and] at last
    split
    next closed => exact Ephemeral.toClosed (by rwa [closed] at last)
    next opened =>
      rw [Bool.not_eq_true] at opened
      exact Ephemeral.toOpen (by rwa [opened] at last)
  · have start : Persistent wd ⟨.persistent wd, h, []⟩ :=
      ⟨ht, rfl, ArtifactStore.numbered_of_nil rfl (.inl rfl), List.forall_mem_nil _⟩
    exact (start.after hcalls).keeps
  · intro tools s hsave hs calls hrun h' paths t
    have temporary : s.store.isPersistent = false :=
      (Session.fresh_of_start hs).2.2.2.1.trans hsave
    have closed : t.store.backend = .ephemeral none := (Session.backend_after temporary calls).2 hrun
    have ended := (Build.ends_run_closed closed paths).and (Build.ends_runIn (Build.run tc o paths) t)
    unfold Build.Ends at ended
    split at ended
    next => exact ended.1.elim
    next e t' heq => exact ⟨e, t', ended.2, ended.1⟩

open Build

/-- A store that has reserved a file is open, and once it has been given up, it is closed. -/
theorem store_life_cycle_sample :
    ∃ s h' d, ArtifactStore.ephemeral handwritten = .ok (s, h') ∧
      ((⟨s, h', []⟩ : StoreState).after [.reserve .codegen]).Open
        (.ofString "/w/tvm-build-U00000") d ∧
      ((⟨s, h', []⟩ : StoreState).after [.reserve .codegen, .cleanup]).Closed
        (.ofString "/w/tvm-build-U00000") d := by
  obtain ⟨⟨s, h'⟩, hs, there⟩ : ∃ made, ArtifactStore.ephemeral handwritten = .ok made ∧
      made.1.dir? = some (.ofString "/w/tvm-build-U00000") :=
    exists_of_map_decide (by decide +kernel)
  obtain ⟨life, -, -⟩ := store_life_cycle (Toolchain.writing []) besideWallet sound_handwritten
  obtain ⟨dir, d, hdir, -, removable, spec⟩ := life s h' hs
  obtain rfl := Option.some.inj (hdir.symm.trans there)
  refine ⟨s, h', d, hs, spec [.reserve .codegen] ⟨trivial, trivial⟩,
    spec [.reserve .codegen, .cleanup] ⟨trivial, .inl ?_, trivial⟩⟩
  have adds := ArtifactStore.adds_reserve removable.sound s .codegen
  exact removable.of_sameWays adds.sound adds.ways

/-- Other programs can keep a store from removing its directory, with one in it that may not be
changed; and they can keep it from making one for a link, though they leave its own. -/
theorem directory_left_and_link_refused :
    let dir := Path.ofString "/w/tvm-build-U00000"
    let d := [Bytes.ofString "w", Bytes.ofString "tvm-build-U00000"]
    ∃ made, ArtifactStore.ephemeral handwritten = .ok made ∧
      let x : StoreState := ⟨made.1, made.2, []⟩
      let sealed := x.after [.external (Tree.sealing d made.2.tree)]
      let left := sealed.after [.cleanup]
      let closed := x.after [.cleanup]
      let shut := closed.after [.external (closed.host.permit [Bytes.ofString "w"] 0o500).tree]
      made.1.dir? = some dir ∧ sealed.host.isDirectory dir = true ∧
        left.host.isDirectory dir = true ∧ closed.host.isDirectory dir = false ∧
        (shut.store.openLinkDir shut.host).isOk = false := by
  intro dir d
  exact exists_of_map_decide (by decide +kernel)

end ContractBuild
