import ContractBuild.Proofs.Artifact.Calls
import ContractBuild.Proofs.Build.ErrorSources
import ContractBuild.Proofs.Build.AssemblyOnly
import ContractBuild.Proofs.Build.Release
import ContractBuild.Proofs.FileSystem.Destinations

/-!
# The files of a build

A build reserves one file for each tool that it runs up to the generated assembly, in the order of its
plan.  So the files on record are the first ones of the plan, as many as tools have run; and in a
directory that had no files of their names, a build that keeps them leaves these and no others.
-/

namespace ContractBuild

open Build

variable {σ α : Type} {tc : Toolchain σ} {o : BuildOptions} {dir : Path} {h h' : Host}

/-! ## The files of a plan, in order -/

/-- Whether an event is the run of a tool. -/
def Event.isRun : Event → Bool
  | .run _ => true
  | .echo _ => false

/-- The tool runs on a log are those that its events tell of. -/
theorem length_runs (log : List LogEntry) :
    (log.filterMap LogEntry.run?).length = (log.map LogEntry.event).countP Event.isRun := by
  induction log with
  | nil => rfl
  | cons x log ih =>
    cases x with
    | run r => exact (congrArg (· + 1) ih).trans (List.countP_cons_of_pos rfl).symm
    | echo line => exact ih.trans (List.countP_cons_of_neg Bool.false_ne_true).symm

namespace Plan

variable (o : BuildOptions) (dir : Path) (persistent : Bool) (start : Start)
  (inputs : ClassifiedInputs)

/-- The record of the file of a kind and number. -/
def artifact (dir : Path) (persistent : Bool) (slot : ArtifactKind × Nat) : Artifact :=
  ⟨file dir slot.1 slot.2, slot.1, persistent⟩

/-- Everything up to the generated assembly. -/
def production : List Move :=
  sources o dir start inputs ++ link o dir start inputs :: lowering o dir start

theorem record_jobs (kind : ArtifactKind) (command : BuildOptions → Path → Path → Invocation)
    (n : Nat) (fs : List InputFile) :
    (jobs o dir kind command n fs).filterMap (Move.record? persistent) =
      ((List.range' n fs.length).map (Prod.mk kind)).map (artifact dir persistent) := by
  induction fs generalizing n with
  | nil => rfl
  | cons f fs ih => simp [jobs, job, Move.record?, artifact, ih, List.range'_succ]

/-- The files of a plan are those of its slots. -/
theorem record_production : (production o dir start inputs).filterMap (Move.record? persistent) =
    (slots start inputs).map (artifact dir persistent) := by
  have lowered : (link o dir start inputs :: lowering o dir start).filterMap
      (Move.record? persistent) = [(.link, start .link), (.internalize, start .internalize),
        (.optimize, start .optimize), (.codegen, start .codegen)].map (artifact dir persistent) := rfl
  simp only [production, sources, List.filterMap_append, record_jobs, lowered, slots,
    ← List.map_append, List.range'_append_1]

/-- Up to the generated assembly each move runs a tool for a file. -/
theorem production_moves {m : Move} (hm : m ∈ production o dir start inputs) :
    m.artifact.isSome = true ∧ m.event.isRun = true := by
  have jobs {kind : ArtifactKind} {command : BuildOptions → Path → Path → Invocation} {n : Nat}
      {fs : List InputFile} (hm : m ∈ jobs o dir kind command n fs) :
      m.artifact.isSome = true ∧ m.event.isRun = true := by
    induction fs generalizing n with
    | nil => cases hm
    | cons f fs ih =>
      rcases List.mem_cons.mp hm with rfl | hm
      · exact ⟨rfl, rfl⟩
      · exact ih hm
  simp only [production, sources, lowering, List.mem_append, List.mem_cons, List.not_mem_nil,
    or_false] at hm
  rcases hm with ((hm | hm) | hm) | rfl | rfl | rfl | rfl
  · exact jobs hm
  · exact jobs hm
  · exact jobs hm
  all_goals exact ⟨rfl, rfl⟩

/-- Where no files are reserved, no move is for one. -/
theorem artifact_eq_none {moves : List Move} (hfiles : files moves = []) :
    ∀ m ∈ moves, m.artifact = none := fun m hm ↦ by
  simpa using List.filterMap_eq_nil_iff.mp hfiles m hm

/-- Behind that, no move is for a file. -/
theorem artifact_rest (e : Ending) : ∀ m ∈ appending inputs (assembly dir start) ++
    ending o (assembly dir start) e, m.artifact = none := by
  refine artifact_eq_none ?_
  rw [files_append, files_ending, List.append_nil]
  unfold appending
  split <;> rfl

/-- Of moves that start with some for files, the files are as many as the tools that have run. -/
theorem record_of_prefix {first rest moves : List Move}
    (hfirst : ∀ m ∈ first, m.artifact.isSome = true ∧ m.event.isRun = true)
    (hrest : ∀ m ∈ rest, m.artifact = none) (hmoves : moves <+: first ++ rest) :
    moves.filterMap (Move.record? persistent) =
      (first.filterMap (Move.record? persistent)).take
        ((moves.map Move.event).countP Event.isRun) := by
  induction first generalizing moves with
  | nil =>
    rw [List.filterMap_nil, List.take_nil, List.filterMap_eq_nil_iff]
    exact fun m hm ↦ by simp [Move.record?, hrest m (hmoves.subset hm)]
  | cons m first ih =>
    cases moves with
    | nil => rfl
    | cons m' moves =>
      rw [List.cons_append, List.cons_prefix_cons] at hmoves
      obtain ⟨rfl, hmoves⟩ := hmoves
      obtain ⟨file, ran⟩ := hfirst m' List.mem_cons_self
      obtain ⟨a, ha⟩ := Option.isSome_iff_exists.mp file
      have others := ih (fun m hm ↦ hfirst m (List.mem_cons_of_mem _ hm)) hmoves
      simp [Move.record?, ha, ran, others]

end Plan

namespace Build

/-! ## Where a build stops -/

variable {s : Session (σ × List LogEntry)}

/-- A step whose plan reserves nothing leaves what is on record. -/
theorem Follows.created_eq {b : Build (σ × List LogEntry) α} {plan : List Move}
    {Q : α → Session (σ × List LogEntry) → Prop} (follows : Follows b s plan Q)
    (hplan : ∀ m ∈ plan, m.artifact = none) :
    Ends b s (fun _ s' ↦ s'.store.created = s.store.created)
      (fun _ s' ↦ s'.store.created = s.store.created) := by
  have same {s' : Session (σ × List LogEntry)} {moves : List Move} {log : List LogEntry}
      (adv : Advances s s' moves log) (hmoves : ∀ m ∈ moves, m.artifact = none) :
      s'.store.created = s.store.created := by
    have none : moves.filterMap (Move.record? s.store.isPersistent) = [] :=
      List.filterMap_eq_nil_iff.mpr fun m hm ↦ by simp [Move.record?, hmoves m hm]
    rw [adv.created_eq, none, List.append_nil]
  refine Ends.mono follows ?_ ?_
  · rintro _ s' ⟨⟨log, adv, -⟩, -⟩
    exact same adv hplan
  · rintro _ s' ⟨moves, log, hmoves, adv, -⟩
    exact same adv fun m hm ↦ hplan m (hmoves.subset hm)

/-- A build that fails before all files of its plan are on record has found an input missing, could
not reserve a file, or has run a tool that failed. -/
theorem ends_stages_created (tc : Toolchain σ) (o : BuildOptions) {start : Plan.Start} {paths : List Path} {inputs : ClassifiedInputs}
    (hdir : s.store.dir? = some dir) (hstart : ∀ kind, s.store.asked.count kind = start kind)
    (hinputs : classify paths = .ok inputs) :
    let all := s.store.created ++
      (Plan.slots start inputs).map (Plan.artifact dir s.store.isPersistent)
    Ends (stages tc.logging o paths) s (fun _ s' ↦ s'.store.created = all)
      (fun e s' ↦ s'.store.created = all ∨ e.isOfReserving = true ∨ (∃ p, e = .missingInput p) ∨
        FailedWith e s'.tools.2) := by
  intro all
  rw [stages_eq_generated tc.logging o hinputs]
  have generated : Ends (generated tc.logging o inputs) s (fun _ s' ↦ s'.store.created = all)
      (fun e s' ↦ e.isOfReserving = true ∨ (∃ p, e = .missingInput p) ∨ FailedWith e s'.tools.2) := by
    refine ends_bind.mpr ?_
    unfold checkInputs
    refine ends_bind.mpr (ends_host.mpr ?_)
    cases firstMissing? o s.host inputs with
    | some p => exact ends_throw.mpr (.inr (.inl ⟨p, rfl⟩))
    | none =>
      refine ends_pure.mpr (((follows_lowered tc o hdir hstart).and (Blames.lowered s)).mono ?_ ?_)
      · rintro _ s' ⟨⟨⟨log, adv, -⟩, -⟩, -⟩
        exact adv.created_eq.trans (congrArg _ (Plan.record_production o dir _ start inputs))
      · rintro e s' ⟨-, own | failed⟩
        · exact .inl own
        · exact .inr (.inr failed)
  refine ends_bind.mpr (generated.mono (fun asm m hm ↦ ?_) fun e s' he ↦ .inr he)
  have still {t : Session (σ × List LogEntry)} (ht : t.store.created = m.store.created) :
      t.store.created = all := ht.trans hm
  have appended : ∀ x ∈ Plan.appending inputs asm, x.artifact = none :=
    Plan.artifact_eq_none (by unfold Plan.appending; split <;> rfl)
  refine ends_bind.mpr (((follows_mergeAssembly tc o).created_eq appended).mono (fun _ t ht ↦ ?_)
    fun _ t ht ↦ .inl (still ht))
  obtain ⟨ending, -, rest⟩ := follows_fromAssembly (s := t) tc o asm
  refine (rest.created_eq (Plan.artifact_eq_none (Plan.files_ending o asm ending))).mono ?_ ?_
  · exact fun _ _ ht' ↦ still (ht'.trans ht)
  · exact fun _ _ ht' ↦ .inl (still (ht'.trans ht))

end Build

/-! ## Files with such names -/

/-- The place of the file of a kind and number in a directory. -/
def ArtifactKind.place (w : Location) (kind : ArtifactKind) (n : Nat) : Location :=
  w ++ [Bytes.ofString (kind.fileName n)]

theorem ArtifactKind.place_inj {w : Location} {kind kind' : ArtifactKind} {n n' : Nat}
    (h : kind.place w n = kind'.place w n') : kind = kind' ∧ n = n' := by
  have names := List.singleton_inj.mp (List.append_cancel_left h)
  have paths : Path.here.join (.ofString (kind.fileName n)) =
      Path.here.join (.ofString (kind'.fileName n')) := by
    rw [Path.ofString, Path.ofString, names]
  exact ArtifactKind.join_fileName_inj paths

/-- A change to one file makes and removes nothing elsewhere. -/
theorem Tree.WritesOnly.isSome_iff {t t' : Tree} {l k : Location} (change : t.WritesOnly t' l)
    (hk : k ≠ l) : (t'.node? k).isSome ↔ (t.node? k).isSome := by
  have files {t : Tree} (hid : (t.fileId? k).isSome) : (t.node? k).isSome := by
    obtain ⟨id, hid⟩ := Option.isSome_iff_exists.mp hid
    obtain ⟨f, hf, -⟩ := Tree.fileId?_eq_some.mp hid
    exact Option.isSome_of_eq_some hf
  rcases change.elsewhere k hk with same | ⟨file, name, kept⟩
  · rw [← Tree.isSome_shape, same, Tree.isSome_shape]
  · have named := name ▸ file
    exact ⟨fun _ ↦ files named, fun _ ↦ files (kept ▸ named)⟩

namespace Host

variable {wd p q name : Path} {w l : Location} {place : Place} {m : Manner} {e : Directory}

/-- A name behind a path that leads to a directory leads into that, unless it is a link. -/
theorem location_of_join (he : h.entry wd = .ok (w, .directory e)) (hname : name.IsName)
    (hp : h.tree.locate h.here? m (wd.join name) = .ok place)
    (hlink : ∀ n, h.tree.node? (w ++ [name.raw]) ≠ some (.link n)) :
    place.location = w ++ [name.raw] := by
  obtain ⟨-, start, hstart, reaches⟩ := Tree.locate_eq_ok_iff.mp (locate_of_entry he)
  obtain ⟨b, append⟩ := reaches.walk_append (List.cons_ne_nil (.enter name.raw) [])
  obtain ⟨-, start', hstart', all⟩ := Tree.locate_eq_ok_iff.mp hp
  have abs : (wd.join name).isAbsolute = wd.isAbsolute :=
    Bool.eq_iff_iff.mpr (Path.isAbsolute_join_iff hname.isAbsolute)
  rw [abs, hstart, Option.some.injEq] at hstart'
  subst hstart'
  rw [Path.endsInSlash_join hname, Path.steps_join hname] at all
  have last : h.tree.Reaches b m false w [.enter name.raw] place :=
    Tree.reaches_iff.mpr ((append m false).symm.trans all.walk_eq)
  cases last with
  | into _ _ next =>
    cases next
    rfl
  | follow _ hn _ _ => exact absurd hn (hlink _)
  | link _ _ _ _ => rfl
  | last _ _ _ _ => rfl
  | free _ _ => rfl

/-- Whether from one host to another only files have been written, and none has come or gone that has
such a name in a directory. -/
structure Settles (w : Location) (h h' : Host) : Prop where
  /-- Only files have been written. -/
  written : h.Written h'
  /-- The same files are there. -/
  shown : ∀ kind n, (h'.tree.node? (ArtifactKind.place w kind n)).isSome ↔
    (h.tree.node? (ArtifactKind.place w kind n)).isSome

/-- A path does not lead to a free name of this kind. -/
def Avoids (h : Host) (w : Location) (q : Path) : Prop :=
  ∀ kind n, h.locate q ≠ .ok (.vacant (ArtifactKind.place w kind n))

/-- What it leads to is no free name. -/
theorem avoids_of_entry {n : Node} (he : h.entry p = .ok (l, n)) : h.Avoids w p :=
  fun _ _ free ↦ by cases (locate_of_entry he).symm.trans free

/-- A change to a file that is there and stays there makes and removes nothing. -/
theorem settles_of_writesOnly (change : h.WritesOnly h' l) (adds : h.Adds h')
    (hl : ∀ kind n, ArtifactKind.place w kind n = l → (h.tree.node? l).isSome) :
    Settles w h h' := by
  refine ⟨change.written, fun kind n ↦ ?_⟩
  by_cases hk : ArtifactKind.place w kind n = l
  · have here := hl kind n hk
    rw [hk]
    exact ⟨fun _ ↦ here, fun _ ↦ adds.kept l here⟩
  · exact change.tree.isSome_iff hk

/-- Appending makes and removes nothing. -/
theorem settles_of_append {content : Bytes} (ht : h.tree.Sound) (hh : h.append l content = .ok h') :
    Settles w h h' := by
  have adds := adds_append ht hh
  cases hl : h.tree.node? l with
  | none =>
    rw [append, hl] at hh
    exact Except.ok.inj hh ▸ ⟨.refl ht, fun _ _ ↦ Iff.rfl⟩
  | some n =>
    exact settles_of_writesOnly (writesOnly_append ht hh) adds fun _ _ _ ↦ Option.isSome_of_eq_some hl

/-- So does a change to what a path leads to that is not a free name. -/
theorem Avoids.isSome {h : Host} (hq : h.Avoids w q) (hp : h.locate q = .ok place)
    {kind : ArtifactKind} {n : Nat} (hk : ArtifactKind.place w kind n = place.location) :
    (h.tree.node? place.location).isSome := by
  cases place with
  | entry l a => exact Option.isSome_of_eq_some (Tree.shows_of_locate hp)
  | vacant l =>
    obtain rfl : ArtifactKind.place w kind n = l := hk
    exact absurd hp (hq kind n)

end Host

/-- Whether the tools remove nothing. -/
def Toolchain.RemovesNothing (tc : Toolchain σ) : Prop :=
  ∀ (i : Invocation) (st : σ) (h : Host), h.tree.Sound → h.Adds (h.withTree (tc.run i st h).tree)

/-- A tool that writes nothing but a file which is there or has another name. -/
theorem Toolchain.WritesOutputOnly.settles (htools : tc.WritesOutputOnly) (hadds : tc.RemovesNothing)
    {w : Location} (ht : h.tree.Sound) {i : Invocation} {st : σ}
    (hi : ∀ q, i.written? = some q → h.Avoids w q) :
    Host.Settles w h (h.withTree (tc.run i st h).tree) := by
  have adds := hadds i st h ht
  by_cases hp : ∃ p place, i.written? = some p ∧ h.locate p = .ok place
  · obtain ⟨p, place, hp, hplace⟩ := hp
    have change := htools i st h ht place.location fun q place' hq hplace' ↦ by
      obtain rfl := Option.some.inj (hp.symm.trans hq)
      exact congrArg _ (Except.ok.inj (hplace'.symm.trans hplace))
    exact Host.settles_of_writesOnly ⟨change, rfl⟩ adds fun _ _ hk ↦ (hi p hp).isSome hplace hk
  · have change := htools i st h ht [] fun p place hp' hplace ↦ absurd ⟨p, place, hp', hplace⟩ hp
    exact Host.settles_of_writesOnly ⟨change, rfl⟩ adds fun _ _ _ ↦ by rw [Tree.node?_root]; rfl

/-! ## What a build that keeps its files leaves -/

/-- Whether a path leads to a directory in which no name of this kind is taken. -/
structure Host.Blank (h : Host) (wd : Path) (w : Location) : Prop where
  /-- The tree is sound. -/
  sound : h.tree.Sound
  /-- The directory is there. -/
  home : ∃ e, h.entry wd = .ok (w, .directory e)
  /-- The names are free. -/
  free : ∀ kind n, h.tree.node? (ArtifactKind.place w kind n) = none

/-- Whether a tool was told to write nothing that leads to a free name of this kind. -/
def LoggedRun.Avoids (w : Location) (r : LoggedRun) : Prop :=
  ∀ q, r.invocation.written? = some q → r.before.Avoids w q

namespace BuildOptions

/-- Whether tools were told so where the directory does not answer for it: if that is absolute, only the
linker can be told to write anything but a file on record. -/
def Avoids (o : BuildOptions) (w : Location) (runs : List LoggedRun) : Prop :=
  ∀ r ∈ runs, (o.workingDir.isAbsolute → r.invocation.asksToLink) → r.Avoids w

/-- The path that a build which keeps its files delivers something under itself. -/
def delivery? (o : BuildOptions) : Option Path :=
  if o.asmOnly then some (o.absolute o.assemblyOutput)
  else o.output.map fun p ↦ sidecar (o.absolute p)

end BuildOptions

namespace Host.Blank

variable {wd p q : Path} {w : Location} {place : Place} (hb : h.Blank wd w) (written : h.Written h')

include hb written

/-- The directory stays one. -/
theorem home_after : ∃ e, h'.entry wd = .ok (w, .directory e) := by
  obtain ⟨e, he⟩ := hb.home
  obtain ⟨n, hn, hentry⟩ := exists_entry_of_keepsWays hb.sound written.sound written.ways.forth
    written.cwd_eq he fun hlead ↦ by cases hlead
  have dir : (h.tree.directoryId? w).isSome := Tree.isSome_directoryId?.mpr ⟨e, node?_of_entry he⟩
  have same := written.ways.forth w (Tree.leads_of_directoryId? dir)
  rw [← Tree.directoryId?_of_shape_eq same] at dir
  obtain ⟨e', he'⟩ := Tree.isSome_directoryId?.mp dir
  obtain rfl := Option.some.inj (hn.symm.trans he')
  exact ⟨e', hentry⟩

/-- The path of a file of this kind leads to its place. -/
theorem location_of_file {m : Manner} {kind : ArtifactKind} {n : Nat}
    (hp : h'.tree.locate h'.here? m (Plan.file wd kind n) = .ok place) :
    place.location = kind.place w n := by
  obtain ⟨e, he⟩ := hb.home_after written
  refine location_of_join he (ArtifactKind.isName_fileName kind n) hp fun k hk ↦ ?_
  have lead : h.tree.leads (kind.place w n) = true := by
    rw [← written.ways.leads_eq, Tree.leads]
    exact (congrArg (Option.any Node.leads) hk).trans rfl
  rw [Tree.leads, hb.free] at lead
  cases lead

/-- What did not lead to such a place at first does not lead there later. -/
theorem place_ne (hq : h.Avoids w q) (hplace : h'.locateNew q = .ok place) (kind : ArtifactKind)
    (n : Nat) : kind.place w n ≠ place.location := by
  intro here
  obtain ⟨place₀, location, hplace₀⟩ := written.locateNew_before hb.sound hplace
  have before := Tree.locate_of_create hplace₀
  cases place₀ with
  | vacant l =>
    obtain rfl : l = kind.place w n := location.trans here.symm
    exact hq kind n before
  | entry l a =>
    obtain rfl : l = kind.place w n := location.trans here.symm
    cases (hb.free kind n).symm.trans (Tree.shows_of_locate before)

end Host.Blank

/-- Whether only files have been written, and those of this kind that are in the directory are the ones on
record. -/
structure Session.Showing (h₀ : Host) (wd : Path) (w : Location) (s : Session σ) : Prop where
  /-- Only files have been written. -/
  written : h₀.Written s.host
  /-- Those that are there are on record. -/
  shown : ∀ kind n, (s.host.tree.node? (ArtifactKind.place w kind n)).isSome ↔
    ∃ a ∈ s.store.created, a.path = Plan.file wd kind n

namespace Session.Showing

variable {h₀ : Host} {wd q : Path} {w : Location} {s t : Session σ} {place : Place}

theorem settled (hs : s.Showing h₀ wd w) (hstore : t.store = s.store)
    (settles : Host.Settles w s.host t.host) : t.Showing h₀ wd w where
  written := hs.written.trans settles.written
  shown kind n := hstore ▸ (settles.shown kind n).trans (hs.shown kind n)

/-- Something is written under a path that did not lead to such a place. -/
theorem put (hb : h₀.Blank wd w) (hs : s.Showing h₀ wd w) (hq : h₀.Avoids w q)
    (hplace : s.host.locateNew q = .ok place) (change : s.host.WritesOnly h' place.location)
    (adds : s.host.Adds h') : (s.withHost h').Showing h₀ wd w :=
  hs.settled rfl (Host.settles_of_writesOnly change adds fun kind n here ↦
    absurd here (hb.place_ne hs.written hq hplace kind n))

/-- A file that is reserved comes on record and into the directory. -/
theorem reserved (hb : h₀.Blank wd w) (hkeep : s.store.backend = .persistent wd)
    (hs : s.Showing h₀ wd w) (kind : ArtifactKind) : (s.reserved kind).Showing h₀ wd w := by
  cases hr : (s.store.reserve s.host kind).1 with
  | error e =>
    constructor
    · change h₀.Written (s.store.reserve s.host kind).2.2
      rw [ArtifactStore.host_of_reserve_error hr]
      exact hs.written
    · change ∀ kind' n, ((s.store.reserve s.host kind).2.2.tree.node? _).isSome ↔
        ∃ a ∈ (s.store.reserve s.host kind).2.1.created, _
      rw [ArtifactStore.host_of_reserve_error hr, ArtifactStore.reserve_of_error hr]
      exact hs.shown
  | ok p =>
    obtain ⟨hnext, hwrite⟩ := ArtifactStore.write_of_reserve hr
    have hp : p = Plan.file wd kind (s.store.asked.count kind) := by
      rw [ArtifactStore.nextPath?, ArtifactStore.dir?, hkeep] at hnext
      exact (Option.some.inj hnext).symm
    obtain ⟨place, hplace, change⟩ := Host.writesOnly_write hs.written.sound hwrite
    have written := hs.written.trans change.written
    obtain ⟨k, node, hentry⟩ := Host.exists_entry_of_write hs.written.sound hwrite
    rw [hp] at hplace hentry
    have location := hb.location_of_file hs.written hplace
    obtain rfl : k = _ := hb.location_of_file written (Host.locate_of_entry hentry)
    refine ⟨written, fun kind' n ↦ ?_⟩
    change ((s.store.reserve s.host kind).2.2.tree.node? _).isSome ↔
      ∃ a ∈ (s.store.reserve s.host kind).2.1.created, _
    rw [(ArtifactStore.reserve_of_ok hr hnext).2, hp]
    change _ ↔ ∃ a ∈ s.store.created ++ [_], _
    by_cases same : kind'.place w n = kind.place w (s.store.asked.count kind)
    · obtain ⟨rfl, rfl⟩ := ArtifactKind.place_inj same
      exact ⟨fun _ ↦ ⟨_, List.mem_concat_self, rfl⟩,
        fun _ ↦ Option.isSome_of_eq_some (Host.node?_of_entry hentry)⟩
    · rw [change.tree.isSome_iff (location ▸ same), hs.shown]
      refine exists_congr fun a ↦ ⟨And.imp_left (List.mem_append_left _), ?_⟩
      rintro ⟨ha, path⟩
      refine ⟨(List.mem_append.mp ha).resolve_right fun last ↦ same ?_, path⟩
      rw [List.mem_singleton.mp last] at path
      obtain ⟨rfl, rfl⟩ := ArtifactKind.join_fileName_inj path
      rfl

/-- The path of a file that has just been reserved leads to it. -/
theorem avoids_reserved (hs : s.Showing h₀ wd w) {kind : ArtifactKind} {p : Path}
    (hp : (s.store.reserve s.host kind).1 = .ok p) : (s.reserved kind).host.Avoids w p := by
  obtain ⟨k, node, hentry⟩ :=
    Host.exists_entry_of_write hs.written.sound (ArtifactStore.write_of_reserve hp).2
  exact Host.avoids_of_entry hentry

end Session.Showing

/-- Whether a session keeps its files in the working directory, and is like this if its tools avoid free
names. -/
structure Session.Shows (o : BuildOptions) (h₀ : Host) (w : Location)
    (s : Session (σ × List LogEntry)) : Prop where
  /-- The files are kept. -/
  backend_eq : s.store.backend = .persistent o.workingDir
  /-- Those that are there are on record. -/
  showing : o.Avoids w s.runs → s.Showing h₀ o.workingDir w

namespace Session.Shows

variable {h₀ : Host} {w : Location} {s : Session (σ × List LogEntry)} {q : Path}

theorem echoed (hs : s.Shows o h₀ w) (line : String) : (s.echoed tc.logging line).Shows o h₀ w where
  backend_eq := hs.backend_eq
  showing avoid := by
    rw [runs_echoed] at avoid
    have now := hs.showing avoid
    exact now.settled rfl ⟨.refl now.written.sound, fun _ _ ↦ Iff.rfl⟩

theorem reserved (hb : h₀.Blank o.workingDir w) (hs : s.Shows o h₀ w) (kind : ArtifactKind) :
    (s.reserved kind).Shows o h₀ w where
  backend_eq := (ArtifactStore.backend_reserve ..).trans hs.backend_eq
  showing avoid := (hs.showing avoid).reserved hb hs.backend_eq kind

theorem called (htools : tc.WritesOutputOnly) (hadds : tc.RemovesNothing) (hs : s.Shows o h₀ w)
    {i : Invocation} (hi : o.workingDir.isAbsolute → ¬ i.asksToLink → o.Avoids w s.runs →
      ∀ q, i.written? = some q → s.host.Avoids w q) :
    (s.called tc.logging i).Shows o h₀ w where
  backend_eq := hs.backend_eq
  showing avoid := by
    rw [runs_called] at avoid
    have earlier : o.Avoids w s.runs := fun r hr ↦ avoid r (List.mem_append_left _ hr)
    have now := hs.showing earlier
    refine now.settled rfl (htools.settles hadds now.written.sound ?_)
    by_cases told : o.workingDir.isAbsolute → i.asksToLink
    · exact avoid _ List.mem_concat_self told
    · obtain ⟨abs, other⟩ := Classical.not_imp.mp told
      exact hi abs other earlier

/-- Appending makes and removes nothing. -/
theorem appended (hs : s.Shows o h₀ w) {l : Location} {content : Bytes}
    (hh : s.host.append l content = .ok h') : (s.withHost h').Shows o h₀ w where
  backend_eq := hs.backend_eq
  showing avoid := (hs.showing avoid).settled rfl
    (Host.settles_of_append (hs.showing avoid).written.sound hh)

theorem copied (hb : h₀.Blank o.workingDir w) (hs : s.Shows o h₀ w) {source : Path}
    (hq : h₀.Avoids w q) : (s.withHost (s.host.copy source q).2).Shows o h₀ w where
  backend_eq := hs.backend_eq
  showing avoid := by
    have now := hs.showing avoid
    have adds := Host.adds_copy now.written.sound source q
    rcases Host.writesOnly_copy now.written.sound source q with ⟨e, fails⟩ | ⟨place, hplace, change⟩
    · rw [fails]
      exact now
    · exact now.put hb hq hplace change adds

theorem wrote (hb : h₀.Blank o.workingDir w) (hs : s.Shows o h₀ w) {content : Bytes}
    (hq : h₀.Avoids w q) (hh : s.host.write q content = .ok h') :
    (s.withHost h').Shows o h₀ w where
  backend_eq := hs.backend_eq
  showing avoid := by
    have now := hs.showing avoid
    obtain ⟨place, hplace, change⟩ := Host.writesOnly_write now.written.sound hh
    exact now.put hb hq hplace change (Host.adds_write now.written.sound hh)

end Session.Shows

namespace Build

variable {h₀ : Host} {w : Location} {s : Session (σ × List LogEntry)}

theorem preserves_mergeAssembly_shows (asm : Path) (inputs : ClassifiedInputs) :
    Preserves (Session.Shows o h₀ w) (mergeAssembly tc.logging o asm inputs) :=
  .mergeAssembly (fun _ line hs ↦ hs.echoed line) (fun _ _ _ _ _ _ _ ht hh ↦ ht.appended hh) inputs

/-- The assembly is put to its destination, and to no free name of this kind. -/
theorem preserves_emitAssembly_shows (hb : h₀.Blank o.workingDir w)
    (hdest : h₀.Avoids w (o.absolute o.assemblyOutput)) (asm : Path) :
    Preserves (Session.Shows o h₀ w) (emitAssembly tc.logging o asm) := by
  refine .bind .host fun h ↦ ?_
  split
  · exact .pure _
  · refine .bind (fun s hs ↦ ends_bind.mpr (ends_echo.mpr (ends_bind.mpr (ends_host.mpr ?_))))
      fun _ ↦ .pure _
    have noted (line : String) : (s.echoed tc.logging line).Shows o h₀ w := hs.echoed line
    exact ends_settle_snd ((noted _).copied hb hdest)

section

variable (htools : tc.WritesOutputOnly) (hadds : tc.RemovesNothing)

include htools hadds

/-- A job leaves its file. -/
theorem ends_produce_shows (hb : h₀.Blank o.workingDir w) {kind : ArtifactKind}
    {command : Path → Invocation} (hcommand : Command.NamesOutput command) (hs : s.Shows o h₀ w) :
    Ends (produce tc.logging o kind command) s (fun _ s' ↦ s'.Shows o h₀ w ∧ True)
      (fun _ s' ↦ s'.Shows o h₀ w) := by
  have reserved := hs.reserved hb kind
  refine ends_bind.mpr (ends_reserve.mpr ⟨fun p hp ↦ ?_, fun _ _ ↦ reserved⟩)
  have called : ((s.reserved kind).called tc.logging ((command p).inDir o.workingDir)).Shows o h₀ w := by
    refine reserved.called htools hadds fun abs _ avoid q hq ↦ ?_
    have absolute : p.isAbsolute := by
      obtain ⟨name, -, rfl⟩ := ArtifactStore.exists_name_of_nextPath
        (by rw [ArtifactStore.dir?, hs.backend_eq]) (ArtifactStore.write_of_reserve hp).1
      exact Path.isAbsolute_join abs _
    rw [hcommand.written?_inDir absolute] at hq
    obtain rfl := Option.some.inj hq
    exact (hs.showing avoid).avoids_reserved hp
  exact ends_bind.mpr (ends_tool.mpr ⟨fun _ _ ↦ ends_pure.mpr ⟨called, trivial⟩, fun _ _ ↦ called⟩)

/-- The linker links in the working directory. -/
theorem ends_finalLink_shows (asm : Path) (hs : s.Shows o h₀ w) :
    Ends (finalLink tc.logging o asm) s
      (fun target s' ↦ s'.Shows o h₀ w ∧ target = .resolve o.output o.workingDir)
      (fun _ s' ↦ s'.Shows o h₀ w) := by
  refine ends_finalLink (fun dir h hopen ↦ ?_) fun _ _ ↦ hs
  rw [ArtifactStore.openLinkDir, hs.backend_eq] at hopen
  obtain ⟨rfl, rfl⟩ := Prod.mk.inj (Except.ok.inj hopen)
  have called := hs.called htools hadds (i := (Command.compile o asm (o.absolute o.abi)
    (linkedOutput o (.working o.workingDir))).inDir o.workingDir) fun _ other ↦ absurd rfl other
  exact ends_bind.mpr (ends_tool.mpr ⟨fun _ _ ↦ ends_pure.mpr ⟨called, rfl⟩, fun _ _ ↦ called⟩)

/-- The code is put beside the contract, and to no free name of this kind. -/
theorem preserves_extractCode_shows (hb : h₀.Blank o.workingDir w) {contract : Path}
    (habs : o.workingDir.isAbsolute → contract.isAbsolute) (hside : h₀.Avoids w (sidecar contract)) :
    Preserves (Session.Shows o h₀ w) (extractCode tc.logging o contract) := by
  intro s hs
  have called : (s.called tc.logging ((Command.decode o contract).inDir o.workingDir)).Shows o h₀ w :=
    hs.called htools hadds fun abs _ _ q hq ↦ by
      have plain := Command.ne_option_of_isAbsolute (habs abs)
      cases (Command.written?_decode o plain _).symm.trans hq
  refine ends_bind.mpr (ends_tool.mpr ⟨fun report _ ↦ ?_, fun _ _ ↦ called⟩)
  cases CodeLine.find? report with
  | none => exact called
  | some code =>
    refine ends_bind.mpr (ends_host.mpr (ends_bind.mpr (ends_change.mpr ⟨fun h' hh ↦ ?_, ?_⟩)))
    · exact called.wrote hb hside hh
    · exact fun _ _ ↦ called

/-- All stages leave the files on record, and no others of this kind. -/
theorem preserves_stages_shows (hb : h₀.Blank o.workingDir w)
    (hdelivery : ∀ q, o.delivery? = some q → h₀.Avoids w q) (paths : List Path) :
    Preserves (Session.Shows o h₀ w) (stages tc.logging o paths) := by
  intro s hs
  cases hpaths : classify paths with
  | error e =>
    unfold stages classified
    rw [hpaths]
    exact hs
  | ok inputs =>
    rw [stages_eq_generated tc.logging o hpaths]
    refine (ends_generated (fun kind command hcommand s hs ↦
      ends_produce_shows htools hadds hb hcommand hs) inputs hs).bind fun asm s held ↦ ?_
    refine (preserves_mergeAssembly_shows asm inputs s held.1).bind fun _ s hs ↦ ?_
    unfold BuildOptions.delivery? at hdelivery
    split
    next hasm =>
      rw [if_pos hasm] at hdelivery
      exact (preserves_emitAssembly_shows hb (hdelivery _ rfl) asm s hs).bind fun _ _ hs ↦ hs
    next hasm =>
      rw [if_neg hasm] at hdelivery
      refine (ends_finalLink_shows htools hadds asm hs).bind fun target s linked ↦ ?_
      obtain ⟨hs, rfl⟩ := linked
      cases hout : o.output with
      | none => exact hs
      | some p =>
        have abs (hwd : o.workingDir.isAbsolute) : (o.absolute p).isAbsolute :=
          Path.isAbsolute_join hwd p
        have side := preserves_extractCode_shows htools hadds hb abs (hdelivery _ (by rw [hout]; rfl))
        exact (side s hs).bind fun _ _ hs ↦ hs

end

/-! ## Whole builds -/

/-- How far a first build gets in reserving the files of its plan. -/
structure Records (dir : Path) (persistent : Bool) (inputs : ClassifiedInputs) (log : List LogEntry)
    (created : List Artifact) (result : Except BuildError BuildOutcome) : Prop where
  /-- As many files are on record as tools have run, and all of them if more have. -/
  created_eq : created = ((Plan.slots (fun _ ↦ 0) inputs).take
    (log.filterMap LogEntry.run?).length).map (Plan.artifact dir persistent)
  /-- A build that succeeds has them all. -/
  all : ∀ outcome, result = .ok outcome →
    (Plan.slots (fun _ ↦ 0) inputs).length ≤ (log.filterMap LogEntry.run?).length
  /-- One that fails has them too, unless a file could not be reserved, an input is missing or the last
  tool has failed. -/
  some : ∀ e, result = .error e →
    (Plan.slots (fun _ ↦ 0) inputs).length ≤ (log.filterMap LogEntry.run?).length ∨
      e.isOfReserving = true ∨ (∃ p, e = .missingInput p) ∨ FailedWith e log

/-- A first build whose inputs are accepted reserves the files of its plan in order. -/
theorem records_of_run (tc : Toolchain σ) {tools : σ} {s : Session σ} (hs : Session.start o tools h = .ok s)
    (hdir : s.store.dir? = some dir) {paths : List Path} {inputs : ClassifiedInputs}
    (hinputs : classify paths = .ok inputs) :
    Records dir o.saveTemps inputs (history tc o paths s) ((run tc o paths).runIn s).2.store.created
      ((run tc o paths).runIn s).1 := by
  obtain ⟨dir, ending, moves, hdir', -, taken, -, hmoved, hcreated, -⟩ :=
    moves_of_run tc o hs hinputs
  obtain rfl := Option.some.inj (hdir.symm.trans hdir')
  have created : ((run tc o paths).runIn s).2.store.created = ((Plan.slots (fun _ ↦ 0) inputs).take
      ((history tc o paths s).filterMap LogEntry.run?).length).map
        (Plan.artifact dir o.saveTemps) := by
    have whole : Plan.whole o dir (fun _ ↦ 0) inputs ending =
        Plan.production o dir (fun _ ↦ 0) inputs ++
          (Plan.appending inputs (Plan.assembly dir fun _ ↦ 0) ++
            Plan.ending o (Plan.assembly dir fun _ ↦ 0) ending) := by
      simp [Plan.whole, Plan.toAssembly, Plan.production]
    rw [hcreated, Plan.record_of_prefix o.saveTemps (fun _ hm ↦ Plan.production_moves o dir _ inputs hm)
      (Plan.artifact_rest o dir _ inputs ending) (whole ▸ taken), Plan.record_production,
      List.map_take, length_runs, events_of_moved hmoved]
  have complete (hall : ((run tc o paths).runIn s).2.store.created =
      (Plan.slots (fun _ ↦ 0) inputs).map (Plan.artifact dir o.saveTemps)) :
      (Plan.slots (fun _ ↦ 0) inputs).length ≤
        ((history tc o paths s).filterMap LogEntry.run?).length := by
    have lengths := congrArg List.length (created.symm.trans hall)
    rw [List.length_map, List.length_map, List.length_take] at lengths
    exact lengths ▸ Nat.min_le_left _ _
  obtain ⟨-, nothing, asked, persistent, -⟩ := Session.fresh_of_start hs
  have ended : Ends (run tc.logging o paths) s.withLog
      (fun _ s' ↦ s'.store.created =
        (Plan.slots (fun _ ↦ 0) inputs).map (Plan.artifact dir o.saveTemps))
      (fun e s' ↦ s'.store.created =
          (Plan.slots (fun _ ↦ 0) inputs).map (Plan.artifact dir o.saveTemps) ∨
        e.isOfReserving = true ∨ (∃ p, e = .missingInput p) ∨ FailedWith e s'.tools.2) := by
    have none (kind : ArtifactKind) : s.withLog.store.asked.count kind = 0 := by
      change s.store.asked.count kind = 0
      rw [asked, List.count_nil]
    have stages := ends_stages_created (s := s.withLog) tc o hdir none hinputs
    have before : s.withLog.store.created = [] := nothing
    rw [before, List.nil_append] at stages
    refine ends_andFinally.mpr (stages.mono (fun _ _ h ↦ ?_) fun e _ h ↦ h.imp_left fun h ↦ ?_)
    all_goals exact (Session.created_cleanup _).trans (persistent ▸ h)
  obtain ⟨ok, error⟩ := ends_iff.mp ended
  have logged := runIn_run_eq_logging tc o paths s
  refine ⟨created, fun outcome houtcome ↦ complete ?_, fun e he ↦ ?_⟩
  · rw [logged] at houtcome ⊢
    exact ok outcome houtcome
  · rw [logged] at he
    refine (error e he).imp_left fun hall ↦ complete ?_
    rw [logged]
    exact hall

/-- A session that keeps its files starts with the host as it is. -/
theorem eq_of_start_persistent {tools : σ} {s : Session σ} (hs : Session.start o tools h = .ok s)
    (hkeep : o.saveTemps = true) : s = ⟨h, .persistent o.workingDir, tools, []⟩ :=
  ((Session.start_cases hs).resolve_right fun h ↦ by cases hkeep.symm.trans h.1).2

/-- A build that keeps its files leaves those on record, and no others of this kind. -/
theorem shown_of_run {tools : σ} {s : Session σ} (hs : Session.start o tools h = .ok s)
    (hkeep : o.saveTemps = true) {w : Location} (hb : h.Blank o.workingDir w)
    (htools : tc.WritesOutputOnly) (hadds : tc.RemovesNothing)
    (hdelivery : ∀ q, o.delivery? = some q → h.Avoids w q) {paths : List Path}
    (hruns : o.Avoids w ((history tc o paths s).filterMap LogEntry.run?)) :
    ((run tc o paths).runIn s).2.Showing h o.workingDir w := by
  have start : s.withLog.Shows o h w := by
    obtain rfl := eq_of_start_persistent hs hkeep
    refine ⟨rfl, fun _ ↦ ⟨.refl hb.sound, fun kind n ↦ ?_⟩⟩
    change (h.tree.node? _).isSome ↔ ∃ a ∈ [], _
    simp [hb.free kind n]
  have staged := (preserves_stages_shows htools hadds hb hdelivery paths s.withLog start).snd
  -- the tools are those after the cleanup, which does nothing
  have shows := staged.showing hruns
  have kept := Session.Keeping.cleanup_eq ⟨shows.written.sound, _, staged.backend_eq⟩
  have ended : ((run tc.logging o paths).runIn s.withLog).2.Showing h o.workingDir w := by
    change (((stages tc.logging o paths).runIn s.withLog).2.cleanup).Showing h o.workingDir w
    rw [kept]
    exact shows
  rw [runIn_run_eq_logging]
  exact ⟨ended.written, ended.shown⟩

/-- Whether a build keeps its files in a directory without files of such names, and nothing else puts
one there: no tool removes anything or writes anything but its output, and neither that nor what the
build delivers itself leads to a free name of this kind. -/
structure Untouched (tc : Toolchain σ) (o : BuildOptions) (h : Host) (w : Location)
    (runs : List LoggedRun) : Prop where
  /-- It keeps its files. -/
  keeps : o.saveTemps = true
  /-- The directory has none. -/
  blank : h.Blank o.workingDir w
  /-- Tools write their outputs only. -/
  outputs : tc.WritesOutputOnly
  /-- They remove nothing. -/
  adds : tc.RemovesNothing
  /-- The outputs make no such file. -/
  told : o.Avoids w runs
  /-- What is delivered makes none. -/
  delivery : ∀ q, o.delivery? = some q → h.Avoids w q

/-- Files on record have different paths, however a store or a session is used.  After a first build
they are those of its plan, as many as tools have run; and a build that keeps them in a directory that
had no files of such names leaves these there and no others. -/
theorem files_on_record (tc : Toolchain σ) (o : BuildOptions) {tools : σ} {s : Session σ} (hs : Session.start o tools h = .ok s) :
    (∀ x : StoreState, x.store.created = [] → ∀ calls, (x.after calls).store.Distinct) ∧
    (∀ calls, (s.after tc o calls).store.Distinct) ∧
    ∃ dir, s.store.dir? = some dir ∧ (o.saveTemps = true → dir = o.workingDir) ∧ ∀ paths,
      let ended := (run tc o paths).runIn s
      let log := history tc o paths s
      (∀ e, classify paths = .error e → ended.1 = .error e ∧ ended.2.store.created = []) ∧
      (∀ inputs, classify paths = .ok inputs →
        Records dir o.saveTemps inputs log ended.2.store.created ended.1) ∧
      ∀ w, Untouched tc o h w (log.filterMap LogEntry.run?) → ∀ kind n,
        ((ended.2.host.tree.node? (kind.place w n)).isSome ↔
          ∃ a ∈ ended.2.store.created, a.path = Plan.file dir kind n) ∧
        ∀ inputs outcome, classify paths = .ok inputs → ended.1 = .ok outcome →
          ((ended.2.host.tree.node? (kind.place w n)).isSome ↔
            (kind, n) ∈ Plan.slots (fun _ ↦ 0) inputs) := by
  obtain ⟨-, nothing, -, -, dir, hdir⟩ := Session.fresh_of_start hs
  have hwd (hkeep : o.saveTemps = true) : dir = o.workingDir := by
    obtain rfl := eq_of_start_persistent hs hkeep
    exact (Option.some.inj hdir).symm
  refine ⟨fun x hx calls ↦ ?_, fun calls ↦ ?_, dir, hdir, hwd, fun paths ↦ ⟨fun e he ↦ ?_, ?_, ?_⟩⟩
  · obtain ⟨d, numbered⟩ := ArtifactStore.exists_numbered hx
    exact (StoreState.numbered_after numbered calls).distinct
  · have start : s.store.Numbered dir := ArtifactStore.numbered_of_nil nothing (.inl hdir)
    have step (s : Session σ) (c : Call) (hs : s.store.Numbered dir) :
        (c.perform tc o s).store.Numbered dir :=
      c.store_perform (P := (·.Numbered dir)) (fun s h kind hs ↦ hs.reserve h kind)
        (fun s h hs ↦ hs.cleanup h) hs
    exact (Session.holds_after (I := fun s ↦ s.store.Numbered dir) step start calls).distinct
  · rw [runIn_run_of_classify_error tc o he]
    exact ⟨rfl, (Session.created_cleanup s).trans nothing⟩
  · exact fun inputs hinputs ↦ records_of_run tc hs hdir hinputs
  · intro w hw kind n
    obtain rfl := hwd hw.keeps
    have showing := shown_of_run hs hw.keeps hw.blank hw.outputs hw.adds hw.delivery hw.told
    refine ⟨showing.shown kind n, fun inputs outcome hinputs houtcome ↦ (showing.shown kind n).trans ?_⟩
    have records := records_of_run tc hs hdir hinputs
    rw [records.created_eq, List.take_of_length_le (records.all outcome houtcome)]
    constructor
    · rintro ⟨_, ha, path⟩
      obtain ⟨slot, hslot, rfl⟩ := List.mem_map.mp ha
      obtain ⟨rfl, rfl⟩ := ArtifactKind.join_fileName_inj path
      exact hslot
    · exact fun hslot ↦ ⟨_, List.mem_map_of_mem hslot, rfl⟩

/-! ## A sample -/

theorem removesNothing_writing (content : Bytes) : (Toolchain.writing content).RemovesNothing := by
  intro i st h ht
  unfold Toolchain.writing
  dsimp only
  split
  next p hp =>
    split
    next h' hwrite =>
      have adds := Host.adds_write ht hwrite
      exact ⟨adds.sound, adds.ways, adds.kept⟩
    next => exact .refl ht
  next => exact .refl ht

/-- The names of this kind start with a digit. -/
theorem exists_first_fileName (kind : ArtifactKind) (n : Nat) :
    ∃ b ∈ (Bytes.ofString (kind.fileName n)).head?, b ≤ 57 := by
  rw [Bytes.ofString, ArtifactKind.toList_fileName, List.append_assoc, Utf8.encode,
    List.flatMap_append]
  cases kind <;> exact ⟨_, rfl, by decide⟩

/-- Names that start with other bytes leave them free. -/
theorem blank_of_first {wd : Path} {w : Location} (ht : h.tree.Sound)
    (home : ∃ e, h.entry wd = .ok (w, .directory e))
    (first : ∀ e ∈ h.tree.entries, ∀ name ∈ e.1.getLast?, ∀ b ∈ name.head?, 57 < b) :
    h.Blank wd w := by
  refine ⟨ht, home, fun kind n ↦ Option.eq_none_iff_forall_ne_some.mpr fun node hnode ↦ ?_⟩
  obtain ⟨b, hb, digit⟩ := exists_first_fileName kind n
  have listed := (ht.node?_eq_some_iff (List.append_ne_nil_of_right_ne_nil w
    (List.cons_ne_nil _ []))).mp hnode
  exact absurd (first _ listed _ (List.getLast?_concat ..) b hb) (Nat.not_lt.mpr digit)

/-- Options for a build like that of the assembly, which keeps its files. -/
def keptBesideWallet : BuildOptions := { besideWallet with saveTemps := true }

/-- A build of one source leaves five files. -/
theorem files_on_record_sample :
    ∃ s, Session.start keptBesideWallet () handwritten = .ok s ∧
      ∀ kind n, ((((run (.writing (Bytes.ofString "; llc\n")) keptBesideWallet
        [.ofString "main.c"]).runIn s).2.host.tree.node?
          (ArtifactKind.place [Bytes.ofString "w"] kind n)).isSome ↔
        (kind, n) ∈ [(.frontend, 0), (.link, 0), (.internalize, 0), (.optimize, 0), (.codegen, 0)]) := by
  let tc := Toolchain.writing (Bytes.ofString "; llc\n")
  let paths := [Path.ofString "main.c"]
  obtain ⟨s, hs, hrun⟩ := exists_of_map_decide (x := Session.start keptBesideWallet () handwritten)
    (P := fun s ↦ ((run tc keptBesideWallet paths).runIn s).1 =
        .ok (.assembly (.ofString "/w/wallet.s")) ∧
      ∀ r ∈ (history tc keptBesideWallet paths s).filterMap LogEntry.run?, ¬ r.invocation.asksToLink)
    (by decide +kernel)
  obtain ⟨done, noLink⟩ := hrun
  obtain ⟨wallet, hwallet, -⟩ := exists_of_map_decide (P := fun _ ↦ True)
    (x := handwritten.entry (.ofString "/w/wallet.s")) (by decide +kernel)
  have untouched : Untouched tc keptBesideWallet handwritten [Bytes.ofString "w"]
      ((history tc keptBesideWallet paths s).filterMap LogEntry.run?) := by
    refine ⟨rfl, blank_of_first sound_handwritten ?_ (by decide +kernel),
      Toolchain.writesOutputOnly_writing _, removesNothing_writing _, fun r hr told ↦ ?_, ?_⟩
    · exact ⟨_, rfl⟩
    · exact absurd (told (by decide)) (noLink r hr)
    · rintro _ ⟨⟩
      exact Host.avoids_of_entry hwallet
  obtain ⟨-, -, dir, -, -, files⟩ := files_on_record tc _ hs
  refine ⟨s, hs, fun kind n ↦ ?_⟩
  exact ((files paths).2.2 _ untouched kind n).2 ⟨[], [⟨.ofString "main.c", .c, 0⟩], [], [], []⟩ _
    (by decide +kernel) done

/-- A host on which the assembly is to go where a link leads to a free name of this kind. -/
def astray : Host := { handwritten with
  tree := handwritten.tree.set [Bytes.ofString "w", Bytes.ofString "wallet.s"]
    (.link ⟨.ofString "1-clang-2.ll", 0⟩) }

/-- A build that keeps its files and has no output of its own can leave one more file of this kind, for
which none was reserved; and one that misses an input has reserved none, though no tool has failed. -/
theorem file_left_behind_link :
    let tc := Toolchain.writing (Bytes.ofString "; llc\n")
    let o := keptBesideWallet
    let w := [Bytes.ofString "w"]
    o.saveTemps = true ∧ o.output = none ∧ tc.WritesOutputOnly ∧ tc.RemovesNothing ∧
      astray.Blank o.workingDir w ∧ ∃ s, Session.start o () astray = .ok s ∧
        (∃ inputs, classify [.ofString "main.c"] = .ok inputs ∧
          ((run tc o [.ofString "main.c"]).runIn s).1 = .ok (.assembly (.ofString "/w/wallet.s")) ∧
          (((run tc o [.ofString "main.c"]).runIn s).2.host.tree.node?
            (ArtifactKind.place w .frontend 1)).isSome = true ∧
          (.frontend, 1) ∉ Plan.slots (fun _ ↦ 0) inputs) ∧
        ((run tc o [.ofString "gone.c"]).runIn s).1 = .error (.missingInput (.ofString "gone.c")) ∧
        ((run tc o [.ofString "gone.c"]).runIn s).2.store.created = [] ∧
        history tc o [.ofString "gone.c"] s = [] := by
  intro tc o w
  have sound : astray.tree.Sound := by
    obtain ⟨f, hf⟩ : ∃ f, handwritten.tree.node? [Bytes.ofString "w", Bytes.ofString "wallet.s"] =
      some (.file f) := ⟨_, rfl⟩
    exact sound_handwritten.set (by decide) hf rfl rfl rfl
  obtain ⟨s, hs, done, left, missing⟩ := exists_of_map_decide (x := Session.start o () astray)
    (P := fun s ↦ ((run tc o [.ofString "main.c"]).runIn s).1 =
        .ok (.assembly (.ofString "/w/wallet.s")) ∧
      (((run tc o [.ofString "main.c"]).runIn s).2.host.tree.node?
        (ArtifactKind.place w .frontend 1)).isSome = true ∧
      ((run tc o [.ofString "gone.c"]).runIn s).1 = .error (.missingInput (.ofString "gone.c")) ∧
      ((run tc o [.ofString "gone.c"]).runIn s).2.store.created = [] ∧
      (history tc o [.ofString "gone.c"] s).isEmpty = true) (by decide +kernel)
  refine ⟨rfl, rfl, Toolchain.writesOutputOnly_writing _, removesNothing_writing _,
    blank_of_first sound ⟨_, rfl⟩ (by decide +kernel), s, hs, ?_⟩
  refine ⟨⟨⟨[], [⟨.ofString "main.c", .c, 0⟩], [], [], []⟩, by decide +kernel, done, left, by decide⟩, ?_⟩
  exact ⟨missing.1, missing.2.1, List.isEmpty_iff.mp missing.2.2⟩

end Build

end ContractBuild
