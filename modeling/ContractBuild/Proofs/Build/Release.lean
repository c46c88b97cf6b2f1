import ContractBuild.Proofs.Build.AssemblyOnly
import ContractBuild.Proofs.Build.Invariants
import ContractBuild.Proofs.FileSystem.Release

/-!
# Temporary directories are given up

A build that does not keep its files has a directory for them, and each of its final links has one
of its own.  The first goes at the end of a whole build, or when the session is given up, the second
before the final link ends.  Nothing else is removed, whatever is called and however it ends, as long
as the tools leave the directories under their paths as ones that can be removed, or remove them.
-/

namespace ContractBuild

open Build

variable {σ : Type} {tc : Toolchain σ} {o : BuildOptions} {h h' : Host} {dir p : Path}
  {d l : Location} {ownDir : Bool}

/-! ## What a build does between the runs of its tools -/

/-- From one host to another, while tools made these runs, a build has added files and nothing else,
but that it may have made a directory for one run and removed it afterwards. -/
inductive Driven (ownDir : Bool) (h : Host) : List LoggedRun → Host → Prop
  /-- It has done nothing. -/
  | start : Driven ownDir h [] h
  /-- It has added files. -/
  | add {rs : List LoggedRun} {m m' : Host} (so : Driven ownDir h rs m) (adds : m.Adds m') :
      Driven ownDir h rs m'
  /-- It has run a tool. -/
  | call {rs : List LoggedRun} {r : LoggedRun} (so : Driven ownDir h rs r.before) :
      Driven ownDir h (rs ++ [r]) (r.before.withTree r.after)
  /-- It has run a tool in a new directory, which is gone. -/
  | link {rs : List LoggedRun} {m m' : Host} {r : LoggedRun} {p : Path} {l : Location}
      (hown : ownDir = true) (so : Driven ownDir h rs m) (free : m.HasFree p l)
      (made : m.makeTemporary "tvm-link-" = .ok (p, r.before)) (ran : r.invocation.dir = some p)
      (released : (r.before.withTree r.after).Releases m' l) : Driven ownDir h (rs ++ [r]) m'

/-- The tool run that is logged. -/
def Toolchain.logged (tc : Toolchain σ) (i : Invocation) (st : σ) (h : Host) : LoggedRun :=
  ⟨i, h, (tc.run i st h).outcome, (tc.run i st h).tree⟩

/-- The tool run of a log entry. -/
def LogEntry.run? : LogEntry → Option LoggedRun
  | .run r => some r
  | .echo _ => none

namespace Session

/-- The tool runs on the log of a session. -/
def runs (s : Session (σ × List LogEntry)) : List LoggedRun := s.tools.2.filterMap LogEntry.run?

variable {m s t : Session (σ × List LogEntry)}

@[simp] theorem runs_echoed (s : Session (σ × List LogEntry)) (line : String) :
    (s.echoed tc.logging line).runs = s.runs := by
  simp [runs, echoed, Toolchain.logging, LogEntry.run?]

@[simp] theorem runs_called (s : Session (σ × List LogEntry)) (i : Invocation) :
    (s.called tc.logging i).runs = s.runs ++ [tc.logged i s.tools.1 s.host] := by
  simp [runs, called, Toolchain.logging, Toolchain.logged, LogEntry.run?]

/-- Whether one session comes from another in this way. -/
def Drives (ownDir : Bool) (m s : Session (σ × List LogEntry)) : Prop :=
  ∃ rs, s.runs = m.runs ++ rs ∧ Driven ownDir m.host rs s.host

namespace Drives

theorem refl (ownDir : Bool) (m : Session (σ × List LogEntry)) : Drives ownDir m m :=
  ⟨[], (List.append_nil _).symm, .start⟩

theorem echoed (hm : Drives ownDir m s) (line : String) :
    Drives ownDir m (s.echoed tc.logging line) := by
  obtain ⟨rs, hrs, driven⟩ := hm
  exact ⟨rs, (runs_echoed s line).trans hrs, driven⟩

theorem added (hm : Drives ownDir m s) (hruns : t.runs = s.runs) (adds : s.host.Adds t.host) :
    Drives ownDir m t := by
  obtain ⟨rs, hrs, driven⟩ := hm
  exact ⟨rs, hruns.trans hrs, driven.add adds⟩

theorem called (hm : Drives ownDir m s) (i : Invocation) :
    Drives ownDir m (s.called tc.logging i) := by
  obtain ⟨rs, hrs, driven⟩ := hm
  refine ⟨rs ++ [tc.logged i s.tools.1 s.host], ?_, .call driven⟩
  rw [runs_called, hrs, List.append_assoc]

end Drives

/-- From one session to another files have been added, and no tool has run. -/
structure Grows (t s : Session (σ × List LogEntry)) : Prop where
  /-- The store is the same. -/
  store_eq : s.store = t.store
  /-- The log tells of the same runs. -/
  runs_eq : s.runs = t.runs
  /-- Files have been added. -/
  adds : t.host.Adds s.host

end Session

/-- Every write of a build adds a file or changes one. -/
theorem Host.Puts.adds (hp : h.Puts h') (ht : h.tree.Sound) : h.Adds h' := by
  cases hp with
  | append hh => exact adds_append ht hh
  | copy source dest => exact adds_copy ht source dest
  | write hh => exact adds_write ht hh

theorem Session.Grows.steady (tc : Toolchain σ) (t : Session (σ × List LogEntry)) :
    Session.Steady tc.logging t.Grows where
  echoed s line hs := ⟨hs.store_eq, (runs_echoed s line).trans hs.runs_eq, hs.adds⟩
  put _ _ hs hp := ⟨hs.store_eq, hs.runs_eq, hs.adds.trans (hp.adds hs.adds.sound)⟩

/-! ## Builds that keep their files -/

/-- Whether a session keeps its files. -/
structure Session.Keeping (s : Session σ) : Prop where
  /-- The tree is sound. -/
  sound : s.host.tree.Sound
  /-- The files are in the working directory. -/
  kept : ∃ dir, s.store.backend = .persistent dir

theorem Session.Keeping.lasting (htools : tc.KeepsSound) (m : Session (σ × List LogEntry)) :
    Session.Lasting tc.logging fun s ↦ s.Keeping ∧ Drives false m s where
  echoed s line := fun ⟨hs, hm⟩ ↦ ⟨⟨hs.sound, hs.kept⟩, hm.echoed line⟩
  put s h := fun ⟨hs, hm⟩ hp ↦ by
    have adds := hp.adds hs.sound
    exact ⟨⟨adds.sound, hs.kept⟩, hm.added rfl adds⟩
  called s i := fun ⟨hs, hm⟩ ↦ ⟨⟨htools i s.tools.1 s.host hs.sound, hs.kept⟩, hm.called i⟩
  reserved s kind := fun ⟨hs, hm⟩ ↦ by
    have adds := ArtifactStore.adds_reserve hs.sound s.store kind
    refine ⟨⟨adds.sound, ?_⟩, hm.added rfl adds⟩
    simpa [Session.reserved] using hs.kept

theorem Session.Keeping.finalLink (htools : tc.KeepsSound) (m : Session (σ × List LogEntry))
    (asm : Path) :
    Preserves (fun s ↦ s.Keeping ∧ Drives false m s) (finalLink tc.logging o asm) := by
  intro s hs
  obtain ⟨wd, hwd⟩ := hs.1.kept
  have opened : s.store.openLinkDir s.host = .ok (.working wd, s.host) := by
    rw [ArtifactStore.openLinkDir, hwd]
  refine ends_finalLink (fun linkDir h' hopen ↦ ?_) fun _ _ ↦ hs
  obtain ⟨rfl, rfl⟩ := Prod.mk.inj (Except.ok.inj (opened.symm.trans hopen))
  have ran := (Session.Keeping.lasting htools m).tool
    ((Command.compile o asm (o.absolute o.abi) (linkedOutput o (.working wd))).inDir wd) s hs
  exact ran.bind fun _ _ hs ↦ ends_pure.mpr hs

/-! ## Builds that do not -/

/-- Whether the tools leave a directory, under its path, as one that can be removed, or remove it for
good; and whether they leave a directory that has just been made for a run in the same way, so that
the first is left so without it, too. -/
structure Toolchain.Spares (tc : Toolchain σ) (dir : Path) (d : Location) : Prop where
  /-- They leave sound trees. -/
  keepsSound : tc.KeepsSound
  /-- Every run leaves the directory so. -/
  run : ∀ (i : Invocation) (st : σ) (h : Host), h.tree.Sound →
    h.KeepsReleasable (h.withTree (tc.run i st h).tree) dir d
  /-- A run leaves its own directory so. -/
  link : ∀ (i : Invocation) (st : σ) (h₀ h : Host) (p : Path) (l : Location), h₀.HasFree p l →
    h₀.makeTemporary "tvm-link-" = .ok (p, h) → i.dir = some p →
    (h.withTree (tc.run i st h).tree).Releasable p l ∧
      h₀.KeepsReleasable ((h.withTree (tc.run i st h).tree).without l) dir d

/-- Whether a session has its files in a directory that can be given up, or has given that up. -/
structure Session.Releasing (dir : Path) (d : Location) (s : Session σ) : Prop where
  /-- The tree is sound. -/
  sound : s.host.tree.Sound
  /-- The files on record are there. -/
  created : ∀ a ∈ s.store.created, ∃ name : Path, name.IsName ∧ a.path = dir.join name
  /-- The directory can be removed, or it is gone. -/
  backend : s.store.backend = .ephemeral (some dir) ∧ s.host.Releasable dir d ∨
    s.store.backend = .ephemeral none ∧ s.host.Gone dir d

namespace Session.Releasing

variable {s : Session σ}

/-- It stays so while the directory stays, or goes for good. -/
theorem withHost (hs : s.Releasing dir d) (ht : h.tree.Sound)
    (keeps : s.host.KeepsReleasable h dir d) : (s.withHost h).Releasing dir d :=
  ⟨ht, hs.created, hs.backend.imp (fun hb ↦ ⟨hb.1, keeps.releasable hb.2⟩) fun hb ↦
    ⟨hb.1, keeps.gone hb.2⟩⟩

theorem withAdded (hs : s.Releasing dir d) (adds : s.host.Adds h) :
    (s.withHost h).Releasing dir d :=
  hs.withHost adds.sound (Host.keepsReleasable_of_sameWays adds.sound adds.ways)

theorem reserved (hs : s.Releasing dir d) (kind : ArtifactKind) :
    (s.reserved kind).Releasing dir d := by
  have added := hs.withAdded (ArtifactStore.adds_reserve hs.sound s.store kind)
  refine ⟨added.sound, fun a ha ↦ ?_, ?_⟩
  · refine (ArtifactStore.mem_created_reserve ha).elim (hs.created a) fun hnext ↦ ?_
    rcases hs.backend with ⟨hb, -⟩ | ⟨hb, -⟩
    · exact ArtifactStore.exists_name_of_nextPath (by rw [ArtifactStore.dir?, hb]) hnext
    · simp [ArtifactStore.nextPath?, ArtifactStore.dir?, hb] at hnext
  · simpa [Session.reserved] using added.backend

/-- Giving the session up removes the directory and nothing else. -/
theorem cleanup (hs : s.Releasing dir d) :
    s.host.Releases s.cleanup.host d ∧ s.cleanup.Releasing dir d := by
  have names : ∀ p ∈ (s.store.created.filter fun a ↦ !a.persistent).map (·.path),
      ∃ name : Path, name.IsName ∧ p = dir.join name := by
    intro p hp
    obtain ⟨a, ha, rfl⟩ := List.mem_map.mp hp
    exact hs.created a (List.mem_filter.mp ha).1
  rcases hs.backend with ⟨hb, hr⟩ | ⟨hb, hg⟩
  · obtain ⟨released, gone⟩ := hr.close names
    rw [← Session.Stocked.host_cleanup hb] at released gone
    refine ⟨released, gone.sound, fun a ha ↦ hs.created a (s.created_cleanup ▸ ha), .inr ⟨?_, gone⟩⟩
    rw [Session.cleanup, ArtifactStore.cleanup, hb]
  · have host : s.cleanup.host = s.host := by
      have removed := hg.removeFiles names
      rw [List.foldl_map] at removed
      rw [Session.cleanup, ArtifactStore.cleanup, hb]
      exact removed
    refine ⟨host ▸ hg.releases, host ▸ hs.sound, fun a ha ↦ hs.created a (s.created_cleanup ▸ ha),
      .inr ⟨?_, host ▸ hg⟩⟩
    rw [Session.cleanup, ArtifactStore.cleanup, hb]

end Session.Releasing

theorem Session.Releasing.lasting (htools : tc.Spares dir d) (m : Session (σ × List LogEntry)) :
    Session.Lasting tc.logging fun s ↦ s.Releasing dir d ∧ Drives true m s where
  echoed s line := fun ⟨hs, hm⟩ ↦ ⟨⟨hs.sound, hs.created, hs.backend⟩, hm.echoed line⟩
  put s h := fun ⟨hs, hm⟩ hp ↦ by
    have adds := hp.adds hs.sound
    exact ⟨hs.withAdded adds, hm.added rfl adds⟩
  called s i := fun ⟨hs, hm⟩ ↦ by
    have left := hs.withHost (htools.keepsSound i s.tools.1 s.host hs.sound)
      (htools.run i s.tools.1 s.host hs.sound)
    exact ⟨⟨left.sound, left.created, left.backend⟩, hm.called i⟩
  reserved s kind := fun ⟨hs, hm⟩ ↦
    ⟨hs.reserved kind, hm.added rfl (ArtifactStore.adds_reserve hs.sound s.store kind)⟩

/-- What a final link leaves when it gives its directory up. -/
theorem Session.Releasing.close (htools : tc.Spares dir d) {m s t s' : Session (σ × List LogEntry)}
    {i : Invocation} {st : σ} (hs : s.Releasing dir d) (hm : Drives true m s) (hdir : i.dir = some p)
    (hmade : s.host.makeTemporary "tvm-link-" = .ok (p, h)) (hstore : t.store = s.store)
    (hruns : t.runs = s.runs ++ [tc.logged i st h])
    (hhost : t.host = h.withTree (tc.run i st h).tree) (hs' : t.Grows s') :
    (s'.withHost (s'.host.removeDirectory p)).Releasing dir d ∧
      Drives true m (s'.withHost (s'.host.removeDirectory p)) := by
  obtain ⟨l, free, houses, confined, -⟩ :=
    Host.houses_makeTemporary hs.sound Host.mem_temporaryStems_link hmade
  obtain ⟨own, keeps⟩ := htools.link i st s.host h p l free hmade hdir
  rw [← hhost] at own keeps
  have grown : s'.host.Releasable p l :=
    (Host.keepsReleasable_of_sameWays hs'.adds.sound hs'.adds.ways).releasable own
  obtain ⟨released, gone⟩ := grown.removeDirectory
  -- outside its own directory, the link has added files only
  have outside := Host.sameWays_without free.ne_nil hs'.adds.ways
  have kept : s.host.KeepsReleasable (s'.host.removeDirectory p) dir d :=
    (keeps.trans (Host.keepsReleasable_of_sameWays (Host.sound_without hs'.adds.sound l)
      outside)).trans (Host.keepsReleasable_of_sameWays gone.sound grown.sameWays)
  have left := hs.withHost gone.sound kept
  have store : s'.store = s.store := hs'.store_eq.trans hstore
  refine ⟨⟨left.sound, store ▸ left.created, store ▸ left.backend⟩, ?_⟩
  obtain ⟨rs, hrs, driven⟩ := hm
  have all : (h.withTree (tc.run i st h).tree).Releases (s'.host.removeDirectory p) l :=
    hhost ▸ hs'.adds.releases released
  refine ⟨rs ++ [tc.logged i st h], ?_, .link rfl driven free hmade hdir all⟩
  rw [← List.append_assoc, ← hrs, ← hruns, ← hs'.runs_eq]
  rfl

theorem Session.Releasing.finalLink (htools : tc.Spares dir d) (m : Session (σ × List LogEntry))
    (asm : Path) :
    Preserves (fun s ↦ s.Releasing dir d ∧ Drives true m s) (finalLink tc.logging o asm) := by
  rintro s ⟨hs, hm⟩
  refine ends_finalLink (fun linkDir h hopen ↦ ?_) fun _ _ ↦ ⟨hs, hm⟩
  obtain ⟨_, hb, -⟩ | ⟨_, p, -, rfl, hmade⟩ := ArtifactStore.cases_openLinkDir hopen
  · rcases hs.backend with ⟨hb', -⟩ | ⟨hb', -⟩ <;> cases hb'.symm.trans hb
  obtain ⟨_, _, houses, -, -⟩ :=
    Host.houses_makeTemporary hs.sound Host.mem_temporaryStems_link hmade
  let linked := linkedOutput o (.scoped p)
  let i := (Command.compile o asm (o.absolute o.abi) linked).inDir p
  let noted := (s.withHost h).echoed tc.logging s!"cd {p.display}"
  let t := noted.called tc.logging i
  have hruns : t.runs = s.runs ++ [tc.logged i noted.tools.1 h] := by
    rw [runs_called, runs_echoed]
    rfl
  have close {s' : Session (σ × List LogEntry)} (hs' : t.Grows s') :
      (s'.withHost (s'.host.removeDirectory p)).Releasing dir d ∧
        Drives true m (s'.withHost (s'.host.removeDirectory p)) :=
    hs.close htools hm (t := t) (i := i) rfl hmade rfl hruns rfl hs'
  have start : t.Grows t := ⟨rfl, rfl, .refl (htools.keepsSound i noted.tools.1 h houses.sound)⟩
  have copied := (Session.Grows.steady tc t).copyOut p
    (OutputTarget.resolve o.output o.workingDir) (linked.map (·.raw)) t start
  refine ends_bind.mpr (ends_echo.mpr (ends_bind.mpr (ends_tool.mpr
    ⟨fun _ _ ↦ ?_, fun _ _ ↦ close start⟩)))
  exact ends_bind.mpr (copied.mono (fun _ _ hs' ↦ ends_pure.mpr (close hs')) fun _ _ ↦ close)

/-! ## Tools that keep to files -/

/-- Tools that make no directories and no links and remove none spare every directory. -/
theorem Toolchain.spares_of_sameWays (sound : tc.KeepsSound)
    (ways : ∀ (i : Invocation) (st : σ) (h : Host), h.tree.Sound →
      h.tree.SameWays (tc.run i st h).tree) : tc.Spares dir d where
  keepsSound := sound
  run i st h ht := Host.keepsReleasable_of_sameWays (sound i st h ht) (ways i st h ht)
  link i st h₀ h p l free hmade _ := by
    obtain ⟨l', free', houses, confined, -⟩ :=
      Host.houses_makeTemporary free.sound Host.mem_temporaryStems_link hmade
    obtain rfl : l = l' := Place.vacant.inj (Except.ok.inj (free.vacant.symm.trans free'.vacant))
    have left := sound i st h houses.sound
    have same := ways i st h houses.sound
    have own : (h.withTree (tc.run i st h).tree).Releasable p l :=
      (Host.keepsReleasable_of_sameWays left same).releasable
        (.inl (free.removable_of_makeTemporary houses hmade))
    refine ⟨own, ?_⟩
    exact (Host.keepsReleasable_of_sameWays (Host.sound_without houses.sound l)
      (free.sameWays_without confined)).trans
      (Host.keepsReleasable_of_sameWays (Host.sound_without left l)
        (Host.sameWays_without free.ne_nil same))

/-- So do tools that write nothing but their outputs. -/
theorem Toolchain.WritesOutputOnly.spares (htools : tc.WritesOutputOnly) : tc.Spares dir d :=
  spares_of_sameWays htools.keepsSound fun i st _ ht ↦
    have ⟨_, change⟩ := htools.exists_writesOnly i st ht
    change.sameWays

/-! ## Calls in any order -/

theorem Session.Keeping.cleanup_eq {s : Session σ} (hs : s.Keeping) : s.cleanup = s := by
  obtain ⟨dir, hb⟩ := hs.kept
  rw [Session.cleanup, ArtifactStore.cleanup, hb]

theorem Session.Keeping.perform (htools : tc.KeepsSound) {s : Session (σ × List LogEntry)}
    (hs : s.Keeping) (c : Call) :
    (c.perform tc.logging o s).Keeping ∧ Drives false s (c.perform tc.logging o s) := by
  obtain ⟨m, hm, heq⟩ := c.exists_of_perform (Session.Keeping.lasting htools s)
    (Session.Keeping.finalLink htools s) ⟨hs, .refl _ s⟩
  rw [hm.1.cleanup_eq, ite_self] at heq
  exact heq ▸ hm

theorem Session.Releasing.perform (htools : tc.Spares dir d) {s : Session (σ × List LogEntry)}
    (hs : s.Releasing dir d) (c : Call) :
    (c.perform tc.logging o s).Releasing dir d ∧ ∃ m : Session (σ × List LogEntry),
      Drives true s m ∧ m.runs = (c.perform tc.logging o s).runs ∧
        if c.isRun then m.host.Releases (c.perform tc.logging o s).host d
        else (c.perform tc.logging o s).host = m.host := by
  obtain ⟨m, ⟨hm, drives⟩, heq⟩ :=
    c.exists_of_perform (Session.Releasing.lasting htools s)
      (Session.Releasing.finalLink htools s) ⟨hs, .refl _ s⟩
  obtain ⟨released, last⟩ := hm.cleanup
  split at heq
  next hrun => exact heq ▸ ⟨last, m, drives, rfl, if_pos hrun ▸ released⟩
  next hrun => exact heq ▸ ⟨hm, m, drives, rfl, if_neg hrun ▸ rfl⟩

/-- A new session keeps its files in the working directory if it is told to. -/
theorem Session.Keeping.of_start (ht : h.tree.Sound) (hsave : o.saveTemps = true) {tools : σ}
    {s : Session σ} (hs : Session.start o tools h = .ok s) : s.withLog.Keeping := by
  rcases Session.start_cases hs with ⟨-, rfl⟩ | ⟨hsave', -⟩
  · exact ⟨ht, o.workingDir, rfl⟩
  · cases hsave.symm.trans hsave'

/-- Otherwise it has a new directory for them, which can be removed. -/
theorem Session.Releasing.exists_of_start (ht : h.tree.Sound) (hsave : o.saveTemps = false)
    {tools : σ} {s : Session σ} (hs : Session.start o tools h = .ok s) :
    ∃ dir d, s.store.backend = .ephemeral (some dir) ∧ h.HasFree dir d ∧
      s.host.Removable dir d ∧ s.withLog.Releasing dir d := by
  rcases Session.start_cases hs with ⟨hsave', -⟩ | ⟨-, dir, h', hmade, rfl⟩
  · cases hsave.symm.trans hsave'
  · obtain ⟨d, free, houses, -, -⟩ :=
      Host.houses_makeTemporary ht Host.mem_temporaryStems_build hmade
    have removable := free.removable_of_makeTemporary houses hmade
    exact ⟨dir, d, rfl, free, removable, houses.sound, fun a ha ↦ (by cases ha),
      .inl ⟨rfl, .inl removable⟩⟩

/-- Whatever is called in whatever order, and however it ends: a build that does not keep its files
removes nothing but a directory that it has made for a link, before that ends, and the directory of
its files, at the end of a whole build or when the session is given up; and then nothing is left of
them.  A build that keeps its files removes nothing. -/
theorem temporaries_released (tc : Toolchain σ) (ht : h.tree.Sound) {tools : σ} {s : Session σ}
    (hs : Session.start o tools h = .ok s) (calls : List Call) (c : Call) :
    let before := s.after tc o calls
    let done := s.after tc o (calls ++ [c])
    let runs (calls : List Call) := (s.withLog.after tc.logging o calls).runs
    (o.saveTemps = false → ∃ dir d, s.store.backend = .ephemeral (some dir) ∧ h.HasFree dir d ∧
      s.host.Removable dir d ∧ (tc.Spares dir d →
        (∃ rs m, runs (calls ++ [c]) = runs calls ++ rs ∧ Driven true before.host rs m ∧
          if c.isRun then m.Releases done.host d else done.host = m) ∧
        before.host.Releases before.cleanup.host d)) ∧
    (o.saveTemps = true → tc.KeepsSound →
      (∃ rs, runs (calls ++ [c]) = runs calls ++ rs ∧ Driven false before.host rs done.host) ∧
      before.cleanup = before) := by
  intro before done runs
  have logged : before = (s.withLog.after tc.logging o calls).mapTools Prod.fst :=
    Session.after_eq_logging s calls
  have logged' : done = (c.perform tc.logging o (s.withLog.after tc.logging o calls)).mapTools
      Prod.fst := (Session.after_eq_logging s _).trans (by rw [Session.after_concat])
  have next : runs (calls ++ [c]) =
      (c.perform tc.logging o (s.withLog.after tc.logging o calls)).runs := by
    simp only [runs, Session.after_concat]
  refine ⟨fun hsave ↦ ?_, fun hsave htools ↦ ?_⟩
  · obtain ⟨dir, d, hb, free, removable, start⟩ := Session.Releasing.exists_of_start ht hsave hs
    refine ⟨dir, d, hb, free, removable, fun htools ↦ ?_⟩
    have releasing :=
      Session.holds_after (fun _ c hs ↦ (hs.perform (o := o) htools c).1) start calls
    obtain ⟨-, m, ⟨rs, hrs, driven⟩, hruns, hend⟩ := releasing.perform (o := o) htools c
    rw [logged', logged]
    exact ⟨⟨rs, m.host, next.trans (hruns.symm.trans hrs), driven, hend⟩, releasing.cleanup.1⟩
  · have start := Session.Keeping.of_start ht hsave hs
    have keeping := Session.holds_after (fun _ c hs ↦ (hs.perform (o := o) htools c).1) start calls
    obtain ⟨-, rs, hrs, driven⟩ := keeping.perform (o := o) htools c
    rw [logged', logged]
    exact ⟨⟨rs, next.trans hrs, driven⟩,
      Session.Keeping.cleanup_eq ⟨keeping.sound, keeping.kept⟩⟩

/-- A whole build that compiles and links one source leaves nothing of its files, nor of the directory
in which it has run the linker. -/
theorem temporaries_released_sample :
    let tc := Toolchain.writing (Bytes.ofString "; llc\n")
    let o := BuildOptions.sample
    let calls := [Call.run [.ofString "main.c"]]
    ∃ s, Session.start o () handwritten = .ok s ∧
      (s.withLog.after tc.logging o calls).runs.map (·.invocation.dir) =
        List.replicate 5 (some (.ofString "/w")) ++ [some (.ofString "/w/tvm-link-U00000")] ∧
      ∃ dir d m, s.store.backend = .ephemeral (some dir) ∧ s.host.Removable dir d ∧
        Driven true s.host (s.withLog.after tc.logging o calls).runs m ∧
        m.Releases (s.after tc o calls).host d := by
  intro tc o calls
  obtain ⟨s, hs, dirs⟩ : ∃ s, Session.start o () handwritten = .ok s ∧
      (s.withLog.after tc.logging o calls).runs.map (·.invocation.dir) =
        List.replicate 5 (some (.ofString "/w")) ++ [some (.ofString "/w/tvm-link-U00000")] :=
    exists_of_map_decide (by decide +kernel)
  obtain ⟨ephemeral, -⟩ := temporaries_released tc sound_handwritten hs []
    (Call.run [.ofString "main.c"])
  obtain ⟨dir, d, hb, -, removable, released⟩ := ephemeral rfl
  obtain ⟨⟨rs, m, hrs, driven, gone⟩, -⟩ := released (Toolchain.writesOutputOnly_writing _).spares
  have all : (s.withLog.after tc.logging o calls).runs = rs := hrs
  exact ⟨s, hs, dirs, dir, d, m, hb, removable, all ▸ driven, gone⟩

/-- A toolchain whose tools write the same bytes to their outputs and then change the directory in
which they have written. -/
def Toolchain.meddling (content : Bytes) (change : Location → Tree → Tree) : Toolchain Unit where
  run i st h := ⟨.ok "", st, match i.written? with
    | some p => match h.write p content with
      | .ok h' => match h'.entry p with
        | .ok (l, _) => change l.dropLast h'.tree
        | .error _ => h'.tree
      | .error _ => h.tree
    | none => h.tree⟩
  echo _ st := st

/-- The tree in which a directory holds another one, which may not be changed, with a file in it. -/
def Tree.sealing (l : Location) (t : Tree) : Tree :=
  let inner := l ++ [Bytes.ofString "sub"]
  if (t.node? inner).isSome then t
  else (t.addDirectory inner 0o500).addFile (inner ++ [Bytes.ofString "f"]) [] fileMode

/-- A tool can keep a build from removing its directory: with one in it that may not be changed, or
under another name, it is there after a whole build, and after the session has been given up. -/
theorem temporary_left_behind :
    let calls := [Call.run [.ofString "main.c"]]
    let d := [Bytes.ofString "w", Bytes.ofString "tvm-build-U00000"]
    let other := [Bytes.ofString "w", Bytes.ofString "sub"]
    besideWallet.saveTemps = false ∧ handwritten.tree.node? d = none ∧
      ∃ s, Session.start besideWallet () handwritten = .ok s ∧
        s.store.backend = .ephemeral (some (.ofString "/w/tvm-build-U00000")) ∧
        (s.host.tree.directoryId? d).isSome ∧
        ∀ c ∈ [(Tree.sealing, d), (fun l t ↦ t.move l other, other)],
          let tc := Toolchain.meddling (Bytes.ofString "; llc\n") c.1
          let done := s.after tc besideWallet calls
          (∀ r ∈ (s.withLog.after tc.logging besideWallet calls).runs,
            r.after.directoryId? d = s.host.tree.directoryId? d ∨ r.after.node? d = none) ∧
          done.host.tree.directoryId? c.2 = s.host.tree.directoryId? d ∧
          done.cleanup.host.tree.directoryId? c.2 = s.host.tree.directoryId? d := by
  intro calls d other
  exact ⟨rfl, by decide +kernel, exists_of_map_decide (by decide +kernel)⟩

end ContractBuild
