import ContractBuild.Proofs.Build.AssemblyOnly
import ContractBuild.Proofs.Build.Placement
import ContractBuild.Proofs.Build.Release
import ContractBuild.Proofs.FileSystem.Marks

/-!
# What a build leaves alone

Between the runs of its tools a build that does not keep its files writes in the directory of these
files and makes and removes the directory of the final link.  Anywhere else it changes nothing but what
it delivers: at its end the assembly, or else, behind the run that has made the contract, what that run
has left and then the code.
-/

namespace ContractBuild

open Build

variable {σ : Type} {tc : Toolchain σ} {o : BuildOptions} {h h' h₀ : Host} {dir p : Path}
  {d l k : Location} {rs : List LoggedRun} {r : LoggedRun}

/-! ## Between the runs of the tools -/

/-- The host that the last of some runs has left, or the one before all of them. -/
def Host.leftBy (h : Host) (rs : List LoggedRun) : Host :=
  (rs.getLast?.map fun r ↦ r.before.withTree r.after).getD h

@[simp] theorem Host.leftBy_nil (h : Host) : h.leftBy [] = h := rfl

@[simp] theorem Host.leftBy_concat (h : Host) (rs : List LoggedRun) (r : LoggedRun) :
    h.leftBy (rs ++ [r]) = r.before.withTree r.after := by
  simp [leftBy]

/-- Whether a run behind others was made in a directory that the last of these has not left there: the
build has made it for the run. -/
structure LoggedRun.InOwn (h₀ : Host) (earlier : List LoggedRun) (r : LoggedRun) (p : Path)
    (l : Location) : Prop where
  /-- The run was made there. -/
  dir_eq : r.invocation.dir = some p
  /-- The path led there. -/
  there : ∃ n, r.before.locateLink p = .ok (.entry l n)
  /-- Nothing was there before. -/
  new : (h₀.leftBy earlier).tree.node? l = none

/-- Whether the linker has made a contract, in a directory of its own. -/
def HasLinked (h₀ : Host) (rs : List LoggedRun) : Prop :=
  ∃ earlier r later p l, rs = earlier ++ r :: later ∧ r.InOwn h₀ earlier p l ∧
    r.invocation.asksToLink ∧ ∃ text, r.outcome = .ok text

/-- The paths to which a build delivers behind some runs, before it runs another tool. -/
inductive Delivers (o : BuildOptions) (h₀ : Host) : List LoggedRun → Path → Prop
  /-- What the linker has left in its directory. -/
  | contract {rs : List LoggedRun} {r : LoggedRun} {p : Path} {l : Location} {n : Name}
      {text : String} (own : r.InOwn h₀ rs p l) (linked : r.invocation.asksToLink)
      (done : r.outcome = .ok text)
      (file : (r.before.withTree r.after).isFile (p.join (.ofName n)) = true) :
      Delivers o h₀ (rs ++ [r]) ((OutputTarget.resolve o.output o.workingDir).destination n
        ((linkedOutput o (.scoped p)).map (·.raw)))
  /-- The code that the linker has reported. -/
  | code {rs : List LoggedRun} {r : LoggedRun} {contract : Path} {text : String}
      (linked : HasLinked h₀ rs)
      (asked : r.invocation = (Command.decode o contract).inDir o.workingDir)
      (done : r.outcome = .ok text) : Delivers o h₀ (rs ++ [r]) (sidecar contract)

/-- Whether a build that ends so may have written the assembly to a path, as it is asked for: it has
succeeded, or it has failed in copying there. -/
structure EmitsTo {α : Type} (o : BuildOptions) (result : Except BuildError α) (q : Path) : Prop where
  /-- The build ends with the assembly. -/
  asmOnly : o.asmOnly = true
  /-- The path is that of the assembly. -/
  path_eq : q = o.absolute o.assemblyOutput
  /-- Nothing but the copy has failed. -/
  copies : ∀ e, result = .error e → ∃ cause, e = .io (.copyingTo q) cause

/-- Whether a location lies neither at another one or below it nor in a directory that the build has
made for a run. -/
def Outside (h₀ : Host) (d : Location) (rs : List LoggedRun) (k : Location) : Prop :=
  ¬ d <+: k ∧ ∀ earlier r later p l, rs = earlier ++ r :: later → r.InOwn h₀ earlier p l → ¬ l <+: k

theorem HasLinked.concat (hl : HasLinked h₀ rs) (r : LoggedRun) : HasLinked h₀ (rs ++ [r]) := by
  obtain ⟨earlier, r', later, p, l, rfl, hr'⟩ := hl
  exact ⟨earlier, r', later ++ [r], p, l, by simp, hr'⟩

/-- Before a contract has been made, nothing is delivered. -/
theorem Delivers.hasLinked {q : Path} (hq : Delivers o h₀ rs q) : HasLinked h₀ rs := by
  cases hq with
  | contract own linked done _ => exact ⟨_, _, [], _, _, rfl, own, linked, _, done⟩
  | code linked _ _ => exact linked.concat _

theorem HasLinked.append (hl : HasLinked h₀ rs) (more : List LoggedRun) :
    HasLinked h₀ (rs ++ more) := by
  obtain ⟨earlier, r', later, p, l, rfl, hr'⟩ := hl
  exact ⟨earlier, r', later ++ more, p, l, by simp, hr'⟩

theorem Outside.of_concat (hk : Outside h₀ d (rs ++ [r]) k) : Outside h₀ d rs k := by
  refine ⟨hk.1, ?_⟩
  rintro earlier r' later p l rfl own
  exact hk.2 earlier r' (later ++ [r]) p l (by simp) own

/-- A run of a list is its last element or comes before that. -/
theorem eq_of_concat_eq_append_cons {α : Type} {xs earlier later : List α} {x y : α}
    (heq : xs ++ [x] = earlier ++ y :: later) :
    (xs = earlier ∧ x = y ∧ later = []) ∨ ∃ rest, later = rest ++ [x] ∧ xs = earlier ++ y :: rest := by
  rcases List.eq_nil_or_concat later with rfl | ⟨rest, z, rfl⟩
  · obtain ⟨rfl, hlast⟩ := List.append_inj' heq rfl
    exact .inl ⟨rfl, List.singleton_inj.mp hlast, rfl⟩
  · have shifted : xs ++ [x] = (earlier ++ y :: rest) ++ [z] := by simpa using heq
    obtain ⟨first, last⟩ := List.append_inj' shifted rfl
    exact .inr ⟨rest, by simp [List.singleton_inj.mp last], first⟩

/-! ## What tools must leave alone -/

/-- Whether the tools put no links into a directory and no further names of files that have names
elsewhere, and put nothing else under its path nor under that of a directory that has just been made
for them. -/
structure Toolchain.Respects (tc : Toolchain σ) (dir : Path) (d : Location) : Prop where
  /-- They leave sound trees. -/
  keepsSound : tc.KeepsSound
  /-- They put no links into the directory, and no names of files elsewhere. -/
  encloses : ∀ (i : Invocation) (st : σ) (h : Host), h.tree.Sound → h.Encloses d →
    (h.withTree (tc.run i st h).tree).Encloses d
  /-- The path goes on to name the place of the directory. -/
  marks : ∀ (i : Invocation) (st : σ) (h : Host), h.Marks dir d →
    (h.withTree (tc.run i st h).tree).Marks dir d
  /-- Where it leads nowhere else, it does not come to do so. -/
  leads : ∀ (i : Invocation) (st : σ) (h : Host), h.LeadsOnlyTo dir d →
    (h.withTree (tc.run i st h).tree).LeadsOnlyTo dir d
  /-- Nor does the path of the directory made for a run. -/
  link : ∀ (i : Invocation) (st : σ) (h₀ h : Host) (p : Path) (l : Location), h₀.HasFree p l →
    h₀.makeTemporary "tvm-link-" = .ok (p, h) → i.dir = some p →
    (h.withTree (tc.run i st h).tree).LeadsOnlyTo p l

/-- Tools that write nothing but their outputs leave all this alone. -/
theorem Toolchain.WritesOutputOnly.respects (htools : tc.WritesOutputOnly) : tc.Respects dir d where
  keepsSound := htools.keepsSound
  encloses i st h ht enclosed := by
    obtain ⟨l, change⟩ := htools.exists_writesOnly i st ht
    have changed : h.WritesOnly (h.withTree (tc.run i st h).tree) l := ⟨change, rfl⟩
    exact enclosed.of_written changed.written ((Host.KeepsNames.refl h).writesOnly ht changed)
  marks i st h hm := by
    obtain ⟨_, change⟩ := htools.exists_writesOnly i st hm.sound
    exact hm.of_sameWays change.sound change.sameWays
  leads i st h hd := by
    obtain ⟨_, change⟩ := htools.exists_writesOnly i st hd.sound
    exact hd.of_keepsWays change.sound change.sameWays.back
  link i st h₀ h p l free hmade _ := by
    obtain ⟨l', free', houses, -, -⟩ :=
      Host.houses_makeTemporary free.sound Host.mem_temporaryStems_link hmade
    obtain rfl : l = l' := Place.vacant.inj (Except.ok.inj (free.vacant.symm.trans free'.vacant))
    obtain ⟨_, change⟩ := htools.exists_writesOnly i st houses.sound
    exact (free.marks houses).leadsOnlyTo.of_keepsWays change.sound change.sameWays.back

/-! ## Up to the assembly -/

/-- Whether a session has its files in a directory. -/
structure Session.Filed (dir : Path) (s : Session σ) : Prop where
  /-- The store is open there. -/
  backend_eq : s.store.backend = .ephemeral (some dir)
  /-- What it has on record lies there. -/
  created : ∀ a ∈ s.store.created, ∃ name : Path, name.IsName ∧ a.path = dir.join name

theorem Session.Filed.withHost {s : Session σ} (hs : s.Filed dir) (h : Host) :
    (s.withHost h).Filed dir := ⟨hs.backend_eq, hs.created⟩

/-- Whether a session has changed nothing between the runs of its tools but in that directory. -/
structure Session.Quiet (h₀ : Host) (dir : Path) (d : Location) (s : Session (σ × List LogEntry)) :
    Prop extends s.Filed dir where
  /-- The path names the place of the directory. -/
  marks : s.host.Marks dir d
  /-- What the last tool has left is sound. -/
  sound : (h₀.leftBy s.runs).tree.Sound
  /-- The directory is closed. -/
  encloses : (h₀.leftBy s.runs).Encloses d
  /-- Since the last run, files have been written there only. -/
  touches : (h₀.leftBy s.runs).Touches d (fun _ ↦ False) s.host
  /-- Nothing has been removed. -/
  adds : (h₀.leftBy s.runs).Adds s.host
  /-- And so it was before each run. -/
  before : ∀ earlier r later, s.runs = earlier ++ r :: later → ∀ k, ¬ d <+: k →
    r.before.tree.shape k = (h₀.leftBy earlier).tree.shape k

namespace Session.Quiet

variable {s : Session (σ × List LogEntry)}

/-- A run in a directory that has been made for it is one in its own. -/
theorem inOwn (hs : s.Quiet h₀ dir d) (free : s.host.HasFree p l)
    (houses : s.host.tree.Houses l h.tree) {i : Invocation} {st : σ} (hdir : i.dir = some p) :
    (tc.logged i st h).InOwn h₀ s.runs p l := by
  obtain ⟨n, hn⟩ := free.locateLink_eq houses
  refine ⟨hdir, ⟨_, hn⟩, ?_⟩
  by_contra there
  have still := hs.adds.kept l (Option.isSome_iff_ne_none.mpr there)
  simp [free.node?_eq_none (List.prefix_refl l)] at still

theorem echoed (hs : s.Quiet h₀ dir d) (line : String) : (s.echoed tc.logging line).Quiet h₀ dir d := by
  refine ⟨⟨hs.backend_eq, hs.created⟩, hs.marks, ?_, ?_, ?_, ?_, ?_⟩
  all_goals rw [runs_echoed]
  · exact hs.sound
  · exact hs.encloses
  · exact hs.touches
  · exact hs.adds
  · exact hs.before

theorem withHost (hs : s.Quiet h₀ dir d) (hl : d <+: l) (change : s.host.WritesOnly h l)
    (adds : s.host.Adds h) : (s.withHost h).Quiet h₀ dir d where
  toFiled := hs.toFiled.withHost h
  marks := hs.marks.of_sameWays change.tree.sound change.tree.sameWays
  sound := hs.sound
  encloses := hs.encloses
  touches := hs.touches.within hs.encloses hl change
  adds := hs.adds.trans adds
  before := hs.before

theorem called (htools : tc.Respects dir d) (hs : s.Quiet h₀ dir d) (i : Invocation) :
    (s.called tc.logging i).Quiet h₀ dir d := by
  have sound := htools.keepsSound i s.tools.1 s.host hs.marks.sound
  have marks := htools.marks i s.tools.1 s.host hs.marks
  refine ⟨⟨hs.backend_eq, hs.created⟩, marks, ?_, ?_, ?_, ?_, ?_⟩
  all_goals rw [runs_called]
  · rw [Host.leftBy_concat]
    exact sound
  · rw [Host.leftBy_concat]
    exact htools.encloses i s.tools.1 s.host hs.marks.sound (hs.touches.encloses hs.encloses)
  · rw [Host.leftBy_concat]
    exact .refl sound d _
  · rw [Host.leftBy_concat]
    exact .refl sound
  · intro earlier r later heq k hk
    rcases eq_of_concat_eq_append_cons heq with ⟨rfl, rfl, -⟩ | ⟨rest, -, hrest⟩
    · exact hs.touches.elsewhere k hk fun q hq ↦ hq.elim
    · exact hs.before earlier r rest hrest k hk

/-- A reserved file lies in the directory. -/
theorem reserved (hs : s.Quiet h₀ dir d) (kind : ArtifactKind) :
    (s.reserved kind).Quiet h₀ dir d ∧ ∀ p, (s.store.reserve s.host kind).1 = .ok p →
      ∃ name : Path, name.IsName ∧ p = dir.join name := by
  have stocked : s.Stocked dir :=
    ⟨hs.marks.sound, by rw [ArtifactStore.dir?, hs.backend_eq], hs.created⟩
  obtain ⟨still, named⟩ := stocked.reserved kind
  have backend : (s.reserved kind).store.backend = .ephemeral (some dir) := by
    simpa [Session.reserved] using hs.backend_eq
  refine ⟨?_, named⟩
  cases hr : (s.store.reserve s.host kind).1 with
  | error e =>
    have host : (s.reserved kind).host = s.host := ArtifactStore.host_of_reserve_error hr
    exact ⟨⟨backend, still.created⟩, host ▸ hs.marks, hs.sound, hs.encloses, host ▸ hs.touches,
      host ▸ hs.adds, hs.before⟩
  | ok p =>
    obtain ⟨name, hname, rfl⟩ := named p hr
    have written : s.host.write (dir.join name) [] = .ok (s.reserved kind).host :=
      (ArtifactStore.write_of_reserve hr).2
    have touches := hs.touches.write hs.encloses hs.marks hname written
    have adds := Host.adds_write hs.marks.sound written
    exact ⟨⟨backend, still.created⟩, hs.marks.of_sameWays adds.sound adds.ways, hs.sound, hs.encloses,
      touches, hs.adds.trans adds, hs.before⟩

end Session.Quiet

/-- A new session has changed nothing but its directory. -/
theorem Session.Quiet.of_start (free : h.HasFree dir d) (houses : h.tree.Houses d h'.tree)
    (confined : h.tree.Confined d h'.tree) (tools : σ) :
    let s : Session σ := ⟨h', ⟨.ephemeral (some dir), [], []⟩, tools, []⟩
    s.withLog.Quiet h' dir d := by
  intro s
  refine ⟨⟨rfl, fun a ha ↦ (by cases ha)⟩, free.marks houses, houses.sound,
    free.encloses houses confined, .refl houses.sound d _, .refl houses.sound, ?_⟩
  intro earlier r later heq
  simp [Session.runs, Session.withLog, Session.mapTools] at heq

namespace Build

variable {s : Session (σ × List LogEntry)}

theorem ends_produce_quiet (htools : tc.Respects dir d) {kind : ArtifactKind}
    {command : Path → Invocation} (hs : s.Quiet h₀ dir d) :
    Ends (produce tc.logging o kind command) s
      (fun p s' ↦ s'.Quiet h₀ dir d ∧ ∃ name : Path, name.IsName ∧ p = dir.join name)
      (fun _ s' ↦ s'.Quiet h₀ dir d) := by
  obtain ⟨reserved, named⟩ := hs.reserved kind
  refine ends_bind.mpr (ends_reserve.mpr ⟨fun p hp ↦ ?_, fun _ _ ↦ reserved⟩)
  have called := reserved.called htools ((command p).inDir o.workingDir)
  exact ends_bind.mpr (ends_tool.mpr ⟨fun _ _ ↦ ends_pure.mpr ⟨called, named p hp⟩, fun _ _ ↦ called⟩)

theorem preserves_mergeAssembly_quiet {name : Path} (hname : name.IsName) (inputs : ClassifiedInputs) :
    Preserves (Session.Quiet h₀ dir d) (mergeAssembly tc.logging o (dir.join name) inputs) := by
  refine .mergeAssembly (fun _ line hs ↦ hs.echoed line) (fun s l hs hl t content h' ht hh ↦ ?_) inputs
  have below := hs.touches.prefix_of_appendTarget hs.encloses hs.marks hname hl
  exact ht.withHost below (Host.writesOnly_append ht.marks.sound hh)
    (Host.adds_append ht.marks.sound hh)

/-- Up to the merged assembly nothing is changed outside the directory. -/
theorem ends_assembled_quiet (htools : tc.Respects dir d) (paths : List Path)
    (hs : s.Quiet h₀ dir d) :
    Ends (assembled tc.logging o paths) s
      (fun asm s' ↦ s'.Quiet h₀ dir d ∧ ∃ name : Path, name.IsName ∧ asm = dir.join name)
      (fun _ s' ↦ s'.Quiet h₀ dir d) := by
  cases hpaths : classify paths with
  | error e =>
    unfold assembled classified
    rw [hpaths]
    exact hs
  | ok inputs =>
    rw [assembled_eq hpaths]
    refine (ends_generated (fun kind command _ s hs ↦ ends_produce_quiet htools hs) inputs hs).bind ?_
    rintro _ s' ⟨hs', name, hname, rfl⟩
    exact (preserves_mergeAssembly_quiet hname inputs s' hs').bind fun _ s hs ↦
      ends_pure.mpr ⟨hs, name, hname, rfl⟩

end Build

/-! ## From the assembly on -/

/-- Whether a session has changed nothing between the runs of its tools but in a directory, in those made
for runs and where it has delivered; and since the last run under some more paths. -/
structure Session.Accounts (o : BuildOptions) (h₀ : Host) (d : Location) (more : Path → Prop)
    (s : Session (σ × List LogEntry)) : Prop where
  /-- So it was before each run. -/
  before : ∀ earlier r later, s.runs = earlier ++ r :: later → ∀ k, Outside h₀ d s.runs k →
    (∀ q, Delivers o h₀ earlier q → (h₀.leftBy earlier).Misses q k) →
    r.before.tree.shape k = (h₀.leftBy earlier).tree.shape k
  /-- So it is now. -/
  now : ∀ k, Outside h₀ d s.runs k →
    (∀ q, Delivers o h₀ s.runs q ∨ more q → (h₀.leftBy s.runs).Misses q k) →
    s.host.tree.shape k = (h₀.leftBy s.runs).tree.shape k

/-- Whether a session accounts for what it has changed, with its files in the directory. -/
structure Session.Settled (o : BuildOptions) (h₀ : Host) (dir : Path) (d : Location)
    (more : Path → Prop) (s : Session (σ × List LogEntry)) : Prop extends
    s.Filed dir, s.Accounts o h₀ d more where
  /-- Nothing else has come under the path of the directory. -/
  leads : s.host.LeadsOnlyTo dir d

namespace Session

variable {s s' : Session (σ × List LogEntry)} {more : Path → Prop}

theorem Quiet.settled (hs : s.Quiet h₀ dir d) : s.Settled o h₀ dir d more where
  toFiled := hs.toFiled
  before earlier r later heq k hk _ := hs.before earlier r later heq k hk.1
  now k hk _ := hs.touches.elsewhere k hk.1 fun _ hq ↦ hq.elim
  leads := hs.marks.leadsOnlyTo

theorem Accounts.mono {less : Path → Prop} (hs : s.Accounts o h₀ d less)
    (hmore : ∀ q, less q → more q) : s.Accounts o h₀ d more where
  before := hs.before
  now k hk missed := hs.now k hk fun q hq ↦ missed q (hq.imp id (hmore q))

namespace Settled

theorem mono {less : Path → Prop} (hs : s.Settled o h₀ dir d less) (hmore : ∀ q, less q → more q) :
    s.Settled o h₀ dir d more :=
  ⟨hs.toFiled, hs.toAccounts.mono hmore, hs.leads⟩

/-- Another run starts from what there is. -/
theorem called (htools : tc.Respects dir d) (hs : s.Settled o h₀ dir d fun _ ↦ False)
    (i : Invocation) : (s.called tc.logging i).Settled o h₀ dir d more where
  backend_eq := hs.backend_eq
  created := hs.created
  before := by
    rw [runs_called]
    intro earlier r later heq k hk missed
    rcases eq_of_concat_eq_append_cons heq with ⟨rfl, rfl, -⟩ | ⟨rest, -, hrest⟩
    · exact hs.now k hk.of_concat fun q hq ↦ missed q (hq.resolve_right id)
    · exact hs.before earlier r rest hrest k hk.of_concat missed
  now := by
    rw [runs_called, Host.leftBy_concat]
    exact fun _ _ _ ↦ rfl
  leads := htools.leads i s.tools.1 s.host hs.leads

/-- Giving the session up changes nothing outside its directory. -/
theorem cleanup (hs : s.Settled o h₀ dir d more) : s.cleanup.Accounts o h₀ d more where
  before := hs.before
  now k hk missed := by
    have names : ∀ p ∈ (s.store.created.filter fun a ↦ !a.persistent).map (·.path),
        ∃ name : Path, name.IsName ∧ p = dir.join name := by
      intro p hp
      obtain ⟨a, ha, rfl⟩ := List.mem_map.mp hp
      exact hs.created a (List.mem_filter.mp ha).1
    have removed := hs.leads.removeFiles names
    have still := hs.leads.of_keepsWays removed.sound removed.back
    rw [Stocked.host_cleanup hs.backend_eq]
    refine ((removed.trans still.removeDirectory).elsewhere k hk.1).trans (hs.now k hk missed)

end Settled

/-- Since the run of a tool, a session has copied files under some paths, and done nothing else. -/
structure Copies (d : Location) (paths : Path → Prop) (t s : Session (σ × List LogEntry)) :
    Prop where
  /-- The store is the same. -/
  store_eq : s.store = t.store
  /-- The log tells of the same runs. -/
  runs_eq : s.runs = t.runs
  /-- Files have been written under the paths. -/
  touches : t.host.Touches d paths s.host

end Session

namespace Build

variable {s t : Session (σ × List LogEntry)} {paths : Path → Prop} {target : OutputTarget}
  {linked : Option Name}

/-- A copy to one of the paths writes there and nowhere else. -/
theorem ends_copy (ht : t.host.tree.Sound) (hs : Session.Copies d paths t s) (source : Path)
    (shown : String) {dest : Path} (hdest : paths dest) :
    Ends (copy tc.logging source shown dest) s (fun _ ↦ Session.Copies d paths t)
      (fun _ ↦ Session.Copies d paths t) := by
  have noted : Session.Copies d paths t (s.echoed tc.logging s!"cp {shown} {dest.display}") :=
    ⟨hs.store_eq, (Session.runs_echoed s _).trans hs.runs_eq, hs.touches⟩
  refine ends_bind.mpr (ends_echo.mpr (ends_bind.mpr (ends_host.mpr (ends_settle_snd ?_))))
  exact ⟨noted.store_eq, noted.runs_eq, hs.touches.copy ht source hdest⟩

theorem ends_copyEach_copies (ht : t.host.tree.Sound) (names : List Name)
    (hnames : ∀ n ∈ names, paths (target.destination n linked))
    (hs : Session.Copies d paths t s) :
    Ends (copyEach tc.logging p target linked names) s (fun _ ↦ Session.Copies d paths t)
      (fun _ ↦ Session.Copies d paths t) := by
  induction names generalizing s with
  | nil => exact ends_pure.mpr hs
  | cons n ns ih =>
    refine (ends_copy ht hs _ _ (hnames n List.mem_cons_self)).bind fun _ s' hs' ↦ ?_
    exact ih (fun m hm ↦ hnames m (List.mem_cons_of_mem n hm)) hs'

/-- What is copied out of a directory goes to the destinations of the files in it. -/
theorem ends_copyOut_copies (ht : t.host.tree.Sound)
    (hpaths : ∀ n, t.host.isFile (p.join (.ofName n)) = true → paths (target.destination n linked)) :
    Ends (copyOut tc.logging p target linked) t (fun _ ↦ Session.Copies d paths t)
      (fun _ ↦ Session.Copies d paths t) := by
  have start : Session.Copies d paths t t := ⟨rfl, rfl, .refl ht d paths⟩
  refine ends_bind.mpr (ends_host.mpr (ends_bind.mpr (ends_value.mpr
    ⟨fun names _ ↦ ?_, fun _ _ ↦ start⟩)))
  exact ends_copyEach_copies ht _ (fun n hn ↦ hpaths n (List.mem_filter.mp hn).2) start

/-- A build that ends with the assembly changes its destination, also where it fails to copy there. -/
theorem ends_emitAssembly_settled (hasm : o.asmOnly = true) (hs : s.Quiet h₀ dir d) (asm : Path) :
    Ends (emitAssembly tc.logging o asm) s
      (fun p ↦ Session.Settled o h₀ dir d (EmitsTo o (.ok p : Except BuildError Path)))
      (fun e ↦ Session.Settled o h₀ dir d (EmitsTo o (.error e : Except BuildError Path))) := by
  refine ends_bind.mpr (ends_host.mpr ?_)
  split
  next => exact ends_pure.mpr hs.settled
  next =>
    let dest := o.absolute o.assemblyOutput
    let noted := s.echoed tc.logging s!"cp {asm.display} {dest.display}"
    let e := (noted.host.copy asm dest).2
    have quiet : noted.Quiet h₀ dir d := hs.echoed _
    have copied : (noted.withHost e).Settled o h₀ dir d (· = dest) := by
      have start := quiet.touches.mono fun q (hq : False) ↦ (hq.elim : q = dest)
      have touches : (h₀.leftBy noted.runs).Touches d (· = dest) e := start.copy quiet.sound asm rfl
      have back := (Host.adds_copy quiet.marks.sound asm dest).ways.back
      refine ⟨quiet.toFiled.withHost e, ⟨fun earlier r later heq k hk _ ↦ ?_, fun k hk missed ↦ ?_⟩,
        quiet.marks.leadsOnlyTo.of_keepsWays touches.written.sound back⟩
      · exact quiet.before earlier r later heq k hk.1
      · exact touches.elsewhere k hk.1 fun q hq ↦ missed q (.inr hq)
    refine ends_bind.mpr (ends_bind.mpr (ends_echo.mpr (ends_bind.mpr (ends_host.mpr
      (ends_settle.mpr ⟨fun h hh ↦ ends_pure.mpr ?_, fun cause h hh ↦ ?_⟩)))))
    · rw [← show e = h from congrArg Prod.snd hh]
      exact copied.mono fun q hq ↦ ⟨hasm, hq, fun _ he ↦ (by cases he)⟩
    · rw [← show e = h from congrArg Prod.snd hh]
      refine copied.mono fun q hq ↦ ⟨hasm, hq, fun _ he ↦ ⟨cause, ?_⟩⟩
      rw [hq, ← Except.error.inj he]

end Build

/-! ## The final link -/

/-- What a final link leaves when it gives its directory up. -/
theorem Session.Quiet.close (htools : tc.Respects dir d) {s t s' : Session (σ × List LogEntry)}
    {i : Invocation} {st : σ} {paths : Path → Prop} (hs : s.Quiet h₀ dir d) (hdir : i.dir = some p)
    (hmade : s.host.makeTemporary "tvm-link-" = .ok (p, h)) (hstore : t.store = s.store)
    (hruns : t.runs = s.runs ++ [tc.logged i st h])
    (hhost : t.host = h.withTree (tc.run i st h).tree)
    (hpaths : ∀ q, paths q → Delivers o h₀ t.runs q) (hs' : Session.Copies d paths t s') :
    (s'.withHost (s'.host.removeDirectory p)).Settled o h₀ dir d fun _ ↦ False := by
  obtain ⟨l, free, houses, confined, -⟩ :=
    Host.houses_makeTemporary hs.marks.sound Host.mem_temporaryStems_link hmade
  have own := htools.link i st s.host h p l free hmade hdir
  have leads := htools.leads i st h (hs.marks.of_houses houses confined).leadsOnlyTo
  rw [← hhost] at own leads
  have sound := hs'.touches.written.sound
  have back := hs'.touches.written.ways.back
  have removed := (own.of_keepsWays sound back).removeDirectory
  have store : s'.store = s.store := hs'.store_eq.trans hstore
  have runs : (s'.withHost (s'.host.removeDirectory p)).runs = s.runs ++ [tc.logged i st h] :=
    hs'.runs_eq.trans hruns
  have inOwn : (tc.logged i st h).InOwn h₀ s.runs p l := hs.inOwn free houses hdir
  refine ⟨⟨store ▸ hs.backend_eq, store ▸ hs.created⟩, ⟨?_, ?_⟩,
    (leads.of_keepsWays sound back).of_keepsWays removed.sound removed.back⟩
  all_goals rw [runs]
  · intro earlier r later heq k hk missed
    rcases eq_of_concat_eq_append_cons heq with ⟨rfl, rfl, -⟩ | ⟨rest, -, hrest⟩
    · have hkl := hk.2 s.runs _ [] p l rfl inOwn
      exact (confined.elsewhere k hkl).trans (hs.touches.elsewhere k hk.1 fun q hq ↦ hq.elim)
    · exact hs.before earlier r rest hrest k hk.1
  · intro k hk missed
    have hkl := hk.2 s.runs _ [] p l rfl inOwn
    rw [Host.leftBy_concat]
    refine (removed.elsewhere k hkl).trans ?_
    rw [hs'.touches.elsewhere k hk.1 fun q hq ↦ ?_, hhost]
    · rfl
    · have missed := missed q (.inl (hruns ▸ hpaths q hq))
      rw [Host.leftBy_concat] at missed
      rw [hhost]
      exact missed

namespace Build

variable {s : Session (σ × List LogEntry)}

theorem ends_finalLink_settled (htools : tc.Respects dir d) (hs : s.Quiet h₀ dir d) (asm : Path) :
    Ends (finalLink tc.logging o asm) s
      (fun _ s' ↦ (s'.Settled o h₀ dir d fun _ ↦ False) ∧ HasLinked h₀ s'.runs)
      (fun _ ↦ Session.Settled o h₀ dir d fun _ ↦ False) := by
  refine ends_finalLink (fun linkDir h hopen ↦ ?_) fun _ _ ↦ hs.settled
  obtain ⟨_, hb, -⟩ | ⟨_, p, -, rfl, hmade⟩ := ArtifactStore.cases_openLinkDir hopen
  · cases hs.backend_eq.symm.trans hb
  obtain ⟨l, free, houses, -, -⟩ :=
    Host.houses_makeTemporary hs.marks.sound Host.mem_temporaryStems_link hmade
  let linked := linkedOutput o (.scoped p)
  let i := (Command.compile o asm (o.absolute o.abi) linked).inDir p
  let noted := (s.withHost h).echoed tc.logging s!"cd {p.display}"
  let t := noted.called tc.logging i
  have hruns : t.runs = s.runs ++ [tc.logged i noted.tools.1 h] := by
    rw [Session.runs_called, Session.runs_echoed]
    rfl
  have own : (tc.logged i noted.tools.1 h).InOwn h₀ s.runs p l := hs.inOwn free houses rfl
  have close {paths : Path → Prop} (hpaths : ∀ q, paths q → Delivers o h₀ t.runs q)
      {s' : Session (σ × List LogEntry)} (hs' : Session.Copies d paths t s') :
      (s'.withHost (s'.host.removeDirectory p)).Settled o h₀ dir d fun _ ↦ False :=
    hs.close htools (t := t) (i := i) rfl hmade rfl hruns rfl hpaths hs'
  have sound : t.host.tree.Sound := htools.keepsSound i noted.tools.1 h houses.sound
  have start (paths : Path → Prop) : Session.Copies d paths t t := ⟨rfl, rfl, .refl sound d paths⟩
  refine ends_bind.mpr (ends_echo.mpr (ends_bind.mpr (ends_tool.mpr ⟨fun text htext ↦ ?_,
    fun _ _ ↦ close (fun _ hq ↦ hq.elim) (start fun _ ↦ False)⟩)))
  have done : (tc.logged i noted.tools.1 h).outcome = .ok text := htext
  have hasLinked : HasLinked h₀ t.runs := by
    rw [hruns]
    exact ⟨s.runs, _, [], p, l, rfl, own, Command.asksToLink_compile o asm _ linked _, text, done⟩
  have delivered (n : Name) (hfile : t.host.isFile (p.join (.ofName n)) = true) :
      Delivers o h₀ t.runs ((OutputTarget.resolve o.output o.workingDir).destination n
        (linked.map (·.raw))) := by
    rw [hruns]
    exact .contract own (Command.asksToLink_compile o asm _ linked _) done hfile
  have copied : Ends (copyOut tc.logging p _ _) t (fun _ ↦ Session.Copies d (Delivers o h₀ t.runs) t)
      (fun _ ↦ Session.Copies d (Delivers o h₀ t.runs) t) := ends_copyOut_copies sound delivered
  refine ends_bind.mpr (copied.mono (fun _ s' hs' ↦ ends_pure.mpr ⟨close (fun _ hq ↦ hq) hs', ?_⟩)
    fun _ _ hs' ↦ close (fun _ hq ↦ hq) hs')
  exact hs'.runs_eq ▸ hasLinked

/-- The code of a contract goes beside it. -/
theorem ends_extractCode_settled (htools : tc.Respects dir d)
    (hs : s.Settled o h₀ dir d fun _ ↦ False) (linked : HasLinked h₀ s.runs) (contract : Path) :
    Ends (extractCode tc.logging o contract) s (fun _ ↦ Session.Settled o h₀ dir d fun _ ↦ False)
      (fun _ ↦ Session.Settled o h₀ dir d fun _ ↦ False) := by
  let i := (Command.decode o contract).inDir o.workingDir
  let t := s.called tc.logging i
  have called : t.Settled o h₀ dir d fun _ ↦ False := hs.called htools i
  refine ends_bind.mpr (ends_tool.mpr ⟨fun text htext ↦ ?_, fun _ _ ↦ called⟩)
  split
  next => exact called
  next code _ =>
    refine ends_bind.mpr (ends_host.mpr (ends_bind.mpr (ends_change.mpr
      ⟨fun h hh ↦ ends_pure.mpr ?_, fun _ _ ↦ called⟩)))
    have sound : t.host.tree.Sound := called.leads.sound
    obtain ⟨place, hplace, change⟩ := Host.writesOnly_write sound hh
    have start : t.host.Touches d (· = sidecar contract) t.host := .refl sound d _
    have touches := start.along sound rfl hplace change
    have hruns : t.runs = s.runs ++ [tc.logged i s.tools.1 s.host] := Session.runs_called s i
    have delivered : Delivers o h₀ t.runs (sidecar contract) := by
      rw [hruns]
      exact .code linked rfl (htext : (tc.logged i s.tools.1 s.host).outcome = .ok text)
    have back := (Host.adds_write sound hh).ways.back
    refine ⟨called.toFiled.withHost h, ⟨called.before, fun k hk missed ↦ ?_⟩,
      called.leads.of_keepsWays touches.written.sound back⟩
    have here : h₀.leftBy t.runs = t.host := by
      rw [hruns, Host.leftBy_concat]
      rfl
    rw [show (t.withHost h).runs = t.runs from rfl, here] at missed ⊢
    refine touches.elsewhere k hk.1 fun q hq ↦ missed q (.inl ?_)
    exact (show q = sidecar contract from hq) ▸ delivered

/-- All stages of a build account for what they change. -/
theorem ends_stages_settled (htools : tc.Respects dir d) (hs : s.Quiet h₀ dir d)
    (paths : List Path) :
    Ends (stages tc.logging o paths) s
      (fun a ↦ Session.Settled o h₀ dir d (EmitsTo o (.ok a : Except BuildError BuildOutcome)))
      (fun e ↦ Session.Settled o h₀ dir d (EmitsTo o (.error e : Except BuildError BuildOutcome))) := by
  rw [stages_eq_assembled]
  refine ((ends_assembled_quiet htools paths hs).mono (fun _ _ h ↦ h) fun _ _ hs ↦ hs.settled).bind ?_
  rintro asm s ⟨hs, -⟩
  split
  next hasm =>
    have emitted : Ends (emitAssembly tc.logging o asm) s _ _ := ends_emitAssembly_settled hasm hs asm
    refine (emitted.mono (fun _ _ h ↦ h) fun e _ hs ↦ hs.mono fun q hq ↦ ?_).bind ?_
    · exact ⟨hasm, hq.path_eq, fun _ he ↦ hq.copies _ (congrArg _ (Except.error.inj he))⟩
    · refine fun p s hs ↦ ends_pure.mpr (hs.mono fun q hq ↦ ?_)
      exact ⟨hasm, hq.path_eq, fun _ he ↦ (by cases he)⟩
  next =>
    have linked : Ends (finalLink tc.logging o asm) s _ _ := ends_finalLink_settled htools hs asm
    refine (linked.mono (fun _ _ h ↦ h) fun _ _ hs ↦ hs.mono fun _ hq ↦ hq.elim).bind ?_
    rintro target s ⟨hs, linked⟩
    cases target with
    | file p =>
      have extracted : Ends (extractCode tc.logging o p) s _ _ :=
        ends_extractCode_settled htools hs linked p
      refine (extracted.mono (fun _ _ h ↦ h) fun _ _ hs ↦ hs.mono fun _ hq ↦ hq.elim).bind ?_
      exact fun _ s hs ↦ ends_pure.mpr (hs.mono fun _ hq ↦ hq.elim)
    | directory p => exact ends_pure.mpr (hs.mono fun _ hq ↦ hq.elim)

/-- A build that does not keep its files changes nothing before, between and after the runs of its tools
but in the directory of these files, in that of the final link, and where it delivers: at its end the
assembly, or behind the run that has made the contract what that has left and then the code.  Before there
is a contract, it changes only the destination of the assembly: if it fails, then only where copying there is
what has failed. -/
theorem untouched_between_runs (tc : Toolchain σ) (ht : h.tree.Sound) (hsave : o.saveTemps = false)
    {tools : σ} {s : Session σ} (hs : Session.start o tools h = .ok s) (paths : List Path) :
    let ended := (run tc o paths).runIn s
    let runs := (history tc o paths s).filterMap LogEntry.run?
    let left (earlier : List LoggedRun) := s.host.leftBy earlier
    let found (later : List LoggedRun) := (later.head?.map (·.before)).getD ended.2.host
    ∃ dir d, s.store.backend = .ephemeral (some dir) ∧ h.HasFree dir d ∧
      (∀ k, ¬ d <+: k → s.host.tree.shape k = h.tree.shape k) ∧
      (tc.Respects dir d →
        (∀ earlier later, runs = earlier ++ later → ∀ k, Outside s.host d runs k →
          (∀ q, Delivers o s.host earlier q ∨ (later = [] ∧ EmitsTo o ended.1 q) →
            (left earlier).Misses q k) →
          (found later).tree.shape k = (left earlier).tree.shape k) ∧
        (¬ HasLinked s.host runs →
          ∀ earlier later, runs = earlier ++ later → ∀ k, Outside s.host d runs k →
            (later = [] → ∀ q, EmitsTo o ended.1 q → (left earlier).Misses q k) →
            (found later).tree.shape k = (left earlier).tree.shape k)) := by
  intro ended runs left found
  obtain ⟨hsave', -⟩ | ⟨-, dir, h', hmade, rfl⟩ := Session.start_cases hs
  · cases hsave.symm.trans hsave'
  obtain ⟨d, free, houses, confined, -⟩ :=
    Host.houses_makeTemporary ht Host.mem_temporaryStems_build hmade
  refine ⟨dir, d, rfl, free, confined.elsewhere, fun htools ↦ ?_⟩
  let begun : Session σ := ⟨h', ⟨.ephemeral (some dir), [], []⟩, tools, []⟩
  have quiet : begun.withLog.Quiet h' dir d := .of_start free houses confined tools
  have accounts : Ends (run tc.logging o paths) begun.withLog
      (fun a t ↦ t.Accounts o h' d (EmitsTo o (.ok a : Except BuildError BuildOutcome)))
      (fun e t ↦ t.Accounts o h' d (EmitsTo o (.error e : Except BuildError BuildOutcome))) := by
    exact ends_andFinally.mpr ((ends_stages_settled htools quiet paths).mono
      (fun _ _ ht ↦ ht.cleanup) fun _ _ ht ↦ ht.cleanup)
  have logged := runIn_run_eq_logging tc o paths begun
  let t := ((run tc.logging o paths).runIn begun.withLog).2
  have done : t.Accounts o h' d (EmitsTo o ended.1) := by
    obtain ⟨passed, failed⟩ := ends_iff.mp accounts
    rw [show ended.1 = ((run tc.logging o paths).runIn begun.withLog).1 from congrArg Prod.fst logged]
    cases hend : ((run tc.logging o paths).runIn begun.withLog).1 with
    | ok a => exact passed a hend
    | error e => exact failed e hend
  have hhost : ended.2.host = t.host := congrArg (fun r ↦ r.2.host) logged
  have gap (earlier later) (heq : runs = earlier ++ later) (k : Location)
      (hk : Outside h' d runs k) (missed : ∀ q, Delivers o h' earlier q ∨
        (later = [] ∧ EmitsTo o ended.1 q) → (left earlier).Misses q k) :
      (found later).tree.shape k = (left earlier).tree.shape k := by
    cases later with
    | nil =>
      rw [List.append_nil] at heq
      subst heq
      refine (congrArg (fun h : Host ↦ h.tree.shape k) hhost).trans (done.now k hk fun q hq ↦ ?_)
      exact missed q (hq.imp id fun hq ↦ ⟨rfl, hq⟩)
    | cons r rest => exact done.before earlier r rest heq k hk fun q hq ↦ missed q (.inl hq)
  refine ⟨gap, fun unlinked earlier later heq k hk missed ↦ ?_⟩
  refine gap earlier later heq k hk fun q hq ↦ ?_
  rcases hq with delivers | ⟨hnil, emits⟩
  · exact absurd (heq ▸ delivers.hasLinked.append later) unlinked
  · exact missed hnil q emits

/-- A build of the sample that ends with the assembly leaves the source alone before each run. -/
theorem untouched_between_runs_sample :
    let tc := Toolchain.writing (Bytes.ofString "; llc\n")
    let paths := [Path.ofString "main.c"]
    let k := [Bytes.ofString "w", Bytes.ofString "main.c"]
    ∃ s, Session.start besideWallet () handwritten = .ok s ∧
      let runs := (history tc besideWallet paths s).filterMap LogEntry.run?
      runs.length = 5 ∧ ∀ earlier r later, runs = earlier ++ r :: later →
        r.before.tree.shape k = (s.host.leftBy earlier).tree.shape k := by
  intro tc paths k
  let w := [Bytes.ofString "w"]
  obtain ⟨s, hs, hlength, hfirst, hall⟩ : ∃ s, Session.start besideWallet () handwritten = .ok s ∧
      let runs := (history tc besideWallet paths s).filterMap LogEntry.run?
      runs.length = 5 ∧ (s.host.tree.node? w).isSome ∧ ∀ r ∈ runs,
        r.invocation.dir = some (.ofString "/w") ∧
        r.invocation.args.head? ≠ some (Bytes.ofString "compile") ∧
        (r.before.locateLink (.ofString "/w")).toOption.map Place.location = some w ∧
        (r.after.node? w).isSome := exists_of_map_decide (by decide +kernel)
  obtain ⟨dir, d, hb, free, -, quiet⟩ :=
    untouched_between_runs tc sound_handwritten rfl hs paths
  obtain ⟨gap, -⟩ := quiet (Toolchain.writesOutputOnly_writing _).respects
  have there (earlier later) (heq : (history tc besideWallet paths s).filterMap LogEntry.run? =
      earlier ++ later) : ((s.host.leftBy earlier).tree.node? w).isSome := by
    rcases List.eq_nil_or_concat earlier with rfl | ⟨rest, r, rfl⟩
    · exact hfirst
    · rw [List.concat_eq_append, Host.leftBy_concat]
      exact (hall r (heq ▸ by simp)).2.2.2
  refine ⟨s, hs, hlength, fun earlier r later heq ↦ ?_⟩
  refine gap earlier (r :: later) heq k ⟨?_, ?_⟩ ?_
  · have source : ∃ n, handwritten.tree.node? k = some n :=
      Option.isSome_iff_exists.mp (by decide +kernel)
    exact free.not_prefix source.choose_spec
  · rintro earlier r later p l heq ⟨hdir, ⟨n, hn⟩, hnew⟩ -
    obtain ⟨hdir', -, hplace, -⟩ := hall r (heq ▸ by simp)
    obtain rfl := Option.some.inj (hdir'.symm.trans hdir)
    rw [hn] at hplace
    obtain rfl : l = w := Option.some.inj hplace
    have still := there earlier (r :: later) heq
    rw [hnew] at still
    cases still
  · rintro q (delivers | ⟨hnil, -⟩)
    · obtain ⟨earlier', r', later', p, l, rfl, -, asks, -⟩ := delivers.hasLinked
      exact absurd asks (hall r' (heq ▸ by simp)).2.1
    · cases hnil

end Build

/-! ## Tools that lead a build astray -/

/-- The tree in which a file has one more name, if that is free. -/
def Tree.twin (l k : Location) (t : Tree) : Tree :=
  match t.node? l with
  | some n => if (t.node? k).isSome then t else t.set k n
  | none => t

/-- The tree in which a directory has been moved and a link put in its place. -/
def Tree.divert (l k : Location) (target : Path) (t : Tree) : Tree :=
  if (t.node? k).isSome then t else (t.move l k).addLink l target

/-- The tree in which `/w` has been moved, but for one directory in a directory there. -/
def Tree.moveAllBut (l : Location) (t : Tree) : Tree :=
  let w := [Bytes.ofString "w"]
  let v := [Bytes.ofString "v"]
  if (t.node? v).isSome then t
  else
    let t := ((t.move w v).addDirectory w programMode).addDirectory l.dropLast programMode
    t.move (v ++ l.tail) l

/-- Whether a link stands below a location. -/
def Tree.hasLinkBelow (l : Location) (t : Tree) : Bool :=
  t.entries.any fun e ↦ isBelow l e.1 && match e.2 with
    | .link _ => true
    | _ => false

/-- The host with assembly written by hand, where temporary files go to a directory in the working
directory, and with notes elsewhere. -/
def annotated : Host :=
  let x := [Bytes.ofString "x"]
  let other := x ++ [Bytes.ofString "tvm-link-U00000"]
  { handwritten with
    tree := (((handwritten.tree.addDirectory [Bytes.ofString "w", Bytes.ofString "tmp"]
      programMode).addDirectory x programMode).addDirectory other programMode).addFile
        (other ++ [Bytes.ofString "notes"]) (Bytes.ofString "mine") fileMode
    tempDir := .ofString "tmp" }

/-- A build, where it has its files, what its tools do to the directory in which they have written, and
what the build then changes outside of all its directories. -/
structure Mishap where
  /-- Where it is built. -/
  host : Host
  /-- The options. -/
  options : BuildOptions
  /-- Where the files are. -/
  directory : Location
  /-- What the tools do. -/
  change : Location → Tree → Tree
  /-- What the build changes. -/
  location : Location

namespace Mishap

/-- A source gets the name of the next file, which is emptied. -/
def emptied : Mishap :=
  let w := Bytes.ofString "w"
  let main := [w, Bytes.ofString "main.c"]
  ⟨handwritten, besideWallet, [w, Bytes.ofString "tvm-build-U00000"],
    fun d ↦ Tree.twin main (d ++ [Bytes.ofString "2-llvm-link.ll"]), main⟩

/-- A link leads to another directory, in which the next file is made. -/
def diverted : Mishap :=
  let w := Bytes.ofString "w"
  ⟨nested, besideWallet, [w, Bytes.ofString "tvm-build-U00000"],
    fun d ↦ Tree.divert d [w, Bytes.ofString "old"] (.ofString "/w/job"),
    [w, Bytes.ofString "job", Bytes.ofString "2-llvm-link.ll"]⟩

/-- A link above the directory of the final link leads to notes, which are removed. -/
def removed : Mishap :=
  let tmp := [Bytes.ofString "v", Bytes.ofString "tmp"]
  ⟨annotated, { BuildOptions.sample with output := some (.ofString "c.boc") },
    [Bytes.ofString "w", Bytes.ofString "tmp", Bytes.ofString "tvm-build-U00000"],
    fun l t ↦ if l.dropLast = tmp then t.divert tmp [Bytes.ofString "old"] (.ofString "/x")
      else t.moveAllBut l,
    [Bytes.ofString "x", Bytes.ofString "tvm-link-U00000", Bytes.ofString "notes"]⟩

/-- Between two runs a build with the mishap's tools changes what stands at the location, outside
the directory of its files, where no tool has put a link. -/
def ChangesBetween (m : Mishap) : Prop :=
  let tc := Toolchain.meddling (Bytes.ofString "; llc\n") m.change
  m.options.saveTemps = false ∧ ¬ m.directory <+: m.location ∧
    ∃ s, Session.start m.options () m.host = .ok s ∧
      let runs := (history tc m.options [.ofString "main.c"] s).filterMap LogEntry.run?
      s.store.dir?.bind s.host.canonical? = some m.directory ∧
        (∀ r ∈ runs, r.after.hasLinkBelow m.directory = false) ∧
        ∃ c ∈ runs.zip runs.tail, c.2.before.tree.shape m.location ≠ c.1.after.shape m.location

end Mishap

/-- Between two runs a build can change a file outside its directories to which it delivers nothing,
though no tool has put a link into the directory of its files. -/
theorem Build.change_between_runs :
    Mishap.emptied.ChangesBetween ∧ Mishap.diverted.ChangesBetween ∧
      Mishap.removed.ChangesBetween := by
  refine ⟨?_, ?_, ?_⟩
  all_goals exact ⟨rfl, by decide +kernel, exists_of_map_decide (by decide +kernel)⟩

end ContractBuild
