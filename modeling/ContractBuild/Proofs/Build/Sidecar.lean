import ContractBuild.Proofs.Build.MergedAssembly
import ContractBuild.Proofs.Build.Release
import ContractBuild.Proofs.FileSystem.Stored

/-!
# The code beside a contract

A build that links a contract into a file ends with a report on it, the only one it asks for, and puts
the code that the report shows beside the contract.  Neither file is changed any more after that.  An
extraction that fails for want of a report or of a code line has written nothing.
-/

namespace ContractBuild

open Build

variable {σ : Type} {tc : Toolchain σ} {o : BuildOptions} {dir p q : Path} {place : Place}
  {content : Bytes} {h h' : Host} {paths : List Path}

/-! ## Calls that ask for a report -/

/-- Whether it asks for a report on a contract. -/
def Invocation.asksToReport (i : Invocation) : Prop :=
  ∃ contract : Path, i.args = [Bytes.ofString "decode", contract.raw, Bytes.ofString "--tvc"]

/-- The call that asks for a report on a contract. -/
def Command.report (o : BuildOptions) (contract : Path) : Invocation :=
  (Command.decode o contract).inDir o.workingDir

namespace Command

theorem not_asksToReport_compile (asm abi : Path) (out : Option Path) (dir : Path) :
    ¬ ((compile o asm abi out).inDir dir).asksToReport := by
  rintro ⟨contract, hargs⟩
  have first : Bytes.ofString "compile" = Bytes.ofString "decode" := (List.cons.inj hargs).1
  exact absurd first (by decide)

/-- Nor does a command whose tool is told to write a file with a dot in its path. -/
theorem NamesOutput.not_asksToReport {command : Path → Invocation} (hcommand : NamesOutput command)
    {out : Path} (hout : Path.dot ∈ out.raw) (dir : Path) :
    ¬ ((command out).inDir dir).asksToReport := by
  rintro ⟨contract, hargs⟩
  have hargs : (command out).args =
      [Bytes.ofString "decode", contract.raw, Bytes.ofString "--tvc"] := hargs
  have dotless {s : String} (hs : Path.dot ∉ Bytes.ofString s) : out.raw ≠ Bytes.ofString s :=
    fun heq ↦ hs (heq ▸ hout)
  have told := hcommand.lastAfter?_args (dotless (by decide))
  have decode : Bytes.ofString "decode" ≠ Bytes.ofString "-o" := by decide
  have tvc : Bytes.ofString "--tvc" ≠ Bytes.ofString "-o" := by decide
  rw [hargs] at told
  simp only [Invocation.lastAfter?, decode, tvc, if_false, Option.or_none, Option.none_or] at told
  split at told
  · exact dotless (by decide) (Option.some.inj told).symm
  · cases told

end Command

/-- The path of an intermediate file has a dot. -/
theorem ArtifactKind.dot_mem_join_fileName (kind : ArtifactKind) (n : Nat) (dir : Path) :
    Path.dot ∈ (dir.join (.ofString (kind.fileName n))).raw := by
  have named : Path.dot ∈ Bytes.ofString (kind.fileName n) := by
    refine List.mem_flatMap.mpr ⟨'.', ?_, by decide⟩
    rw [toList_fileName]
    simp
  unfold Path.join
  split
  · exact named
  · split <;> simp [Path.ofString, named]

/-! ## Sessions in order -/

/-- Whether the files on record lie in the directory of the store, as long as it is open. -/
def ArtifactStore.Owns (s : ArtifactStore) : Prop :=
  ∀ dir, s.dir? = some dir → ∀ a ∈ s.created, ∃ name : Path, name.IsName ∧ a.path = dir.join name

namespace ArtifactStore

variable {s : ArtifactStore} {linkDir : LinkDir}

theorem Owns.reserve (hs : s.Owns) (h : Host) (kind : ArtifactKind) :
    (s.reserve h kind).2.1.Owns := by
  intro dir hdir a ha
  have hdir : s.dir? = some dir := by simpa [dir?] using hdir
  exact (mem_created_reserve ha).elim (hs dir hdir a) (exists_name_of_nextPath hdir)

theorem Owns.cleanup (hs : s.Owns) (h : Host) : (s.cleanup h).1.Owns := by
  unfold ArtifactStore.cleanup
  split
  next => exact hs
  next => exact fun dir hdir ↦ by cases hdir

/-- A directory for the final link is opened in a sound tree. -/
theorem sound_openLinkDir (ht : h.tree.Sound) (hopen : s.openLinkDir h = .ok (linkDir, h')) :
    h'.tree.Sound := by
  rcases cases_openLinkDir hopen with ⟨_, -, -, rfl⟩ | ⟨_, _, -, -, hmade⟩
  · exact ht
  · obtain ⟨d, -, houses, -, -⟩ := Host.houses_makeTemporary ht Host.mem_temporaryStems_link hmade
    exact houses.sound

theorem sound_cleanup (ht : h.tree.Sound) (s : ArtifactStore) : (s.cleanup h).2.tree.Sound := by
  unfold ArtifactStore.cleanup
  split
  next => exact ht
  next =>
    have removed : ((s.created.filter fun a ↦ !a.persistent).foldl
        (fun h a ↦ h.removeFile a.path) h).tree.Sound :=
      List.foldlRecOn (motive := fun h : Host ↦ h.tree.Sound) _ _ ht
        fun _ ht _ _ ↦ Host.sound_removeFile ht _
    dsimp only
    split
    next => exact Host.sound_removeDirectory removed _
    next => exact removed

end ArtifactStore

theorem LinkDir.sound_close (ht : h.tree.Sound) (linkDir : LinkDir) :
    (linkDir.close h).tree.Sound := by
  rcases linkDir with p | p
  · exact Host.sound_removeDirectory ht p
  · exact ht

/-- Whether the tree of a session is sound and the files on record are where the store keeps them. -/
structure Session.Tidy (s : Session σ) : Prop where
  /-- The tree is sound. -/
  sound : s.host.tree.Sound
  /-- The files on record are there. -/
  owns : s.store.Owns

namespace Session.Tidy

variable {s : Session σ}

theorem lasting (htools : tc.KeepsSound) : Session.Lasting tc (Tidy (σ := σ)) where
  echoed _ _ hs := ⟨hs.sound, hs.owns⟩
  put _ _ hs hp := ⟨(hp.adds hs.sound).sound, hs.owns⟩
  called s i hs := ⟨htools i s.tools s.host hs.sound, hs.owns⟩
  reserved s kind hs :=
    ⟨(ArtifactStore.adds_reserve hs.sound s.store kind).sound, hs.owns.reserve s.host kind⟩

theorem finalLink (htools : tc.KeepsSound) (asm : Path) :
    Preserves (Tidy (σ := σ)) (finalLink tc o asm) := by
  intro s hs
  refine ends_finalLink (fun linkDir h hopen ↦ ?_) fun _ _ ↦ hs
  have opened : (s.withHost h).Tidy := ⟨ArtifactStore.sound_openLinkDir hs.sound hopen, hs.owns⟩
  have closed {t : Session σ} (ht : t.Tidy) : (t.withHost (linkDir.close t.host)).Tidy :=
    ⟨linkDir.sound_close ht.sound, ht.owns⟩
  exact ((lasting htools).linkIn linkDir asm _ opened).mono (fun _ _ ↦ closed) fun _ _ ↦ closed

theorem cleanup (hs : s.Tidy) : s.cleanup.Tidy :=
  ⟨s.store.sound_cleanup hs.sound, hs.owns.cleanup s.host⟩

theorem perform (htools : tc.KeepsSound) (hs : s.Tidy) (c : Call) : (c.perform tc o s).Tidy := by
  obtain ⟨m, hm, heq⟩ := c.exists_of_perform (lasting htools) (finalLink htools) hs
  rw [heq]
  split
  · exact hm.cleanup
  · exact hm

theorem of_start (ht : h.tree.Sound) {tools : σ} (hs : Session.start o tools h = .ok s) :
    s.Tidy := by
  obtain ⟨dir, stocked⟩ := Session.Stocked.of_start ht hs
  obtain ⟨-, none, -⟩ := Session.fresh_of_start hs
  exact ⟨stocked.sound, fun _ _ a ha ↦ by simp [none] at ha⟩

end Session.Tidy

/-! ## Before the report -/

/-- Whether a session has come from another without a report on a contract. -/
structure Session.Unreported (m s : Session (σ × List LogEntry)) : Prop where
  /-- The log has grown, and the events with it. -/
  grown : ∃ log, s.tools.2 = m.tools.2 ++ log ∧ s.events = m.events ++ log.map LogEntry.event ∧
    ∀ r, .run r ∈ log → ¬ r.invocation.asksToReport
  /-- The store keeps its files where it kept them. -/
  backend_eq : s.store.backend = m.store.backend
  /-- The session is in order. -/
  tidy : s.Tidy

namespace Session.Unreported

variable {m s : Session (σ × List LogEntry)}

theorem refl (hm : m.Tidy) : m.Unreported m := ⟨⟨[], by simp⟩, rfl, hm⟩

theorem called (hs : m.Unreported s) (htools : tc.KeepsSound) {i : Invocation}
    (hi : ¬ i.asksToReport) : m.Unreported (s.called tc.logging i) := by
  obtain ⟨log, hlog, events, unasked⟩ := hs.grown
  refine ⟨⟨log ++ [.run (tc.logged i s.tools.1 s.host)], ?_, ?_, fun r hr ↦ ?_⟩, hs.backend_eq,
    (Tidy.lasting htools.logging).called s i hs.tidy⟩
  · rw [← List.append_assoc, ← hlog]
    rfl
  · rw [events_called, events, List.append_assoc, List.map_append]
    rfl
  · rcases List.mem_append.mp hr with hr | hr
    · exact unasked r hr
    · obtain rfl := LogEntry.run.inj (List.mem_singleton.mp hr)
      exact hi

theorem echoed (hs : m.Unreported s) (line : String) :
    m.Unreported (s.echoed tc.logging line) := by
  obtain ⟨log, hlog, events, unasked⟩ := hs.grown
  refine ⟨⟨log ++ [.echo line], ?_, ?_, fun r hr ↦ unasked r (by simpa using hr)⟩, hs.backend_eq,
    ⟨hs.tidy.sound, hs.tidy.owns⟩⟩
  · rw [← List.append_assoc, ← hlog]
    rfl
  · rw [events_echoed, events, List.append_assoc, List.map_append]
    rfl

theorem withHost (hs : m.Unreported s) (ht : h.tree.Sound) : m.Unreported (s.withHost h) :=
  ⟨hs.grown, hs.backend_eq, ht, hs.tidy.owns⟩

theorem steady (tc : Toolchain σ) (m : Session (σ × List LogEntry)) :
    Session.Steady tc.logging m.Unreported where
  echoed _ line hs := hs.echoed line
  put _ _ hs hp := hs.withHost (hp.adds hs.tidy.sound).sound

end Session.Unreported

namespace Build

variable {m s : Session (σ × List LogEntry)}

/-- No job asks for a report, and none is done in a closed store. -/
theorem ends_produce_unreported (htools : tc.KeepsSound) {kind : ArtifactKind}
    {command : Path → Invocation} (hcommand : Command.NamesOutput command) (hs : m.Unreported s) :
    Ends (produce tc.logging o kind command) s
      (fun _ s' ↦ m.Unreported s' ∧ m.store.dir?.isSome) fun _ ↦ m.Unreported := by
  have reserved : m.Unreported (s.reserved kind) :=
    ⟨hs.grown, (ArtifactStore.backend_reserve _ _ _).trans hs.backend_eq,
      (Session.Tidy.lasting htools.logging).reserved s kind hs.tidy⟩
  refine ends_bind.mpr (ends_reserve.mpr ⟨fun out hout ↦ ?_, fun _ _ ↦ reserved⟩)
  obtain ⟨dir, hdir, rfl⟩ := Option.map_eq_some_iff.mp (ArtifactStore.write_of_reserve hout).1
  have opened : m.store.dir?.isSome := by
    rw [ArtifactStore.dir?, ← hs.backend_eq]
    exact Option.isSome_iff_exists.mpr ⟨dir, hdir⟩
  have unasked := hcommand.not_asksToReport
    (kind.dot_mem_join_fileName (s.store.asked.count kind) dir) o.workingDir
  have called := reserved.called htools unasked
  exact ends_bind.mpr (ends_tool.mpr ⟨fun _ _ ↦ ends_pure.mpr ⟨called, opened⟩, fun _ _ ↦ called⟩)

/-- Nor does the final link. -/
theorem preserves_finalLink_unreported (htools : tc.KeepsSound) (asm : Path) :
    Preserves m.Unreported (finalLink tc.logging o asm) := by
  intro s hs
  have steady := Session.Unreported.steady tc m
  have call (t : Session (σ × List LogEntry)) (ht : m.Unreported t) (out : Option Path)
      (dir : Path) :
      Ends (tool tc.logging ((Command.compile o asm (o.absolute o.abi) out).inDir dir)) t
        (fun _ ↦ m.Unreported) fun _ ↦ m.Unreported := by
    have unasked := Command.not_asksToReport_compile (o := o) asm (o.absolute o.abi) out dir
    have called := ht.called htools unasked
    exact ends_tool.mpr ⟨fun _ _ ↦ called, fun _ _ ↦ called⟩
  refine ends_finalLink (fun linkDir h hopen ↦ ?_) fun _ _ ↦ hs
  have opened := hs.withHost (ArtifactStore.sound_openLinkDir hs.tidy.sound hopen)
  have closed {t : Session (σ × List LogEntry)} (ht : m.Unreported t) :
      m.Unreported (t.withHost (linkDir.close t.host)) :=
    ht.withHost (linkDir.sound_close ht.tidy.sound)
  have linked : Ends (linkIn tc.logging o linkDir asm) (s.withHost h)
      (fun _ ↦ m.Unreported) fun _ ↦ m.Unreported := by
    rcases linkDir with p | p
    · refine ends_bind.mpr (ends_echo.mpr ?_)
      refine (call _ (opened.echoed _) _ p).bind fun _ t ht ↦ ?_
      exact (steady.copyOut _ _ _ t ht).bind fun _ t ht ↦ ends_pure.mpr ht
    · exact (call _ opened _ p).bind fun _ t ht ↦ ends_pure.mpr ht
  exact linked.mono (fun _ _ ↦ closed) fun _ _ ↦ closed

/-! ## The extraction -/

/-- An extraction asks for the report, looks for its code line and writes the code; where one of these
fails it goes no further. -/
theorem runIn_extractCode (contract : Path) (s : Session σ) :
    (extractCode tc o contract).runIn s =
      let asked := s.called tc (Command.report o contract)
      match (tc.run (Command.report o contract) s.tools s.host).outcome with
      | .error e => (.error e, asked)
      | .ok report => match CodeLine.find? report with
        | none => (.error (.noCodeLine contract), asked)
        | some code => match asked.host.write (sidecar contract) (Bytes.ofString code) with
          | .error cause => (.error (.io (.writing (sidecar contract)) cause), asked)
          | .ok h => (.ok (sidecar contract), asked.withHost h) := by
  have called : (tool tc ((Command.decode o contract).inDir o.workingDir)).runIn s =
      ((tc.run (Command.report o contract) s.tools s.host).outcome,
        s.called tc (Command.report o contract)) := rfl
  rw [extractCode, runIn_bind, called]
  dsimp only
  cases (tc.run (Command.report o contract) s.tools s.host).outcome with
  | error e => rfl
  | ok report =>
    dsimp only
    cases CodeLine.find? report with
    | none => rfl
    | some code =>
      dsimp only
      rw [runIn_bind]
      change runIn (change _ ((s.called tc (Command.report o contract)).host.write _ _) >>= _) _ = _
      cases (s.called tc (Command.report o contract)).host.write (sidecar contract)
        (Bytes.ofString code) <;> rfl

/-- What an extraction does that succeeds. -/
theorem ends_extractCode_ok (contract : Path) (s : Session σ) :
    let asked := s.called tc (Command.report o contract)
    Ends (extractCode tc o contract) s
      (fun p t ↦ p = sidecar contract ∧ ∃ report code h,
        (tc.run (Command.report o contract) s.tools s.host).outcome = .ok report ∧
        CodeLine.find? report = some code ∧
        asked.host.write (sidecar contract) (Bytes.ofString code) = .ok h ∧ t = asked.withHost h)
      (fun _ _ ↦ True) := by
  intro asked
  unfold Ends
  rw [runIn_extractCode]
  cases hreport : (tc.run (Command.report o contract) s.tools s.host).outcome with
  | error e => exact trivial
  | ok report =>
    dsimp only
    cases hcode : CodeLine.find? report with
    | none => exact trivial
    | some code =>
      dsimp only
      cases hwrite : (s.called tc (Command.report o contract)).host.write (sidecar contract)
        (Bytes.ofString code) with
      | error cause => exact trivial
      | ok h => exact ⟨rfl, report, code, h, rfl, hcode, hwrite, rfl⟩

/-! ## Linked contracts -/

/-- Whether a build has come from a session to a contract in a file: its report has been the last call,
the only one for a report, and the code has been put beside the contract. -/
def Reported (tc : Toolchain σ) (o : BuildOptions) (m : Session (σ × List LogEntry))
    (contract : Path) (t : Session (σ × List LogEntry)) : Prop :=
  ∃ (u : Session (σ × List LogEntry)) (report code : String) (h : Host),
    m.Unreported u ∧ m.store.dir?.isSome ∧
    (tc.run (Command.report o contract) u.tools.1 u.host).outcome = .ok report ∧
    CodeLine.find? report = some code ∧
    (u.called tc.logging (Command.report o contract)).host.write (sidecar contract)
      (Bytes.ofString code) = .ok h ∧
    t = (u.called tc.logging (Command.report o contract)).withHost h

/-- A contract in a file has been reported on, and no other has. -/
theorem ends_stages_linked (htools : tc.KeepsSound) (hm : m.Tidy) (paths : List Path) :
    Ends (stages tc.logging o paths) m
      (fun out t ↦
        (∀ p code, out = .linked (.file p) code →
          code = some (sidecar p) ∧ Reported tc o m p t) ∧
        ∀ p code, out = .linked (.directory p) code → code = none ∧ m.Unreported t)
      (fun _ _ ↦ True) := by
  have steady := Session.Unreported.steady tc m
  cases hinputs : classify paths with
  | error e =>
    unfold stages classified
    rw [hinputs]
    exact ends_throw.mpr trivial
  | ok inputs =>
    rw [stages_eq_generated tc.logging o hinputs]
    have generating : Ends (generated tc.logging o inputs) m _ _ :=
      ends_generated (I := m.Unreported) (P := fun _ _ ↦ m.store.dir?.isSome)
        (fun _ _ hcommand _ hs ↦ ends_produce_unreported htools hcommand hs) inputs (.refl hm)
    refine ends_bind.mpr (generating.mono ?_ fun _ _ _ ↦ trivial)
    rintro asm s ⟨hs, opened⟩
    refine ends_bind.mpr ((steady.mergeAssembly asm inputs s hs).mono ?_ fun _ _ _ ↦ trivial)
    intro _ s hs
    split
    next =>
      refine ends_bind.mpr ((steady.emitAssembly asm s hs).mono ?_ fun _ _ _ ↦ trivial)
      exact fun _ _ _ ↦ ends_pure.mpr ⟨fun _ _ h ↦ (by cases h), fun _ _ h ↦ by cases h⟩
    next =>
      refine ends_bind.mpr ((preserves_finalLink_unreported htools asm s hs).mono ?_
        fun _ _ _ ↦ trivial)
      intro target s hs
      cases target with
      | directory p =>
        refine ends_pure.mpr ⟨fun _ _ h ↦ (by cases h), fun p' code h ↦ ?_⟩
        obtain ⟨-, rfl⟩ := BuildOutcome.linked.inj h
        exact ⟨rfl, hs⟩
      | file p =>
        refine ends_bind.mpr ((ends_extractCode_ok p s).mono ?_ fun _ _ _ ↦ trivial)
        rintro _ t ⟨rfl, report, value, h, hreport, hcode, hwrite, rfl⟩
        refine ends_pure.mpr ⟨fun p' code h' ↦ ?_, fun _ _ h ↦ by cases h⟩
        obtain ⟨hp, rfl⟩ := BuildOutcome.linked.inj h'
        obtain rfl := OutputTarget.file.inj hp
        exact ⟨rfl, s, report, value, h, hs, opened, hreport, hcode, hwrite, rfl⟩

end Build

/-! ## Contents -/

/-- Where a file is written, or nothing stood, there is a file with that content. -/
theorem Host.file_of_write (ht : h.tree.Sound) (hwrite : h.write q content = .ok h')
    (hplace : h.locateNew q = .ok place)
    (hfile : ∀ n, h.tree.node? place.location = some n → ∃ f, n = .file f) :
    ∃ g, h'.tree.node? place.location = some (.file g) ∧ g.content = content := by
  obtain ⟨⟨l, h₁⟩, hcreate, happend⟩ := exists_of_bind_eq_ok hwrite
  obtain ⟨⟨place', hplace', rfl⟩, -, -⟩ := Host.writesOnly_create ht hcreate
  obtain rfl := Except.ok.inj (hplace.symm.trans hplace')
  obtain ⟨b, hb, hempty, -⟩ := Host.file_of_create ht hcreate hfile
  obtain ⟨g, hg, -, hcontent⟩ := Host.file_of_append hb happend
  exact ⟨g, hg, by rw [hcontent, hempty, List.nil_append]⟩

namespace Session

/-- Whether a session has its temporary directory, if it has one, where it was made. -/
def InPlace (s : Session σ) : Prop :=
  ∀ dir, s.store.backend = .ephemeral (some dir) → ∃ d, s.host.HasDirectory dir d

variable {s : Session σ} {l : Location} {f : File}

/-- What lasts is there. -/
theorem node?_of_lasting (hs : s.Stocked dir) (hin : s.InPlace) {n : Node}
    (hn : s.lasting.tree.node? l = some n) : s.host.tree.node? l = some n := by
  rcases cases_lasting hs hin with ⟨same, -⟩ | ⟨d, -, same, -⟩ <;> rw [same] at hn
  · exact hn
  · exact (Tree.node?_of_keep hn).1

theorem sound_lasting (hs : s.Stocked dir) (hin : s.InPlace) : s.lasting.tree.Sound := by
  rcases cases_lasting hs hin with ⟨same, -⟩ | ⟨d, -, same, -⟩ <;> rw [same]
  · exact hs.sound
  · exact Host.sound_without hs.sound d

/-- A file that is written outside the temporary directory is the only thing that changes. -/
theorem writesOnly_of_lasting (hs : s.Stocked dir) (hin : s.InPlace)
    (hwrite : s.host.write q content = .ok h) (hplace : s.lasting.locateNew q = .ok place)
    (hfile : ∀ n, s.host.tree.node? place.location = some n → ∃ b, n = .file b) :
    (s.withHost h).Stocked dir ∧ s.host.WritesOnly h place.location ∧
      ∃ g, h.tree.node? place.location = some (.file g) ∧ g.content = content := by
  have hend : s.host.tree.leads place.location = false := by
    unfold Tree.leads
    cases hn : s.host.tree.node? place.location with
    | none => rfl
    | some n =>
      obtain ⟨b, rfl⟩ := hfile n hn
      rfl
  obtain ⟨place', hlocation, hplace'⟩ :=
    locateNew_of_lasting hs hin (.refl hs.sound) hplace hend
  obtain ⟨goal, hgoal, change⟩ := Host.writesOnly_write hs.sound hwrite
  obtain rfl := Except.ok.inj (hplace'.symm.trans hgoal)
  have written := Host.file_of_write hs.sound hwrite hplace' (hlocation ▸ hfile)
  rw [hlocation] at change written
  exact ⟨⟨change.tree.sound, hs.dir?_eq, hs.created⟩, change, written⟩

/-- It holds its content when the session has been given up. -/
theorem entry_of_write (hs : s.Stocked dir) (hin : s.InPlace)
    (hwrite : s.host.write q content = .ok h) (hplace : s.lasting.locateNew q = .ok place)
    (hfile : ∀ n, s.host.tree.node? place.location = some n → ∃ b, n = .file b) :
    ∃ g, (s.withHost h).cleanup.host.entry q = .ok (place.location, .file g) ∧
      g.content = content := by
  obtain ⟨stocked, change, g, hg, hcontent⟩ := writesOnly_of_lasting hs hin hwrite hplace hfile
  obtain ⟨g', hg', same⟩ :=
    entry_of_lasting hs stocked rfl hin change.written hplace hfile hg
  exact ⟨g', hg', same.trans hcontent⟩

/-- Every other file there holds what it held. -/
theorem entry_of_write_other (hs : s.Stocked dir) (hin : s.InPlace)
    (hwrite : s.host.write q content = .ok h) (hplace : s.lasting.locateNew q = .ok place)
    (hfile : ∀ n, s.host.tree.node? place.location = some n → ∃ b, n = .file b)
    (hp : s.lasting.entry p = .ok (l, .file f))
    (hother : s.host.tree.fileId? place.location ≠ some f.id) :
    ∃ g, (s.withHost h).cleanup.host.entry p = .ok (l, .file g) ∧ g.content = f.content := by
  obtain ⟨stocked, change, -⟩ := writesOnly_of_lasting hs hin hwrite hplace hfile
  have there := Host.locateNew_of_entry (sound_lasting hs hin) hp rfl
  have hf := node?_of_lasting hs hin (Host.node?_of_entry hp)
  have untouched : h.tree.shape l = s.host.tree.shape l :=
    change.tree.shape_of_fileId? (Tree.fileId?_eq_some.mpr ⟨f, hf, rfl⟩) hother
  obtain ⟨g, hg, -, same⟩ := Tree.exists_file_of_shape_eq untouched hf
  obtain ⟨g', hg', same'⟩ := entry_of_lasting hs stocked rfl hin change.written there
    (fun n hn ↦ ⟨f, Option.some.inj (hn.symm.trans hf)⟩) hg
  exact ⟨g', hg', same'.trans same⟩

end Session

namespace Build

/-- Whatever was called before: a build that links a contract into a file asks for one report, on that
file and as its last call, and the code file is beside the contract.  If the tools have left the
temporary directory in place and the code file leads to nothing then, or to a file, outside that, it
holds the code that the report shows after the build; and the contract holds what it held then, unless
that is the same file.  A build that links into a directory asks for no report.  An extraction that
fails for want of a report or of a code line fails with the error of the tool, or names the contract,
and leaves the files as the tool has left them. -/
theorem code_beside_contract (htools : tc.KeepsSound) (ht : h.tree.Sound) {tools : σ}
    {s₀ : Session σ} (hs : Session.start o tools h = .ok s₀) (calls : List Call) (paths : List Path) :
    let s := s₀.after tc o calls
    let ended := (run tc o paths).runIn s
    (∀ p code, ended.1 = .ok (.linked (.file p) code) → code = some (sidecar p) ∧
      ∃ log r report value, history tc o paths s = log ++ [.run r] ∧
        r.invocation = Command.report o p ∧
        (∀ r', .run r' ∈ log → ¬ r'.invocation.asksToReport) ∧
        ended.2.events = s.events ++ log.map LogEntry.event ++ [.run (Command.report o p)] ∧
        r.outcome = .ok report ∧ CodeLine.find? report = some value ∧
        let left := s.withHost (r.before.withTree r.after)
        left.InPlace → ∀ place, left.lasting.locateNew (sidecar p) = .ok place →
          (∀ n, left.host.tree.node? place.location = some n → ∃ b, n = .file b) →
          (∃ g, ended.2.host.entry (sidecar p) = .ok (place.location, .file g) ∧
            g.content = Bytes.ofString value) ∧
          ∀ l f, left.lasting.entry p = .ok (l, .file f) →
            left.host.tree.fileId? place.location ≠ some f.id →
            ∃ g, ended.2.host.entry p = .ok (l, .file g) ∧ g.content = f.content) ∧
    (∀ p code, ended.1 = .ok (.linked (.directory p) code) → code = none ∧
      ∀ r, .run r ∈ history tc o paths s → ¬ r.invocation.asksToReport) ∧
    ∀ (t : Session σ) (contract : Path),
      let reply := tc.run (Command.report o contract) t.tools t.host
      let asked := t.called tc (Command.report o contract)
      asked.host = t.host.withTree reply.tree ∧
      (∀ e, reply.outcome = .error e →
        (extractCode tc o contract).runIn t = (.error e, asked)) ∧
      ∀ report, reply.outcome = .ok report → CodeLine.find? report = none →
        (extractCode tc o contract).runIn t = (.error (.noCodeLine contract), asked) := by
  intro s ended
  have tidy : s.Tidy := Session.holds_after (fun _ c hs ↦ hs.perform htools c) (.of_start ht hs) calls
  have linked := ends_stages_linked (o := o) (m := s.withLog) htools ⟨tidy.sound, tidy.owns⟩ paths
  rcases hstages : (stages tc.logging o paths).runIn s.withLog with ⟨result, t⟩
  have logged : (run tc.logging o paths).runIn s.withLog = (result, t.cleanup) := by
    unfold run andFinally
    rw [runIn_ofResult, hstages]
  have outcome : ended = (result, t.cleanup.mapTools Prod.fst) := by
    rw [← Prod.eta ended]
    simp only [ended, runIn_run_eq_logging tc o paths s, logged]
  have whole : history tc o paths s = t.tools.2 := by
    unfold history
    rw [logged]
    rfl
  refine ⟨fun p code hdone ↦ ?_, fun p code hdone ↦ ?_, fun t contract ↦ ⟨rfl, ?_, ?_⟩⟩
  · obtain rfl : result = .ok (.linked (.file p) code) := by rw [← hdone, outcome]
    obtain ⟨reported, -⟩ := linked.of_ok hstages
    obtain ⟨beside, u, report, value, h', hu, opened, hreport, hcode, hwrite, rfl⟩ :=
      reported p code rfl
    obtain ⟨log, hlog, hevents, unasked⟩ := hu.grown
    have hlog : u.tools.2 = log := hlog
    refine ⟨beside, log, tc.logged (Command.report o p) u.tools.1 u.host, report, value, ?_, rfl,
      unasked, ?_, hreport, hcode, fun hin place hplace hfile ↦ ?_⟩
    · rw [whole, ← hlog]
      rfl
    · rw [outcome]
      exact congrArg (· ++ _) hevents
    · let v := u.called tc.logging (Command.report o p)
      obtain ⟨dir, hdir⟩ := Option.isSome_iff_exists.mp opened
      have backend : v.store.backend = s.store.backend := hu.backend_eq
      have place' : v.InPlace := fun dir hb ↦ hin dir (backend.symm.trans hb)
      have hdir' : v.store.dir? = some dir := by
        rw [ArtifactStore.dir?, backend]
        exact hdir
      have sound : v.host.tree.Sound := htools.logging _ u.tools u.host hu.tidy.sound
      have stocked : v.Stocked dir := ⟨sound, hdir', hu.tidy.owns dir hdir'⟩
      have lasting : v.lasting = (s.withHost v.host).lasting := by
        unfold Session.lasting
        rw [backend]
        rfl
      rw [outcome]
      have hplace : v.lasting.locateNew (sidecar p) = .ok place := by
        rw [lasting]
        exact hplace
      refine ⟨Session.entry_of_write stocked place' hwrite hplace hfile, fun l f hp hother ↦ ?_⟩
      have hp : v.lasting.entry p = .ok (l, .file f) := by
        rw [lasting]
        exact hp
      exact Session.entry_of_write_other stocked place' hwrite hplace hfile hp hother
  · obtain rfl : result = .ok (.linked (.directory p) code) := by rw [← hdone, outcome]
    obtain ⟨-, other⟩ := linked.of_ok hstages
    obtain ⟨rfl, hu⟩ := other p code rfl
    obtain ⟨log, hlog, -, unasked⟩ := hu.grown
    refine ⟨rfl, fun r hr ↦ unasked r ?_⟩
    rw [whole, hlog] at hr
    exact hr
  · intro e he
    rw [runIn_extractCode, he]
  · intro report hreport hnone
    rw [runIn_extractCode, hreport]
    dsimp only
    rw [hnone]

end Build

/-! ## Samples -/

/-- Options for a build of a contract that keeps its files. -/
def keptContract : BuildOptions :=
  { BuildOptions.sample with saveTemps := true, output := some (.ofString "c.boc") }

/-- A toolchain whose tools succeed, write the same bytes to their outputs and print the same text. -/
def Toolchain.answering (content : Bytes) (text : String) : Toolchain Unit :=
  { writing content with
    run := fun i st h ↦ { (writing content).run i st h with outcome := .ok text } }

theorem Toolchain.keepsSound_answering (content : Bytes) (text : String) :
    (answering content text).KeepsSound := (writesOutputOnly_writing content).keepsSound

/-- The code of the sample is beside the contract, which is as the linker has left it. -/
theorem code_beside_contract_sample :
    let tc := Toolchain.answering (Bytes.ofString "tvc") " code: AB\n"
    let paths := [Path.ofString "main.c"]
    let contract := Path.ofString "/w/c.boc"
    ∃ s, Session.start keptContract () handwritten = .ok s ∧
      ((run tc keptContract paths).runIn s).1 =
        .ok (.linked (.file contract) (some (sidecar contract))) ∧
      (∃ l g, ((run tc keptContract paths).runIn s).2.host.entry (sidecar contract) =
        .ok (l, .file g) ∧ g.content = Bytes.ofString "AB") ∧
      ∃ l g, ((run tc keptContract paths).runIn s).2.host.entry contract = .ok (l, .file g) ∧
        g.content = Bytes.ofString "tvc" := by
  intro tc paths contract
  let l : Location := [Bytes.ofString "w", Bytes.ofString "c.boc"]
  let k : Location := [Bytes.ofString "w", Bytes.ofString "c.boc.code"]
  let f : File :=
    { Attributes.fresh fileMode Tree.empty.now with id := 10, content := Bytes.ofString "tvc" }
  -- what the last call has answered and left
  obtain ⟨s, hs, done, last⟩ := exists_of_map_decide
    (x := Session.start keptContract () handwritten)
    (P := fun s ↦ ((run tc keptContract paths).runIn s).1 =
        .ok (.linked (.file contract) (some (sidecar contract))) ∧
      ((history tc keptContract paths s).getLast?.bind LogEntry.run?).map (fun r ↦
        decide (r.outcome = .ok " code: AB\n" ∧ s.store.backend = .persistent (.ofString "/w") ∧
          (s.withHost (r.before.withTree r.after)).lasting.locateNew (sidecar contract) =
            .ok (.vacant k) ∧ r.after.node? k = none ∧
          (s.withHost (r.before.withTree r.after)).lasting.entry contract = .ok (l, .file f))) =
        some true) (by decide +kernel)
  obtain ⟨linked, -, -⟩ := code_beside_contract (Toolchain.keepsSound_answering _ _)
    sound_handwritten hs [] paths
  obtain ⟨-, log, r, report, value, hlog, -, -, -, hreport, hvalue, holds⟩ :=
    linked contract _ done
  have hlog : history tc keptContract paths s = log ++ [.run r] := hlog
  rw [hlog, List.getLast?_concat] at last
  obtain ⟨answer, kept, vacant, free, there⟩ := of_decide_eq_true (Option.some.inj last)
  obtain rfl := Except.ok.inj (hreport.symm.trans answer)
  have found : CodeLine.find? " code: AB\n" = some "AB" := by decide +kernel
  obtain rfl := Option.some.inj (found.symm.trans hvalue)
  have other : r.after.fileId? k = none := by rw [Tree.fileId?, free]; rfl
  obtain ⟨code, contract⟩ := holds (fun _ hb ↦ by cases kept.symm.trans hb) _ vacant
    fun n hn ↦ by cases free.symm.trans hn
  obtain ⟨g, hg, content⟩ := contract l f there fun hid ↦ by cases other.symm.trans hid
  exact ⟨s, hs, done, ⟨_, code⟩, l, g, hg, content⟩

/-- The host on which the contract and the file with its code are two names of one file. -/
def sharedContract : Host :=
  let t := handwritten.tree.addFile [Bytes.ofString "w", Bytes.ofString "c.boc"] [] fileMode
  { handwritten with
    tree := t.set [Bytes.ofString "w", Bytes.ofString "c.boc.code"]
      (.file (handwritten.tree.newFile [] fileMode)) }

theorem sound_sharedContract : sharedContract.tree.Sound :=
  (sound_handwritten.addFile (by decide) (by decide) _ _).setFile (by decide) (by decide)
    (Nat.le_refl _) (by decide)

/-- The host on which what is written to the file with the code is lost. -/
def discardedCode : Host :=
  { handwritten with
    tree := handwritten.tree.set [Bytes.ofString "w", Bytes.ofString "c.boc.code"] (.device .null) }

/-- A build can succeed and leave a contract that is not what it reported on but the code that goes
beside it, although neither file is a link; or no code at all, where the file for it does not take
any. -/
theorem code_overwrites_contract_or_is_lost :
    let tc := Toolchain.answering (Bytes.ofString "tvc") " code: AB\n"
    let ended (o : BuildOptions) (s : Session Unit) := (run tc o [.ofString "main.c"]).runIn s
    let contract := Path.ofString "/w/c.boc"
    tc.KeepsSound ∧ sharedContract.tree.Sound ∧
      (∃ s r f, Session.start keptContract () sharedContract = .ok s ∧
        (ended keptContract s).1 = .ok (.linked (.file contract) (some (sidecar contract))) ∧
        (history tc keptContract [.ofString "main.c"] s).getLast?.bind LogEntry.run? = some r ∧
        r.invocation = Command.report keptContract contract ∧
        let left := r.before.withTree r.after
        left.locateLink (sidecar contract) =
          .ok (.entry [Bytes.ofString "w", Bytes.ofString "c.boc.code"] (.file f)) ∧
        left.locateLink contract =
          .ok (.entry [Bytes.ofString "w", Bytes.ofString "c.boc"] (.file f)) ∧
        f.content = Bytes.ofString "tvc" ∧
        (ended keptContract s).2.host.read contract = .ok (Bytes.ofString "AB")) ∧
      ∃ s, Session.start keptContract () discardedCode = .ok s ∧
        (ended keptContract s).1 = .ok (.linked (.file contract) (some (sidecar contract))) ∧
        (ended keptContract s).2.host.read (sidecar contract) = .ok [] := by
  intro tc ended contract
  let s : Session Unit := ⟨sharedContract, .persistent keptContract.workingDir, (), []⟩
  let f : File :=
    { Attributes.fresh fileMode Tree.empty.now with id := 5, content := Bytes.ofString "tvc" }
  have last : ((history tc keptContract [.ofString "main.c"] s).getLast?.bind LogEntry.run?).map
      (fun r ↦ decide (r.invocation = Command.report keptContract contract ∧
        (r.before.withTree r.after).locateLink (sidecar contract) =
          .ok (.entry [Bytes.ofString "w", Bytes.ofString "c.boc.code"] (.file f)) ∧
        (r.before.withTree r.after).locateLink contract =
          .ok (.entry [Bytes.ofString "w", Bytes.ofString "c.boc"] (.file f)))) =
      some true := by decide +kernel
  obtain ⟨r, hr, hP⟩ := Option.map_eq_some_iff.mp last
  obtain ⟨report, code, there⟩ := of_decide_eq_true hP
  have overwritten : (ended keptContract s).2.host.read contract = .ok (Bytes.ofString "AB") := by
    decide +kernel
  exact ⟨Toolchain.keepsSound_answering _ _, sound_sharedContract,
    ⟨s, r, f, rfl, by decide +kernel, hr, report, code, there, by decide, overwritten⟩,
    exists_of_map_decide (by decide +kernel)⟩

end ContractBuild
