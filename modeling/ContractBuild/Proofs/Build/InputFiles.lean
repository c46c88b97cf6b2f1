import ContractBuild.Proofs.Build.AssemblyOnly
import ContractBuild.Proofs.Build.Release
import ContractBuild.Proofs.FileSystem.Ways

/-!
# The inputs of a build that keeps its files

A build that keeps its intermediate files writes them beside its inputs, and each of them is created
before its tool runs.  An input that is none of them is read as it was given; one that is the file
of a tool is empty by the time that tool runs.
-/

namespace ContractBuild

open Build

variable {σ : Type} {tc : Toolchain σ} {o : BuildOptions} {h h₁ h₂ : Host} {p q : Path}
  {l k : Location} {f : File}

/-! ## Runs that overwrite a file -/

/-- Whether a run is told to write a file: its output leads there, from where the tool is called or
from where it runs. -/
def Invocation.overwrites (i : Invocation) (h : Host) (f : File) : Bool :=
  i.told?.any (h.leadsTo f) || i.written?.any (h.leadsTo f)

theorem Invocation.not_leadsTo {i : Invocation} (hi : i.overwrites h f = false)
    (hq : i.told? = some q ∨ i.written? = some q) : h.leadsTo f q = false := by
  simp only [overwrites, Bool.or_eq_false_iff] at hi
  rcases hq with hq | hq
  · simpa [hq] using hi.1
  · simpa [hq] using hi.2

/-- Whether no run of a log is told to write a file. -/
def Spares (h : Host) (f : File) (log : List LogEntry) : Prop :=
  ∀ r, .run r ∈ log → r.invocation.overwrites h f = false

theorem Spares.of_append {log log' : List LogEntry} (hs : Spares h f (log ++ log')) :
    Spares h f log := fun r hr ↦ hs r (List.mem_append_left _ hr)

/-- A run of a log is its last entry or comes before that. -/
theorem eq_of_append_entry {log before after : List LogEntry} {x : LogEntry} {r : LoggedRun}
    (heq : log ++ [x] = before ++ .run r :: after) :
    (log = before ∧ x = .run r) ∨ ∃ rest, log = before ++ .run r :: rest := by
  rcases List.eq_nil_or_concat after with rfl | ⟨rest, y, rfl⟩
  · obtain ⟨rfl, hlast⟩ := List.append_inj' heq rfl
    exact .inl ⟨rfl, List.singleton_inj.mp hlast⟩
  · have shifted : log ++ [x] = (before ++ .run r :: rest) ++ [y] := by simpa using heq
    exact .inr ⟨rest, (List.append_inj' shifted rfl).1⟩

/-! ## What stays of a file -/

/-- Whether a file is as it was under each of its names. -/
def Host.Keeps (h : Host) (f : File) (h' : Host) : Prop :=
  ∀ k, h.tree.fileId? k = some f.id → h'.tree.shape k = h.tree.shape k

namespace Host.Keeps

/-- A change elsewhere keeps a file. -/
theorem writesOnly (hk : h.Keeps f h₁) (hw : h₁.WritesOnly h₂ k)
    (hne : h₁.tree.fileId? k ≠ some f.id) : h.Keeps f h₂ := by
  intro x hx
  have there : h₁.tree.fileId? x = some f.id := (Tree.fileId?_of_shape_eq (hk x hx)).trans hx
  exact (hw.tree.shape_of_fileId? there hne).trans (hk x hx)

/-- A file that is as it was is found under its path. -/
theorem entry_eq (hk : h.Keeps f h₁) (w : h.Written h₁) (ht : h.tree.Sound)
    (hp : h.entry p = .ok (l, .file f)) :
    ∃ g, h₁.entry p = .ok (l, .file g) ∧ g.id = f.id ∧ g.content = f.content := by
  have hf := Host.node?_of_entry hp
  obtain ⟨g, hg, id, content⟩ := Tree.exists_file_of_shape_eq
    (hk l (Tree.fileId?_eq_some.mpr ⟨f, hf, rfl⟩)) hf
  exact ⟨g, w.entry_after ht hp hg rfl, id, content⟩

/-- A file that is written empty is found empty under every path. -/
theorem entry_of_write (hk : h.Keeps f h₁) (w : h.Written h₁) (ht : h.tree.Sound)
    (hp : h.entry p = .ok (l, .file f)) (hq : h.leadsTo f q = true) {content : Bytes}
    (hwrite : h₁.write q content = .ok h₂) :
    ∃ g, h₂.entry p = .ok (l, .file g) ∧ g.content = content := by
  obtain ⟨k, g, hg, hid⟩ := Host.leadsTo_iff.mp hq
  obtain ⟨a, ha, haid, -⟩ := hk.entry_eq w ht hp
  obtain ⟨b, hb, hbid, -⟩ := Tree.exists_file_of_shape_eq
    (hk k (Tree.fileId?_eq_some.mpr ⟨g, Host.node?_of_entry hg, hid⟩)) (Host.node?_of_entry hg)
  obtain ⟨a', ha', -, written⟩ := Host.content_of_write hwrite (w.entry_after ht hg hb rfl)
    (Host.node?_of_entry ha) (haid.trans (hid.symm.trans hbid.symm))
  obtain ⟨place, -, change⟩ := Host.writesOnly_write w.sound hwrite
  exact ⟨a', (w.trans change.written).entry_after ht hp ha' rfl, written⟩

end Host.Keeps

/-- A path that does not lead to a file does not lead there after other files have been written. -/
theorem Host.Written.fileId?_ne (w : h.Written h₁) (ht : h.tree.Sound)
    (hf : h.tree.fileId? l = some f.id) (hq : h.leadsTo f q = false) {place : Place}
    (hplace : h₁.locate q = .ok place) : h₁.tree.fileId? place.location ≠ some f.id := by
  intro hid
  obtain ⟨g, hg, same⟩ := w.entry_of_old ht hplace (ht.file_lt hf) hid
  have leads := Host.leadsTo_iff.mpr ⟨_, g, hg, same⟩
  rw [hq] at leads
  cases leads

/-! ## The invariant -/

/-- What a run finds of a file that no earlier one is told to write: nothing if it is its own
output, and else what the file held at first. -/
def LoggedRun.Finds (r : LoggedRun) (h : Host) (p : Path) (l : Location) (f : File) : Prop :=
  ∃ g, r.before.entry p = .ok (l, .file g) ∧
    g.content = if r.invocation.told?.any (h.leadsTo f) then [] else f.content

/-- Whether a session that keeps its files has left a file as it was, as long as no run is told to
write it. -/
structure Session.Intact (h : Host) (p : Path) (l : Location) (f : File)
    (s : Session (σ × List LogEntry)) : Prop where
  /-- Only files have been written. -/
  written : h.Written s.host
  /-- The file is as it was. -/
  kept : Spares h f s.tools.2 → h.Keeps f s.host
  /-- And so every run has found it. -/
  logged : ∀ before r after, s.tools.2 = before ++ .run r :: after → Spares h f before →
    r.Finds h p l f

namespace Session.Intact

variable {s : Session (σ × List LogEntry)}

/-- A change to something else leaves the file as it was. -/
theorem withHost (hs : s.Intact h p l f) (hw : s.host.WritesOnly h₁ k)
    (hne : Spares h f s.tools.2 → s.host.tree.fileId? k ≠ some f.id) :
    (s.withHost h₁).Intact h p l f where
  written := hs.written.trans hw.written
  kept spares := (hs.kept spares).writesOnly hw (hne spares)
  logged := hs.logged

theorem echoed (hs : s.Intact h p l f) (line : String) :
    (s.echoed tc.logging line).Intact h p l f where
  written := hs.written
  kept spares := hs.kept fun r hr ↦ spares r (List.mem_append_left _ hr)
  logged before r after heq spares := by
    rcases eq_of_append_entry heq with ⟨-, hlast⟩ | ⟨rest, hrest⟩
    · cases hlast
    · exact hs.logged before r rest hrest spares

end Session.Intact

/-- A run leaves a file as it was unless it is told to write it. -/
theorem Session.intact_called {s : Session (σ × List LogEntry)} {i : Invocation}
    (htools : tc.WritesOutputOnly) (ht : h.tree.Sound) (hf : h.tree.fileId? l = some f.id)
    (hwritten : h.Written s.host)
    (hkept : Spares h f s.tools.2 → i.overwrites h f = false → h.Keeps f s.host)
    (hlogged : ∀ before r after, s.tools.2 = before ++ .run r :: after → Spares h f before →
      r.Finds h p l f)
    (hfinds : Spares h f s.tools.2 → ∀ outcome after,
      LoggedRun.Finds ⟨i, s.host, outcome, after⟩ h p l f) :
    (s.called tc.logging i).Intact h p l f := by
  obtain ⟨k, change, hk⟩ : ∃ k, s.host.WritesOnly (s.called tc.logging i).host k ∧
      (i.overwrites h f = false → s.host.tree.fileId? k ≠ some f.id) := by
    have change (k : Location) (hk : ∀ q place, i.written? = some q →
        s.host.locate q = .ok place → place.location = k) :
        s.host.WritesOnly (s.called tc.logging i).host k :=
      ⟨htools i s.tools.1 s.host hwritten.sound k hk, rfl⟩
    by_cases hq : ∃ q place, i.written? = some q ∧ s.host.locate q = .ok place
    · obtain ⟨q, place, hq, hplace⟩ := hq
      refine ⟨place.location, change _ fun q' place' hq' hplace' ↦ ?_, fun hi ↦ ?_⟩
      · obtain rfl := Option.some.inj (hq.symm.trans hq')
        exact congrArg _ (Except.ok.inj (hplace'.symm.trans hplace))
      · exact hwritten.fileId?_ne ht hf (i.not_leadsTo hi (.inr hq)) hplace
    -- a run whose output leads nowhere changes nothing, not even the root
    · refine ⟨[], change _ fun q place hq' hplace ↦ absurd ⟨q, place, hq', hplace⟩ hq, fun _ ↦ ?_⟩
      simp [Tree.fileId?, Node.fileId?]
  refine ⟨hwritten.trans change.written, fun spares ↦ ?_, fun before r after heq spares ↦ ?_⟩
  · have spared : i.overwrites h f = false :=
      spares _ (List.mem_append_right _ (List.mem_singleton.mpr rfl))
    exact (hkept spares.of_append spared).writesOnly change (hk spared)
  · rcases eq_of_append_entry heq with ⟨rfl, hlast⟩ | ⟨rest, hrest⟩
    · obtain rfl := LogEntry.run.inj hlast
      exact hfinds spares _ _
    · exact hlogged before r rest hrest spares

namespace ArtifactStore

variable {store : ArtifactStore} {kind : ArtifactKind}

/-- The path of a reserved file does not look like an option. -/
theorem ne_option_of_nextPath? (hq : store.nextPath? kind = some q) :
    q.raw ≠ Bytes.ofString "-o" := by
  obtain ⟨dir, -, rfl⟩ := Option.map_eq_some_iff.mp hq
  intro h
  have name := ArtifactKind.isName_fileName kind (store.asked.count kind)
  have steps : dir.steps ++ [_] = Path.steps ⟨Bytes.ofString "-o"⟩ :=
    (Path.steps_join name).symm.trans (congrArg (fun r ↦ Path.steps ⟨r⟩) h)
  have last := congrArg List.getLast? steps
  have option : (Path.steps ⟨Bytes.ofString "-o"⟩).getLast? = some (.enter (Bytes.ofString "-o")) :=
    by decide
  rw [List.getLast?_concat, option, Option.some.injEq, Step.enter.injEq] at last
  have chars := Utf8.eq_of_encode_eq
    (fun c hc ↦ Path.toNat_lt_of_isPlain (ArtifactKind.isPlain_of_mem_fileName hc)) (by simp) last
  have long : 3 ≤ kind.stem.length := by cases kind <;> decide
  have length := congrArg List.length chars
  rw [ArtifactKind.toList_fileName] at length
  simp only [List.length_append, List.length_cons] at length
  have short : "-o".toList.length = 2 := by decide
  omega

end ArtifactStore

/-! ## The stages -/

namespace Build

variable {s : Session (σ × List LogEntry)}

/-- A job finds the file as it was, or empty if it is the job's own, and leaves it so. -/
theorem ends_produce_intact (htools : tc.WritesOutputOnly) (ht : h.tree.Sound)
    (hp : h.entry p = .ok (l, .file f)) {kind : ArtifactKind} {command : Path → Invocation}
    (hcommand : Command.NamesOutput command) (hs : s.Intact h p l f) :
    Ends (produce tc.logging o kind command) s
      (fun q s' ↦ s'.Intact h p l f ∧ ∃ r, .run r ∈ s'.tools.2 ∧ r.invocation.told? = some q)
      (fun _ s' ↦ s'.Intact h p l f) := by
  have hf := Host.node?_of_entry hp
  have hid : h.tree.fileId? l = some f.id := Tree.fileId?_eq_some.mpr ⟨f, hf, rfl⟩
  refine ends_bind.mpr (ends_reserve.mpr ⟨fun out hout ↦ ?_, fun e he ↦ ?_⟩)
  · obtain ⟨hnext, hwrite⟩ := ArtifactStore.write_of_reserve hout
    let i := (command out).inDir o.workingDir
    have told : i.told? = some out := by
      simp [i, Invocation.told?, Invocation.inDir,
        hcommand.lastAfter?_args (ArtifactStore.ne_option_of_nextPath? hnext)]
    obtain ⟨place, hplace, change⟩ := Host.writesOnly_write hs.written.sound hwrite
    have located := Tree.locate_of_create hplace
    have written := hs.written.trans change.written
    have kept (spares : Spares h f s.tools.2) (hout : h.leadsTo f out = false) :
        h.Keeps f (s.reserved kind).host :=
      (hs.kept spares).writesOnly change (hs.written.fileId?_ne ht hid hout located)
    have called : ((s.reserved kind).called tc.logging i).Intact h p l f := by
      refine Session.intact_called htools ht hid written (fun spares hi ↦ ?_) hs.logged
        fun spares outcome after ↦ ?_
      · exact kept spares (i.not_leadsTo hi (.inl told))
      · unfold LoggedRun.Finds
        simp only [i, told, Option.any_some]
        by_cases hown : h.leadsTo f out = true
        · rw [if_pos hown]
          exact (hs.kept spares).entry_of_write hs.written ht hp hown hwrite
        · rw [if_neg hown]
          obtain ⟨g, hg, -, content⟩ :=
            (kept spares (by simpa using hown)).entry_eq written ht hp
          exact ⟨g, hg, content⟩
    refine ends_bind.mpr (ends_tool.mpr ⟨fun _ _ ↦ ends_pure.mpr ⟨called, ?_⟩, fun _ _ ↦ called⟩)
    exact ⟨_, List.mem_append_right _ (List.mem_singleton.mpr rfl), told⟩
  · have same : (s.reserved kind).host = s.host := ArtifactStore.host_of_reserve_error he
    exact ⟨same ▸ hs.written, fun spares ↦ same ▸ hs.kept spares, hs.logged⟩

/-- Appending to the assembly does not change the file either, if that is not the assembly. -/
theorem preserves_appendInputs_intact (asm : Path) (files : List InputFile) :
    Preserves (fun s : Session (σ × List LogEntry) ↦ s.Intact h p l f ∧
        (Spares h f s.tools.2 → h.tree.fileId? k ≠ some f.id) ∧ f.id < h.tree.nextId)
      (appendInputs o asm k files) := by
  refine .appendInputs (fun s content h' intact hh ↦ ?_) asm files
  obtain ⟨hs, hk, hid⟩ := intact
  have change := Host.writesOnly_append hs.written.sound hh
  refine ⟨hs.withHost change fun spares hother ↦ ?_, hk, hid⟩
  exact hk spares (hs.written.old k f.id hid hother)

/-- The assembly that is opened is not the file, unless a run was told to write that. -/
theorem ends_openAssembly_intact (ht : h.tree.Sound) (hp : h.entry p = .ok (l, .file f))
    {asm : Path} {inputs : ClassifiedInputs} (hs : s.Intact h p l f)
    (hasm : ∃ r, .run r ∈ s.tools.2 ∧ r.invocation.told? = some asm) :
    Ends (openAssembly tc.logging asm inputs) s
      (fun k s' ↦ s'.Intact h p l f ∧
        (Spares h f s'.tools.2 → h.tree.fileId? k ≠ some f.id) ∧ f.id < h.tree.nextId)
      (fun _ s' ↦ s'.Intact h p l f) := by
  have hf : h.tree.fileId? l = some f.id :=
    Tree.fileId?_eq_some.mpr ⟨f, Host.node?_of_entry hp, rfl⟩
  refine ends_bind.mpr (ends_echo.mpr (ends_bind.mpr (ends_host.mpr (ends_value.mpr ⟨?_, ?_⟩))))
  · intro k hk
    have echoed (line : String) : (s.echoed tc.logging line).Intact h p l f := hs.echoed line
    refine ⟨echoed _, fun spares hid ↦ ?_, ht.file_lt hf⟩
    obtain ⟨r, hr, told⟩ := hasm
    obtain ⟨n, hn⟩ := Host.entry_of_appendTarget hk
    have other := r.invocation.not_leadsTo (spares.of_append r hr) (.inl told)
    refine hs.written.fileId?_ne ht hf other (Host.locate_of_entry hn) ?_
    exact (Tree.fileId?_of_shape_eq (hs.kept spares.of_append k hid)).trans hid
  · exact fun _ _ ↦ hs.echoed _

theorem ends_mergeAssembly_intact (ht : h.tree.Sound) (hp : h.entry p = .ok (l, .file f))
    {asm : Path} {inputs : ClassifiedInputs} (hs : s.Intact h p l f)
    (hasm : ∃ r, .run r ∈ s.tools.2 ∧ r.invocation.told? = some asm) :
    Ends (mergeAssembly tc.logging o asm inputs) s (fun _ s' ↦ s'.Intact h p l f)
      (fun _ s' ↦ s'.Intact h p l f) := by
  by_cases hnil : inputs.assembly = []
  · rw [mergeAssembly_nil hnil]
    exact ends_pure.mpr hs
  · rw [mergeAssembly_eq hnil]
    refine (ends_openAssembly_intact ht hp hs hasm).bind fun k s' hs' ↦ ?_
    exact (preserves_appendInputs_intact asm _ s' hs').mono (fun _ _ h ↦ h.1) fun _ _ h ↦ h.1

/-! ## Whole builds -/

/-- In a build that keeps its files, every tool finds an input as it was given, unless one is told to
write it: the first of these finds it empty, as its own output.  And as it was given an input is
read to be appended, unless some tool was told to write it. -/
theorem input_during_run (htemps : o.saveTemps = true) (htools : tc.WritesOutputOnly) {tools : σ}
    (ht : h.tree.Sound) {s : Session σ} (hs : Session.start o tools h = .ok s) {paths : List Path}
    {inputs : ClassifiedInputs} (hinputs : classify paths = .ok inputs)
    (hp : h.entry p = .ok (l, .file f)) :
    let log := ((assembled tc.logging o paths).runIn s.withLog).2.tools.2
    log <+: history tc o paths s ∧
    (∀ before r after, log = before ++ .run r :: after → Spares h f before →
      ∃ g, r.before.entry p = .ok (l, .file g) ∧
        g.content = if r.invocation.told?.any (h.leadsTo f) then [] else f.content) ∧
    ∀ done asm k m, (mergedUpTo tc.logging o inputs done).runIn s.withLog = (.ok (asm, k), m) →
      Spares h f m.tools.2 → ∃ g, m.host.entry p = .ok (l, .file g) ∧ g.content = f.content := by
  intro log
  have start : s.withLog.Intact h p l f := by
    rcases Session.start_cases hs with ⟨-, rfl⟩ | ⟨hsave, -⟩
    · refine ⟨.refl ht, fun _ _ _ ↦ rfl, fun before r after heq ↦ ?_⟩
      simp [Session.withLog, Session.mapTools] at heq
    · cases htemps.symm.trans hsave
  have job (kind : ArtifactKind) (command : Path → Invocation)
      (hcommand : Command.NamesOutput command) (s : Session (σ × List LogEntry))
      (hs : s.Intact h p l f) : Ends (produce tc.logging o kind command) s _ _ :=
    ends_produce_intact htools ht hp hcommand hs
  refine ⟨log_starts_with_assembled tc o paths _, ?_, fun done asm k m hm spares ↦ ?_⟩
  · have ended : Ends (assembled tc.logging o paths) s.withLog
        (fun _ s' ↦ s'.Intact h p l f)
        (fun _ s' ↦ s'.Intact h p l f) := by
      rw [assembled_eq hinputs]
      refine (ends_generated job inputs start).bind fun asm s' held ↦ ?_
      obtain ⟨hs', hasm⟩ := held
      exact (ends_mergeAssembly_intact ht hp hs' hasm).bind fun _ _ h ↦ ends_pure.mpr h
    exact ended.snd.logged
  · have ended : Ends (mergedUpTo tc.logging o inputs done) s.withLog
        (fun _ s' ↦ s'.Intact h p l f)
        (fun _ s' ↦ s'.Intact h p l f) := by
      refine (ends_generated job inputs start).bind fun asm s' held ↦ ?_
      obtain ⟨hs', hasm⟩ := held
      refine (ends_openAssembly_intact ht hp hs' hasm).bind fun k s' hs' ↦ ?_
      exact ((preserves_appendInputs_intact asm done s' hs').mono (fun _ _ h ↦ h.1)
        fun _ _ h ↦ h.1).bind fun _ _ h ↦ ends_pure.mpr h
    have intact := ended.snd
    rw [hm] at intact
    obtain ⟨g, hg, -, content⟩ := (intact.kept spares).entry_eq intact.written ht hp
    exact ⟨g, hg, content⟩

/-! ## A sample -/

/-- The host with assembly written by hand and, beside it, a module that has the name of an
intermediate file. -/
def numbered : Host :=
  { handwritten with
    tree := handwritten.tree.addFile [Bytes.ofString "w", Bytes.ofString "1-clang.ll"]
      (Bytes.ofString "mine") fileMode }

/-- Options for a build that keeps its files. -/
def keeping : BuildOptions := { BuildOptions.sample with saveTemps := true }

theorem sound_numbered : numbered.tree.Sound :=
  sound_handwritten.addFile (by decide) (by decide) _ _

/-- The module is empty when the compiler runs. -/
theorem input_during_run_sample :
    let tc := Toolchain.writing (Bytes.ofString "; clang\n")
    let paths := [Path.ofString "main.c", .ofString "1-clang.ll"]
    let module := Path.ofString "/w/1-clang.ll"
    ∃ s r after l g, Session.start keeping () numbered = .ok s ∧
      ((assembled tc.logging keeping paths).runIn s.withLog).2.tools.2 = .run r :: after ∧
      r.invocation.told? = some module ∧ r.before.entry module = .ok (l, .file g) ∧
      g.content = [] := by
  intro tc paths module
  have htools : tc.WritesOutputOnly := Toolchain.writesOutputOnly_writing _
  let f : File :=
    { Attributes.fresh fileMode Tree.empty.now with id := 5, content := Bytes.ofString "mine" }
  have hp : numbered.entry module =
      .ok ([Bytes.ofString "w", Bytes.ofString "1-clang.ll"], .file f) := by decide +kernel
  have inputs : classify paths = .ok
      ⟨[], [⟨.ofString "main.c", .c, 0⟩], [⟨.ofString "1-clang.ll", .irText, 1⟩], [], []⟩ := by
    decide +kernel
  let s : Session Unit := ⟨numbered, .persistent keeping.workingDir, (), []⟩
  have hs : Session.start keeping () numbered = .ok s := rfl
  have first : ((((assembled tc.logging keeping paths).runIn s.withLog).2.tools.2.head?).bind
      LogEntry.run?).map (fun r ↦ decide (r.invocation.told? = some module)) = some true := by
    decide +kernel
  obtain ⟨_, hr, told⟩ := Option.map_eq_some_iff.mp first
  obtain ⟨entry, hentry, hr⟩ := Option.bind_eq_some_iff.mp hr
  obtain ⟨after, heq⟩ := List.head?_eq_some_iff.mp hentry
  cases entry with
  | echo => cases hr
  | run r =>
    obtain rfl := Option.some.inj hr
    have told := of_decide_eq_true told
    obtain ⟨g, hg, content⟩ := (input_during_run (o := keeping) rfl htools sound_numbered hs inputs
      hp).2.1 [] r after heq fun _ hr ↦ by cases hr
    have own : numbered.leadsTo f module = true := by decide +kernel
    rw [told, Option.any_some, if_pos own] at content
    exact ⟨s, r, after, _, g, hs, heq, told, hg, content⟩

/-- A build that keeps its files can let a tool read an input that has become the output of an
earlier one. -/
theorem run_clobbers_input :
    let tc := Toolchain.writing (Bytes.ofString "; clang\n")
    let paths := [Path.ofString "main.c", .ofString "1-clang.ll"]
    let input := keeping.absolute (.ofString "1-clang.ll")
    keeping.saveTemps = true ∧ tc.WritesOutputOnly ∧
      ∃ s inputs, Session.start keeping () numbered = .ok s ∧ classify paths = .ok inputs ∧
        firstMissing? keeping numbered inputs = none ∧
        numbered.read input = .ok (Bytes.ofString "mine") ∧
        ∃ r, .run r ∈ history tc keeping paths s ∧
          r.invocation = (Command.assemble keeping (.ofString "1-clang.ll")
            (.ofString "/w/1-llvm-as.bc")).inDir keeping.workingDir ∧
          r.before.read input = .ok (Bytes.ofString "; clang\n") := by
  intro tc paths input
  let i := (Command.assemble keeping (.ofString "1-clang.ll")
    (.ofString "/w/1-llvm-as.bc")).inDir keeping.workingDir
  let s : Session Unit := ⟨numbered, .persistent keeping.workingDir, (), []⟩
  have found : (history tc keeping paths s).any (fun e ↦ e.run?.any fun r ↦
      decide (r.invocation = i ∧ r.before.read input = .ok (Bytes.ofString "; clang\n"))) = true := by
    decide +kernel
  obtain ⟨entry, hentry, hr⟩ := List.any_eq_true.mp found
  cases entry with
  | echo line => cases hr
  | run r =>
    obtain ⟨hi, hread⟩ := of_decide_eq_true hr
    exact ⟨rfl, Toolchain.writesOutputOnly_writing _, s,
      ⟨[], [⟨.ofString "main.c", .c, 0⟩], [⟨.ofString "1-clang.ll", .irText, 1⟩], [], []⟩, rfl,
      by decide +kernel, by decide +kernel, by decide +kernel, r, hentry, hi, hread⟩

end Build

end ContractBuild
