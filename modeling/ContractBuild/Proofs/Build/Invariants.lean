import ContractBuild.Proofs.Build.Ends
import ContractBuild.Proofs.Build.Log
import Mathlib.Data.List.Induction

/-!
# What the stages preserve

A build changes its session in few ways: it notes a line, writes a file, reserves one or runs a
tool.  What these preserve, every stage preserves, however it ends.
-/

namespace ContractBuild

variable {σ : Type} {tc : Toolchain σ} {o : BuildOptions} {I : Session σ → Prop}

/-- The ways in which a build itself writes to its host. -/
inductive Host.Puts (h : Host) : Host → Prop
  /-- It adds to a file. -/
  | append {l : Location} {content : Bytes} {h' : Host} (hh : h.append l content = .ok h') : Puts h h'
  /-- It copies a file, as far as that succeeds. -/
  | copy (source dest : Path) : Puts h (h.copy source dest).2
  /-- It writes a file. -/
  | write {p : Path} {content : Bytes} {h' : Host} (hh : h.write p content = .ok h') : Puts h h'

/-- Whether a property of sessions outlasts what a build does itself. -/
structure Session.Steady (tc : Toolchain σ) (I : Session σ → Prop) : Prop where
  /-- A line is noted. -/
  echoed : ∀ s line, I s → I (s.echoed tc line)
  /-- A file is written. -/
  put : ∀ s h, I s → s.host.Puts h → I (s.withHost h)

/-- Whether it also outlasts what the tools do, and that files are reserved for them. -/
structure Session.Lasting (tc : Toolchain σ) (I : Session σ → Prop) : Prop extends
    Session.Steady tc I where
  /-- A tool runs. -/
  called : ∀ s i, I s → I (s.called tc i)
  /-- A file is reserved. -/
  reserved : ∀ s kind, I s → I (s.reserved kind)

namespace Build

theorem preserves_checkInputs (inputs : ClassifiedInputs) :
    Preserves I (checkInputs o inputs : Build σ Unit) := by
  refine .bind .host fun h ↦ ?_
  cases firstMissing? o h inputs with
  | none => exact .pure _
  | some p => exact .throw _

theorem preserves_classified (paths : List Path) :
    Preserves I (classified paths : Build σ ClassifiedInputs) := by
  unfold classified
  cases classify paths with
  | ok inputs => exact .pure _
  | error e => exact .throw _

/-- What the job for each input preserves, the jobs for all of them preserve. -/
theorem Preserves.modulesOf {kind : ArtifactKind}
    {command : BuildOptions → Path → Path → Invocation}
    (job : ∀ input, Preserves I (produce tc o kind (command o input))) (files : List InputFile) :
    Preserves I (modulesOf tc o kind command files) := by
  induction files with
  | nil => exact .pure _
  | cons f fs ih =>
    have first : Preserves I (moduleOf tc o kind command f) :=
      .bind (job f.path) fun _ ↦ .pure _
    exact .bind first fun _ ↦ .bind ih fun _ ↦ .pure _

theorem Preserves.compileSources
    (cxx : ∀ input, Preserves I (produce tc o .frontend (Command.cxx o input)))
    (c : ∀ input, Preserves I (produce tc o .frontend (Command.c o input)))
    (inputs : ClassifiedInputs) : Preserves I (compileSources tc o inputs) :=
  .bind (.modulesOf cxx _) fun _ ↦ .bind (.modulesOf c _) fun _ ↦ .pure _

/-- What appending at a location preserves, appending inputs there preserves. -/
theorem Preserves.appendInputs {l : Location}
    (append : ∀ (s : Session σ) content h, I s → s.host.append l content = .ok h → I (s.withHost h))
    (asm : Path) (files : List InputFile) : Preserves I (appendInputs o asm l files) := by
  induction files with
  | nil => exact .pure _
  | cons f fs ih =>
    refine .bind .host fun h ↦ .bind (.value _ _) fun content s hs ↦ ?_
    refine ends_bind.mpr (ends_host.mpr (ends_bind.mpr (ends_change.mpr ⟨fun h' hh ↦ ?_, ?_⟩)))
    · exact ih _ (append s content h' hs hh)
    · exact fun _ _ ↦ hs

/-- Merging appends where the assembly is opened. -/
theorem Preserves.mergeAssembly {asm : Path} (echoed : ∀ s line, I s → I (s.echoed tc line))
    (append : ∀ s l, I s → s.host.appendTarget asm = .ok l →
      ∀ (t : Session σ) content h, I t → t.host.append l content = .ok h → I (t.withHost h))
    (inputs : ClassifiedInputs) : Preserves I (mergeAssembly tc o asm inputs) := by
  unfold Build.mergeAssembly
  split
  next => exact .pure _
  next =>
    refine .bind (fun s hs ↦ ends_echo.mpr (echoed s _ hs)) fun _ s hs ↦ ?_
    refine ends_bind.mpr (ends_host.mpr (ends_bind.mpr (ends_value.mpr ⟨fun l hl ↦ ?_, ?_⟩)))
    · exact Preserves.appendInputs (append s l hs hl) _ _ s hs
    · exact fun _ _ ↦ hs

/-- A final link opens a directory, links there and gives the directory up in any case. -/
theorem ends_finalLink {s : Session σ} {asm : Path} {Q : OutputTarget → Session σ → Prop}
    {E : BuildError → Session σ → Prop}
    (hopened : ∀ dir h, s.store.openLinkDir s.host = .ok (dir, h) →
      Ends (linkIn tc o dir asm) (s.withHost h)
        (fun target s' ↦ Q target (s'.withHost (dir.close s'.host)))
        (fun e s' ↦ E e (s'.withHost (dir.close s'.host))))
    (hfailed : ∀ e, s.store.openLinkDir s.host = .error e → E e s) :
    Ends (finalLink tc o asm) s Q E := by
  unfold finalLink
  refine ends_bind.mpr ?_
  unfold Ends openLinkDir
  rw [runIn_ofResult]
  cases hopen : s.store.openLinkDir s.host with
  | error e => exact hfailed e hopen
  | ok opened => exact ends_andFinally.mpr (hopened opened.1 opened.2 hopen)

end Build

open Build

namespace Session.Steady

variable (hI : Session.Steady tc I)

include hI

theorem copy (source : Path) (shown : String) (dest : Path) :
    Preserves I (copy tc source shown dest) := by
  intro s hs
  have echoed := hI.echoed s s!"cp {shown} {dest.display}" hs
  refine ends_bind.mpr (ends_echo.mpr (ends_bind.mpr (ends_host.mpr (ends_settle_snd ?_))))
  exact hI.put _ _ echoed (.copy source dest)

theorem mergeAssembly (asm : Path) (inputs : ClassifiedInputs) :
    Preserves I (mergeAssembly tc o asm inputs) :=
  .mergeAssembly hI.echoed (fun _ _ _ _ t _ h ht hh ↦ hI.put t h ht (.append hh)) inputs

theorem emitAssembly (asm : Path) : Preserves I (emitAssembly tc o asm) := by
  refine .bind .host fun h ↦ ?_
  split
  · exact .pure _
  · exact .bind (hI.copy _ _ _) fun _ ↦ .pure _

theorem copyEach (dir : Path) (target : OutputTarget) (linked : Option Name) (ns : List Name) :
    Preserves I (copyEach tc dir target linked ns) := by
  induction ns with
  | nil => exact .pure _
  | cons n ns ih => exact .bind (hI.copy _ _ _) fun _ ↦ ih

theorem copyOut (dir : Path) (target : OutputTarget) (linked : Option Name) :
    Preserves I (copyOut tc dir target linked) :=
  .bind .host fun _ ↦ .bind (.value _ _) fun _ ↦ hI.copyEach _ _ _ _

/-- The code of a contract is extracted by one call of the linker. -/
theorem extractCode {contract : Path}
    (decode : Preserves I (tool tc ((Command.decode o contract).inDir o.workingDir))) :
    Preserves I (extractCode tc o contract) := by
  refine .bind decode fun report ↦ ?_
  split
  · exact .throw _
  · intro s hs
    refine ends_bind.mpr (ends_host.mpr (ends_bind.mpr (ends_change.mpr ⟨fun h hh ↦ ?_, ?_⟩)))
    · exact ends_pure.mpr (hI.put s h hs (.write hh))
    · exact fun _ _ ↦ hs

end Session.Steady

namespace Session.Lasting

variable (hI : Session.Lasting tc I)

include hI

theorem tool (i : Invocation) : Preserves I (tool tc i) :=
  fun s hs ↦ ends_tool.mpr ⟨fun _ _ ↦ hI.called s i hs, fun _ _ ↦ hI.called s i hs⟩

theorem produce (kind : ArtifactKind) (command : Path → Invocation) :
    Preserves I (produce tc o kind command) := by
  intro s hs
  have reserved := hI.reserved s kind hs
  refine ends_bind.mpr (ends_reserve.mpr ⟨fun p _ ↦ ?_, fun _ _ ↦ reserved⟩)
  exact (hI.tool _ _ reserved).bind fun _ _ hs ↦ ends_pure.mpr hs

theorem compileSources (inputs : ClassifiedInputs) : Preserves I (compileSources tc o inputs) :=
  .compileSources (fun _ ↦ hI.produce _ _) (fun _ ↦ hI.produce _ _) inputs

theorem assembleIr (inputs : ClassifiedInputs) : Preserves I (assembleIr tc o inputs) :=
  .modulesOf (fun _ ↦ hI.produce _ _) _

theorem assembleAll (inputs : ClassifiedInputs) : Preserves I (assembleAll tc o inputs) := by
  refine .bind (hI.compileSources inputs) fun _ ↦ .bind (hI.assembleIr inputs) fun _ ↦ ?_
  refine .bind (hI.produce _ _) fun _ ↦ .bind (hI.produce _ _) fun _ ↦ ?_
  refine .bind (hI.produce _ _) fun _ ↦ .bind (hI.produce _ _) fun asm ↦ ?_
  exact .bind (hI.mergeAssembly asm inputs) fun _ ↦ .pure _

theorem extractCode (contract : Path) : Preserves I (extractCode tc o contract) :=
  hI.toSteady.extractCode (hI.tool _)

theorem linkIn (dir : LinkDir) (asm : Path) : Preserves I (linkIn tc o dir asm) := by
  rcases dir with p | p
  · refine .bind (fun s hs ↦ ends_echo.mpr (hI.echoed s _ hs)) fun _ ↦ .bind (hI.tool _) fun _ ↦ ?_
    exact .bind (hI.copyOut _ _ _) fun _ ↦ .pure _
  · exact .bind (hI.tool _) fun _ ↦ .pure _

/-- A final link preserves what does not depend on the files. -/
theorem finalLink (files : ∀ (s : Session σ) h, I s → I (s.withHost h)) (asm : Path) :
    Preserves I (finalLink tc o asm) := fun s hs ↦
  ends_finalLink (fun dir h _ ↦ (hI.linkIn dir asm _ (files s h hs)).mono (fun _ _ ↦ files _ _)
    fun _ _ ↦ files _ _) fun _ _ ↦ hs

/-- From the assembly on, a build preserves what a final link also preserves. -/
theorem fromAssembly (link : ∀ asm, Preserves I (Build.finalLink tc o asm)) (asm : Path) :
    Preserves I (if o.asmOnly then return .assembly (← Build.emitAssembly tc o asm)
      else linkAll tc o asm) := by
  split
  · exact .bind (hI.emitAssembly asm) fun _ ↦ .pure _
  · refine .bind (link asm) fun target ↦ ?_
    cases target with
    | file p => exact .bind (hI.extractCode p) fun _ ↦ .pure _
    | directory p => exact .pure _

/-- So do all stages. -/
theorem stages (link : ∀ asm, Preserves I (Build.finalLink tc o asm)) (paths : List Path) :
    Preserves I (stages tc o paths) :=
  .bind (preserves_classified paths) fun inputs ↦ .bind (preserves_checkInputs inputs) fun _ ↦
    .bind (hI.assembleAll inputs) (hI.fromAssembly link)

end Session.Lasting

/-- What a store has also when files have been reserved lasts. -/
theorem Session.lasting_store (tc : Toolchain σ) {P : ArtifactStore → Prop}
    (reserve : ∀ (s : ArtifactStore) h kind, P s → P (s.reserve h kind).2.1) :
    Session.Lasting tc fun s ↦ P s.store where
  echoed _ _ hs := hs
  put _ _ hs _ := hs
  called _ _ hs := hs
  reserved s kind hs := reserve s.store s.host kind hs

end ContractBuild

/-!
## Calls of a build and of its stages

The stages of a build can be called one by one, in any order, with any arguments and whether earlier
calls failed or not.  The log of the tools goes on over all calls.
-/

namespace ContractBuild

open Build

variable {σ : Type} {tc : Toolchain σ} {o : BuildOptions}

/-- A call of a whole build or of one of its stages. -/
inductive Call
  /-- All stages. -/
  | run (paths : List Path)
  /-- The C and C++ inputs are compiled. -/
  | compileSources (inputs : ClassifiedInputs)
  /-- The textual IR is assembled. -/
  | assembleIr (inputs : ClassifiedInputs)
  /-- Modules are linked. -/
  | linkModules (modules : List IrModule)
  /-- A module is made internal. -/
  | internalize (p : Path)
  /-- A module is optimized. -/
  | optimize (p : Path)
  /-- Assembly is generated. -/
  | generate (p : Path)
  /-- The assembly inputs are appended. -/
  | mergeAssembly (asm : Path) (inputs : ClassifiedInputs)
  /-- The assembly is put to its destination. -/
  | emitAssembly (asm : Path)
  /-- The contract is linked. -/
  | finalLink (asm : Path)
  /-- The code is put beside the contract. -/
  | extractCode (contract : Path)

namespace Call

/-- Whether a call is one of a whole build. -/
def isRun : Call → Bool
  | run _ => true
  | _ => false

/-- The session after a call, whatever that gives. -/
def perform (tc : Toolchain σ) (o : BuildOptions) (s : Session σ) : Call → Session σ
  | run paths => ((Build.run tc o paths).runIn s).2
  | compileSources inputs => ((Build.compileSources tc o inputs).runIn s).2
  | assembleIr inputs => ((Build.assembleIr tc o inputs).runIn s).2
  | linkModules modules => ((Build.linkModules tc o modules).runIn s).2
  | internalize p => ((Build.internalize tc o p).runIn s).2
  | optimize p => ((Build.optimize tc o p).runIn s).2
  | generate p => ((Build.generate tc o p).runIn s).2
  | mergeAssembly asm inputs => ((Build.mergeAssembly tc o asm inputs).runIn s).2
  | emitAssembly asm => ((Build.emitAssembly tc o asm).runIn s).2
  | finalLink asm => ((Build.finalLink tc o asm).runIn s).2
  | extractCode contract => ((Build.extractCode tc o contract).runIn s).2

/-- A call does the same without a log. -/
theorem mapTools_perform (c : Call) (s : Session (σ × List LogEntry)) :
    c.perform tc o (s.mapTools Prod.fst) = (c.perform tc.logging o s).mapTools Prod.fst := by
  have logged := tc.carried_logging
  cases c with
  | run paths => exact congrArg Prod.snd (carried_run logged o paths s)
  | compileSources inputs => exact congrArg Prod.snd (carried_compileSources logged o inputs s)
  | assembleIr inputs => exact congrArg Prod.snd (carried_modulesOf logged o _ _ _ s)
  | linkModules modules => exact congrArg Prod.snd (carried_produce logged o _ _ s)
  | internalize p => exact congrArg Prod.snd (carried_produce logged o _ _ s)
  | optimize p => exact congrArg Prod.snd (carried_produce logged o _ _ s)
  | generate p => exact congrArg Prod.snd (carried_produce logged o _ _ s)
  | mergeAssembly asm inputs =>
    exact congrArg Prod.snd (carried_mergeAssembly logged o asm inputs s)
  | emitAssembly asm => exact congrArg Prod.snd (carried_emitAssembly logged o asm s)
  | finalLink asm => exact congrArg Prod.snd (carried_finalLink logged o asm s)
  | extractCode contract => exact congrArg Prod.snd (carried_extractCode logged o contract s)

variable {I : Session σ → Prop}

/-- What every stage preserves holds after a call, before what is temporary is removed behind a whole
build. -/
theorem exists_of_perform (hI : Session.Lasting tc I)
    (link : ∀ asm, Preserves I (Build.finalLink tc o asm)) {s : Session σ} (hs : I s) (c : Call) :
    ∃ m, I m ∧ c.perform tc o s = if c.isRun then m.cleanup else m := by
  cases c with
  | run paths => exact ⟨_, (hI.stages link paths s hs).snd, rfl⟩
  | compileSources inputs => exact ⟨_, (hI.compileSources inputs s hs).snd, rfl⟩
  | assembleIr inputs => exact ⟨_, (hI.assembleIr inputs s hs).snd, rfl⟩
  | linkModules modules => exact ⟨_, (hI.produce _ _ s hs).snd, rfl⟩
  | internalize p => exact ⟨_, (hI.produce _ _ s hs).snd, rfl⟩
  | optimize p => exact ⟨_, (hI.produce _ _ s hs).snd, rfl⟩
  | generate p => exact ⟨_, (hI.produce _ _ s hs).snd, rfl⟩
  | mergeAssembly asm inputs => exact ⟨_, (hI.mergeAssembly asm inputs s hs).snd, rfl⟩
  | emitAssembly asm => exact ⟨_, (hI.emitAssembly asm s hs).snd, rfl⟩
  | finalLink asm => exact ⟨_, (link asm s hs).snd, rfl⟩
  | extractCode contract => exact ⟨_, (hI.extractCode contract s hs).snd, rfl⟩

/-- What a store has after every file that is reserved and after every cleanup it has after a call. -/
theorem store_perform {P : ArtifactStore → Prop}
    (reserve : ∀ (s : ArtifactStore) h kind, P s → P (s.reserve h kind).2.1)
    (cleanup : ∀ (s : ArtifactStore) h, P s → P (s.cleanup h).1) {s : Session σ} (hs : P s.store)
    (c : Call) : P (c.perform tc o s).store := by
  have lasting := Session.lasting_store tc reserve
  obtain ⟨m, hm, heq⟩ := c.exists_of_perform (o := o) lasting
    (lasting.finalLink fun _ _ hs ↦ hs) hs
  rw [heq]
  split
  · exact cleanup _ _ hm
  · exact hm

end Call

namespace Session

/-- The session after several calls. -/
def after (tc : Toolchain σ) (o : BuildOptions) (s : Session σ) (calls : List Call) : Session σ :=
  calls.foldl (Call.perform tc o) s

theorem after_concat (s : Session σ) (calls : List Call) (c : Call) :
    s.after tc o (calls ++ [c]) = c.perform tc o (s.after tc o calls) := by
  simp [after]

/-- Calls do the same without a log. -/
theorem after_eq_logging (s : Session σ) (calls : List Call) :
    s.after tc o calls = (s.withLog.after tc.logging o calls).mapTools Prod.fst := by
  induction calls using List.reverseRecOn with
  | nil => rfl
  | append_singleton calls c ih => rw [after_concat, after_concat, ih, Call.mapTools_perform]

/-- What a session has after every call if each of them keeps it. -/
theorem holds_after {I : Session σ → Prop} (step : ∀ s (c : Call), I s → I (c.perform tc o s))
    {s : Session σ} (hs : I s) (calls : List Call) : I (s.after tc o calls) := by
  induction calls using List.reverseRecOn with
  | nil => exact hs
  | append_singleton calls c ih => exact after_concat s calls c ▸ step _ c ih

end Session

end ContractBuild
