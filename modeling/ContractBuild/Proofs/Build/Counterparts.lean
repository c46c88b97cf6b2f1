import ContractBuild.Proofs.Build.Artifacts
import ContractBuild.Proofs.Build.InputErrors
import ContractBuild.Proofs.Build.Repeats
import ContractBuild.Proofs.Build.Sidecar
import ContractBuild.Proofs.FileSystem.Kept
import Mathlib.Data.List.Find

/-!
# Two builds side by side

A build may keep its intermediate files in the working directory or in a temporary one.  Tools that
mind only what they are told and what is in the files that they are told answer the same in both
builds, as long as each file that one call is told has its counterpart in the other.
-/

namespace ContractBuild

open Build

/-! ## Intermediate files in a directory that had none -/

/-- Whether a path is one of an intermediate file in a directory. -/
def Plan.IsFile (dir q : Path) : Prop := ∃ kind n, q = Plan.file dir kind n

namespace Host.Blank

variable {b h h' : Host} {dir q : Path} {w k l : Location} {c : Bytes} {n n' : Nat}
  {kind kind' : ArtifactKind} {place : Place} (hb : b.Blank dir w)

include hb

/-- The paths of intermediate files lead to nothing else. -/
theorem misses (hk : ∀ kind n, k ≠ ArtifactKind.place w kind n) (hq : Plan.IsFile dir q) :
    b.Misses q k := by
  obtain ⟨kind, n, rfl⟩ := hq
  intro place hp
  have here := hb.location_of_file (.refl hb.sound) hp
  refine ⟨fun same ↦ hk kind n (same.symm.trans here), fun id _ hid ↦ ?_⟩
  rw [here, Tree.fileId?, hb.free] at hid
  cases hid

variable (dev : b.Develops (Plan.IsFile dir) h)

include dev

/-- What is not one of them is as it was. -/
theorem stored_eq (hk : ∀ kind n, k ≠ ArtifactKind.place w kind n) :
    h.tree.stored k = b.tree.stored k :=
  dev.elsewhere k fun _ hq ↦ hb.misses hk hq

/-- Where one of them can stand, nothing stands or a file. -/
theorem free_or_file (kind : ArtifactKind) (n : Nat) :
    h.tree.stored (kind.place w n) = none ∨
      ∃ f, h.tree.stored (kind.place w n) = some (.file f) := by
  have become := dev.becomes.nodes (kind.place w n)
  rw [Tree.stored_eq_none.mpr (hb.free kind n)] at become
  cases hn : h.tree.stored (kind.place w n) with
  | none => exact .inl rfl
  | some a =>
    rw [hn] at become
    cases become with
    | made => exact .inr ⟨_, rfl⟩

/-- It has no other name. -/
theorem shares_iff : h.tree.Shares (kind.place w n) k ↔ k = kind.place w n := by
  have files : ∀ a, h.tree.stored (kind.place w n) = some a → ∃ f, a = .file f := by
    intro a ha
    rcases hb.free_or_file dev kind n with free | ⟨f, hf⟩
    · cases free.symm.trans ha
    · exact ⟨f, Option.some.inj (ha.symm.trans hf)⟩
  refine ⟨fun hk ↦ ?_, fun hk ↦ ⟨files, .inl hk⟩⟩
  by_contra hne
  obtain ⟨id, hid, hid'⟩ := hk.2.resolve_left hne
  obtain ⟨-, before⟩ := dev.becomes.names k _ id hne hid' hid
  rw [Tree.fileId?, hb.free] at before
  cases before

/-- When one of them is overwritten, it holds that, and the others hold what they held. -/
theorem content?_of_overwrites {m : Nat} (hp : h.locateNew (Plan.file dir kind n) = .ok place)
    (ow : h.Overwrites place.location c m h') (kind' : ArtifactKind) (n' : Nat) :
    h'.content? (Plan.file dir kind' n') =
      if kind' = kind ∧ n' = n then some c else h.content? (Plan.file dir kind' n') := by
  have written := ow.change.written
  have here := hb.location_of_file dev.becomes.written hp
  rw [here] at ow
  cases hq : h.locateNew (Plan.file dir kind' n') with
  | ok place' =>
    have there := hb.location_of_file dev.becomes.written hq
    obtain ⟨place'', same, hq'⟩ := exists_locateNew_of_keepsWays dev.coherent.toSound written.sound
      written.ways.forth written.cwd_eq hq fun hend ↦ (written.ways.leads_eq _).trans hend
    rw [content?_of_locateNew written.sound hq', content?_of_locateNew dev.coherent.toSound hq, same,
      there]
    split
    next self =>
      rw [self.1, self.2, Tree.content?_of_stored (ow.shown _ ((hb.shares_iff dev).mpr rfl))]
      rfl
    next other =>
      have kept := ow.kept (kind'.place w n') fun shares ↦
        other (ArtifactKind.place_inj ((hb.shares_iff dev).mp shares))
      exact Tree.content?_of_stored_eq kept
  | error e =>
    have lost (place : Place) : h.locateNew (Plan.file dir kind' n') ≠ .ok place := fun hplace ↦ by
      cases hq.symm.trans hplace
    have lost' (place : Place) : h'.locateNew (Plan.file dir kind' n') ≠ .ok place := fun hplace ↦ by
      obtain ⟨place, -, hplace⟩ := written.locateNew_before dev.coherent.toSound hplace
      exact lost place hplace
    rw [content?_of_lost dev.coherent.toSound lost, content?_of_lost written.sound lost', if_neg]
    rintro ⟨rfl, rfl⟩
    exact lost _ hp

/-- One of them is written: it may be written again and appended to. -/
theorem write (hh : h.write (Plan.file dir kind n) c = .ok h') :
    b.Develops (Plan.IsFile dir) h' ∧ h'.Takes (Plan.file dir kind n) ∧
      (∃ l, h'.appendTarget (Plan.file dir kind n) = .ok l) ∧
      ∀ kind' n', h'.content? (Plan.file dir kind' n') =
        if kind' = kind ∧ n' = n then some c else h.content? (Plan.file dir kind' n') := by
  have coherent := dev.coherent
  have next : h.Develops (Plan.IsFile dir) h' := develops_write coherent hh ⟨kind, n, rfl⟩
  obtain ⟨place, hp, hopen, ow⟩ := overwrites_of_write coherent hh
  refine ⟨dev.trans next hb.sound, takes_of_write coherent hh fun place hp ↦ ?_,
    exists_appendTarget_of_write coherent hh, hb.content?_of_overwrites dev hp ow⟩
  rw [hb.location_of_file dev.becomes.written hp]
  exact (hb.shares_iff dev).mpr rfl

/-- One of them that may be appended to is a file. -/
theorem exists_file (hl : h.appendTarget (Plan.file dir kind n) = .ok l) :
    ∃ f, h.locateNew (Plan.file dir kind n) = .ok (.entry (kind.place w n) (.file f)) ∧
      l = kind.place w n ∧ h.content? (Plan.file dir kind n) = some f.content := by
  have coherent := dev.coherent
  obtain ⟨a, hentry, lead, there, -⟩ := exists_of_appendTarget coherent.toSound hl
  have hplace := locateNew_of_entry coherent.toSound hentry lead
  obtain rfl : l = kind.place w n := hb.location_of_file dev.becomes.written hplace
  obtain ⟨f, hf⟩ : ∃ f, h.tree.stored (kind.place w n) = some (.file f) :=
    (hb.free_or_file dev kind n).resolve_left (by simp [there])
  obtain ⟨g, hg, -⟩ := Tree.exists_node?_of_stored hf
  obtain rfl := Option.some.inj ((node?_of_entry hentry).symm.trans hg)
  exact ⟨g, hplace, rfl, by rw [content?, hentry]; rfl⟩

/-- It takes anything more. -/
theorem append (hl : h.appendTarget (Plan.file dir kind n) = .ok l) (c : Bytes) :
    ∃ h', h.append l c = .ok h' ∧ b.Develops (Plan.IsFile dir) h' ∧
      h'.appendTarget (Plan.file dir kind n) = .ok l ∧
      ∀ kind' n', h'.content? (Plan.file dir kind' n') =
        if kind' = kind ∧ n' = n then (h.content? (Plan.file dir kind n)).map (· ++ c)
        else h.content? (Plan.file dir kind' n') := by
  have coherent := dev.coherent
  obtain ⟨f, hplace, rfl, content⟩ := hb.exists_file dev hl
  have hf : h.tree.node? (kind.place w n) = some (.file f) := Tree.shows_of_locate hplace
  obtain ⟨h', hh⟩ : ∃ h', h.append (kind.place w n) c = .ok h' := by
    rw [Host.append, hf]
    exact ⟨_, rfl⟩
  have next : h.Develops (Plan.IsFile dir) h' := develops_append coherent hl hh ⟨kind, n, rfl⟩
  have stored := Tree.stored_of_file hf
  have ow := overwrites_append coherent (by simp [stored]) hh
  rw [Tree.fileAt_of_stored stored] at ow
  rw [content]
  exact ⟨h', hh, dev.trans next hb.sound, next.becomes.appendTarget coherent.toSound hl,
    hb.content?_of_overwrites dev hplace ow⟩

end Host.Blank

/-! ## Where builds keep their intermediate files -/

/-- A directory for the intermediate files of a build that had none when the build was opened.  Some
locations on the host from which it was opened cannot be those of intermediate files, and still store
the same. -/
structure Site (h₀ : Host) (K : Location → Prop) where
  /-- The directory. -/
  dir : Path
  /-- The host when the build was opened. -/
  base : Host
  /-- The location of the directory. -/
  home : Location
  /-- The path of the directory is absolute. -/
  isAbsolute : dir.isAbsolute
  /-- The tree is coherent. -/
  coherent : base.tree.Coherent
  /-- There are no intermediate files. -/
  blank : base.Blank dir home
  /-- The locations store what they stored. -/
  keeps : h₀.KeepsAt K base
  /-- They are not those of intermediate files. -/
  apart : ∀ k, K k → ∀ kind n, k ≠ ArtifactKind.place home kind n

variable {σ α β γ δ : Type} {tc : Toolchain σ} {o : BuildOptions} {h₀ : Host} {K : Location → Prop}
  {a a' : Site h₀ K} {h h' : Host} {s s' : Session σ} {names : Bytes → List Bytes}
  {paths : List Path} {inputs : ClassifiedInputs}

namespace Site

/-- The path of an intermediate file. -/
def file (a : Site h₀ K) (kind : ArtifactKind) (n : Nat) : Path := Plan.file a.dir kind n

/-- From the opened build on nothing has been written but intermediate files. -/
def Develops (a : Site h₀ K) (h : Host) : Prop := a.base.Develops (Plan.IsFile a.dir) h

theorem isAbsolute_file (a : Site h₀ K) (kind : ArtifactKind) (n : Nat) :
    (a.file kind n).isAbsolute := Path.isAbsolute_join a.isAbsolute _

theorem Develops.keepsAt (dev : a.Develops h) : h₀.KeepsAt K h :=
  have written := dev.becomes.written
  a.keeps.trans <| Host.keepsAt_of_stored written.sound written.ways.forth written.cwd_eq
    fun k hk ↦ a.blank.stored_eq dev (a.apart k hk)

end Site

/-! ## Calls in two builds -/

/-- What a call finds in the file that it is told by this name. -/
def Invocation.finds (i : Invocation) (h : Host) (q : Bytes) : Option Bytes :=
  h.content? ((i.dir.getD .here).join ⟨q⟩)

/-- Whether two calls find the same in the files that two of their words name. -/
def Invocation.FindAlike (names : Bytes → List Bytes) (i i' : Invocation) (h h' : Host)
    (w w' : Bytes) : Prop :=
  List.Forall₂ (fun q q' ↦ i'.finds h' q' = i.finds h q) (names w) (names w')

/-- A word of a call and its counterpart in another build: the same word, or the path of the same
intermediate file. -/
inductive Word.Counterpart (dir dir' : Path) : Bytes → Bytes → Prop
  /-- It is the same word. -/
  | same (w : Bytes) : Counterpart dir dir' w w
  /-- It is the path of the same file. -/
  | file (kind : ArtifactKind) (n : Nat) :
    Counterpart dir dir' (Plan.file dir kind n).raw (Plan.file dir' kind n).raw

/-- Whether a word of a call and one of a call in another build are counterparts that name the same. -/
structure Word.Alike (names : Bytes → List Bytes) (dir dir' : Path) (i i' : Invocation) (h h' : Host)
    (w w' : Bytes) : Prop where
  /-- They are counterparts. -/
  counterpart : Word.Counterpart dir dir' w w'
  /-- They name the same. -/
  found : i.FindAlike names i' h h' w w'

/-- Arguments that correspond word by word, but for an output at their end. -/
inductive Word.Correspond (R : Bytes → Bytes → Prop) : List Bytes → List Bytes → Prop
  /-- There are no words left. -/
  | nil : Correspond R [] []
  /-- What is left tells an output. -/
  | output {p p' : Bytes} (head : R (Bytes.ofString "-o") (Bytes.ofString "-o")) :
    Correspond R [Bytes.ofString "-o", p] [Bytes.ofString "-o", p']
  /-- Two words correspond. -/
  | cons {w w' : Bytes} {ws ws' : List Bytes} (head : R w w') (tail : Correspond R ws ws') :
    Correspond R (w :: ws) (w' :: ws')

theorem Word.Correspond.append {R : Bytes → Bytes → Prop} {ws ws' rest rest' : List Bytes}
    (first : List.Forall₂ R ws ws') (hrest : Correspond R rest rest') :
    Correspond R (ws ++ rest) (ws' ++ rest') := by
  induction first with
  | nil => exact hrest
  | cons head _ ih => exact .cons head ih

theorem Word.correspond_of_forall₂ {R : Bytes → Bytes → Prop} {ws ws' : List Bytes}
    (h : List.Forall₂ R ws ws') : Correspond R ws ws' := by
  simpa using Correspond.append h .nil

/-- The host after a call has written these bytes to the output that it is told. -/
def Host.written (h : Host) (i : Invocation) (c : Bytes) : Host :=
  i.written?.elim h fun p ↦ h.put (p, c)

/-- Whether what a call answers and writes does not depend on where the intermediate files and its
output are, but on its words and on what is in the files that these name; and whether a call that
succeeds writes its output, if that can be written, and nothing else. -/
def Toolchain.Indifferent (tc : Toolchain σ) (names : Bytes → List Bytes) (dir dir' : Path) : Prop :=
  ∀ (i i' : Invocation) (st st' : σ) (h h' : Host), i'.program = i.program →
    Word.Correspond (Word.Alike names dir dir' i i' h h') i.args i'.args →
    (tc.run i' st' h').outcome = (tc.run i st h).outcome ∧
      ∀ text, (tc.run i st h).outcome = .ok text →
        ∃ c, (tc.run i st h).tree = (h.written i c).tree ∧
          (tc.run i' st' h').tree = (h'.written i' c).tree

/-! ## What builds tell their tools -/

/-- The words that the commands of a build consist of, apart from what the build is told. -/
def Command.ownWords : List String :=
  ["-target", target, "-isystem", "-S", "-emit-llvm", "-o", "-march", "-tvm-load-store-replace",
    "-internalize", "-internalize-public-api-list=" ++ ",".intercalate entryPoints, "compile", "--lib",
    "--abi-json", "decode", "--tvc"]

/-- The words that a build is told for the compilers and the optimizer. -/
def BuildOptions.compilerWords (o : BuildOptions) : List Bytes :=
  Command.texts o.cxxflags ++ Command.texts o.cflags ++ Command.texts o.optFlags ++
    [o.tools.includeDir.raw, Bytes.ofString "--sysroot=" ++ o.tools.sysroot.raw]

/-- Whether this is what the words name that a build is told, and tells its compilers: none of that is
what builds write. -/
structure Build.Told (names : Bytes → List Bytes) (o : BuildOptions) (paths : List Path) (h : Host)
    (K : Location → Prop) : Prop where
  /-- An absolute path names itself. -/
  absolute : ∀ p : Path, p.isAbsolute → names p.raw = [p.raw]
  /-- So does an input. -/
  input : ∀ p ∈ paths, names p.raw = [p.raw]
  /-- The words of the commands name nothing. -/
  own : ∀ w ∈ Command.ownWords, names (.ofString w) = []
  /-- What flags name is not what builds write. -/
  given : ∀ w ∈ o.compilerWords, ∀ q ∈ names w, h.AimsAt K (o.workingDir.join ⟨q⟩)

/-- Whether two builds, of which one keeps its files in the working directory, are told the same and
find the same of what they need. -/
structure Build.Comparable (names : Bytes → List Bytes) (o : BuildOptions) (paths : List Path)
    (a a' : Site h₀ K) : Prop extends Build.Told names o paths h₀ K where
  /-- One keeps its files in the working directory. -/
  dir_eq : a.dir = o.workingDir
  /-- What is needed is there for both, or for none. -/
  needed : ∀ p ∈ o.needed paths,
    a.base.pathExists (o.absolute p) = true ∨ a'.base.pathExists (o.absolute p) = true →
      ∃ k n, h₀.entry (o.absolute p) = .ok (k, n) ∧ K k

/-- A word that two builds tell their tools at the same point. -/
inductive Word.Matches (names : Bytes → List Bytes) (wd : Path) (a a' : Site h₀ K) :
    Bytes → Bytes → Prop
  /-- It is the same word, and names nothing that the builds write. -/
  | same {w : Bytes} (aims : ∀ q ∈ names w, h₀.AimsAt K (wd.join ⟨q⟩)) : Matches names wd a a' w w
  /-- It is the path of the same file. -/
  | file (kind : ArtifactKind) (n : Nat) :
    Matches names wd a a' (a.file kind n).raw (a'.file kind n).raw

theorem Word.Matches.counterpart {wd : Path} {w w' : Bytes} (m : Word.Matches names wd a a' w w') :
    Word.Counterpart a.dir a'.dir w w' := by
  cases m with
  | same => exact .same _
  | file kind n => exact .file kind n

namespace Command

variable {wd input input' out out' : Path}

/-- Whether two commands tell the same program words that match. -/
structure Match (names : Bytes → List Bytes) (wd : Path) (a a' : Site h₀ K) (i i' : Invocation) :
    Prop where
  /-- The programs are the same. -/
  program : i'.program = i.program
  /-- The words match. -/
  args : List.Forall₂ (Word.Matches names wd a a') i.args i'.args

variable (cmp : Build.Comparable names o paths a a')

include cmp

/-- The words of the commands match. -/
theorem matches_own {ws : List String} (h : ws ⊆ ownWords) :
    List.Forall₂ (Word.Matches names wd a a') (texts ws) (texts ws) := by
  refine List.forall₂_same.mpr fun w hw ↦ ?_
  obtain ⟨v, hv, rfl⟩ := List.mem_map.mp hw
  exact .same fun q hq ↦ by
    rw [cmp.own v (h hv)] at hq
    cases hq

/-- So do the words that the build is told. -/
theorem matches_given {ws : List Bytes} (h : ws ⊆ o.compilerWords) :
    List.Forall₂ (Word.Matches names o.workingDir a a') ws ws :=
  List.forall₂_same.mpr fun w hw ↦ .same (cmp.given w (h hw))

variable (hin : Word.Matches names o.workingDir a a' input.raw input'.raw)
  (hout : Word.Matches names o.workingDir a a' out.raw out'.raw)

include hin hout

theorem match_cxx : Match names o.workingDir a a' (cxx o input out) (cxx o input' out') := by
  refine ⟨rfl, List.rel_append (List.rel_append (List.rel_append (List.rel_append (List.rel_append
    (matches_own cmp ?_) (matches_given cmp ?_)) (matches_own cmp ?_)) (.cons hin .nil))
    (matches_own cmp ?_)) (.cons hout (matches_given cmp ?_))⟩
  all_goals simp [ownWords, BuildOptions.compilerWords]

theorem match_c : Match names o.workingDir a a' (c o input out) (c o input' out') := by
  refine ⟨rfl, List.rel_append (List.rel_append (List.rel_append (List.rel_append (List.rel_append
    (List.rel_append (matches_own cmp ?_) (matches_given cmp ?_)) (matches_given cmp ?_))
    (matches_own cmp ?_)) (.cons hin .nil)) (matches_own cmp ?_)) (.cons hout .nil)⟩
  all_goals simp [ownWords, BuildOptions.compilerWords]

theorem match_assemble :
    Match names o.workingDir a a' (assemble o input out) (assemble o input' out') := by
  refine ⟨rfl, List.rel_append (List.rel_append (.cons hin .nil) (matches_own cmp ?_))
    (.cons hout .nil)⟩
  simp [ownWords]

theorem match_internalize :
    Match names o.workingDir a a' (internalize o input out) (internalize o input' out') := by
  refine ⟨rfl, List.rel_append (List.rel_append (List.rel_append (List.rel_append (.cons hin .nil)
    (matches_own cmp ?_)) (.cons hout .nil)) (matches_own cmp ?_)) (matches_own cmp ?_)⟩
  · simp [ownWords]
  · split <;> simp [ownWords]
  · simp [ownWords]

theorem match_optimize :
    Match names o.workingDir a a' (optimize o input out) (optimize o input' out') := by
  refine ⟨rfl, List.rel_append (List.rel_append (List.rel_append (List.rel_append
    (matches_given cmp ?_) (matches_own cmp ?_)) (.cons hin .nil)) (matches_own cmp ?_))
    (.cons hout .nil)⟩
  · exact List.Subset.trans (List.subset_append_right _ _) (List.subset_append_left _ _)
  all_goals simp [ownWords]

theorem match_generate :
    Match names o.workingDir a a' (generate o input out) (generate o input' out') := by
  refine ⟨rfl, List.rel_append (List.rel_append (List.rel_append (matches_own cmp ?_)
    (.cons hin .nil)) (matches_own cmp ?_)) (.cons hout .nil)⟩
  all_goals simp [ownWords]

omit hin in
theorem match_linkModules {modules modules' : List IrModule}
    (hmodules : List.Forall₂ (fun m m' ↦ Word.Matches names o.workingDir a a' m.path.raw m'.path.raw)
      modules modules') :
    Match names o.workingDir a a' (linkModules o modules out) (linkModules o modules' out') := by
  refine ⟨rfl, List.rel_append (List.rel_append ?_ (matches_own cmp ?_)) (.cons hout .nil)⟩
  · exact List.forall₂_map_left_iff.mpr (List.forall₂_map_right_iff.mpr hmodules)
  · simp [ownWords]

end Command

/-! ## Two builds side by side -/

/-- The note that inputs are appended to a file. -/
def Event.appending (inputs : String) (p : Path) : Event := .echo s!"cat {inputs} >>{p.display}"

/-- An event and its counterpart: a call of the same program in the same directory, or the note that
inputs are appended to the assembly. -/
inductive Event.Counterpart (dir dir' : Path) : Event → Event → Prop
  /-- A tool is called. -/
  | run {i i' : Invocation} (program : i'.program = i.program) (dir_eq : i'.dir = i.dir)
      (args : List.Forall₂ (Word.Counterpart dir dir') i.args i'.args) :
    Counterpart dir dir' (.run i) (.run i')
  /-- Inputs are appended. -/
  | append (inputs : String) (kind : ArtifactKind) (n : Nat) :
    Counterpart dir dir' (appending inputs (Plan.file dir kind n))
      (appending inputs (Plan.file dir' kind n))

/-- Whether two builds have done the same, with the same files on record, each in the directory of its
own: the first keeps its files. -/
structure Session.Parallel (dir dir' : Path) (s s' : Session σ) : Prop where
  /-- The files on record are the same. -/
  created : ∃ slots : List (ArtifactKind × Nat), s.store.created = slots.map (Plan.artifact dir true) ∧
    s'.store.created = slots.map (Plan.artifact dir' false)
  /-- So are the events. -/
  events : List.Forall₂ (Event.Counterpart dir dir') s.events s'.events

/-- Whether they have written nothing but their intermediate files besides, with the same bytes, and
will reserve the same. -/
structure Session.Beside (a a' : Site h₀ K) (s s' : Session σ) : Prop extends
    Session.Parallel a.dir a'.dir s s' where
  /-- The first keeps its files. -/
  backend_eq : s.store.backend = .persistent a.dir
  /-- The second does not. -/
  backend_eq' : s'.store.backend = .ephemeral (some a'.dir)
  /-- The numbers that are used up are the same. -/
  asked_eq : s'.store.asked = s.store.asked
  /-- Nothing that was asked for is missing. -/
  length_eq : s.store.created.length = s.store.asked.length
  /-- The first has written its files. -/
  develops : a.Develops s.host
  /-- The second has written its files. -/
  develops' : a'.Develops s'.host
  /-- They hold the same. -/
  contents : ∀ kind n, s'.host.content? (a'.file kind n) = s.host.content? (a.file kind n)

/-- Whether a file that was asked for is not on record. -/
def ArtifactStore.Lacks (s : ArtifactStore) : Prop := s.created.length < s.asked.length

namespace Build

/-- Two steps, side by side: both give values, or both fail with the same error, unless one of them
cannot make a file that it asks for. -/
inductive Mirrors (b : Build σ α) (b' : Build σ β) (s s' : Session σ)
    (Q : α → β → Session σ → Session σ → Prop) (E : Session σ → Session σ → Prop) : Prop
  /-- The first cannot make a file. -/
  | stuck {e : BuildError} {t : Session σ} (h : b.runIn s = (.error e, t)) (lacks : t.store.Lacks)
  /-- The second cannot. -/
  | stuck' {e : BuildError} {t : Session σ} (h : b'.runIn s' = (.error e, t)) (lacks : t.store.Lacks)
  /-- Both give values. -/
  | ok {x : α} {x' : β} {t t' : Session σ} (h : b.runIn s = (.ok x, t))
      (h' : b'.runIn s' = (.ok x', t')) (hQ : Q x x' t t')
  /-- Both fail. -/
  | error {e : BuildError} {t t' : Session σ} (h : b.runIn s = (.error e, t))
      (h' : b'.runIn s' = (.error e, t')) (hE : E t t')

namespace Mirrors

variable {E : Session σ → Session σ → Prop}

theorem pure {x : α} {x' : β} {Q : α → β → Session σ → Session σ → Prop} (hQ : Q x x' s s') :
    Mirrors (pure x) (pure x') s s' Q E := .ok rfl rfl hQ

theorem throw {e : BuildError} {Q : α → β → Session σ → Session σ → Prop} (hE : E s s') :
    Mirrors (throw e : Build σ α) (throw e : Build σ β) s s' Q E := .error rfl rfl hE

/-- Two steps after two others. -/
theorem bind {b : Build σ α} {b' : Build σ β} {f : α → Build σ γ} {f' : β → Build σ δ}
    {P : α → β → Session σ → Session σ → Prop} {Q : γ → δ → Session σ → Session σ → Prop}
    (hb : Mirrors b b' s s' P E)
    (hf : ∀ x x' t t', P x x' t t' → Mirrors (f x) (f' x') t t' Q E) :
    Mirrors (b >>= f) (b' >>= f') s s' Q E := by
  cases hb with
  | stuck h lacks => exact .stuck (runIn_bind_of_error h) lacks
  | stuck' h lacks => exact .stuck' (runIn_bind_of_error h) lacks
  | error h h' hE => exact .error (runIn_bind_of_error h) (runIn_bind_of_error h') hE
  | ok h h' hP =>
    have first := runIn_bind_of_ok (f := f) h
    have second := runIn_bind_of_ok (f := f') h'
    cases hf _ _ _ _ hP with
    | stuck k lacks => exact .stuck (first.trans k) lacks
    | stuck' k lacks => exact .stuck' (second.trans k) lacks
    | ok k k' hQ => exact .ok (first.trans k) (second.trans k') hQ
    | error k k' hE => exact .error (first.trans k) (second.trans k') hE

/-- What is said of two steps may be said in other words. -/
theorem mono {b : Build σ α} {b' : Build σ β} {P Q : α → β → Session σ → Session σ → Prop}
    {F : Session σ → Session σ → Prop} (hb : Mirrors b b' s s' P E)
    (hQ : ∀ x x' t t', b'.runIn s' = (.ok x', t') → P x x' t t' → Q x x' t t')
    (hF : ∀ t t', E t t' → F t t') : Mirrors b b' s s' Q F := by
  cases hb with
  | stuck h lacks => exact .stuck h lacks
  | stuck' h lacks => exact .stuck' h lacks
  | ok h h' hP => exact .ok h h' (hQ _ _ _ _ h' hP)
  | error h h' hE => exact .error h h' (hF _ _ hE)

end Mirrors

end Build

namespace IrModule

/-- Whether two modules come from the same input, and are it or the same intermediate file. -/
structure Match (names : Bytes → List Bytes) (o : BuildOptions) (a a' : Site h₀ K) (m m' : IrModule) :
    Prop where
  /-- They come from the same input. -/
  position_eq : m'.position = m.position
  /-- Their paths match. -/
  path : Word.Matches names o.workingDir a a' m.path.raw m'.path.raw

variable {m m' : IrModule} {ms ms' : List IrModule}

/-- A module goes to the same point among modules. -/
theorem Match.insert (hm : m.Match names o a a' m') (h : List.Forall₂ (Match names o a a') ms ms') :
    List.Forall₂ (Match names o a a') (insert m ms) (insert m' ms') := by
  induction h with
  | nil => exact .cons hm .nil
  | @cons n n' ns ns' hn hns ih =>
    simp only [IrModule.insert, hm.position_eq, hn.position_eq]
    split
    · exact .cons hm (.cons hn hns)
    · exact .cons hn ih

/-- So do all of them. -/
theorem forall₂_inOrder (h : List.Forall₂ (Match names o a a') ms ms') :
    List.Forall₂ (Match names o a a') (inOrder ms) (inOrder ms') := by
  induction h with
  | nil => exact .nil
  | cons hm _ ih => exact hm.insert ih

end IrModule

/-! ## Steps -/

namespace Session.Beside

variable (hs : Session.Beside a a' s s')

include hs

theorem length_eq' : s'.store.created.length = s.store.asked.length := by
  obtain ⟨slots, created, created'⟩ := hs.created
  rw [← hs.length_eq, created, created', List.length_map, List.length_map]

/-- Words that match lead calls in the working directory to the same. -/
theorem findAlike (cmp : Build.Comparable names o paths a a') (i i' : Invocation)
    (hdir : i.dir = some o.workingDir) (hdir' : i'.dir = some o.workingDir) (h₀s : h₀.tree.Sound)
    {w w' : Bytes} (m : Word.Matches names o.workingDir a a' w w') :
    i.FindAlike names i' s.host s'.host w w' := by
  have keeps : h₀.KeepsAt K s.host := hs.develops.keepsAt
  have keeps' : h₀.KeepsAt K s'.host := hs.develops'.keepsAt
  unfold Invocation.FindAlike
  cases m with
  | same aims =>
    refine List.forall₂_same.mpr fun q hq ↦ ?_
    rw [Invocation.finds, Invocation.finds, hdir, hdir', Option.getD_some,
      keeps.content?_eq h₀s (aims q hq), keeps'.content?_eq h₀s (aims q hq)]
  | file kind n =>
    rw [cmp.absolute _ (a.isAbsolute_file kind n), cmp.absolute _ (a'.isAbsolute_file kind n)]
    refine .cons ?_ .nil
    rw [Invocation.finds, Invocation.finds, hdir, hdir', Option.getD_some,
      Path.join_of_isAbsolute (a.isAbsolute_file kind n),
      Path.join_of_isAbsolute (a'.isAbsolute_file kind n), hs.contents]

/-- The same bytes have been written to the same file. -/
theorem overwritten {kind : ArtifactKind} {n : Nat} {c : Option Bytes} (dev : a.Develops h)
    (dev' : a'.Develops h')
    (after : ∀ kind' n', h.content? (a.file kind' n') =
      if kind' = kind ∧ n' = n then c else s.host.content? (a.file kind' n'))
    (after' : ∀ kind' n', h'.content? (a'.file kind' n') =
      if kind' = kind ∧ n' = n then c else s'.host.content? (a'.file kind' n')) :
    Session.Beside a a' (s.withHost h) (s'.withHost h') where
  toParallel := ⟨hs.created, hs.events⟩
  backend_eq := hs.backend_eq
  backend_eq' := hs.backend_eq'
  asked_eq := hs.asked_eq
  length_eq := hs.length_eq
  develops := dev
  develops' := dev'
  contents kind' n' := by
    rw [host_withHost, host_withHost, after, after', hs.contents]

end Session.Beside

namespace Build

variable {kind : ArtifactKind} {i i' : Invocation} {E : Session σ → Session σ → Prop}

/-- Both steps see their hosts. -/
theorem Mirrors.ofHost {f : Host → Build σ α} {f' : Host → Build σ β}
    {Q : α → β → Session σ → Session σ → Prop} (h : Mirrors (f s.host) (f' s'.host) s s' Q E) :
    Mirrors (host >>= f) (host >>= f') s s' Q E := by
  refine Mirrors.bind (P := fun h h' t t' ↦ h = t.host ∧ h' = t'.host ∧ t = s ∧ t' = s')
    (.ok rfl rfl ⟨rfl, rfl, rfl, rfl⟩) ?_
  rintro _ _ _ _ ⟨rfl, rfl, rfl, rfl⟩
  exact h

/-- The same is found on both hosts. -/
theorem mirrors_value {activity : Activity} {r r' : Except IoError α}
    {Q : α → α → Session σ → Session σ → Prop} (same : r' = r)
    (hQ : ∀ v, r = .ok v → Q v v s s') (hE : E s s') :
    Mirrors (value activity r) (value activity r') s s' Q E := by
  subst same
  cases r' with
  | ok v => exact .pure (hQ v rfl)
  | error x => exact .throw hE

/-- Both hosts are changed. -/
theorem mirrors_change {activity activity' : Activity} {r r' : Except IoError Host}
    (hh : r = .ok h) (hh' : r' = .ok h') :
    Mirrors (change activity r) (change activity' r') s s'
      (fun _ _ t t' ↦ t = s.withHost h ∧ t' = s'.withHost h') E := by
  subst hh hh'
  exact .ok rfl rfl ⟨rfl, rfl⟩

/-- The same file is reserved in both builds. -/
theorem mirrors_reserve (hs : Session.Beside a a' s s') (kind : ArtifactKind) :
    Mirrors (reserve kind) (reserve kind) s s'
      (fun p p' t t' ↦ (∃ n, p = a.file kind n ∧ p' = a'.file kind n) ∧ Session.Beside a a' t t' ∧
        t.host.Takes p ∧ t'.host.Takes p')
      (Session.Parallel a.dir a'.dir) := by
  let n := s.store.asked.count kind
  have hnext : s.store.nextPath? kind = some (a.file kind n) := by
    rw [ArtifactStore.nextPath?, ArtifactStore.dir?, hs.backend_eq]
    rfl
  have hnext' : s'.store.nextPath? kind = some (a'.file kind n) := by
    rw [ArtifactStore.nextPath?, ArtifactStore.dir?, hs.backend_eq', hs.asked_eq]
    rfl
  cases hh : s.host.write (a.file kind n) [] with
  | error x =>
    refine .stuck (runIn_reserve_of_error hnext hh) ?_
    simp [ArtifactStore.Lacks, ArtifactStore.ask, hs.length_eq]
  | ok h =>
    cases hh' : s'.host.write (a'.file kind n) [] with
    | error x =>
      refine .stuck' (runIn_reserve_of_error hnext' hh') ?_
      simp [ArtifactStore.Lacks, ArtifactStore.ask, hs.length_eq', hs.asked_eq]
    | ok h' =>
      obtain ⟨dev, takes, -, after⟩ := a.blank.write hs.develops hh
      obtain ⟨dev', takes', -, after'⟩ := a'.blank.write hs.develops' hh'
      obtain ⟨slots, created, created'⟩ := hs.created
      refine .ok (runIn_reserve_of_ok hnext hh) (runIn_reserve_of_ok hnext' hh')
        ⟨⟨n, rfl, rfl⟩, { hs.overwritten dev dev' after after' with
          created := ⟨slots ++ [(kind, n)], ?_, ?_⟩
          asked_eq := congrArg (· ++ [kind]) hs.asked_eq
          length_eq := by simp [ArtifactStore.record, ArtifactStore.ask, hs.length_eq] }, takes, takes'⟩
      · simp [ArtifactStore.record, ArtifactStore.isPersistent, hs.backend_eq, created, Plan.artifact,
          Site.file]
      · simp [ArtifactStore.record, ArtifactStore.isPersistent, hs.backend_eq', created',
          Plan.artifact, Site.file]

/-- Calls that find the same are answered alike. -/
theorem mirrors_tool (tc : Toolchain σ) (i i' : Invocation)
    {Q : String → String → Session σ → Session σ → Prop} {E : Session σ → Session σ → Prop}
    (same : (tc.run i' s'.tools s'.host).outcome = (tc.run i s.tools s.host).outcome)
    (hok : ∀ text, (tc.run i s.tools s.host).outcome = .ok text →
      Q text text (s.called tc i) (s'.called tc i'))
    (herror : E (s.called tc i) (s'.called tc i')) :
    Mirrors (tool tc i) (tool tc i') s s' Q E := by
  cases hout : (tc.run i s.tools s.host).outcome with
  | ok text =>
    exact .ok (Prod.ext hout rfl) (Prod.ext (same.trans hout) rfl) (hok text hout)
  | error e => exact .error (Prod.ext hout rfl) (Prod.ext (same.trans hout) rfl) herror

/-- What a call leaves that writes its output. -/
theorem host_called_of_written (tc : Toolchain σ) {p : Path} {c : Bytes} {h : Host}
    (hi : i.written? = some p) (htree : (tc.run i s.tools s.host).tree = (s.host.written i c).tree)
    (hh : s.host.write p c = .ok h) : (s.called tc i).host = h := by
  rw [Session.host_called, htree, Host.written, hi, Option.elim_some, ← Host.put_eq_withTree,
    Host.put_of_ok hh]

/-- The same file is made in both builds. -/
theorem mirrors_produce (kind : ArtifactKind) (cmp : Comparable names o paths a a')
    (ind : tc.Indifferent names a.dir a'.dir) (h₀s : h₀.tree.Sound) (hs : Session.Beside a a' s s')
    {command command' : Path → Invocation} (hn : Command.NamesOutput command)
    (hn' : Command.NamesOutput command')
    (hmatch : ∀ n, Command.Match names o.workingDir a a' (command (a.file kind n))
      (command' (a'.file kind n))) :
    Mirrors (produce tc o kind command) (produce tc o kind command') s s'
      (fun p p' t t' ↦ (∃ n, p = a.file kind n ∧ p' = a'.file kind n) ∧ Session.Beside a a' t t' ∧
        (∃ l, t.host.appendTarget p = .ok l) ∧ ∃ l, t'.host.appendTarget p' = .ok l)
      (Session.Parallel a.dir a'.dir) := by
  refine (mirrors_reserve hs kind).bind ?_
  rintro _ _ t t' ⟨⟨n, rfl, rfl⟩, ht, takes, takes'⟩
  obtain ⟨program, args⟩ := hmatch n
  let i := (command (a.file kind n)).inDir o.workingDir
  let i' := (command' (a'.file kind n)).inDir o.workingDir
  have written : i.written? = some (a.file kind n) := hn.written?_inDir (a.isAbsolute_file kind n) _
  have written' : i'.written? = some (a'.file kind n) :=
    hn'.written?_inDir (a'.isAbsolute_file kind n) _
  obtain ⟨same, success⟩ := ind i i' t.tools t'.tools t.host t'.host program
    (Word.correspond_of_forall₂ (args.imp fun _ _ m ↦
      ⟨m.counterpart, ht.findAlike cmp i i' rfl rfl h₀s m⟩))
  have events : List.Forall₂ (Event.Counterpart a.dir a'.dir) (t.events ++ [.run i])
      (t'.events ++ [.run i']) :=
    List.rel_append ht.events
      (.cons (.run program rfl (args.imp fun _ _ m ↦ m.counterpart)) .nil)
  refine (mirrors_tool tc i i' same (fun text htext ↦ ?_)
    ⟨ht.created, events⟩).bind fun _ _ _ _ h ↦ .pure h
  obtain ⟨c, htree, htree'⟩ := success text htext
  obtain ⟨h, hh⟩ := takes c
  obtain ⟨h', hh'⟩ := takes' c
  obtain ⟨dev, -, appends, after⟩ := a.blank.write ht.develops hh
  obtain ⟨dev', -, appends', after'⟩ := a'.blank.write ht.develops' hh'
  have left := host_called_of_written (s := t) tc written htree hh
  have right := host_called_of_written (s := t') tc written' htree' hh'
  rw [← left] at dev after appends
  rw [← right] at dev' after' appends'
  exact ⟨⟨n, rfl, rfl⟩, { ht.overwritten dev dev' after after' with events := events }, appends,
    appends'⟩

/-! ### Inputs -/

/-- An input of a kind is an input. -/
theorem path_mem_of_mem_ofKind (hinputs : classify paths = .ok inputs) {kind : InputKind}
    {f : InputFile} (hf : f ∈ inputs.ofKind kind) : f.path ∈ paths := by
  have mem := List.mem_map_of_mem (f := InputFile.path) hf
  rw [map_path_ofKind hinputs kind] at mem
  exact List.mem_of_mem_filter mem

/-- Each input is needed. -/
theorem mem_needed (hinputs : classify paths = .ok inputs) {p : Path} (hp : p ∈ paths) :
    p ∈ o.needed paths := by
  cases hkind : InputKind.ofPath? p with
  | some kind =>
    refine List.mem_append_left _ (List.mem_flatMap.mpr ⟨kind, ?_, ?_⟩)
    · cases kind <;> simp
    · exact List.mem_filter.mpr ⟨hp, by simp [hkind]⟩
  | none =>
    obtain ⟨q, hq⟩ : ∃ q, firstUnsupported? paths = some q :=
      Option.isSome_iff_exists.mp (List.find?_isSome.mpr ⟨p, hp, by simp [hkind]⟩)
    cases hinputs.symm.trans (classifyFrom_eq_error_iff.mpr ⟨q, hq, rfl⟩)

/-! ### Modules -/

section

variable (cmp : Comparable names o paths a a') (ind : tc.Indifferent names a.dir a'.dir)
  (h₀s : h₀.tree.Sound)

include cmp ind h₀s

/-- The same modules are made of the same inputs. -/
theorem mirrors_modulesOf {command : BuildOptions → Path → Path → Invocation}
    (hn : ∀ input, Command.NamesOutput (command o input))
    (hmatch : ∀ input out out', Word.Matches names o.workingDir a a' input.raw input.raw →
      Word.Matches names o.workingDir a a' out.raw out'.raw →
      Command.Match names o.workingDir a a' (command o input out) (command o input out'))
    (files : List InputFile)
    (hfiles : ∀ f ∈ files, Word.Matches names o.workingDir a a' f.path.raw f.path.raw)
    (hs : Session.Beside a a' s s') :
    Mirrors (modulesOf tc o kind command files) (modulesOf tc o kind command files) s s'
      (fun ms ms' t t' ↦ List.Forall₂ (IrModule.Match names o a a') ms ms' ∧
        Session.Beside a a' t t')
      (Session.Parallel a.dir a'.dir) := by
  induction files generalizing s s' with
  | nil => exact .pure ⟨.nil, hs⟩
  | cons f fs ih =>
    have job := mirrors_produce kind cmp ind h₀s hs (hn f.path) (hn f.path)
      fun n ↦ hmatch _ _ _ (hfiles f List.mem_cons_self) (.file kind n)
    refine (job.bind fun p p' t t' h ↦ .pure (Q := fun m m' t t' ↦
      IrModule.Match names o a a' m m' ∧ Session.Beside a a' t t') ?_).bind ?_
    · obtain ⟨⟨n, rfl, rfl⟩, ht, -⟩ := h
      exact ⟨⟨rfl, .file kind n⟩, ht⟩
    · rintro m m' t t' ⟨hm, ht⟩
      refine (ih (fun f hf ↦ hfiles f (List.mem_cons_of_mem _ hf)) ht).bind ?_
      rintro ms ms' u u' ⟨hms, hu⟩
      exact .pure ⟨.cons hm hms, hu⟩

/-- The same modules become the same assembly. -/
theorem mirrors_lowered (hpaths : ∀ p ∈ paths, Word.Matches names o.workingDir a a' p.raw p.raw)
    (hinputs : classify paths = .ok inputs) (hs : Session.Beside a a' s s') :
    Mirrors (lowered tc o inputs) (lowered tc o inputs) s s'
      (fun p p' t t' ↦ (∃ n, p = a.file .codegen n ∧ p' = a'.file .codegen n) ∧
        Session.Beside a a' t t' ∧ (∃ l, t.host.appendTarget p = .ok l) ∧
        ∃ l, t'.host.appendTarget p' = .ok l)
      (Session.Parallel a.dir a'.dir) := by
  have ofKind (kind : InputKind) (f : InputFile) (hf : f ∈ inputs.ofKind kind) :
      Word.Matches names o.workingDir a a' f.path.raw f.path.raw :=
    hpaths _ (path_mem_of_mem_ofKind hinputs hf)
  unfold lowered compileSources assembleIr
  refine ((mirrors_modulesOf cmp ind h₀s (Command.namesOutput_cxx o)
    (fun _ _ _ ↦ Command.match_cxx cmp) inputs.cxx (ofKind .cxx) hs).bind fun cxx cxx' t t' h ↦
    (mirrors_modulesOf cmp ind h₀s (Command.namesOutput_c o) (fun _ _ _ ↦ Command.match_c cmp)
      inputs.c (ofKind .c) h.2).bind (Q := fun ms ms' t t' ↦
        List.Forall₂ (IrModule.Match names o a a') ms ms' ∧ Session.Beside a a' t t')
        fun c c' u u' h' ↦ .pure ⟨List.rel_append h.1 h'.1, h'.2⟩).bind ?_
  rintro compiled compiled' t t' ⟨hcompiled, ht⟩
  refine (mirrors_modulesOf cmp ind h₀s (Command.namesOutput_assemble o)
    (fun _ _ _ ↦ Command.match_assemble cmp) inputs.irText (ofKind .irText) ht).bind ?_
  rintro assembled assembled' t t' ⟨hassembled, ht⟩
  have hgiven : List.Forall₂ (IrModule.Match names o a a') (inputs.irBinary.map IrModule.ofInput)
      (inputs.irBinary.map IrModule.ofInput) := by
    refine List.forall₂_same.mpr fun m hm ↦ ?_
    obtain ⟨f, hf, rfl⟩ := List.mem_map.mp hm
    exact ⟨rfl, ofKind .irBinary f hf⟩
  have hmodules := IrModule.forall₂_inOrder (List.rel_append (List.rel_append hcompiled hassembled)
    hgiven)
  refine (mirrors_produce _ cmp ind h₀s ht (Command.namesOutput_linkModules o _)
    (Command.namesOutput_linkModules o _) fun n ↦
      Command.match_linkModules cmp (.file .link n) (hmodules.imp fun _ _ m ↦ m.path)).bind ?_
  rintro _ _ t t' ⟨⟨n, rfl, rfl⟩, ht, -⟩
  refine (mirrors_produce _ cmp ind h₀s ht (Command.namesOutput_internalize o _)
    (Command.namesOutput_internalize o _) fun n' ↦
      Command.match_internalize cmp (.file .link n) (.file .internalize n')).bind ?_
  rintro _ _ t t' ⟨⟨n, rfl, rfl⟩, ht, -⟩
  refine (mirrors_produce _ cmp ind h₀s ht (Command.namesOutput_optimize o _)
    (Command.namesOutput_optimize o _) fun n' ↦
      Command.match_optimize cmp (.file .internalize n) (.file .optimize n')).bind ?_
  rintro _ _ t t' ⟨⟨n, rfl, rfl⟩, ht, -⟩
  exact mirrors_produce _ cmp ind h₀s ht (Command.namesOutput_generate o _)
    (Command.namesOutput_generate o _) fun n' ↦
      Command.match_generate cmp (.file .optimize n) (.file .codegen n')

end

/-! ### Assembly inputs -/

/-- The same inputs are appended to the same file. -/
theorem mirrors_appendInputs (h₀s : h₀.tree.Sound) {n : Nat} {l l' : Location}
    (files : List InputFile)
    (hfiles : ∀ f ∈ files, ∃ k m, h₀.entry (o.absolute f.path) = .ok (k, m) ∧ K k)
    (hs : Session.Beside a a' s s') (hl : s.host.appendTarget (a.file kind n) = .ok l)
    (hl' : s'.host.appendTarget (a'.file kind n) = .ok l') :
    Mirrors (appendInputs o (a.file kind n) l files) (appendInputs o (a'.file kind n) l' files) s s'
      (fun _ _ t t' ↦ Session.Beside a a' t t' ∧ (∃ l, t.host.appendTarget (a.file kind n) = .ok l) ∧
        ∃ l, t'.host.appendTarget (a'.file kind n) = .ok l)
      (Session.Parallel a.dir a'.dir) := by
  induction files generalizing s s' with
  | nil => exact .pure ⟨hs, ⟨l, hl⟩, ⟨l', hl'⟩⟩
  | cons f fs ih =>
    obtain ⟨k, m, hentry, hK⟩ := hfiles f List.mem_cons_self
    obtain ⟨m₁, hentry₁, stored₁⟩ := hs.develops.keepsAt.exists_entry h₀s hentry hK
    obtain ⟨m₂, hentry₂, stored₂⟩ := hs.develops'.keepsAt.exists_entry h₀s hentry hK
    have same : s'.host.read (o.absolute f.path) = s.host.read (o.absolute f.path) :=
      Host.read_congr hentry₁ hentry₂ (stored₂.trans stored₁.symm)
    refine .ofHost ((mirrors_value same (fun content _ ↦ ?_) hs.toParallel).bind
      (P := fun content content' t t' ↦ content' = content ∧ t = s ∧ t' = s') ?_)
    · exact ⟨rfl, rfl, rfl⟩
    rintro _ content _ _ ⟨rfl, rfl, rfl⟩
    obtain ⟨h, hh, dev, appends, after⟩ := a.blank.append hs.develops hl content
    obtain ⟨h', hh', dev', appends', after'⟩ := a'.blank.append hs.develops' hl' content
    refine .ofHost ((mirrors_change hh hh').bind ?_)
    rintro _ _ _ _ ⟨rfl, rfl⟩
    have held : _ = Host.content? _ (Plan.file a.dir kind n) := hs.contents kind n
    rw [← held] at after
    exact ih (fun f hf ↦ hfiles f (List.mem_cons_of_mem _ hf)) (hs.overwritten dev dev' after after')
      appends appends'

/-- What is opened can be appended to. -/
theorem runIn_openAssembly {asm : Path} {l : Location} (hl : s.host.appendTarget asm = .ok l) :
    let names := " ".intercalate (inputs.assembly.map (·.path.display))
    (openAssembly tc asm inputs).runIn s =
      (.ok l, s.echoed tc s!"cat {names} >>{asm.display}") := by
  intro names
  have opened (t : Session σ) (ht : t.host = s.host) :
      (value (.opening asm) (t.host.appendTarget asm)).runIn t = (.ok l, t) := by
    rw [ht, hl]
    rfl
  exact opened (s.echoed tc s!"cat {names} >>{asm.display}") (Session.host_echoed ..)

/-- All of them are. -/
theorem mirrors_mergeAssembly (h₀s : h₀.tree.Sound) {n : Nat}
    (hfiles : ∀ f ∈ inputs.assembly, ∃ k m, h₀.entry (o.absolute f.path) = .ok (k, m) ∧ K k)
    (hs : Session.Beside a a' s s') (hl : ∃ l, s.host.appendTarget (a.file kind n) = .ok l)
    (hl' : ∃ l, s'.host.appendTarget (a'.file kind n) = .ok l) :
    Mirrors (mergeAssembly tc o (a.file kind n) inputs) (mergeAssembly tc o (a'.file kind n) inputs)
      s s' (fun _ _ t t' ↦ Session.Beside a a' t t' ∧
        (∃ l, t.host.appendTarget (a.file kind n) = .ok l) ∧
        ∃ l, t'.host.appendTarget (a'.file kind n) = .ok l)
      (Session.Parallel a.dir a'.dir) := by
  by_cases none : inputs.assembly = []
  · rw [mergeAssembly_nil none, mergeAssembly_nil none]
    exact .pure ⟨hs, hl, hl'⟩
  obtain ⟨l, hl⟩ := hl
  obtain ⟨l', hl'⟩ := hl'
  rw [mergeAssembly_eq none, mergeAssembly_eq none]
  refine Mirrors.bind (.ok (runIn_openAssembly hl) (runIn_openAssembly hl') (Q := fun x x' t t' ↦
    x = l ∧ x' = l' ∧ Session.Beside a a' t t' ∧ t.host = s.host ∧ t'.host = s'.host)
    ⟨rfl, rfl, ?_, rfl, rfl⟩) ?_
  · exact { hs with events := List.rel_append hs.events (.cons (.append _ kind n) .nil) }
  · rintro _ _ t t' ⟨rfl, rfl, ht, hhost, hhost'⟩
    exact mirrors_appendInputs h₀s _ hfiles ht (hhost ▸ hl) (hhost' ▸ hl')

/-! ### Up to the merged assembly -/

/-- Two builds that have just been opened find the same inputs missing. -/
theorem mirrors_checkInputs (cmp : Comparable names o paths a a') (h₀s : h₀.tree.Sound)
    (hinputs : classify paths = .ok inputs) (hhost : s.host = a.base) (hhost' : s'.host = a'.base)
    (parallel : Session.Parallel a.dir a'.dir s s') :
    Mirrors (checkInputs o inputs) (checkInputs o inputs) s s'
      (fun _ _ t t' ↦ (∀ p ∈ o.needed paths, ∃ k n, h₀.entry (o.absolute p) = .ok (k, n) ∧ K k) ∧
        t = s ∧ t' = s')
      (Session.Parallel a.dir a'.dir) := by
  have there (b : Site h₀ K) {p : Path} {k : Location} {n : Node}
      (he : h₀.entry (o.absolute p) = .ok (k, n)) (hK : K k) :
      b.base.pathExists (o.absolute p) = true := by
    obtain ⟨n', he', -⟩ := b.keeps.exists_entry h₀s he hK
    rw [Host.pathExists, he']
    rfl
  have same : ∀ p ∈ o.needed paths,
      a'.base.pathExists (o.absolute p) = a.base.pathExists (o.absolute p) := by
    intro p hp
    by_cases given : a.base.pathExists (o.absolute p) = true ∨ a'.base.pathExists (o.absolute p) = true
    · obtain ⟨k, n, he, hK⟩ := cmp.needed p hp given
      rw [there a he hK, there a' he hK]
    · rw [Bool.eq_false_iff.mpr fun h ↦ given (.inl h), Bool.eq_false_iff.mpr fun h ↦ given (.inr h)]
  have missing : firstMissing? o s'.host inputs = firstMissing? o s.host inputs := by
    rw [firstMissing?_eq hinputs, firstMissing?_eq hinputs, hhost, hhost']
    exact List.find?_congr fun p hp ↦ by rw [same p hp]
  have run := runIn_checkInputs o inputs s
  have run' := runIn_checkInputs o inputs s'
  rw [missing] at run'
  cases hm : firstMissing? o s.host inputs with
  | some p =>
    rw [hm] at run run'
    exact .error run run' parallel
  | none =>
    rw [hm] at run run'
    refine .ok run run' ⟨fun p hp ↦ cmp.needed p hp (.inl ?_), rfl, rfl⟩
    rw [firstMissing?_eq hinputs, hhost] at hm
    simpa using List.find?_eq_none.mp hm p hp

/-- Two builds of the same inputs do the same up to the merged assembly. -/
theorem mirrors_assembled (cmp : Comparable names o paths a a')
    (ind : tc.Indifferent names a.dir a'.dir) (h₀s : h₀.tree.Sound) (hs : Session.Beside a a' s s')
    (hhost : s.host = a.base) (hhost' : s'.host = a'.base) :
    Mirrors (assembled tc o paths) (assembled tc o paths) s s'
      (fun p p' t t' ↦ (∃ n, p = a.file .codegen n ∧ p' = a'.file .codegen n) ∧
        Session.Beside a a' t t' ∧ (∃ l, t.host.appendTarget p = .ok l) ∧
        (∃ l, t'.host.appendTarget p' = .ok l) ∧
        ∀ p ∈ o.needed paths, ∃ k n, h₀.entry (o.absolute p) = .ok (k, n) ∧ K k)
      (Session.Parallel a.dir a'.dir) := by
  cases hinputs : classify paths with
  | error e =>
    have fails (t : Session σ) : (assembled tc o paths).runIn t = (.error e, t) := by
      rw [assembled, runIn_bind_of_error]
      rw [classified, hinputs]
      rfl
    exact .error (fails s) (fails s') hs.toParallel
  | ok inputs =>
    rw [assembled_eq hinputs, generated, bind_assoc]
    refine (mirrors_checkInputs cmp h₀s hinputs hhost hhost' hs.toParallel).bind ?_
    rintro _ _ _ _ ⟨needed, rfl, rfl⟩
    have input : ∀ p ∈ paths, Word.Matches names o.workingDir a a' p.raw p.raw := by
      intro p hp
      obtain ⟨k, n, he, hK⟩ := needed p (mem_needed hinputs hp)
      refine .same fun q hq ↦ ?_
      rw [cmp.input p hp, List.mem_singleton] at hq
      exact hq ▸ .entry he hK
    refine (mirrors_lowered cmp ind h₀s input hinputs hs).bind ?_
    rintro _ _ t t' ⟨⟨n, rfl, rfl⟩, ht, appends, appends'⟩
    refine (mirrors_mergeAssembly h₀s (fun f hf ↦
      needed _ (mem_needed hinputs (path_mem_of_mem_ofKind hinputs
        (show f ∈ inputs.ofKind .assembly from hf))))
      ht appends appends').bind ?_
    rintro _ _ u u' ⟨hu, stays, stays'⟩
    exact .pure ⟨⟨n, rfl, rfl⟩, hu, stays, stays', needed⟩

end Build

end ContractBuild
