import ContractBuild.Artifact.Kind
import ContractBuild.BuildError
import ContractBuild.FileSystem.Host

/-!
# The store of intermediate files

A store reserves a file for each stage.  An ephemeral store keeps them in a temporary directory of
its own, which `cleanup` removes, and is closed from then on; a persistent store keeps them in the
working directory for good.  The store also opens the directory in which the final link runs.
-/

namespace ContractBuild

/-- A reserved intermediate file. -/
structure Artifact where
  /-- Its path. -/
  path : Path
  /-- The stage that it is for. -/
  kind : ArtifactKind
  /-- Whether it stays after the build. -/
  persistent : Bool
  deriving DecidableEq, Repr

/-- Where a store keeps its files. -/
inductive ArtifactStore.Backend
  /-- In a temporary directory, or nowhere after that has been removed. -/
  | ephemeral (dir : Option Path)
  /-- In the working directory. -/
  | persistent (dir : Path)
  deriving DecidableEq, Repr

/-- A store of intermediate files. -/
structure ArtifactStore where
  /-- Where the files are. -/
  backend : ArtifactStore.Backend
  /-- The files reserved so far, in order. -/
  created : List Artifact
  /-- The kinds asked for so far, also where that failed; they number the next file. -/
  asked : List ArtifactKind
  deriving DecidableEq, Repr

/-- The directory in which the final link runs. -/
inductive LinkDir
  /-- A temporary directory for this link only. -/
  | scoped (p : Path)
  /-- The working directory. -/
  | working (p : Path)
  deriving DecidableEq, Repr

namespace LinkDir

/-- The path of the directory. -/
def path : LinkDir → Path
  | .scoped p => p
  | .working p => p

/-- Whether the directory is for this link only. -/
def isScoped : LinkDir → Bool
  | .scoped _ => true
  | .working _ => false

/-- Gives the directory up; a temporary one is removed. -/
def close : LinkDir → Host → Host
  | .scoped p, h => h.removeDirectory p
  | .working _, h => h

end LinkDir

namespace ArtifactStore

/-! ## Opening a store -/

/-- A store that keeps its files in the working directory. -/
def persistent (dir : Path) : ArtifactStore := ⟨.persistent dir, [], []⟩

/-- A store with a new temporary directory. -/
def ephemeral (h : Host) : Except BuildError (ArtifactStore × Host) :=
  match h.makeTemporary "tvm-build-" with
  | .ok (p, h') => .ok (⟨.ephemeral (some p), [], []⟩, h')
  | .error cause => .error (.io .creatingTemporaryDirectory cause)

/-- The store of a build, which keeps its files if `saveTemps` holds. -/
def forBuild (saveTemps : Bool) (workingDir : Path) (h : Host) :
    Except BuildError (ArtifactStore × Host) :=
  if saveTemps then .ok (persistent workingDir, h) else ephemeral h

/-- Whether the files stay after the build. -/
def isPersistent (s : ArtifactStore) : Bool :=
  match s.backend with
  | .persistent _ => true
  | .ephemeral _ => false

/-- The directory that new files go to, unless the store is closed. -/
def dir? (s : ArtifactStore) : Option Path :=
  match s.backend with
  | .ephemeral dir => dir
  | .persistent dir => some dir

/-! ## Reserving files -/

/-- The path that the next file of a kind gets, unless the store is closed. -/
def nextPath? (s : ArtifactStore) (kind : ArtifactKind) : Option Path :=
  s.dir?.map fun dir ↦ dir.join (.ofString (kind.fileName (s.asked.count kind)))

/-- The store after a file of this kind was asked for. -/
def ask (s : ArtifactStore) (kind : ArtifactKind) : ArtifactStore :=
  { s with asked := s.asked ++ [kind] }

/-- The store after a file was reserved. -/
def record (s : ArtifactStore) (p : Path) (kind : ArtifactKind) : ArtifactStore :=
  { s with created := s.created ++ [⟨p, kind, s.isPersistent⟩] }

/-- Reserves a file of a kind and creates it empty.  The number of the file is used up even if it
cannot be created. -/
def reserve (s : ArtifactStore) (h : Host) (kind : ArtifactKind) :
    Except BuildError Path × ArtifactStore × Host :=
  match s.nextPath? kind with
  | none =>
    (.error (.io .creatingArtifact (.refused "artifact store already cleaned up")), s.ask kind, h)
  | some p =>
    match h.write p [] with
    | .ok h' => (.ok p, (s.ask kind).record p kind, h')
    | .error cause => (.error (.io (.creating p) cause), s.ask kind, h)

/-! ## Giving up what is temporary -/

/-- Opens the directory of the final link. -/
def openLinkDir (s : ArtifactStore) (h : Host) : Except BuildError (LinkDir × Host) :=
  match s.backend with
  | .persistent dir => .ok (.working dir, h)
  | .ephemeral _ =>
    match h.makeTemporary "tvm-link-" with
    | .ok (p, h') => .ok (.scoped p, h')
    | .error cause => .error (.io .creatingLinkDirectory cause)

/-- Removes what does not stay and closes the store, if it is ephemeral. -/
def cleanup (s : ArtifactStore) (h : Host) : ArtifactStore × Host :=
  match s.backend with
  | .persistent _ => (s, h)
  | .ephemeral dir =>
    let temporary := s.created.filter fun a ↦ !a.persistent
    let h := temporary.foldl (fun h a ↦ h.removeFile a.path) h
    let h := match dir with
      | some p => h.removeDirectory p
      | none => h
    ({ s with backend := .ephemeral none }, h)

/-- What is opened is the working directory of a store that keeps its files, and a new directory
otherwise. -/
theorem cases_openLinkDir {s : ArtifactStore} {h h' : Host} {linkDir : LinkDir}
    (hopen : s.openLinkDir h = .ok (linkDir, h')) :
    (∃ wd, s.backend = .persistent wd ∧ linkDir = .working wd ∧ h' = h) ∨
      ∃ home p, s.backend = .ephemeral home ∧ linkDir = .scoped p ∧
        h.makeTemporary "tvm-link-" = .ok (p, h') := by
  unfold openLinkDir at hopen
  split at hopen
  next wd hb =>
    obtain ⟨rfl, rfl⟩ := Prod.mk.inj (Except.ok.inj hopen)
    exact .inl ⟨wd, hb, rfl, rfl⟩
  next home hb =>
    split at hopen
    next p h' hmade =>
      obtain ⟨rfl, rfl⟩ := Prod.mk.inj (Except.ok.inj hopen)
      exact .inr ⟨home, p, hb, rfl, hmade⟩
    next => cases hopen

/-! ## Equations -/

@[simp] theorem backend_ask (s : ArtifactStore) (kind : ArtifactKind) :
    (s.ask kind).backend = s.backend := rfl

@[simp] theorem created_ask (s : ArtifactStore) (kind : ArtifactKind) :
    (s.ask kind).created = s.created := rfl

@[simp] theorem backend_record (s : ArtifactStore) (p : Path) (kind : ArtifactKind) :
    (s.record p kind).backend = s.backend := rfl

@[simp] theorem asked_record (s : ArtifactStore) (p : Path) (kind : ArtifactKind) :
    (s.record p kind).asked = s.asked := rfl

end ArtifactStore

end ContractBuild
