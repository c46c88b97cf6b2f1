import ContractBuild.FileSystem.Locate
import ContractBuild.Path.FileName

/-!
# The host of a build

A host is a file tree together with what a process sees of it: its current directory and the
directory for temporary files.  An operation that can fail returns the host after it, or the error
and changes nothing; one that may fail half-way, or is only attempted, returns the host in any case.
-/

namespace ContractBuild

/-- The random end of the name of a temporary directory. -/
structure TemporaryEnd where
  /-- Six characters. -/
  chars : List Char
  /-- There are no more and no fewer. -/
  length_eq : chars.length = 6
  /-- They are letters and digits. -/
  isAlphanum : chars.all Char.isAlphanum

/-- The ends `U00000`, `U00001` and so on. -/
def TemporaryEnd.numbered (n : Nat) : TemporaryEnd where
  chars := 'U' :: [10000, 1000, 100, 10, 1].map fun k ↦ Nat.digitChar (n / k % 10)
  length_eq := rfl
  isAlphanum := by
    have digit (k : Nat) : (Nat.digitChar (k % 10)).isAlphanum :=
      (by decide : ∀ d < 10, (Nat.digitChar d).isAlphanum) _ (Nat.mod_lt _ (by decide))
    simp only [List.all_cons, List.map_cons, List.map_nil, List.all_nil, digit, Bool.and_true]
    decide

/-- A file tree as one process sees it. -/
structure Host where
  /-- The entries. -/
  tree : Tree
  /-- The identity of the current directory. -/
  cwd : Nat
  /-- The directory for temporary files. -/
  tempDir : Path
  /-- The ends of the names that are tried, one after the other, for a temporary directory among
  these entries.  They are random, so nothing is assumed of them. -/
  draw : Tree → Nat → TemporaryEnd := fun _ ↦ .numbered

namespace Host

/-! ## Looking -/

/-- The location of the current directory, unless that has been removed. -/
def here? (h : Host) : Option Location := h.tree.directory? h.cwd

/-- The place of a path, behind any link at its end. -/
def locate (h : Host) (p : Path) : Except IoError Place := h.tree.locate h.here? ⟨true, false⟩ p

/-- The place of a path, at a link at its end. -/
def locateLink (h : Host) (p : Path) : Except IoError Place :=
  h.tree.locate h.here? ⟨false, false⟩ p

/-- The place of the name that a path ends in, whatever slashes follow it. -/
def locateName (h : Host) (p : Path) : Except IoError Place := h.locateLink p.trimSlashes

/-- The entry that a path leads to, with its location. -/
def entry (h : Host) (p : Path) : Except IoError (Location × Node) := do
  match ← h.locate p with
  | .entry l n => .ok (l, n)
  | .vacant _ => .error .notFound

/-- The entry that a path names, which is a link if one stands at its end. -/
def linkEntry (h : Host) (p : Path) : Except IoError (Location × Node) := do
  match ← h.locateLink p with
  | .entry l n => .ok (l, n)
  | .vacant _ => .error .notFound

/-- Whether a path leads to anything. -/
def pathExists (h : Host) (p : Path) : Bool := (h.entry p).isOk

/-- Whether a path leads to a regular file. -/
def isFile (h : Host) (p : Path) : Bool :=
  match h.entry p with
  | .ok (_, .file _) => true
  | _ => false

/-- Whether a path leads to a directory. -/
def isDirectory (h : Host) (p : Path) : Bool :=
  match h.entry p with
  | .ok (_, .directory _) => true
  | _ => false

/-- The location that a path leads to. -/
def canonical? (h : Host) (p : Path) : Option Location :=
  match h.entry p with
  | .ok (l, _) => some l
  | .error _ => none

/-- Whether two paths lead to the same entry. -/
def sameEntry (h : Host) (p q : Path) : Bool :=
  match h.canonical? p, h.canonical? q with
  | some a, some b => a = b
  | _, _ => false

/-- What can be read of the entry at a location, as far as that comes to an end. -/
def contentAt (h : Host) (l : Location) : Bytes :=
  match h.tree.node? l with
  | some (.file f) => f.content
  | _ => []

/-- An entry with its location, if the user may do something with it. -/
def permitted (e : Location × Node) (what : Access) : Except IoError (Location × Node) :=
  if e.2.allows what then .ok e else .error .notPermitted

/-- The content of a file. -/
def read (h : Host) (p : Path) : Except IoError Bytes := do
  match ← permitted (← h.entry p) .read with
  | (_, .directory _) => .error .isADirectory
  | (_, .device .terminal) => .error .noDevice
  | (l, _) => .ok (h.contentAt l)

/-- The location of a directory. -/
def directory (h : Host) (p : Path) : Except IoError Location := do
  match ← h.entry p with
  | (l, .directory _) => .ok l
  | _ => .error .notADirectory

/-- The names in a directory, in ascending order. -/
def list (h : Host) (p : Path) : Except IoError (List Name) := do
  let l ← h.directory p
  if h.tree.allows l .read then return h.tree.names l else .error .notPermitted

/-- The path of the current directory. -/
def currentDir (h : Host) : Except IoError Path :=
  match h.here? with
  | some l => .ok (.ofLocation l)
  | none => .error .notFound

/-! ## Writing files -/

/-- The host with another tree. -/
def withTree (h : Host) (t : Tree) : Host := { h with tree := t }

/-- The tree with a change to what the directory above `l` holds, if the user may make it. -/
def changeAbove (h : Host) (l : Location) (change : Tree → Tree) : Except IoError Host :=
  if h.tree.allows l.dropLast .write then .ok (h.withTree ((change h.tree).noteChange l.dropLast))
  else .error .notPermitted

/-- Opens a path for writing: what is there is emptied, and a free name gets a new file.  The
location comes with the host. -/
def create (h : Host) (p : Path) (mode : Nat) : Except IoError (Location × Host) := do
  match ← h.tree.locate h.here? ⟨true, true⟩ p with
  | .vacant l => return (l, ← h.changeAbove l (·.addFile l [] mode))
  | .entry _ (.directory _) => .error .isADirectory
  | .entry _ (.device .terminal) => .error .noDevice
  | .entry l (.file f) =>
    if f.allows .write then
      .ok (l, h.withTree (h.tree.onFile f.id (·.withContent [] h.tree.now)))
    else .error .notPermitted
  | .entry l _ => .ok (l, h)

/-- The location of an existing entry that is opened for appending. -/
def appendTarget (h : Host) (p : Path) : Except IoError Location := do
  match ← h.entry p with
  | (_, .directory _) => .error .isADirectory
  | (_, .device .terminal) => .error .noDevice
  | (l, n) => if n.allows .write then .ok l else .error .notPermitted

/-- Adds to the end of the entry at a location. -/
def append (h : Host) (l : Location) (content : Bytes) : Except IoError Host :=
  match h.tree.node? l with
  | some (.file f) =>
    .ok (h.withTree (h.tree.onFile f.id fun f ↦
      if content = [] then f else f.withContent (f.content ++ content) h.tree.now))
  | some (.device .full) => if content = [] then .ok h else .error .noSpace
  | some (.descriptor k written) =>
    .ok (h.withTree (h.tree.set l (.descriptor k (written ++ content))))
  | _ => .ok h

/-- Writes a file, which is created or replaced. -/
def write (h : Host) (p : Path) (content : Bytes) : Except IoError Host := do
  let (l, h) ← h.create p fileMode
  h.append l content

/-- Gives the file or the directory at a location other attributes. -/
def reattribute (h : Host) (l : Location) (change : Attributes → Attributes) : Host :=
  match h.tree.node? l with
  | some (.file f) => h.withTree (h.tree.onFile f.id fun f ↦
      { f with toAttributes := change f.toAttributes })
  | some _ => h.withTree (h.tree.adjust l (·.withAttributes change))
  | none => h

/-- Gives the file at a location other permissions. -/
def permit (h : Host) (l : Location) (mode : Nat) : Host := h.reattribute l ({ · with mode })

/-- Gives the entry at a location other times, that of its last change and that of its last use, of
which each is left as it is if it is missing. -/
def setTimes (h : Host) (l : Location) (modified accessed : Option Moment) : Host :=
  match h.tree.node? l with
  | some (.link _) => h.withTree (h.tree.adjust l fun
      | .link k => .link { k with modified := modified.getD k.modified }
      | n => n)
  | _ => h.reattribute l fun a ↦
    { a with modified := modified.getD a.modified, accessed := accessed.getD a.accessed }

/-- Why something other than a file is not copied. -/
def notARegularFile : IoError :=
  .refused "the source path is neither a regular file nor a symlink to a regular file"

/-- The file that is copied from a path, with its location. -/
def copySource (h : Host) (p : Path) : Except IoError (Location × File) := do
  match ← permitted (← h.entry p) .read with
  | (l, .file f) => .ok (l, f)
  | (_, .device .terminal) => .error .noDevice
  | _ => .error notARegularFile

/-- Whether what stands at a location belongs to the user, as far as it belongs to anybody. -/
def isOwn (h : Host) (l : Location) : Bool :=
  (h.tree.node? l).all fun n ↦ n.attributes?.all (!·.isForeign)

/-- Gives the permissions of a copied file to what has been opened at a location, and then its
content.  Only who owns a file may change its permissions. -/
def fill (h : Host) (l : Location) (mode : Nat) (content : Bytes) : Except IoError Host :=
  if h.isOwn l then (h.permit l mode).append l content else .error .notAllowed

/-- Copies a file and its permissions, and tells whether that succeeded.  The destination is emptied
when it is opened, so a file copied onto itself is lost, and one that cannot be filled stays empty. -/
def copy (h : Host) (source dest : Path) : Except IoError Unit × Host :=
  match h.copySource source with
  | .error cause => (.error cause, h)
  | .ok (l, f) =>
    match h.create dest f.mode with
    | .error cause => (.error cause, h)
    | .ok (k, opened) =>
      match opened.fill k f.mode (opened.contentAt l) with
      | .error cause => (.error cause, opened)
      | .ok filled => (.ok (), filled)

/-- Puts the permission to run on a file, if the path leads to one. -/
def permitRunning (h : Host) (p : Path) : Host :=
  match h.entry p with
  | .ok (l, .file _) => h.permit l programMode
  | _ => h

/-! ## Making entries -/

/-- Makes a directory at a free name. -/
def makeDirectory (h : Host) (p : Path) (mode : Nat) : Except IoError Host := do
  match ← h.locateName p with
  | .vacant l => h.changeAbove l (·.addDirectory l mode)
  | .entry .. => .error .alreadyExists

/-- The location of a free name for something that is no directory. -/
def freeName (h : Host) (p : Path) : Except IoError Location := do
  match ← h.locateName p with
  | .vacant l => if p.endsInSlash then .error .notFound else .ok l
  | .entry .. => .error .alreadyExists

/-- Gives something that is no directory a free name. -/
def place (h : Host) (p : Path) (put : Location → Tree → Tree) : Except IoError Host := do
  let l ← h.freeName p
  h.changeAbove l (put l)

/-- Makes a symbolic link at a free name. -/
def makeLink (h : Host) (p target : Path) : Except IoError Host := do
  if 0 ∈ target.raw then .error Tree.zeroByteInPath
  else if target.raw = [] then .error .notFound
  else if pathLimit ≤ target.raw.length then .error .nameTooLong
  else h.place p fun l t ↦ t.addLink l target

/-- Gives a file another name. -/
def addName (h : Host) (source p : Path) : Except IoError Host := do
  match ← h.locateLink source with
  | .vacant _ => .error .notFound
  | .entry _ (.directory _) =>
    let _ ← h.freeName p
    .error .notAllowed
  | .entry _ n => h.place p fun l t ↦ t.set l n

/-- Makes a directory and every directory above it that is not there.  What was made stays also
where the next one cannot be made; each step goes to a shorter path. -/
def makeDirectoriesWithin (h : Host) : Nat → Path → Except IoError Unit × Host
  | 0, _ => (.error .notFound, h)
  | n + 1, p =>
    let made := fun (h : Host) (otherwise : IoError → Except IoError Unit × Host) ↦
      match h.makeDirectory p programMode with
      | .ok h => (.ok (), h)
      | .error e => if e ≠ .notFound && h.isDirectory p then (.ok (), h) else otherwise e
    if p.raw = [] then (.ok (), h)
    else made h fun e ↦
      if e ≠ .notFound then (.error e, h)
      else match p.parent? with
        | none => (.error e, h)
        | some above =>
          match makeDirectoriesWithin h n above with
          | (.error e, h) => (.error e, h)
          | (.ok (), h) => made h fun e ↦ (.error e, h)

/-- Makes a directory and every directory above it that is not there, as far as possible. -/
def makeDirectories (h : Host) (p : Path) : Host :=
  (h.makeDirectoriesWithin (p.raw.length + 1) p).2

/-! ## Removing and moving entries -/

/-- Removes a name of a file or a link. -/
def unlink (h : Host) (p : Path) : Except IoError Host := do
  match ← h.locateName p with
  | .vacant _ => .error .notFound
  | .entry l (.directory _) =>
    if h.tree.allows l.dropLast .write then .error .isADirectory else .error .notPermitted
  | .entry l _ =>
    if p.endsInSlash then .error .notADirectory else h.changeAbove l (·.erase l)

/-- Removes an empty directory. -/
def removeEmpty (h : Host) (p : Path) : Except IoError Host := do
  match p.lastStep?, ← h.locateName p with
  | _, .vacant _ => .error .notFound
  | some .stay, .entry .. => .error .invalid
  | some .up, .entry .. => .error .notEmpty
  | none, .entry .. => .error .busy
  | some (.enter _), .entry l n =>
    if !h.tree.allows l.dropLast .write then .error .notPermitted
    else match n with
      | .directory _ =>
        if h.tree.names l = [] then h.changeAbove l (·.erase l) else .error .notEmpty
      | _ => .error .notADirectory

/-- Removes a file or a link, if the path names one. -/
def removeFile (h : Host) (p : Path) : Host :=
  match h.unlink p with
  | .ok h => h
  | .error _ => h

/-- Whether the directory at `l` can be emptied.  It is read in any case, and changed if it holds
anything. -/
def isOpenDirectory (t : Tree) (l : Location) : Bool :=
  t.allows l .read && (t.names l = [] || t.allows l .write && t.allows l .run)

/-- The tree without what can be removed below `l`: what lies in a directory that cannot be emptied
stays, and so do the directories above it. -/
def emptied (t : Tree) (l : Location) : Tree :=
  let blocked := (t.entries.filter fun e ↦ match e.2 with
    | .directory _ => l <+: e.1 && !isOpenDirectory t e.1
    | _ => false).map (·.1)
  if blocked = [] then t.eraseInside l
  else { t with
    entries := t.entries.filter fun e ↦
      !Tree.isBelow l e.1 || blocked.any fun k ↦ e.1 <+: k || k <+: e.1 }

/-- Removes a directory with all it holds, or a link, if the path names one.  Links in the
directory are removed and not followed; a directory that can be read but not removed is left
empty. -/
def removeDirectory (h : Host) (p : Path) : Host :=
  match h.locateLink p with
  | .ok (.entry l (.directory _)) =>
    if !h.tree.allows l .read then h
    else
      let h := h.withTree (emptied h.tree l)
      match h.removeEmpty p with
      | .ok h => h
      | .error _ => h
  | .ok (.entry _ (.link _)) => h.removeFile p
  | _ => h

/-- Whether an entry of one kind may take the place of another. -/
def replaceable (h : Host) (l : Location) (n : Node) : Node → Except IoError Unit
  | .directory _ =>
    match n with
    | .directory _ => if h.tree.names l = [] then .ok () else .error .notEmpty
    | _ => .error .isADirectory
  | _ =>
    match n with
    | .directory _ => .error .notADirectory
    | _ => .ok ()

/-- Whether two nodes are one file. -/
def sameFile : Node → Node → Bool
  | .file a, .file b => a.id = b.id
  | _, _ => false

/-- Whether a path ends in a name that can be given to another entry. -/
def endsInName (p : Path) : Bool :=
  match p.lastStep? with
  | some (.enter _) => true
  | _ => false

/-- Moves an entry to another name, in the place of what has it. -/
def rename (h : Host) (source dest : Path) : Except IoError Host := do
  match ← h.locateName source, ← h.locateName dest with
  | .vacant _, _ => .error .notFound
  | .entry l n, target =>
    if !endsInName source || !endsInName dest then .error .busy
    else
      let isDirectory := match n with
        | .directory _ => true
        | _ => false
      if !isDirectory && (source.endsInSlash || dest.endsInSlash) then .error .notADirectory
      else
        let changed := fun (k : Location) (t : Tree) ↦
          (h.withTree (t.noteChange l.dropLast)).changeAbove k (·.move l k)
        if !h.tree.allows l.dropLast .write then .error .notPermitted
        else match target with
          | .vacant k =>
            if isDirectory && Tree.isBelow l k then .error .invalid else changed k h.tree
          | .entry k m =>
            if k = l || sameFile n m then .ok h
            else if isDirectory && Tree.isBelow l k then .error .invalid
            else do
              replaceable h k n m
              changed k (h.tree.erase k)

/-! ## Temporary directories -/

/-- The absolute path of the directory for temporary files. -/
def temporaryRoot (h : Host) : Except IoError Path :=
  if h.tempDir.isAbsolute then .ok h.tempDir
  else h.currentDir.map (·.join h.tempDir)

/-- The path of a temporary directory whose name ends so. -/
def temporary (root : Path) (stem : String) (rest : TemporaryEnd) : Path :=
  root.join (.ofString (stem ++ String.ofList rest.chars))

/-- How many names are tried for a temporary directory. -/
def temporaryTrials : Nat := 65536

/-- Why no more names are tried. -/
def tooManyTemporaryFiles : IoError := .refused "too many temporary files exist"

/-- Makes a directory for temporary files with the first name from number `n` on that is not in use,
or fails where `left` names have been. -/
def makeTemporaryFrom (h : Host) (root : Path) (stem : String) :
    (left n : Nat) → Except IoError (Path × Host)
  | 0, _ => .error (.creating tooManyTemporaryFiles root)
  | left + 1, n =>
    let p := temporary root stem (h.draw h.tree n)
    match h.makeDirectory p programMode with
    | .ok h' => .ok (p, h')
    | .error cause =>
      if cause = .alreadyExists then h.makeTemporaryFrom root stem left (n + 1)
      else .error (.creating cause p)

/-- Makes a directory for temporary files whose name starts with `stem` and is not in use. -/
def makeTemporary (h : Host) (stem : String) : Except IoError (Path × Host) := do
  h.makeTemporaryFrom (← h.temporaryRoot) stem temporaryTrials 0

end Host

end ContractBuild
