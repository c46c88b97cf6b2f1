import ContractBuild.Posix.Shell.Condition
import ContractBuild.Posix.Utility.Link

/-!
# Copying and moving

Files and directories are copied to another place or moved there.  What stands there is replaced
if it is of the same kind.
-/

namespace ContractBuild.Utility

/-! ## What is replaced -/

/-- Which files are replaced. -/
inductive Replacing
  /-- All of them. -/
  | always
  /-- Those for which that is confirmed. -/
  | confirmed
  /-- None of them. -/
  | never
  deriving DecidableEq

/-- Which files are replaced by the last of some letters. -/
def Replacing.ofLetter (letter : Option Char) : Replacing :=
  match letter with
  | some 'i' => .confirmed
  | some 'n' => .never
  | _ => .always

/-- Whether a file stays as it is. -/
def Replacing.declines (r : Replacing) (name dest : Chars) : Routine Bool :=
  if r = .never then pure true
  else isRefused (r = .confirmed) (name ++ ": overwrite ".toList ++ quoted dest ++ "? ".toList)

/-- The arrow between two names, with the name under which something is kept. -/
def arrow (source dest : Chars) (kept : Option Chars) : Chars :=
  quoted source ++ " -> ".toList ++ quoted dest ++ match kept with
    | some path => " (backup: ".toList ++ quoted path ++ [')']
    | none => []

/-- The complaint about two names of the same file. -/
def sameFile (source dest : Chars) : Chars :=
  quoted source ++ " and ".toList ++ quoted dest ++ " are the same file".toList

/-- Gives what a path leads to other permissions. -/
def permitAt (path : Chars) (mode : Nat) : Routine Unit := do
  let _ ← Routine.change fun h ↦ do
    let (l, _) ← h.entry (Chars.toPath path)
    return h.permit l mode

/-- Gives what stands at a path the times of another entry. -/
def retimeAt (path : Chars) (n : Node) : Routine Unit := do
  let _ ← Routine.change fun h ↦ do
    let (l, _) ← h.linkEntry (Chars.toPath path)
    return h.setTimes l (some n.modified) (some n.accessed)

/-- Whether an entry is a directory. -/
def isDirectoryNode : Node → Bool
  | .directory _ => true
  | _ => false

/-- Whether an entry is a symbolic link. -/
def isLinkNode : Node → Bool
  | .link _ => true
  | _ => false

/-- Whether a call may not both keep what is replaced and replace nothing. -/
def refuseSparing (name : Chars) (replacing : Replacing) (backup : Option Backup) : Routine Unit :=
  if replacing = .never && backup.isSome then
    refuse name 1 "options --backup and --no-clobber are mutually exclusive".toList
  else pure ()

/-! ## Copying -/

/-- What a copy is. -/
inductive CopyKind
  /-- A file with the same content. -/
  | content
  /-- An empty file. -/
  | bare
  /-- A further name. -/
  | name
  /-- A symbolic link. -/
  | pointer
  deriving DecidableEq

/-- How entries are copied. -/
structure Copying where
  /-- The name of the program. -/
  name : Chars
  /-- What a copy of a file is. -/
  kind : CopyKind
  /-- Directories are copied with all that they hold. -/
  isDeep : Bool
  /-- Links among the operands are followed. -/
  followsOperands : Bool
  /-- Links within directories are followed. -/
  followsInside : Bool
  /-- A destination that cannot be written is removed. -/
  isForced : Bool
  /-- Which files are replaced. -/
  replacing : Replacing
  /-- Only older files are replaced. -/
  updates : Bool
  /-- How what is replaced is kept, if it is. -/
  backup : Option Backup
  /-- Permissions are kept. -/
  keepsMode : Bool
  /-- Times are kept. -/
  keepsTimes : Bool
  /-- What are names of one file stays so. -/
  keepsNames : Bool
  /-- Destinations are removed first. -/
  removes : Bool
  /-- Every copy is said. -/
  isVerbose : Bool
  /-- Directories are left out without a hint. -/
  isInstalling : Bool

/-- How far copying has come. -/
structure Copied where
  /-- The status. -/
  status : Nat
  /-- Whether a directory would have been copied into itself. -/
  isStopped : Bool
  /-- The files that have been copied and have more than one name, each with the first copy. -/
  files : List (Nat × Chars)

namespace Copied

/-- Nothing has been copied. -/
def start : Copied := ⟨0, false, []⟩

/-- Something went wrong. -/
def failed (s : Copied) : Copied := { s with status := 1 }

/-- One more copy had a status. -/
def with' (s : Copied) (status : Nat) : Copied := { s with status := max s.status status }

end Copied

namespace Copying

/-- Opens the destination of a copy; nothing if it has been said why that is not possible. -/
def openDest (k : Copying) (isNew : Bool) (dest : Chars) (mode : Nat) : Routine (Option Nat) := do
  let p := Chars.toPath dest
  let opening := if k.kind = .bare then forTouching else .forWriting
  let create := Routine.openPath p (if isNew then .forNew else opening) (mode &&& openMode)
  let opened ← match isNew, ← create with
    | false, .error _ =>
      if k.isForced then do
        match ← Routine.change (·.unlink p) with
        | .ok () => do
          report k.name k.isVerbose ("removed ".toList ++ quoted dest)
          Routine.openPath p .forNew (mode &&& openMode)
        | .error _ => Routine.openPath p opening (mode &&& openMode)
      else Routine.openPath p opening (mode &&& openMode)
    | _, opened => pure opened
  match opened with
  | .ok n => return some n
  | .error .alreadyExists =>
    warn k.name ("not writing through dangling symlink ".toList ++ quoted dest)
    return none
  | .error e =>
    let e := if e = .isADirectory && dest.getLast? = some '/' then .notADirectory else e
    warn k.name (because ("cannot create regular file ".toList ++ quoted dest) e)
    return none

/-- Copies the content of a file. -/
def content (k : Copying) (isNew : Bool) (source dest : Chars) (n : Node) : Routine Nat := do
  match ← Routine.openPath (Chars.toPath source) .forReading 0 with
  | .error e =>
    warn k.name (because ("cannot open ".toList ++ quoted source ++ " for reading".toList) e)
    return 1
  | .ok input =>
    let some output ← k.openDest isNew dest (modeOf n)
      | do
        Routine.close input
        return 1
    let (status, failure) ← (if k.kind = .bare then pure (0, none)
      else foldBlocks input 0 fun _ bs ↦ do
        match ← Routine.write output bs with
        | .ok () => return .inl 0
        | .error e =>
          warn k.name (because ("error writing ".toList ++ quoted dest) e)
          return .inr 1)
    Routine.close input
    Routine.close output
    if let some e := failure then
      warn k.name (because ("error reading ".toList ++ quoted source) e)
      return 1
    if k.keepsTimes then retimeAt dest n
    if k.keepsMode then permitAt dest (modeOf n)
    return status

/-- Makes a symbolic link as a copy. -/
def pointer (k : Copying) (target dest : Chars) : Routine Nat := do
  let make := Routine.change (·.makeLink (Chars.toPath dest) (Chars.toPath target))
  let made ← match ← make with
    | .error .alreadyExists =>
      if k.isForced then do
        let _ ← Routine.change (·.unlink (Chars.toPath dest))
        make
      else make
    | made => pure made
  match made with
  | .ok () => return 0
  | .error e =>
    let complaint := "cannot create symbolic link ".toList ++ quoted dest
    warn k.name (because (if k.kind = .pointer then complaint ++ " to ".toList ++ quoted target
      else complaint) e)
    return 1

/-- Makes a further name as a copy. -/
def furtherName (k : Copying) (follows : Bool) (source dest : Chars) : Routine Nat := do
  let p := Chars.toPath dest
  if k.isForced || k.replacing = .confirmed then
    let _ ← Routine.change (·.unlink p)
  attempt k.name ("cannot create hard link ".toList ++ quoted dest ++ " to ".toList ++
    quoted source) fun h ↦ do
      let path := Chars.toPath source
      let (l, _) ← if follows then h.entry path else h.linkEntry path
      h.addName (.ofLocation l) p

/-- Copies something that is no directory to a free name or into a file. -/
def plain (k : Copying) (follows isNew : Bool) (source dest : Chars) (n : Node) : Routine Nat := do
  match n, k.kind with
  | _, .pointer =>
    if source.head? ≠ some '/' && directoryPart dest ≠ ['.'] then
      warn k.name (shown dest ++
        ": can make relative symbolic links only in current directory".toList)
      return 1
    k.pointer source dest
  | _, .name => k.furtherName follows source dest
  | .link l, _ =>
    let status ← k.pointer (Chars.ofPath l.target) dest
    if k.keepsTimes && status = 0 then retimeAt dest n
    return status
  | n, _ => k.content isNew source dest n

/-- Whether two entries may not be source and destination: what is at the source, which may be
behind links, and what is at the destination with and without following links. -/
def isRefusedPair (k : Copying) (h : Host) (source : Chars) (found : Location × Node)
    (dest : Chars) : Bool :=
  let there := h.entry (Chars.toPath dest)
  let named := h.linkEntry (Chars.toPath dest)
  let isSameName := match h.linkEntry (Chars.toPath source), named with
    | .ok (l, _), .ok (m, _) => l = m
    | _, _ => false
  if isLinkNode found.2 then
    match named with
    | .ok (_, .link _) => isSameName
    | _ => isSame (h.entry (Chars.toPath source)) named
  else if !isSame (.ok found) there then false
  else if k.backup.isSome then
    match h.linkEntry (Chars.toPath source), named with
    | .ok (_, .link _), .ok (_, .file _) => true
    | _, _ => isSameName
  else if k.removes then isSameName
  else match k.kind, named with
    | .pointer, .ok (_, .link _) => false
    | _, _ => true

/-- What has come of looking at a destination. -/
inductive Target
  /-- The copy can be made: whether the destination is free, and the path under which what stood
  there is kept. -/
  | ready (isNew : Bool) (kept : Option Chars)
  /-- The copy is not made, which has this status. -/
  | settled (status : Nat)

/-- What stands in the way of a copy of something that is no directory is dealt with. -/
def clear (k : Copying) (source dest : Chars) (found : Location × Node) (wasMade : Bool) :
    Routine Target := do
  let p := Chars.toPath dest
  let isLink := isLinkNode found.2
  let isExact := isLink || k.kind = .name || k.kind = .pointer || k.backup.isSome || k.removes
  match ← Routine.look fun h ↦ if isExact then h.linkEntry p else h.entry p with
  | .error .notFound => return .ready true none
  | .error e =>
    if e = .tooManyLinks && k.isForced then return .ready false none
    warn k.name (because ("cannot stat ".toList ++ quoted dest) e)
    return .settled 1
  | .ok there =>
    if k.kind = .name && isSame (.ok found) (.ok there) then return .settled 0
    if ← Routine.look (k.isRefusedPair · source found dest) then
      warn k.name (sameFile source dest)
      return .settled 1
    if k.updates && !(← Routine.look (Shell.Condition.isNewer · (Chars.toPath source) p)) then
      return .settled 0
    if ← k.replacing.declines k.name dest then return .settled 0
    if wasMade && (k.backup.map (·.style)) ≠ some .numbered && !isDirectoryNode there.2 then
      warn k.name ("will not overwrite just-created ".toList ++ quoted dest ++ " with ".toList ++
        quoted source)
      return .settled 1
    if isDirectoryNode there.2 then
      warn k.name ("cannot overwrite directory ".toList ++ quoted dest ++
        " with non-directory".toList)
      return .settled 1
    match k.backup with
    | some b =>
      match ← b.keep dest with
      | .ok kept => return .ready true (some kept)
      | .error e =>
        warn k.name (because ("cannot backup ".toList ++ quoted dest) e)
        return .settled 1
    | none =>
      if k.removes || (isLink && !k.followsOperands && k.kind ≠ .name) then
        match ← Routine.change (·.unlink p) with
        | .ok () => do
          report k.name k.isVerbose ("removed ".toList ++ quoted dest)
          return .ready true none
        | .error e => do
          warn k.name (because ("cannot remove ".toList ++ quoted dest) e)
          return .settled 1
      return .ready false none

/-- The files of which the names stay together. -/
def sharedFile? (k : Copying) (h : Host) (found : Location × Node) : Option Nat :=
  match k.keepsNames && k.kind = .content, found with
  | true, (l, .file f) => if 1 < EntryFacts.namesOf h.tree l (.file f) then some f.id else none
  | _, _ => none

/-- Copies something that is no directory. -/
def file (k : Copying) (follows wasMade : Bool) (source dest : Chars) (found : Location × Node)
    (s : Copied) : Routine Copied := do
  match ← k.clear source dest found wasMade with
  | .settled status => return s.with' status
  | .ready isNew kept =>
    report k.name k.isVerbose (arrow source dest kept)
    match ← Routine.look (k.sharedFile? · found) with
    | none => return s.with' (← k.plain follows isNew source dest found.2)
    | some id =>
      match s.files.lookup id with
      | some earlier =>
        if !isNew then
          let _ ← Routine.change (·.unlink (Chars.toPath dest))
        return s.with' (← attempt k.name ("cannot create hard link ".toList ++ quoted dest ++
          " to ".toList ++ quoted earlier) (·.addName (Chars.toPath earlier) (Chars.toPath dest)))
      | none =>
        let status ← k.plain follows isNew source dest found.2
        return { s with status := max s.status status, files := (id, dest) :: s.files }

/-- Makes the directory that is the copy of another one, unless it is there: its location and
whether it is new.  Nothing if it has been said why that is not possible. -/
def makeCopy (k : Copying) (source dest : Chars) (d : Directory) :
    Routine (Option (Location × Bool)) := do
  let target := Chars.toPath dest
  match ← Routine.look fun h ↦ (h.linkEntry target, h.canonical? target) with
  | (.ok (m, .directory _), _) => return some (m, false)
  | (.ok (_, .link _), some m) =>
    if dest.getLast? = some '/' then return some (m, false)
    warn k.name ("cannot overwrite non-directory ".toList ++ quoted dest ++
      " with directory ".toList ++ quoted source)
    return none
  | (.ok _, _) =>
    warn k.name ("cannot overwrite non-directory ".toList ++ quoted dest ++
      " with directory ".toList ++ quoted source)
    return none
  | (.error .notFound, _) =>
    let mask := (← Routine.self).mask
    let mode := PermissionChange.without (d.mode &&& openMode) mask
    match ← Routine.change (·.makeDirectory target (mode ||| 0o700)) with
    | .error e =>
      warn k.name (because ("cannot create directory ".toList ++ quoted dest) e)
      return none
    | .ok () =>
      report k.name k.isVerbose (arrow source dest none)
      return (← Routine.look (·.canonical? target)).map (·, true)
  | (.error e, _) =>
    warn k.name (because ("cannot stat ".toList ++ quoted dest) e)
    return none

/-- The permissions and times of a directory once all is copied that it holds. -/
def finishDirectory (k : Copying) (isNew : Bool) (dest : Chars) (d : Directory) :
    Routine Unit := do
  let mask := (← Routine.self).mask
  if k.keepsMode then permitAt dest d.mode
  else if isNew then permitAt dest (PermissionChange.without (d.mode &&& openMode) mask)
  if k.keepsTimes then retimeAt dest (.directory d)

/-- Copies what stands at a source; every step goes one directory down.  The directory at the
location `root` is the first one made; it is not copied into itself. -/
def entry (k : Copying) (top : Chars × Chars) (root : Location) (wasMade : Bool) :
    Nat → Bool → Chars → Chars → Copied → Routine Copied
  | 0, _, _, _, s => return s.failed
  | n + 1, isOperand, source, dest, s => do
    let p := Chars.toPath source
    let follows := if isOperand then k.followsOperands else k.followsInside
    match ← Routine.look fun h ↦ if follows then h.entry p else h.linkEntry p with
    | .error e =>
      warn k.name (because ("cannot stat ".toList ++ quoted source) e)
      return s.failed
    | .ok (l, .directory d) =>
      if !k.isDeep then
        warn k.name ((if k.isInstalling then "" else "-r not specified; ").toList ++
          "omitting directory ".toList ++ quoted source)
        return s.failed
      if !isOperand && l = root then
        warn k.name ("cannot copy a directory, ".toList ++ quoted top.1 ++
          ", into itself, ".toList ++ quoted top.2)
        return { s.failed with isStopped := true }
      match ← k.makeCopy source dest d with
      | none => return s.failed
      | some (m, isNew) =>
        let root := if isOperand then (if isNew || l.isPrefixOf m then m else [[]]) else root
        let (isReadable, inner) ← Routine.look fun h ↦
          (h.tree.allows l .read, h.tree.namesByAge l)
        let s ← (if isReadable then inner.foldlM (fun s b ↦
            if s.isStopped then pure s
            else k.entry top root wasMade n false (inDirectory source (Chars.ofBytes b))
              (inDirectory dest (Chars.ofBytes b)) s) s
          else do
            warn k.name (because ("cannot access ".toList ++ quoted source) .notPermitted)
            return s.failed)
        k.finishDirectory isNew dest d
        return s
    | .ok found => k.file follows (isOperand && wasMade) source dest found s

/-- How deep directories can be copied. -/
def depth : Nat := 2000

/-- Copies every source to its destination.  A source that comes twice, and a destination that has
been made just before, are left out. -/
def all (k : Copying) (isInside : Bool) :
    List (Chars × Chars) → List (Chars × Chars) → Copied → Routine Copied
  | _, [], s => return s
  | done, (source, dest) :: rest, s => do
    let isFile ← Routine.look fun h ↦ !h.isDirectory (Chars.toPath source) ||
      (!k.followsOperands && match h.linkEntry (Chars.toPath source) with
        | .ok (_, .link _) => true
        | _ => false)
    if isInside && k.backup.isNone && isFile && done.any (·.1 = source) then
      warn k.name ("warning: source file ".toList ++ quoted source ++
        " specified more than once".toList)
      k.all isInside done rest s
    else
      let wasMade := isInside && done.any (·.2 = dest)
      let t ← k.entry (source, dest) [[]] wasMade depth true source dest
        { s with isStopped := false }
      k.all isInside ((source, dest) :: done) rest t

end Copying

/-- A path without slashes at its end if that is asked for. -/
def strippedIf (isStripped : Bool) (path : Chars) : Chars :=
  if isStripped then withoutSlashes path else path

/-- Makes the directories above a path, which are copies of those above a source. -/
def copyAbove (name dir : Chars) (isVerbose : Bool) : List Chars → Routine Bool
  | [] => return true
  | source :: sources => do
    let dest := inDirectory dir (source.dropWhile (· = '/'))
    match ← Routine.look fun h ↦ (h.entry (Chars.toPath source), h.entry (Chars.toPath dest)) with
    | (.error e, _) =>
      warn name (because ("failed to get attributes of ".toList ++ quoted source) e)
      return false
    | (_, .ok (_, .directory _)) => copyAbove name dir isVerbose sources
    | (_, .ok _) =>
      warn name (quoted dest ++ " exists but is not a directory".toList)
      return false
    | (.ok (_, n), .error _) =>
      match ← Routine.change (·.makeDirectory (Chars.toPath dest) (modeOf n)) with
      | .ok () =>
        if isVerbose then emit name (Chars.line (source ++ " -> ".toList ++ dest))
        copyAbove name dir isVerbose sources
      | .error e =>
        warn name (because ("cannot make directory ".toList ++ quoted dest) e)
        return false

/-- Copies sources with all their names into a directory. -/
def copyWithParents (k : Copying) (dir : Chars) (sources : List Chars) : Routine Nat := do
  if !(← Routine.look (·.isDirectory (Chars.toPath dir))) then
    refuse k.name 1 "with --parents, the destination must be a directory".toList
  forStatus (fun s ↦ do
    let source := withoutSlashes s
    if !(← copyAbove k.name dir k.isVerbose (above source)) then return 1
    let dest := inDirectory dir (source.dropWhile (· = '/'))
    return (← k.all true [] [(s, dest)] .start).status) sources

/-- The attributes that can be kept. -/
def attributeWords : List (List String) :=
  [["mode"], ["timestamps"], ["ownership"], ["links"], ["context"], ["xattr"], ["all"]]

/-- The words of the attributes that a list names. -/
def attributesOf (name : Chars) (option : String) (list : Chars) : Routine (List String) :=
  (Chars.splitOn (· = ',') list).mapM (readWord name 1 option attributeWords)

/-- Whether an attribute is kept, where later options count more than earlier ones. -/
def isKept (c : Call) (words : List (Char × List String)) (wanted : String)
    (letters : Chars) : Bool :=
  let said := c.flags.zipIdx.filterMap fun ((letter, _), k) ↦
    let named := match words[k]? with
      | some (_, ws) => ws.contains wanted || ws.contains "all"
      | none => false
    if letters.contains letter || (letter = '\x04' && named) then some true
    else if letter = '\x05' && named then some false else none
  said.getLast?.getD false

/-- The options of copying. -/
def copyFlags : List Flag :=
  transferFlags ++ plainFlags [('a', "archive"), ('d', ""), ('H', ""), ('l', "link"),
    ('L', "dereference"), ('n', "no-clobber"), ('P', "no-dereference"), ('p', ""),
    ('r', "recursive"), ('R', ""), ('s', "symbolic-link"), ('u', "update"),
    ('x', "one-file-system"), ('Z', ""), ('\x01', "remove-destination"), ('\x02', "parents"),
    ('\x03', "strip-trailing-slashes"), ('\x08', "attributes-only"), ('\x09', "copy-contents")] ++
    [⟨'\x04', "preserve", .optional⟩, ⟨'\x05', "no-preserve", .required⟩,
      ⟨'\x06', "sparse", .required⟩, ⟨'\x07', "reflink", .optional⟩,
      ⟨'\x0c', "context", .optional⟩]

/-- The copying that a call asks for. -/
def copyingOf (name : Chars) (c : Call) (env : List Chars) : Routine Copying := do
  let isDeep := c.has 'r' || c.has 'R' || c.has 'a'
  let words ← c.flags.mapM fun (letter, w) ↦
    if letter = '\x04' then
      if w = [] then pure (letter, ["mode", "ownership", "timestamps"])
      else (letter, ·) <$> attributesOf name "--preserve" w
    else if letter = '\x05' then (letter, ·) <$> attributesOf name "--no-preserve" w
    else pure (letter, [])
  let following := c.lastOf? ['a', 'd', 'H', 'L', 'P']
  let replacing := Replacing.ofLetter (c.lastOf? ['n', 'i'])
  let backup ← Backup.ofCall name c env
  refuseSparing name replacing backup
  if c.has 'l' && c.has 's' then
    refuse name 1 "cannot make both hard and symbolic links".toList
  return {
    name, isDeep, replacing, backup
    kind := if c.has 'l' then .name else if c.has 's' then .pointer
      else if c.has '\x08' then .bare else .content
    followsOperands := match following with
      | some 'L' | some 'H' => true
      | none => !isDeep && !c.has 'l'
      | some _ => false
    followsInside := following = some 'L'
    isForced := c.has 'f'
    updates := c.has 'u'
    keepsMode := isKept c words "mode" ['p', 'a']
    keepsTimes := isKept c words "timestamps" ['p', 'a']
    keepsNames := isKept c words "links" ['d', 'a']
    removes := c.has '\x01'
    isVerbose := c.has 'v'
    isInstalling := false }

/-- Copies files and directories. -/
def cp : Program := fun args env ↦ do
  let name := args.headD []
  let c ← readCall name 1 copyFlags true args.tail
  let k ← copyingOf name c env
  match c.has '\x02', c.value? 't', c.operands with
  | true, some dir, sources@(_ :: _) => copyWithParents k dir sources
  | true, none, sources@(_ :: _ :: _) =>
    copyWithParents k (sources.getLast?.getD []) sources.dropLast
  | _, _, _ =>
    let t ← transferOf name c false
    match k.backup, t.pairs with
    | some b, [(source, dest)] =>
      if k.isForced && !t.isInside && source = dest &&
          (← Routine.look (·.isFile (Chars.toPath dest))) then
        let dest ← Routine.look (b.pathFor · dest)
        return (← { k with backup := none }.all false [] [(source, dest)] .start).status
      return (← k.all false [] t.pairs .start).status
    | _, pairs =>
      let pairs := pairs.map fun p ↦ (strippedIf (t.isInside && c.has '\x03') p.1, p.2)
      return (← k.all t.isInside [] pairs .start).status

/-! ## Moving -/

/-- How entries are moved. -/
structure Moving where
  /-- The name of the program. -/
  name : Chars
  /-- Which files are replaced. -/
  replacing : Replacing
  /-- Only older files are replaced. -/
  updates : Bool
  /-- How what is replaced is kept, if it is. -/
  backup : Option Backup
  /-- Every move is said. -/
  isVerbose : Bool

/-- Moves an entry to another name. -/
def Moving.rename (k : Moving) (source dest : Chars) (kept : Option Chars) : Routine Nat := do
  match ← Routine.change (·.rename (Chars.toPath source) (Chars.toPath dest)) with
  | .ok () =>
    report k.name k.isVerbose ("renamed ".toList ++ arrow source dest kept)
    return 0
  | .error e =>
    if e = .invalid then
      warn k.name ("cannot move ".toList ++ quoted source ++
        " to a subdirectory of itself, ".toList ++ quoted dest)
    else warn k.name (because ("cannot move ".toList ++ quoted source ++ " to ".toList ++
      quoted dest) e)
    return 1

/-- Moves an entry; the destination may just have been made. -/
def Moving.one (k : Moving) (wasMade : Bool) (source dest : Chars) : Routine Nat := do
  let p := Chars.toPath source
  let q := Chars.toPath dest
  match ← Routine.look fun h ↦ (h.linkEntry p, h.linkEntry q) with
  | (.error e, _) =>
    warn k.name (because ("cannot stat ".toList ++ quoted source) e)
    return 1
  | (.ok _, .error .notFound) => k.rename source dest none
  | (.ok _, .error e) =>
    warn k.name (because ("cannot stat ".toList ++ quoted dest) e)
    return 1
  | (.ok found, .ok there) =>
    if isSame (.ok found) (.ok there) && (k.backup.isNone || found.1 = there.1) then
      warn k.name (sameFile source dest)
      return 1
    if k.updates && !isDirectoryNode found.2 &&
      !(← Routine.look (Shell.Condition.isNewer · p q)) then return 0
    if ← k.replacing.declines k.name dest then return 0
    match isDirectoryNode found.2, isDirectoryNode there.2, k.backup with
    | true, false, none =>
      warn k.name ("cannot overwrite non-directory ".toList ++ quoted dest ++
        " with directory ".toList ++ quoted source)
      return 1
    | false, true, none =>
      warn k.name ("cannot overwrite directory ".toList ++ quoted dest ++
        " with non-directory".toList)
      return 1
    | _, false, _ =>
      if wasMade && (k.backup.map (·.style)) ≠ some .numbered then
        warn k.name ("will not overwrite just-created ".toList ++ quoted dest ++
          " with ".toList ++ quoted source)
        return 1
    | _, _, _ => pure ()
    match k.backup with
    | none => k.rename source dest none
    | some b =>
      match ← b.keep dest with
      | .ok kept => k.rename source dest (some kept)
      | .error e =>
        warn k.name (because ("cannot backup ".toList ++ quoted dest) e)
        return 1

/-- Moves every source to its destination. -/
def Moving.all (k : Moving) (isInside : Bool) :
    List Chars → List (Chars × Chars) → Routine Nat
  | _, [] => return 0
  | made, (source, dest) :: rest => do
    let status ← k.one (isInside && made.contains dest) source dest
    return max status (← k.all isInside (dest :: made) rest)

/-- Moves files and directories. -/
def mv : Program := fun args env ↦ do
  let name := args.headD []
  let c ← readCall name 1 (transferFlags ++ plainFlags [('n', "no-clobber"), ('u', "update"),
    ('Z', "context"), ('\x03', "strip-trailing-slashes")]) true args.tail
  let replacing := Replacing.ofLetter (c.lastOf? ['f', 'i', 'n'])
  let backup ← Backup.ofCall name c env
  refuseSparing name replacing backup
  let c := { c with operands := c.operands.map (strippedIf (c.has '\x03')) }
  let t ← transferOf name c false
  let k : Moving := ⟨name, replacing, c.has 'u', backup, c.has 'v'⟩
  k.all t.isInside [] t.pairs

/-! ## Installing -/

/-- Whether a file is at a destination already with the same content and these permissions. -/
def isInstalled (h : Host) (source dest : Chars) (mode : Nat) : Bool :=
  match h.entry (Chars.toPath source), h.linkEntry (Chars.toPath dest) with
  | .ok (_, .file f), .ok (_, .file g) => f.content = g.content && g.mode = mode
  | _, _ => false

/-- Copies files with permissions of their own, or makes directories. -/
def install : Program := fun args env ↦ do
  let name := args.headD []
  let c ← readCall name 1 (transferFlags ++ plainFlags [('c', ""), ('C', "compare"),
    ('d', "directory"), ('D', ""), ('p', "preserve-timestamps"), ('s', "strip")] ++
    valueFlags [('g', "group"), ('m', "mode"), ('o', "owner"), ('\x01', "strip-program")])
    true args.tail
  let mode ← match c.value? 'm' with
    | none => pure programMode
    | some w => match PermissionChange.read w with
      | some cs => pure (PermissionChange.applyAll false 0 0 cs)
      | none => fail name 1 ("invalid mode ".toList ++ cited w)
  let m : Making := ⟨name, mode, programMode,
    if c.has 'v' then some "creating directory" else none⟩
  if c.has 'd' then
    if c.operands = [] then refuse name 1 "missing file operand".toList
    return ← forStatus m.path c.operands
  let backup ← Backup.ofCall name c env
  if c.has 'D' then
    let dests := match c.value? 't' with
      | some dir => [inDirectory dir ['.']]
      | none => (c.operands.drop 1).take 1
    Routine.forEach (fun d ↦ do
      let _ ← m.above (above d)) dests
  let t ← transferOf name c false
  let k : Copying := {
    name, backup
    kind := .content
    isDeep := false
    followsOperands := true
    followsInside := true
    isForced := true
    replacing := .always
    updates := false
    keepsMode := false
    keepsTimes := c.has 'p'
    keepsNames := false
    removes := true
    isVerbose := c.has 'v'
    isInstalling := true }
  forStatus (fun (source, dest) ↦ do
    if c.has 'C' && (← Routine.look (isInstalled · source dest mode)) then return 0
    let s ← k.all false [] [(source, dest)] .start
    if s.status = 0 then permitAt dest mode
    return s.status) t.pairs

/-- The words between two names. -/
example : render false (arrow ['a'] ['b'] none) = "'a' -> 'b'".toList := by decide +kernel

end ContractBuild.Utility
