import ContractBuild.Posix.Permission
import ContractBuild.Posix.Utility.FileName
import ContractBuild.Posix.Utility.Stream

/-!
# Making and removing entries

Directories and files are made, and entries are removed, each operand for itself: one that fails
does not keep the next one from being dealt with.
-/

/-!
## Walks through directories

A walk through a directory meets everything that it holds: a directory before and after what it
holds itself, anything else once.  The names in a directory come in ascending order.  What is met
may be changed on the way; what is gone by then is not met.
-/

namespace ContractBuild.Utility

/-- What happens on a walk. -/
inductive WalkEvent
  /-- A directory is met before what it holds. -/
  | enter
  /-- A directory is met after what it holds. -/
  | leave
  /-- Something else is met. -/
  | meet
  /-- What a directory holds cannot be read. -/
  | blocked (e : IoError)
  /-- Nothing can be found out about an entry. -/
  | unreachable (e : IoError)
  /-- A link leads back to the directory behind these names. -/
  | loop (names : Location)
  deriving DecidableEq

/-- A moment of a walk. -/
structure Visit where
  /-- What happens. -/
  event : WalkEvent
  /-- The names that lead there from the start. -/
  names : Location
  /-- Where it happens. -/
  place : Location
  /-- What stands there. -/
  node : Node

/-- What stands at a location, behind links if they are followed. -/
def standsAt? (follows : Bool) (h : Host) (l : Location) : Option (Location × Node) :=
  match h.tree.node? l with
  | some n@(.link _) =>
    match follows, h.tree.locate (some []) ⟨true, false⟩ (.ofLocation l) with
    | true, .ok (.entry k m) => some (k, m)
    | _, _ => some (l, n)
  | some n => some (l, n)
  | none => none

/-- Walks through what stands at a location, behind some names and below some directories.  A visit
of a directory says whether what it holds is met.  Every step goes one directory down. -/
def walkFrom {σ : Type} (follows : Bool) (visit : Visit → σ → Routine (σ × Bool)) :
    Nat → List (Location × Location) → Location → Location → σ → Routine σ
  | 0, _, _, _, s => return s
  | n + 1, above, names, place, s => do
    match ← Routine.look (standsAt? follows · place) with
    | none => return s
    | some (place, node@(.directory _)) =>
      match above.lookup place with
      | some first => return (← visit ⟨.loop first, names, place, node⟩ s).1
      | none =>
        let (s, goesOn) ← visit ⟨.enter, names, place, node⟩ s
        if !goesOn then return s
        let (isReadable, isOpen, inner) ← Routine.look fun h ↦
          (h.tree.allows place .read, h.tree.allows place .run, h.tree.names place)
        if !isReadable then
          return (← visit ⟨.blocked .notPermitted, names, place, node⟩ s).1
        let s ← inner.foldlM (fun s k ↦ do
          if isOpen then
            walkFrom follows visit n ((place, names) :: above) (names ++ [k]) (place ++ [k]) s
          else
            let node := (← Routine.look (·.tree.node? (place ++ [k]))).getD node
            return (← visit ⟨.unreachable .notPermitted, names ++ [k], place ++ [k], node⟩ s).1) s
        return (← visit ⟨.leave, names, place, node⟩ s).1
    | some (place, node) => return (← visit ⟨.meet, names, place, node⟩ s).1

/-- How deep directories are walked through. -/
def walkDepth : Nat := 2100

/-- Walks through what stands at a location. -/
def walk {σ : Type} (follows : Bool) (visit : Visit → σ → Routine (σ × Bool)) (l : Location)
    (s : σ) : Routine σ := walkFrom follows visit walkDepth [] [] l s

/-- The path of what names lead to from a directory. -/
def pathBelow (dir : Chars) (names : Location) : Chars :=
  names.foldl (fun p n ↦ inDirectory p (Chars.ofBytes n)) dir

end ContractBuild.Utility

namespace ContractBuild.Utility

/-- Does something to the files for an operand; where that fails the complaint starts with this
text.  The value is the status. -/
def attempt (name what : Chars) (f : Host → Except IoError Host) : Routine Nat := do
  match ← Routine.change f with
  | .ok () => return 0
  | .error e =>
    warn name (because what e)
    return 1

/-- Says something on the output if a call asks for it. -/
def report (name : Chars) (isWanted : Bool) (message : Chars) : Routine Unit :=
  if isWanted then tell name message else pure ()

/-- Whether a question is answered with yes. -/
def isConfirmed (question : Chars) : Routine Bool := do
  say question
  match ← Routine.readUpTo 0 0x0A with
  | .ok (b :: _) => return b = 0x79 || b = 0x59
  | _ => return false

/-- Whether a question that has to be asked is answered with no. -/
def isRefused (asks : Bool) (question : Chars) : Routine Bool :=
  if asks then do return !(← isConfirmed question) else return false

/-! ## Directories -/

/-- How directories are made. -/
structure Making where
  /-- The name of the program. -/
  name : Chars
  /-- The permissions of the last directory of a path. -/
  mode : Nat
  /-- The permissions of the directories above it. -/
  usualMode : Nat
  /-- What is said in front of the path of a directory that is made, if anything. -/
  remark : Option String

/-- Makes one directory. -/
def Making.one (m : Making) (mode : Nat) (path : Chars) : Routine (Except IoError Unit) := do
  let result ← Routine.change fun h ↦ h.makeDirectory (Chars.toPath path) mode
  if let (some remark, .ok ()) := (m.remark, result) then
    tell m.name (m.name ++ ": ".toList ++ remark.toList ++ ' ' :: quoted path)
  return result

/-- The paths of the directories above the last one of a path. -/
def above (path : Chars) : List Chars :=
  (List.range path.length).filterMap fun k ↦
    let start := path.take k
    if path[k]? = some '/' && start ≠ [] && start.getLast? ≠ some '/' &&
      (path.drop k).any (· ≠ '/') then some start else none

/-- The complaint about a directory that cannot be made. -/
def cannotMake (path : Chars) : Chars := "cannot create directory ".toList ++ cited path

/-- Makes the directories above the last one of a path as far as they are missing.  The truth value
says whether all are there then. -/
def Making.above (m : Making) : List Chars → Routine Bool
  | [] => return true
  | path :: paths => do
    match ← m.one m.usualMode path with
    | .ok () => m.above paths
    | .error e =>
      if ← Routine.look (·.isDirectory (Chars.toPath path)) then m.above paths
      else
        let isFile ← Routine.look (·.pathExists (Chars.toPath path))
        warn m.name (because (cannotMake path) (if isFile then .notADirectory else e))
        return false

/-- Makes the directory at a path and those above it, as far as they are missing. -/
def Making.path (m : Making) (path : Chars) : Routine Nat := do
  if !(← m.above (Utility.above path)) then return 1
  match ← m.one m.mode path with
  | .ok () => return 0
  | .error e =>
    if ← Routine.look (·.isDirectory (Chars.toPath path)) then return 0
    warn m.name (because (cannotMake path) e)
    return 1

/-- The permissions of all users to do everything. -/
def openMode : Nat := 0o777

/-- Makes directories. -/
def mkdir : Program := fun args _ ↦ do
  let name := args.headD []
  let c ← readCall name 1 (plainFlags [('p', "parents"), ('v', "verbose"), ('Z', "")] ++
    valueFlags [('m', "mode")]) true args.tail
  if c.operands = [] then missingOperand name 1
  let mask := (← Routine.self).mask
  let usual := PermissionChange.without openMode mask
  let mode ← match c.value? 'm' with
    | none => pure usual
    | some m => match PermissionChange.read m with
      | some cs => pure (PermissionChange.applyAll true mask openMode cs)
      | none => fail name 1 ("invalid mode ".toList ++ cited m)
  let m : Making := ⟨name, mode, usual ||| 0o300,
    if c.has 'v' then some "created directory" else none⟩
  forStatus (fun path ↦ do
    if c.has 'p' then m.path path
    else match ← m.one mode path with
      | .ok () => return 0
      | .error e =>
        warn name (because (cannotMake path) e)
        return 1) c.operands

/-- The error of a path that goes through a link to a directory. -/
def linkNotFollowed : IoError := .refused "Symbolic link not followed"

/-- Removes an empty directory. -/
def removeEmptyAt (path : Chars) : Routine (Except IoError Unit) := do
  match ← Routine.change (·.removeEmpty (Chars.toPath path)) with
  | .error e =>
    let isLink ← Routine.look fun h ↦ path.getLast? = some '/' && h.isDirectory (Chars.toPath path)
    return .error (if isLink && e = .notADirectory then linkNotFollowed else e)
  | done => return done

/-- Removes the directories above a path, the last one first. -/
def removeAbove (name : Chars) (isVerbose isLenient : Bool) : List Chars → Routine Nat
  | [] => return 0
  | path :: paths => do
    report name isVerbose (name ++ ": removing directory, ".toList ++ quoted path)
    match ← removeEmptyAt path with
    | .ok () => removeAbove name isVerbose isLenient paths
    | .error e =>
      if isLenient && e = .notEmpty then return 0
      warn name (because ("failed to remove directory ".toList ++ quoted path) e)
      return 1

/-- Removes empty directories. -/
def rmdir : Program := fun args _ ↦ do
  let name := args.headD []
  let c ← readCall name 1 (plainFlags [('p', "parents"), ('v', "verbose"),
    ('\x01', "ignore-fail-on-non-empty")]) true args.tail
  if c.operands = [] then missingOperand name 1
  forStatus (fun path ↦ do
    report name (c.has 'v') (name ++ ": removing directory, ".toList ++ quoted path)
    match ← removeEmptyAt path with
    | .ok () =>
      if c.has 'p' then removeAbove name (c.has 'v') (c.has '\x01') (above path).reverse
      else return 0
    | .error e =>
      if c.has '\x01' && e = .notEmpty then return 0
      warn name (because ("failed to remove ".toList ++ quoted path) e)
      return 1) c.operands

/-! ## Removing -/

/-- How entries are removed. -/
structure Removal where
  /-- The name of the program. -/
  name : Chars
  /-- Directories are removed with all that they hold. -/
  isDeep : Bool
  /-- Empty directories are removed. -/
  takesEmpty : Bool
  /-- What does not exist is no error. -/
  isForced : Bool
  /-- Every removal has to be confirmed. -/
  asks : Bool
  /-- Every removal is said. -/
  isVerbose : Bool

/-- The complaint about an entry that cannot be removed. -/
def cannotRemove (path : Chars) : Chars := "cannot remove ".toList ++ quoted path

/-- What an entry is called in a question. -/
def kindOf : Node → Chars
  | .file f => (if f.content = [] then "regular empty file" else "regular file").toList
  | .directory _ => "directory".toList
  | .link _ => "symbolic link".toList
  | _ => "character special file".toList

/-- Asks whether something is to be done with an entry; the value says that it is not. -/
def Removal.isRefused (r : Removal) (what : String) (path : Chars) : Routine Bool :=
  Utility.isRefused r.asks
    (r.name ++ ": ".toList ++ what.toList ++ ' ' :: quoted path ++ "? ".toList)

/-- How far removing has come. -/
structure Removal.Progress where
  /-- The status. -/
  status : Nat
  /-- The directories that something is left in. -/
  kept : List Location

/-- What has come of removing once something is left behind some names. -/
def Removal.Progress.keeping (s : Progress) (names : Location) (status : Nat) : Progress :=
  ⟨max s.status status, (List.range names.length).map (names.take ·) ++ s.kept⟩

/-- Removes an entry that is no directory.  The value is the status and whether it is gone. -/
def Removal.file (r : Removal) (path : Chars) (n : Node) : Routine (Nat × Bool) := do
  if ← r.isRefused ("remove " ++ Chars.toString (kindOf n)) path then return (0, false)
  let status ← attempt r.name (cannotRemove path) (·.unlink (Chars.toPath path))
  report r.name (r.isVerbose && status = 0) ("removed ".toList ++ quoted path)
  return (status, status = 0)

/-- Removes a directory that is empty, unless there is a reason that it cannot be read. -/
def Removal.directory (r : Removal) (path : Chars) (reason : Option IoError) :
    Routine (Nat × Bool) := do
  if ← r.isRefused "remove directory" path then return (0, false)
  match ← Routine.change (·.removeEmpty (Chars.toPath path)) with
  | .ok () =>
    report r.name r.isVerbose ("removed directory ".toList ++ quoted path)
    return (0, true)
  | .error e =>
    warn r.name (because (cannotRemove path) (if e = .notEmpty then reason.getD e else e))
    return (1, false)

/-- Removes what is visited in a directory. -/
def Removal.visit (r : Removal) (start : Chars) (v : Visit) (s : Removal.Progress) :
    Routine (Removal.Progress × Bool) := do
  let path := pathBelow start v.names
  let behind := fun (result : Nat × Bool) ↦
    (if result.2 then s else s.keeping v.names result.1, false)
  match v.event with
  | .enter =>
    if !r.asks then return (s, true)
    let isEmpty ← Routine.look fun h ↦ (h.tree.names v.place).isEmpty
    if isEmpty then return behind (← r.directory path none)
    else if ← r.isRefused "descend into directory" path then return (s.keeping v.names 0, false)
    else return (s, true)
  | .leave =>
    if s.kept.contains v.names then return (s, false) else return behind (← r.directory path none)
  | .meet => return behind (← r.file path v.node)
  | .blocked e => return behind (← r.directory path (some e))
  | .unreachable e => do
    warn r.name (because (cannotRemove path) e)
    return (s.keeping v.names 1, false)
  | .loop _ => return (s, false)

/-- Removes what an operand names. -/
def Removal.operand (r : Removal) (path : Chars) : Routine Nat := do
  let p := Chars.toPath path
  let found ← Routine.look (·.linkEntry p)
  match found with
  | .error e =>
    if r.isForced && (e = .notFound || e = .notADirectory) then return 0
    warn r.name (because (cannotRemove path) e)
    return 1
  | .ok (l, .directory _) =>
    let isEmpty ← Routine.look fun h ↦ (h.tree.names l).isEmpty
    if !r.isDeep then
      if r.takesEmpty && isEmpty then return (← r.directory path none).1
      warn r.name (because (cannotRemove path)
        (if r.takesEmpty then .notEmpty else .isADirectory))
      return 1
    match p.lastStep? with
    | none =>
      warn r.name ("it is dangerous to operate recursively on ".toList ++ quoted path)
      warn r.name "use --no-preserve-root to override this failsafe".toList
      return 1
    | some (.enter _) => return (← walk false (r.visit path) l ⟨0, []⟩).status
    | some _ =>
      warn r.name ("refusing to remove '.' or '..' directory: skipping ".toList ++ quoted path)
      return 1
  | .ok (_, n) =>
    if r.isForced && path.getLast? = some '/' then return 0
    return (← r.file path n).1

/-- What decides over asking: `f`, `i` or `I`. -/
def askingOf (name : Chars) (c : Call) : Routine (Option Char) :=
  match (c.flags.filter fun f ↦ "fiI\x04".toList.contains f.1).getLast? with
  | some ('\x04', []) => pure (some 'i')
  | some ('\x04', w) => do
    let w ← readWord name 1 "--interactive" [["never", "no", "none"], ["once"], ["always", "yes"]] w
    return some (if w = "once" then 'I' else if ["always", "yes"].contains w then 'i' else 'n')
  | last => pure (last.map (·.1))

/-- Removes files and directories. -/
def rm : Program := fun args _ ↦ do
  let name := args.headD []
  let c ← readCall name 1 (plainFlags [('f', "force"), ('i', ""), ('I', ""), ('r', "recursive"),
    ('R', ""), ('d', "dir"), ('v', "verbose"), ('\x01', "one-file-system"),
    ('\x02', "no-preserve-root")] ++ [⟨'\x03', "preserve-root", .optional⟩,
    ⟨'\x04', "interactive", .optional⟩]) true args.tail
  let asking ← askingOf name c
  let isForced := asking = some 'f'
  if c.operands = [] then
    if isForced then Routine.exit 0
    missingOperand name 1
  let isDeep := c.has 'r' || c.has 'R'
  let count := c.operands.length
  if ← isRefused (asking = some 'I' && (isDeep || 3 < count)) (name ++ ": remove ".toList ++
      Chars.ofNat count ++ (if count = 1 then " argument" else " arguments").toList ++
      (if isDeep then " recursively? " else "? ").toList) then return 0
  let r : Removal := ⟨name, isDeep, c.has 'd', isForced, asking = some 'i', c.has 'v'⟩
  forStatus r.operand c.operands

/-- Removes a file. -/
def unlink : Program := fun args _ ↦ do
  let name := args.headD []
  let c ← readCall name 1 [] true args.tail
  match c.operands with
  | [] => missingOperand name 1
  | [path] =>
    attempt name ("cannot unlink ".toList ++ quoted path) (·.unlink (Chars.toPath path))
  | _ :: extra :: _ => extraOperand name 1 extra

/-! ## Files -/

/-- Opening a file for writing without a change. -/
def forTouching : Machine.OpenMode := ⟨false, true, true, false, false, false⟩

/-- How the size of a file is changed. -/
def newSize (sign : Option Char) (amount size : Nat) : Nat :=
  match sign with
  | some '+' => size + amount
  | some '-' => size - amount
  | some '<' => min size amount
  | some '>' => max size amount
  | some '/' => if amount = 0 then size else size / amount * amount
  | some '%' => if amount = 0 then size else (size + amount - 1) / amount * amount
  | _ => amount

/-- Changes the sizes of files. -/
def truncate : Program := fun args _ ↦ do
  let name := args.headD []
  let c ← readCall name 1 (plainFlags [('c', "no-create"), ('o', "io-blocks")] ++
    valueFlags [('s', "size"), ('r', "reference")]) true args.tail
  let (sign, amount) ← match c.value? 's', c.value? 'r' with
    | some w, _ =>
      let (sign, digits) := match w with
        | s :: cs => if "+-<>/%".toList.contains s then (some s, cs) else (none, w)
        | [] => (none, w)
      pure (sign, ← readAmount name 1 "Invalid number" "EgGkKmMPtTYZ0".toList 0 digits)
    | none, some file => match ← Routine.readPath (Chars.toPath file) with
      | .ok bs => pure (none, bs.length)
      | .error e => fail name 1 (because ("cannot stat ".toList ++ quoted file) e)
    | none, none => refuse name 1 "you must specify either '--size' or '--reference'".toList
  if c.operands = [] then refuse name 1 "missing file operand".toList
  forStatus (fun path ↦ do
    let mode := if c.has 'c' then { forTouching with creates := false } else forTouching
    match ← Routine.openPath (Chars.toPath path) mode Routine.usualMode with
    | .error e =>
      if c.has 'c' && e = .notFound then return 0
      warn name (because ("cannot open ".toList ++ quoted path ++ " for writing".toList) e)
      return 1
    | .ok n =>
      Routine.close n
      attempt name ("failed to truncate ".toList ++ quoted path) fun h ↦ do
        match ← h.entry (Chars.toPath path) with
        | (_, .file f) =>
          return h.withTree (h.tree.onFile f.id fun f ↦
            let size := newSize sign amount f.content.length
            { f with content := f.content.take size ++
                List.replicate (size - f.content.length) 0 })
        | _ => .error .invalid) c.operands

/-! ## Temporary files -/

/-- A template without the characters that are replaced, the number of them, and what follows. -/
def templateParts (cs : Chars) : Chars × Nat × Chars :=
  let behind := (cs.reverse.takeWhile (· ≠ 'X')).reverse
  let front := cs.take (cs.length - behind.length)
  let count := (front.reverse.takeWhile (· = 'X')).length
  (front.take (front.length - count), count, behind)

/-- Letters that tell numbers apart. -/
def lettersOf : Nat → Nat → Chars
  | 0, _ => []
  | k + 1, n => Char.ofNat ('a'.toNat + n % 26) :: lettersOf k (n / 26)

/-- How many names are tried for a temporary file. -/
def nameTrials : Nat := 10000

/-- The permissions of a directory that only its owner may use. -/
def privateMode : Nat := 0o700

/-- Makes a temporary file or directory. -/
def mktemp : Program := fun args env ↦ do
  let name := args.headD []
  let c ← readCall name 1 (plainFlags [('d', "directory"), ('u', "dry-run"), ('q', "quiet"),
    ('t', "")] ++ valueFlags [('p', ""), ('\x01', "suffix")] ++
    [⟨'\x02', "tmpdir", .optional⟩]) true args.tail
  let template ← match c.operands with
    | [] => pure "tmp.XXXXXXXXXX".toList
    | [w] => pure w
    | _ => refuse name 1 "too many templates".toList
  let said := match c.value? 'p', c.value? '\x02' with
    | some d, _ | none, some d => if d = [] then none else some d
    | none, none => none
  let usual := match Image.valueIn? env "TMPDIR".toList with
    | some [] | none => "/tmp".toList
    | some d => d
  let (front, count, behind) := templateParts template
  if count < 3 then fail name 1 ("too few X's in template ".toList ++ cited template)
  if c.has 't' && template.contains '/' then
    fail name 1 ("invalid template, ".toList ++ cited template ++
      ", contains directory separator".toList)
  let isPlaced := c.operands = [] || c.has 't' || c.has 'p' || c.has '\x02'
  let dir := if c.has 't' then (Image.valueIn? env "TMPDIR".toList).getD (said.getD usual)
    else said.getD usual
  let placed := fun (cs : Chars) ↦ if isPlaced then inDirectory dir cs else cs
  let behind := behind ++ (c.value? '\x01').getD []
  let path := fun (n : Nat) ↦ placed (front ++ lettersOf count n ++ behind)
  let n ← Routine.look fun h ↦ ((List.range nameTrials).find? fun n ↦
    !(h.linkEntry (Chars.toPath (path n))).isOk).getD 0
  let path := path n
  let made ←
    if c.has 'u' then pure (.ok ())
    else if c.has 'd' then Routine.change (·.makeDirectory (Chars.toPath path) privateMode)
    else match ← Routine.openPath (Chars.toPath path) .forNew 0o600 with
      | .ok k => do
        Routine.close k
        pure (.ok ())
      | .error e => pure (.error e)
  match made with
  | .ok () =>
    emit name (Chars.line path)
    return 0
  | .error e =>
    if c.has 'q' then Routine.exit 1
    fail name 1 (because ("failed to create ".toList ++
      (if c.has 'd' then "directory" else "file").toList ++ " via template ".toList ++
      cited (placed template)) e)

/-- The directories above a path. -/
example : above "/a//b/c/".toList = ["/a".toList, "/a//b".toList] := by decide +kernel

end ContractBuild.Utility
