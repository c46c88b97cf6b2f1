import ContractBuild.Posix.Utility.Entry
import ContractBuild.Posix.Utility.FileName

/-!
# Names and permissions of files

Giving files further names, making symbolic links, and changing permissions.
-/

/-!
## Backups

What is replaced can be kept under another name: the same with an ending, or with the next number
behind it.
-/

namespace ContractBuild.Utility

/-- Under which names what is replaced is kept. -/
inductive BackupStyle
  /-- With an ending. -/
  | simple
  /-- With a number if there is such a name already, and with an ending otherwise. -/
  | existing
  /-- With a number. -/
  | numbered
  deriving DecidableEq, Repr

/-- How what is replaced is kept. -/
structure Backup where
  /-- Under which names. -/
  style : BackupStyle
  /-- The ending. -/
  ending : Chars

namespace Backup

/-- The number behind a name, if another name consists of these. -/
def numberBehind? (name other : Chars) : Option Nat :=
  let front := name ++ ".~".toList
  if front.isPrefixOf other && other.getLast? = some '~' then
    Chars.toNat? ((other.drop front.length).dropLast)
  else none

/-- The greatest number behind the name of a path in its directory. -/
def lastNumber (h : Host) (path : Chars) : Nat :=
  match h.canonical? (Chars.toPath (directoryPart path)) with
  | none => 0
  | some l =>
    (((h.tree.names l).map Chars.ofBytes).filterMap (numberBehind? (lastName path))).max?.getD 0

/-- The path under which what stands at a path is kept. -/
def pathFor (b : Backup) (h : Host) (path : Chars) : Chars :=
  let path := withoutSlashes path
  let last := lastNumber h path
  if b.style = .numbered || (b.style = .existing && last ≠ 0) then
    path ++ ".~".toList ++ Chars.ofNat (last + 1) ++ ['~']
  else path ++ b.ending

/-- The words for the ways of keeping; words in one line mean the same. -/
def styleWords : List (List String) :=
  [["none", "off"], ["simple", "never"], ["existing", "nil"], ["numbered", "t"]]

/-- The style of a word, if anything is kept. -/
def styleOf? (w : String) : Option BackupStyle :=
  match w with
  | "simple" | "never" => some .simple
  | "existing" | "nil" => some .existing
  | "numbered" | "t" => some .numbered
  | _ => none

/-- The options for keeping what is replaced. -/
def flags : List Flag :=
  [⟨'b', "", .none⟩, ⟨'\x0b', "backup", .optional⟩, ⟨'S', "suffix", .required⟩]

/-- How a call keeps what is replaced, if it does. -/
def ofCall (name : Chars) (c : Call) (env : List Chars) : Routine (Option Backup) := do
  if !(c.has 'b' || c.has '\x0b' || c.has 'S') then return none
  let style ← match (c.value? '\x0b').getD [], Image.valueIn? env "VERSION_CONTROL".toList with
    | w@(_ :: _), _ => do
      let w ← readWord name 1 "backup type" styleWords w
      pure (styleOf? w)
    | [], some w@(_ :: _) => do
      let w ← readWord name 1 "$VERSION_CONTROL" styleWords w
      pure (styleOf? w)
    | _, _ => pure (some .existing)
  let given := (c.value? 'S').orElse fun _ ↦
    Image.valueIn? env "SIMPLE_BACKUP_SUFFIX".toList
  let ending := match given with
    | none | some [] => ['~']
    | some w => if w.contains '/' then ['~'] else w
  return style.map (⟨·, ending⟩)

/-- Keeps what stands at a path under another name, which is the value. -/
def keep (b : Backup) (path : Chars) : Routine (Except IoError Chars) := do
  let kept ← Routine.look (b.pathFor · path)
  match ← Routine.change (·.rename (Chars.toPath (withoutSlashes path)) (Chars.toPath kept)) with
  | .ok () => return .ok kept
  | .error e => return .error e

/-- The number behind a name. -/
example : numberBehind? "a".toList "a.~12~".toList = some 12 := by decide +kernel

end Backup

end ContractBuild.Utility

namespace ContractBuild.Utility

/-! ## Where operands lead -/

/-- What operands that end in a destination say. -/
structure Transfer where
  /-- What is copied, moved or linked, each with its destination. -/
  pairs : List (Chars × Chars)
  /-- Whether the destinations lie in a directory that was named. -/
  isInside : Bool

/-- The operands with their destinations in a directory. -/
def Transfer.into (dir : Chars) (sources : List Chars) : Transfer :=
  ⟨sources.map fun s ↦ (s, inDirectory dir (lastName s)), true⟩

/-- Whether a path leads to a directory; a link can count as what it is. -/
def isTarget (h : Host) (isExact : Bool) (path : Chars) : Bool :=
  let p := Chars.toPath path
  if isExact then
    match h.linkEntry p with
    | .ok (_, .directory _) => true
    | _ => false
  else h.isDirectory p

/-- The sources and destinations of a call with the options `-t` and `-T`. -/
def transferOf (name : Chars) (c : Call) (isExact : Bool) : Routine Transfer := do
  let demand := fun (what : String) (path : Chars) ↦ do
    let p := Chars.toPath path
    match ← Routine.look fun h ↦ h.entry p with
    | .ok (_, .directory _) => pure ()
    | .ok _ => fail name 1 (because (what.toList ++ quoted path) .notADirectory)
    | .error e => fail name 1 (because (what.toList ++ quoted path) e)
  match c.operands, c.value? 't' with
  | [], _ => refuse name 1 "missing file operand".toList
  | sources, some dir =>
    demand "target directory " dir
    return .into dir sources
  | [a], none =>
    refuse name 1 ("missing destination file operand after ".toList ++ quoted a)
  | [a, b], none =>
    if !c.has 'T' && (← Routine.look (isTarget · isExact b)) then return .into b [a]
    return ⟨[(a, b)], false⟩
  | _ :: _ :: extra :: rest, none =>
    if c.has 'T' then extraOperand name 1 extra
    let last := ((extra :: rest).getLast?).getD extra
    demand "target " last
    return .into last c.operands.dropLast

/-- The options of transfers. -/
def transferFlags : List Flag :=
  plainFlags [('f', "force"), ('i', "interactive"), ('v', "verbose"),
    ('T', "no-target-directory")] ++ valueFlags [('t', "target-directory")] ++ Backup.flags

/-! ## Links -/

/-- How links are made. -/
structure Linking where
  /-- The name of the program. -/
  name : Chars
  /-- Links are symbolic. -/
  isSymbolic : Bool
  /-- What stands at the name is removed. -/
  isForced : Bool
  /-- Removing has to be confirmed. -/
  asks : Bool
  /-- How what stands at the name is kept under another one, if it is. -/
  backup : Option Backup
  /-- A further name of a link stands for what the link leads to. -/
  follows : Bool
  /-- Directories can get further names. -/
  takesDirectories : Bool
  /-- Every link is said. -/
  isVerbose : Bool

/-- What a file is called to tell it from others. -/
def identity? : Node → Option Nat
  | .file f => some f.id
  | .directory d => some d.id
  | _ => none

/-- Whether two entries are the same file. -/
def isSame (a b : Except IoError (Location × Node)) : Bool :=
  match a, b with
  | .ok (l, m), .ok (k, n) => l = k || ((identity? m).isSome && identity? m = identity? n)
  | _, _ => false

/-- What has come of making room for a link. -/
inductive Room
  /-- There is room. -/
  | free
  /-- There is room, and what stood there is kept under this path. -/
  | kept (path : Chars)
  /-- There is none, which has this status. -/
  | none (status : Nat)

/-- Makes room at the destination of a link. -/
def Linking.clear (k : Linking) (source dest : Chars) : Routine Room := do
  let p := Chars.toPath dest
  match ← Routine.look (·.linkEntry p) with
  | .error _ => return .free
  | .ok (_, .directory _) =>
    warn k.name (shown dest ++ ": cannot overwrite directory".toList)
    return .none 1
  | found =>
    let from' ← Routine.look fun h ↦
      if k.isSymbolic then h.entry (Chars.toPath source) else h.linkEntry (Chars.toPath source)
    if isSame from' found && lastName source = lastName dest then
      warn k.name (quoted source ++ " and ".toList ++ quoted dest ++
        " are the same file".toList)
      return .none 1
    if ← isRefused k.asks (k.name ++ ": replace ".toList ++ quoted dest ++ "? ".toList) then
      return .none 0
    match k.backup with
    | none =>
      if k.isForced || k.asks then
        let _ ← Routine.change (·.unlink p)
      return .free
    | some b =>
      match ← b.keep dest with
      | .ok kept => return .kept kept
      | .error e =>
        warn k.name (because ("cannot backup ".toList ++ quoted dest) e)
        return .none 1

/-- The complaint about a link that cannot be made. -/
def Linking.complaint (k : Linking) (source dest : Chars) (e : IoError) : Chars :=
  if k.isSymbolic then
    "failed to create symbolic link ".toList ++ quoted dest ++
      (if source = [] || e = .nameTooLong then " -> ".toList ++ quoted source else [])
  else
    "failed to create hard link ".toList ++ quoted dest ++
      (if e = .alreadyExists || e = .noSpace then [] else " => ".toList ++ quoted source)

/-- Makes a link. -/
def Linking.one (k : Linking) (source dest : Chars) : Routine Nat := do
  let p := Chars.toPath source
  if !k.isSymbolic then
    match ← Routine.look fun h ↦ if k.follows then h.entry p else h.linkEntry p with
    | .error e =>
      warn k.name (because ("failed to access ".toList ++ quoted source) e)
      return 1
    | .ok (_, .directory _) =>
      if !k.takesDirectories then
        warn k.name (shown source ++ ": hard link not allowed for directory".toList)
        return 1
    | .ok _ => pure ()
  let room ← if k.isForced || k.asks || k.backup.isSome then k.clear source dest
    else pure Room.free
  if let .none status := room then return status
  let made ← Routine.change fun h ↦
    if k.isSymbolic then h.makeLink (Chars.toPath dest) p
    else if k.follows then do
      let (l, _) ← h.entry p
      h.addName (.ofLocation l) (Chars.toPath dest)
    else h.addName p (Chars.toPath dest)
  match made with
  | .ok () =>
    let kept := match room with
      | .kept path => quoted path ++ " ~ ".toList
      | _ => []
    let arrow := if k.isSymbolic then " -> ".toList else " => ".toList
    report k.name k.isVerbose (kept ++ quoted dest ++ arrow ++
      quoted source)
    return 0
  | .error e =>
    warn k.name (because (k.complaint source dest e) e)
    return 1

/-- A path seen from the directory of another one. -/
def seenFrom (h : Host) (source dest : Chars) : Chars :=
  let place := fun (cs : Chars) ↦ locationOf h (cs.length + 2) (Chars.toPath cs)
  match place source, place (directoryPart dest) with
  | .ok l, .ok dir => relativeTo dir l
  | _, _ => source

/-- Makes links. -/
def ln : Program := fun args env ↦ do
  let name := args.headD []
  let c ← readCall name 1 (transferFlags ++ plainFlags [('s', "symbolic"), ('n', "no-dereference"),
    ('L', "logical"), ('P', "physical"), ('r', "relative"), ('d', "directory"), ('F', "")])
    true args.tail
  let isForced := c.lastOf? ['f', 'i'] = some 'f'
  let asks := c.lastOf? ['f', 'i'] = some 'i'
  let isSymbolic := c.has 's'
  let backup ← Backup.ofCall name c env
  let k : Linking := ⟨name, isSymbolic, isForced, asks, backup, c.lastOf? ['L', 'P'] = some 'L',
    c.has 'd' || c.has 'F', c.has 'v'⟩
  let t ← match c.operands, c.has 't' || c.has 'T' with
    | [source], false => pure (⟨[(source, lastName source)], true⟩ : Transfer)
    | _, _ => transferOf name c (c.has 'n')
  forStatus (fun (source, dest) ↦ do
    let dest := if dest = ['.'] || dest = ['/'] then inDirectory ['.'] dest else dest
    let source ← if c.has 'r' && isSymbolic then Routine.look (seenFrom · source dest)
      else pure source
    k.one source dest) t.pairs

/-- Gives a file another name. -/
def link : Program := fun args _ ↦ do
  let name := args.headD []
  let c ← readCall name 1 [] true args.tail
  match c.operands with
  | [] => missingOperand name 1
  | [a] => missingBehind name 1 a
  | [a, b] =>
    attempt name ("cannot create link ".toList ++ quoted b ++ " to ".toList ++ quoted a)
      (·.addName (Chars.toPath a) (Chars.toPath b))
  | _ :: _ :: extra :: _ => extraOperand name 1 extra

/-! ## Permissions -/

/-- How permissions are changed. -/
structure Permitting where
  /-- The name of the program. -/
  name : Chars
  /-- The changes. -/
  changes : List PermissionChange
  /-- The permissions that are protected. -/
  mask : Nat
  /-- Whether it is said if the mask protected something. -/
  isCritical : Bool
  /-- Whether everything is said. -/
  isVerbose : Bool
  /-- Whether changes are said. -/
  saysChanges : Bool
  /-- Whether complaints are left out. -/
  isQuiet : Bool

/-- The permissions of an entry. -/
def modeOf : Node → Nat
  | .file f => f.mode
  | .directory d => d.mode
  | .link _ => openMode
  | _ => 0o666

/-- Permissions as a number and as letters. -/
def shownMode (mode : Nat) : Chars :=
  PermissionChange.digits mode ++ " (".toList ++ PermissionChange.text mode ++ [')']

/-- Changes the permissions of the entry at a location. -/
def Permitting.one (q : Permitting) (path : Chars) (l : Location) (n : Node) : Routine Nat := do
  let isDirectory := match n with
    | .directory _ => true
    | _ => false
  let before := modeOf n
  let after := PermissionChange.applyAll isDirectory q.mask before q.changes
  if !(n.attributes?.any (!·.isForeign)) then
    if !q.isQuiet then
      warn q.name (because ("changing permissions of ".toList ++ quoted path) .notAllowed)
    report q.name q.isVerbose ("failed to change mode of ".toList ++ quoted path ++
      " from ".toList ++ shownMode before ++ " to ".toList ++ shownMode after)
    return 1
  let _ ← Routine.change fun h ↦ .ok (h.permit l after)
  if before ≠ after then
    report q.name (q.isVerbose || q.saysChanges) ("mode of ".toList ++ quoted path ++
      " changed from ".toList ++ shownMode before ++ " to ".toList ++ shownMode after)
  else
    report q.name q.isVerbose ("mode of ".toList ++ quoted path ++ " retained as ".toList ++
      shownMode before)
  let expected := PermissionChange.applyAll isDirectory 0 before q.changes
  if q.isCritical && PermissionChange.without after expected ≠ 0 then
    warn q.name (shown path ++ ": new permissions are ".toList ++ PermissionChange.text after ++
      ", not ".toList ++ PermissionChange.text expected)
    return 1
  return 0

/-- Says on demand that an entry could not be reached. -/
def Permitting.noteMissing (q : Permitting) (path : Chars) : Routine Unit :=
  report q.name q.isVerbose (quoted path ++ " could not be accessed".toList)

/-- Changes the permissions of what an operand names, and of all that it holds if that is asked
for. -/
def Permitting.operand (q : Permitting) (isDeep : Bool) (path : Chars) : Routine Nat := do
  let p := Chars.toPath path
  match ← Routine.look fun h ↦ (h.entry p, (h.linkEntry p).isOk) with
  | (.error e, isDangling) =>
    if !q.isQuiet then
      if isDangling && e = .notFound then
        warn q.name ("cannot operate on dangling symlink ".toList ++ quoted path)
      else warn q.name (because ("cannot access ".toList ++ quoted path) e)
    q.noteMissing path
    return 1
  | (.ok (l, n), _) =>
    if !isDeep then return ← q.one path l n
    walk false (fun v status ↦ do
      let inner := pathBelow path v.names
      let complain := fun (what : String) (e : IoError) ↦ do
        if !q.isQuiet then warn q.name (because (what.toList ++ quoted inner) e)
        q.noteMissing inner
        return (1, false)
      match v.event with
      | .leave | .loop _ => return (status, false)
      | .blocked e => complain "cannot read directory " e
      | .unreachable e => complain "cannot access " e
      | .enter | .meet =>
        match v.node with
        | .link _ =>
          report q.name q.isVerbose ("neither symbolic link ".toList ++ quoted inner ++
            " nor referent has been changed".toList)
          return (status, true)
        | n => return (max status (← q.one inner v.place n), true)) l 0

/-- The letters that can stand for a change of permissions in an option. -/
def permissionLetters : List Char := "rwxXstugoa,+=01234567".toList

/-- Changes permissions. -/
def chmod : Program := fun args _ ↦ do
  let name := args.headD []
  let c ← readCall name 1 (plainFlags [('R', "recursive"), ('c', "changes"), ('f', "quiet"),
    ('\x02', "silent"), ('v', "verbose"), ('\x03', "no-preserve-root"),
    ('\x04', "preserve-root")] ++ valueFlags [('\x01', "reference")] ++
    permissionLetters.map fun d ↦ ⟨d, "", .optional⟩) true args.tail
  let pieces := (c.flags.filter fun f ↦ permissionLetters.contains f.1).map fun f ↦
    '-' :: f.1 :: f.2
  let said := if pieces = [] then none else some (Chars.join [','] pieces)
  let mask := (← Routine.self).mask
  let refuseMode := fun (w : Chars) ↦ refuse name 1 ("invalid mode: ".toList ++ cited w)
  let (changes, files) ← match said, c.value? '\x01', c.operands with
    | none, none, [] => missingOperand name 1
    | none, none, [w] => missingBehind name 1 w
    | none, none, w :: files => match PermissionChange.read w with
      | some cs => pure (cs, files)
      | none => refuseMode w
    | some w, _, [] => missingBehind name 1 w
    | some w, _, files => match PermissionChange.read w with
      | some cs => pure (cs, files)
      | none => refuseMode w
    | none, some file, files =>
      match ← Routine.look (·.entry (Chars.toPath file)) with
      | .ok (_, n) => pure ([⟨PermissionChange.allBits, .set, .bits (modeOf n),
          PermissionChange.allBits⟩], files)
      | .error e => fail name 1 (because ("failed to get attributes of ".toList ++ quoted file) e)
  let q : Permitting := ⟨name, changes, mask, said.isSome, c.has 'v', c.has 'c',
    c.has 'f' || c.has '\x02'⟩
  forStatus (q.operand (c.has 'R')) files

/-- Permissions with a special mark. -/
example : shownMode 0o1755 = "1755 (rwxr-xr-t)".toList := by decide +kernel

end ContractBuild.Utility

/-!
## What is known about entries

The size, the room, the kind and the other facts about an entry, and how numbers of bytes are
written so that people read them easily.
-/

namespace ContractBuild.Utility.EntryFacts

/-- How many characters an entry has. -/
def sizeOf : Node → Nat
  | .file f => f.content.length
  | .directory _ => 4096
  | .link k => k.target.raw.length
  | _ => 0

/-- How much room an entry takes, in thousands of bytes. -/
def roomOf : Node → Nat
  | .file f => (f.content.length + 4095) / 4096 * 4
  | .directory _ => 4
  | _ => 0

/-- How many names an entry has. -/
def namesOf (t : Tree) (l : Location) : Node → Nat
  | .file f => (t.entries.filter fun e ↦ match e.2 with
      | .file g => g.id = f.id
      | _ => false).length
  | .directory _ =>
    2 + ((t.names l).filter fun n ↦ match t.node? (l ++ [n]) with
      | some (.directory _) => true
      | _ => false).length
  | _ => 1

/-- The letter for the kind of an entry. -/
def letterOf : Node → Char
  | .file _ => '-'
  | .directory _ => 'd'
  | .link _ => 'l'
  | _ => 'c'

/-- The kind of an entry in words. -/
def kindText : Node → Chars
  | .file f => (if f.content = [] then "regular empty file" else "regular file").toList
  | .directory _ => "directory".toList
  | .link _ => "symbolic link".toList
  | _ => "character special file".toList

/-- The kind and the permissions of an entry as one number. -/
def kindAndMode (n : Node) : Nat :=
  modeOf n + match n with
    | .file _ => 0o100000
    | .directory _ => 0o40000
    | .link _ => 0o120000
    | _ => 0o20000

/-- A number that tells an entry from others. -/
def numberOf : Node → Nat
  | .file f => f.id
  | .directory d => d.id
  | _ => 0

/-- The numbers of a device. -/
def deviceOf : Node → Nat × Nat
  | .device .null => (1, 3)
  | .device .zero => (1, 5)
  | .device .full => (1, 7)
  | .device .random => (1, 8)
  | .device .terminal => (5, 0)
  | _ => (0, 0)

/-- The kind and the permissions of an entry in letters. -/
def modeText (n : Node) : Chars := letterOf n :: PermissionChange.text (modeOf n)

/-- The letters for powers of a thousand. -/
def powerLetters : Chars := "KMGTPEZYRQ".toList

/-- A number with the letter for its power of a base; parts are rounded up.  Every step takes a
letter. -/
def humanFrom (base : Nat) (letters : Chars) (unit : Nat) : Chars → Nat → Chars
  | [], n => Chars.ofNat n
  | c :: cs, n =>
    let unit := unit * base
    let tenths := (n * 10 + unit - 1) / unit
    let whole := (n + unit - 1) / unit
    if tenths < 100 then Chars.ofNat (tenths / 10) ++ '.' :: Chars.ofNat (tenths % 10) ++ [c]
    else if whole < base || cs = [] then Chars.ofNat whole ++ [c]
    else humanFrom base letters unit cs n

/-- A number as people read it, in powers of a base. -/
def human (base n : Nat) : Chars :=
  let letters := if base = 1000 then powerLetters.map fun c ↦ if c = 'K' then 'k' else c
    else powerLetters
  if n < base then Chars.ofNat n else humanFrom base letters 1 letters n

/-- The kind and the permissions of a directory. -/
example : modeText (.directory Tree.root) = "drwxr-xr-x".toList := by decide +kernel

/-- Parts are rounded up. -/
example : (human 1024 1025, human 1024 10241, human 1024 1048575) =
    ("1.1K".toList, "11K".toList, "1.0M".toList) := by decide +kernel

end ContractBuild.Utility.EntryFacts
