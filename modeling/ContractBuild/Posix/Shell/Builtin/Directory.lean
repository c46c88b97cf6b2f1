import ContractBuild.Posix.Permission
import ContractBuild.Posix.Shell.Builtin.Basic

/-!
# Commands for the current directory and the mask of permissions

The shell knows its current directory by the path that led there, in which links are not replaced.
-/

namespace ContractBuild.Shell.Builtin

/-- The path of the current directory without links, if it is still there. -/
def physicalPath : Action (Option Chars) := do
  match ← (Routine.look fun h ↦ h.currentDir : Routine _) with
  | .ok p => return some (Chars.ofPath p)
  | .error e =>
    warn ("getcwd() failed: ".toList ++ e.reason.toList)
    return none

/-- Notes the current directory. -/
def noteDirectory (path : Option Chars) : Action Unit := do
  Action.modify fun s ↦ { s with directory := path }
  setVariable "PWD".toList (some (path.getD [])) true

/-- The pieces of a path behind others, the last one first; what leads up takes one away. -/
def withPieces (done : List Chars) (pieces : List Chars) : List Chars :=
  pieces.foldl (fun done p ↦
    if p = [] || p = ['.'] then done
    else if p = ['.', '.'] then done.tail
    else p :: done) done

/-- The path that leads from a directory to a place, without steps that lead up. -/
def followed (directory path : Chars) : Chars :=
  let isTwice := fun (cs : Chars) ↦
    "//".toList.isPrefixOf cs && !"///".toList.isPrefixOf cs
  let split := Chars.splitOn (· = '/')
  let isAbsolute := path.head? = some '/'
  let start := if isAbsolute then [] else withPieces [] (split directory)
  let root := if isTwice (if isAbsolute then path else directory) then "//".toList else ['/']
  root ++ Chars.join ['/'] (withPieces start (split path)).reverse

/-- Goes to a directory, and says whether that was possible. -/
def enter (isPhysical : Bool) (path : Chars) : Action Bool := do
  let s ← Action.state
  let target := if isPhysical then none else
    if path.head? = some '/' then some (followed [] path) else s.directory.map (followed · path)
  let dest := target.getD path
  match ← (Routine.changeDirectory (Chars.toPath dest) : Routine _) with
  | .error _ => return false
  | .ok () =>
    setVariable "OLDPWD".toList (some (s.directory.getD [])) true
    match target with
    | some t => noteDirectory (some t)
    | none => noteDirectory (← physicalPath)
    return true

/-- Whether a path says itself where it starts. -/
def isAnchored (path : Chars) : Bool :=
  match path with
  | '/' :: _ | ['.'] | '.' :: '/' :: _ | ['.', '.'] | '.' :: '.' :: '/' :: _ => true
  | _ => false

/-- The first directory of a search path that holds a directory of some name, and whether the
search path names it. -/
def searched (h : Host) (search : Option Chars) (name : Chars) : Option (Chars × Bool) :=
  match search with
  | none => none
  | some dirs => (Chars.splitOn (· = ':') dirs).findSome? fun dir ↦
      let path := if dir = [] then name else dir ++ '/' :: name
      if h.isDirectory (Chars.toPath path) then some (path, dir ≠ []) else none

/-- Whether the last option asks for paths without links. -/
def asksPhysical (options : List (Char × Chars)) : Bool :=
  (options.getLast?.map (·.1)) = some 'P'

/-- Goes to another directory. -/
def cd : Builtin := fun args ↦ do
  let (options, args) ← options ⟨['L', 'P'], []⟩ args
  let s ← Action.state
  let isPhysical := asksPhysical options
  let isBack := args.head? = some ['-']
  let wanted := match args with
    | [] => (s.valueOf? "HOME".toList).getD []
    | ['-'] :: _ => (s.valueOf? "OLDPWD".toList).getD []
    | path :: _ => path
  let path := if wanted = [] then ['.'] else wanted
  let found ← (if isAnchored wanted then pure none else
    Routine.look fun h ↦ searched h (s.valueOf? "CDPATH".toList) path : Routine _)
  let (dest, isTold) := found.getD (path, false)
  if !(← enter isPhysical dest) then fail ("can't cd to ".toList ++ dest)
  if isBack || isTold then finishLines [((← Action.state).directory.getD [])] 0 else return 0

/-- Shows the current directory. -/
def pwd : Builtin := fun args ↦ do
  let (options, _) ← options ⟨['L', 'P'], []⟩ args
  let path ← (if asksPhysical options then physicalPath else
    State.directory <$> Action.state : Action _)
  finishLines [path.getD []] 0

/-! ## The mask of permissions -/

/-- The permissions of one kind of user, as letters. -/
def permissionLetters (bits : Nat) : Chars :=
  (if bits.testBit 2 then ['r'] else []) ++ (if bits.testBit 1 then ['w'] else []) ++
    if bits.testBit 0 then ['x'] else []

/-- The permissions that a mask leaves, as letters. -/
def showMask (mask : Nat) : Chars :=
  let left := PermissionChange.without 0o777 mask
  "u=".toList ++ permissionLetters (left / 64) ++ ",g=".toList ++ permissionLetters (left / 8) ++
    ",o=".toList ++ permissionLetters left

/-- The four octal digits of a mask. -/
def maskDigits (mask : Nat) : Chars :=
  let digits := Nat.toDigits 8 mask
  List.replicate (4 - digits.length) '0' ++ digits

/-- The mask that a word describes. -/
def maskOf (mask : Nat) (w : Chars) : Except Chars Nat :=
  if w.head?.any Char.isDigit then
    if w.all fun c ↦ '0' ≤ c && c ≤ '7' then
      .ok (w.foldl (fun n c ↦ n * 8 + (c.toNat - '0'.toNat)) 0 % 0o1000)
    else .error ("Illegal number: ".toList ++ w)
  else
    match PermissionChange.read w with
    | some changes =>
      let left := PermissionChange.without 0o777 mask
      .ok (PermissionChange.without 0o777 (PermissionChange.applyAll false 0 left changes))
    | none => .error ("Illegal mode: ".toList ++ w)

/-- Sets or shows the mask of permissions. -/
def umask : Builtin := fun args ↦ do
  let (options, args) ← options ⟨['S'], []⟩ args
  let mask := (← (Routine.self : Routine _)).mask
  match args with
  | [] => finishLines [if options.isEmpty then maskDigits mask else showMask mask] 0
  | w :: _ =>
    match maskOf mask w with
    | .error message => fail message
    | .ok mask =>
      (Routine.onSelf fun q ↦ { q with mask } : Routine _)
      return 0

/-- Steps that lead up are taken back. -/
example : followed "/a/b".toList "../c/./d".toList = "/a/c/d".toList := by decide +kernel

end ContractBuild.Shell.Builtin
