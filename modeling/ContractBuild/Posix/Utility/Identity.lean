import ContractBuild.FileSystem.Users
import ContractBuild.Posix.Utility.Basic

/-!
# Who users are

The program that says who a user is, and the one that says to which groups a user belongs.  Every
user belongs to one group.
-/

namespace ContractBuild.Utility

/-- The user that a word names or numbers. -/
def userOf? (w : Chars) : Option User :=
  match User.named? (Chars.toString w) with
  | some u => some u
  | none => (Chars.toNat? (if w.head? = some '+' then w.tail else w)).bind User.numbered?

/-- The number of the user that a word names or numbers, whether there is such a user or not. -/
def userNumberOf? (w : Chars) : Option Nat :=
  match User.named? (Chars.toString w) with
  | some u => some u.number
  | none => Chars.toNat? (if w.head? = some '+' then w.tail else w)

/-- The group that a word names or numbers, by its number. -/
def groupOf? (w : Chars) : Option Nat :=
  match User.group? (Chars.toString w) with
  | some n => some n
  | none => Chars.toNat? (if w.head? = some '+' then w.tail else w)

/-- The user who runs the processes. -/
def thisUser : User := (User.numbered? 0).getD ⟨"root", 0, 0, "root", "/root", "/bin/sh"⟩

/-- The name of a group, or its number if it has none. -/
def groupName (n : Nat) : Chars :=
  match User.groups.find? (·.2 = n) with
  | some g => g.1.toList
  | none => Chars.ofNat n

/-- A number with the name that it stands for. -/
def numberWithName (n : Nat) (name : Chars) : Chars := Chars.ofNat n ++ '(' :: name ++ [')']

/-- All about a user. -/
def allAbout (u : User) : Chars :=
  let group := numberWithName u.group (groupName u.group)
  "uid=".toList ++ numberWithName u.number u.name.toList ++ " gid=".toList ++ group ++
    " groups=".toList ++ group

/-- Writes who users are. -/
def identify : Program := fun args _ ↦ do
  let name := args.headD []
  let c ← readCall name 1 (plainFlags [('a', ""), ('Z', "context"), ('g', "group"),
    ('G', "groups"), ('n', "name"), ('r', "real"), ('u', "user"), ('z', "zero")]) true args.tail
  if c.has 'Z' then
    fail name 1 "--context (-Z) works only on an SELinux-enabled kernel".toList
  let chosen := ['u', 'g', 'G'].filter c.has
  if 1 < chosen.length then fail name 1 "cannot print \"only\" of more than one choice".toList
  if chosen = [] && (c.has 'r' || c.has 'n') then
    fail name 1 "cannot print only names or real IDs in default format".toList
  if chosen = [] && c.has 'z' then
    fail name 1 "option --zero not permitted in default format".toList
  let text := fun (u : User) ↦ match chosen with
    | ['u'] => if c.has 'n' then u.name.toList else Chars.ofNat u.number
    | [_] => if c.has 'n' then groupName u.group else Chars.ofNat u.group
    | _ => allAbout u
  let last := if c.has 'z' then
      (if chosen = ['G'] && 1 < c.operands.length then ['\x00', '\x00'] else ['\x00'])
    else ['\n']
  if c.operands = [] then
    emit name (text thisUser ++ last)
    return 0
  forStatus (fun w ↦ do
    match userOf? w with
    | some u =>
      emit name (text u ++ last)
      return 0
    | none =>
      warn name (cited w ++ ": no such user".toList)
      return 1) c.operands

/-- Writes to which groups users belong. -/
def groups : Program := fun args _ ↦ do
  let name := args.headD []
  let c ← readCall name 1 [] true args.tail
  if c.operands = [] then
    emit name (Chars.line (groupName thisUser.group))
    return 0
  forStatus (fun w ↦ do
    match userOf? w with
    | some u =>
      emit name (Chars.line (w ++ " : ".toList ++ groupName u.group))
      return 0
    | none =>
      warn name (cited w ++ ": no such user".toList)
      return 1) c.operands

end ContractBuild.Utility
