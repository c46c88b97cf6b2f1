import ContractBuild.Posix.Text.Chars

/-!
# Permissions

Changes of permissions as they are written: as an octal number, or as clauses that say for whom
which permissions are added, taken away or set.
-/

namespace ContractBuild

/-- How a clause changes permissions. -/
inductive PermissionAct
  /-- They are added. -/
  | add
  /-- They are taken away. -/
  | remove
  /-- They are set. -/
  | set
  deriving DecidableEq, Repr

/-- Which permissions a clause is about. -/
inductive PermissionSource
  /-- These ones. -/
  | bits (bits : Nat)
  /-- These ones, and running where that makes sense. -/
  | bitsOrRun (bits : Nat)
  /-- The ones that these users have already. -/
  | same (bits : Nat)
  deriving DecidableEq, Repr

/-- A change of permissions. -/
structure PermissionChange where
  /-- The bits of the users that it is about; none where nobody is named. -/
  who : Nat
  /-- What is done. -/
  act : PermissionAct
  /-- With which permissions. -/
  source : PermissionSource
  /-- The bits that a directory loses only if they are named. -/
  named : Nat
  deriving DecidableEq, Repr

namespace PermissionChange

/-- All bits of permissions. -/
def allBits : Nat := 0o7777

/-- The bits of the users that a letter names. -/
def userBits? : Char → Option Nat
  | 'u' => some 0o4700
  | 'g' => some 0o2070
  | 'o' => some 0o1007
  | 'a' => some allBits
  | _ => none

/-- The bits of a permission. -/
def bits? : Char → Option Nat
  | 'r' => some 0o444
  | 'w' => some 0o222
  | 'x' => some 0o111
  | 's' => some 0o6000
  | 't' => some 0o1000
  | 'X' => some 0
  | _ => none

/-- What a sign does. -/
def act? : Char → Option PermissionAct
  | '+' => some .add
  | '-' => some .remove
  | '=' => some .set
  | _ => none

/-- The number that octal digits spell, if it is one of permissions. -/
def octal? (cs : Chars) : Option Nat :=
  if cs ≠ [] && cs.all (fun c ↦ '0' ≤ c && c ≤ '7') then
    let n := cs.foldl (fun n c ↦ n * 8 + (c.toNat - '0'.toNat)) 0
    if n ≤ allBits then some n else none
  else none

/-- The permissions at the front of a text, and what follows them. -/
def readSource (cs : Chars) : PermissionSource × Chars :=
  let same := match cs with
    | c :: rest => if "ugo".toList.contains c then
        (userBits? c).map fun b ↦ (PermissionSource.same (b &&& 0o777), rest) else none
    | [] => none
  match same with
  | some r => r
  | none =>
    let (letters, rest) := cs.span fun c ↦ (bits? c).isSome
    let bits := letters.foldl (fun n c ↦ n ||| (bits? c).getD 0) 0
    (if letters.contains 'X' then .bitsOrRun bits else .bits bits, rest)

/-- The changes for some users.  Every step takes a sign. -/
def readActs (who : Nat) : Nat → Chars → Option (List PermissionChange)
  | 0, _ => none
  | n + 1, cs =>
    match cs with
    | [] => some []
    | c :: cs =>
      match act? c with
      | none => none
      | some act =>
        let (source, rest) := readSource cs
        (readActs who n rest).map (⟨who, act, source, match source with
          | .bits b | .bitsOrRun b => if who = 0 then b else who &&& b
          | .same _ => 0⟩ :: ·)

/-- The changes of one clause. -/
def readClause (cs : Chars) : Option (List PermissionChange) :=
  let (users, rest) := cs.span fun c ↦ (userBits? c).isSome
  if rest = [] then none
  else readActs (users.foldl (fun n c ↦ n ||| (userBits? c).getD 0) 0) cs.length rest

/-- The changes that a text describes. -/
def read (cs : Chars) : Option (List PermissionChange) :=
  match octal? cs with
  | some n => some [⟨allBits, .set, .bits n, if 4 < cs.length then allBits else n &&& allBits⟩]
  | none =>
    if cs.head?.any Char.isDigit then none
    else (Chars.splitOn (· = ',') cs).foldr
      (fun c cs ↦ do return (← readClause c) ++ (← cs)) (some [])

/-- Bits without those of others. -/
def without (bits others : Nat) : Nat := bits - (bits &&& others)

/-- The bits of all users that have what somebody has among these. -/
def spread (bits : Nat) : Nat :=
  ([0o444, 0o222, 0o111].filter fun b ↦ bits &&& b ≠ 0).foldl (· ||| ·) 0

/-- The permissions after a change; where nobody is named the mask protects what it holds. -/
def apply (isDirectory : Bool) (mask before : Nat) (c : PermissionChange) : Nat :=
  let kept := if isDirectory then without 0o6000 c.named else 0
  let value := match c.source with
    | .bits b => b
    | .bitsOrRun b => if isDirectory || before &&& 0o111 ≠ 0 then b ||| 0o111 else b
    | .same b => spread (before &&& b)
  let value := without (if c.who = 0 then without value mask else value &&& c.who) kept
  match c.act with
  | .add => before ||| value
  | .remove => without before value
  | .set =>
    let preserved := (if c.who = 0 then 0 else without allBits c.who) ||| kept
    (before &&& preserved) ||| value

/-- The permissions after changes. -/
def applyAll (isDirectory : Bool) (mask before : Nat) (cs : List PermissionChange) : Nat :=
  cs.foldl (apply isDirectory mask) before

/-! ## Wording -/

/-- The three letters for one kind of users. -/
def letters (mode shift : Nat) (special : Bool) (mark : Char) : Chars :=
  let bits := mode >>> shift
  let run := bits.testBit 0
  [if bits.testBit 2 then 'r' else '-', if bits.testBit 1 then 'w' else '-',
    if special then (if run then mark else mark.toUpper) else if run then 'x' else '-']

/-- Permissions as nine letters. -/
def text (mode : Nat) : Chars :=
  letters mode 6 (mode.testBit 11) 's' ++ letters mode 3 (mode.testBit 10) 's' ++
    letters mode 0 (mode.testBit 9) 't'

/-- Permissions as an octal number with four digits. -/
def digits (mode : Nat) : Chars :=
  let ds := Nat.toDigits 8 mode
  List.replicate (4 - ds.length) '0' ++ ds

/-- A number sets all permissions. -/
example : (read "755".toList).map (applyAll false 0o22 0o600) = some 0o755 := by decide +kernel

/-- Clauses are applied one after the other. -/
example : (read "u+x,go=u".toList).map (applyAll false 0o22 0o600) = some 0o777 := by
  decide +kernel

/-- Where nobody is named the mask counts. -/
example : (read "+w".toList).map (applyAll false 0o22 0o444) = some 0o644 := by decide +kernel

end PermissionChange

end ContractBuild
