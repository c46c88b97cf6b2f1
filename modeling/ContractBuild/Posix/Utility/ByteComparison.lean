import ContractBuild.Posix.Text.Octets
import ContractBuild.Posix.Utility.Count
import ContractBuild.Posix.Utility.Stream

/-!
# Comparing bytes

A utility that says where two inputs differ.
-/

namespace ContractBuild.Utility

/-- Says where help can be found, in the name of a program. -/
def pointToHelpWithName {α : Type} (name : Chars) (code : Nat) : Routine α := do
  warn name ("Try '".toList ++ name ++ " --help' for more information.".toList)
  Routine.exit code

/-- Says what is wrong with a call, and where help can be found, in the name of a program. -/
def refuseWithName {α : Type} (name : Chars) (code : Nat) (message : Chars) : Routine α := do
  warn name message
  pointToHelpWithName name code

/-- The options and the other arguments of a call, which must be right; whatever is said about it is
said in the name of a program. -/
def readCallWithName (name : Chars) (code : Nat) (flags : List Flag) (args : List Chars) :
    Routine Call :=
  match Flag.read flags true args with
  | .ok c => pure c
  | .error message => refuseWithName name code message

/-- How bytes are compared. -/
structure ByteComparison where
  /-- All differences are shown. -/
  showsAll : Bool
  /-- The bytes that differ are shown. -/
  showsBytes : Bool
  /-- Nothing is said. -/
  isSilent : Bool

namespace ByteComparison

/-- The character of a byte with its first bit in view. -/
def shownByte (b : UInt8) : Chars :=
  (if 128 ≤ b.toNat then "M-".toList else []) ++ withCaret (b.toNat % 128)

/-- A byte as an octal number with three places. -/
def octal (b : UInt8) : Chars :=
  let ds := Nat.toDigits 8 b.toNat
  List.replicate (3 - ds.length) ' ' ++ ds

/-- The line about one difference among all. -/
def differenceLine (c : ByteComparison) (width place : Nat) (a b : UInt8) : Chars :=
  let number := Chars.ofNat place
  let first := shownByte a
  Chars.line (List.replicate (width - number.length) ' ' ++ number ++ ' ' :: octal a ++
    (if c.showsBytes then ' ' :: first ++ List.replicate (4 - first.length) ' ' else []) ++
    ' ' :: octal b ++ if c.showsBytes then ' ' :: shownByte b else [])

/-- The bytes at which two contents differ, each with its place. -/
def differences : Nat → Bytes → Bytes → List (Nat × UInt8 × UInt8)
  | place, a :: as, b :: bs =>
    let rest := differences (place + 1) as bs
    if a = b then rest else (place, a, b) :: rest
  | _, _, _ => []

/-- The number of the line with a place. -/
def lineAt (bs : Bytes) (place : Nat) : Nat := (bs.take (place - 1)).count 0x0A + 1

/-- What is said about the end of a content. -/
def endMessage (c : ByteComparison) (file : Chars) (content : Bytes) : Chars :=
  let place := Chars.ofNat content.length
  let lines := content.count 0x0A
  "EOF on ".toList ++ file ++
    if content = [] then " which is empty".toList
    else " after byte ".toList ++ place ++
      if c.showsAll then []
      else if content.getLast? = some 0x0A then ", line ".toList ++ Chars.ofNat lines
      else ", in line ".toList ++ Chars.ofNat (lines + 1)

/-- Compares two contents. -/
def report (c : ByteComparison) (name : Chars) (isWide : Bool) (width : Nat) (first second : Chars)
    (as bs : Bytes) : Routine Nat := do
  let found := differences 1 as bs
  if c.isSilent then return if as = bs then 0 else 1
  if c.showsAll then
    emitBytes name 2 (Chars.toBytes (found.flatMap fun (k, a, b) ↦ c.differenceLine width k a b))
  else if let (k, a, b) :: _ := found then
    let unit := if isWide || c.showsBytes then " differ: byte " else " differ: char "
    emitBytes name 2 (Chars.toBytes (Chars.line (first ++ ' ' :: second ++ unit.toList ++
      Chars.ofNat k ++ ", line ".toList ++ Chars.ofNat (lineAt as k) ++
      if c.showsBytes then " is ".toList ++ octal a ++ ' ' :: shownByte a ++ ' ' :: octal b ++
        ' ' :: shownByte b else [])))
    return 1
  if as.length = bs.length then return if found = [] then 0 else 1
  let (file, content) := if as.length < bs.length then (first, as) else (second, bs)
  warn name (c.endMessage file content)
  return 1

end ByteComparison

/-- How many bytes of both inputs are left out. -/
def skipCounts (name : Chars) (c : Call) : Routine (Nat × Nat) := do
  let read := fun (w : Chars) ↦ do
    match Amount.read Amount.sizeLetters w with
    | .ok n => pure n
    | .error _ =>
      (refuseWithName name 2 ("invalid --ignore-initial value '".toList ++ w ++ ['\'']) :
        Routine Nat)
  let fromOption ← (match c.value? 'i' with
    | some w =>
      match w.span (· ≠ ':') with
      | (a, _ :: b) => do return (← read a, ← read b)
      | (a, []) => do
        let n ← read a
        return (n, n)
    | none => return (0, 0))
  match c.operands.drop 2 with
  | [] => return fromOption
  | [a] => return (← read a, fromOption.2)
  | [a, b] => return (← read a, ← read b)
  | _ :: _ :: extra :: _ => refuseWithName name 2 ("extra operand '".toList ++ extra ++ ['\''])

/-- The content of an input; the reading of it must be possible. -/
def readCompared (name : Chars) (isSilent : Bool) (file : Chars) : Routine Bytes := do
  match ← openInput file with
  | .error e => if isSilent then Routine.exit 2 else fail name 2 (because file e)
  | .ok n =>
    match ← Routine.readAll n with
    | .ok bs =>
      closeInput n
      return bs
    | .error e => fail name 2 (because file e)

/-- Whether two inputs are the same file at the same place. -/
def isSameInput (first second : Chars) : Routine Bool := do
  if first = second then return true
  if isStandard first || isStandard second then return false
  Routine.look fun h ↦ h.sameEntry (Chars.toPath first) (Chars.toPath second)

/-- Says where two inputs differ. -/
def cmp : Program := fun args _ ↦ do
  let name := args.headD []
  let c ← readCallWithName name 2 (plainFlags [('b', "print-bytes"), ('c', ""), ('l', "verbose"),
    ('s', "quiet"), ('s', "silent")] ++ valueFlags [('i', "ignore-initial"), ('n', "bytes")])
    args.tail
  let limit ← (match c.value? 'n' with
    | some w =>
      match Amount.read Amount.sizeLetters w with
      | .ok n => return some n
      | .error _ => refuseWithName name 2 ("invalid --bytes value '".toList ++ w ++ ['\''])
    | none => return none)
  if c.has 'l' && c.has 's' then
    refuseWithName name 2 "options -l and -s are incompatible".toList
  if c.operands = [] then
    refuseWithName name 2 ("missing operand after '".toList ++ args.getLastD name ++ ['\''])
  let (skipFirst, skipSecond) ← skipCounts name c
  let o : ByteComparison := ⟨c.has 'l', c.has 'b' || c.has 'c', c.has 's'⟩
  let first := c.operands.headD []
  let second := (c.operands.drop 1).headD ['-']
  if skipFirst = skipSecond then
    if ← isSameInput first second then
      match ← openInput first with
      | .ok n =>
        closeInput n
        return 0
      | .error e => if o.isSilent then Routine.exit 2 else fail name 2 (because first e)
  let limited := fun (skip : Nat) (bs : Bytes) ↦ (bs.drop skip).take (limit.getD bs.length)
  let as ← readCompared name o.isSilent first
  let bs ← readCompared name o.isSilent second
  let sizes ← [first, second].mapM inputSize?
  let longest := ((sizes.zip [skipFirst, skipSecond]).filterMap fun e ↦ e.1.map (· - e.2)).foldl min
    (limit.getD Numeral.greatest.toNat)
  let width := (Chars.ofNat longest).length
  o.report name (← Routine.self).isWide width first second (limited skipFirst as)
    (limited skipSecond bs)

/-- Two differences, the first one in the second line. -/
example : ByteComparison.differences 1 [97, 10, 98] [97, 10, 99] = [(3, 98, 99)] ∧
    ByteComparison.lineAt [97, 10, 98] 3 = 2 := by decide +kernel

end ContractBuild.Utility
