import ContractBuild.Posix.Utility.Amount
import ContractBuild.Posix.Utility.Order

/-!
# Repeated lines

Lines that repeat the one before are dropped, or set apart from those that do not.
-/

namespace ContractBuild.Utility

/-- Which lines of a group are written. -/
inductive Kept
  /-- The first one. -/
  | first
  /-- The first one, if there are more. -/
  | repeated
  /-- The first one, if there are no more. -/
  | single
  /-- All of them, if there are more than one. -/
  | allRepeated
  /-- All of them. -/
  | all
  /-- None of them. -/
  | nothing
  deriving DecidableEq

/-- Where lines stand that set groups apart. -/
structure Gaps where
  /-- In front of every group. -/
  front : Bool
  /-- Between groups. -/
  between : Bool
  /-- Behind the last group. -/
  behind : Bool

/-- How groups are set apart by a word. -/
def Gaps.ofWord (w : String) : Gaps :=
  match w with
  | "prepend" => ⟨true, false, false⟩
  | "append" => ⟨false, true, true⟩
  | "both" => ⟨true, false, true⟩
  | "separate" => ⟨false, true, false⟩
  | _ => ⟨false, false, false⟩

/-- What of a line is compared. -/
structure ComparedPart where
  /-- How many fields are left out. -/
  fields : Nat
  /-- How many characters are left out behind them. -/
  chars : Nat
  /-- How many characters count. -/
  width : Option Nat
  /-- Whether small letters count as capitals. -/
  isFolded : Bool

/-- The part of a line that is compared. -/
def ComparedPart.of (k : ComparedPart) (line : Chars) : Chars :=
  let rest := (List.range k.fields).foldl (fun cs _ ↦
    (cs.dropWhile isLineBlank).dropWhile (!isLineBlank ·)) line
  let rest := rest.drop k.chars
  let rest := match k.width with
    | some n => rest.take n
    | none => rest
  if k.isFolded then rest.map Char.toLower else rest

/-- The lines of a text in groups of those that follow each other with the same compared part. -/
def groupLines (key : Chars → Chars) : List Chars → List (List Chars)
  | [] => []
  | l :: ls =>
    match groupLines key ls with
    | (m :: ms) :: rest =>
      if key l = key m then (l :: m :: ms) :: rest else [l] :: (m :: ms) :: rest
    | rest => [l] :: rest

/-- The lines of a group that are written. -/
def Kept.lines (k : Kept) (group : List Chars) : List Chars :=
  match k with
  | .first => group.take 1
  | .repeated => if 1 < group.length then group.take 1 else []
  | .single => if group.length = 1 then group else []
  | .allRepeated => if 1 < group.length then group else []
  | .all => group
  | .nothing => []

/-- Groups that are set apart. -/
def Gaps.apply (g : Gaps) (groups : List (List Chars)) : List Chars :=
  if groups = [] then []
  else
    let front := if g.front then [[]] else []
    let between := if g.front || g.between then [[]] else ([] : List Chars)
    front ++ (groups.intersperse between).flatten ++ if g.behind then [[]] else []

/-- A number in front of a line. -/
def countedLine (n : Nat) (line : Chars) : Chars :=
  let ds := Chars.ofNat n
  List.replicate (7 - ds.length) ' ' ++ ds ++ ' ' :: line

/-- The options for repeated lines. -/
def repetitionFlags : List Flag :=
  plainFlags [('c', "count"), ('d', "repeated"), ('D', ""), ('u', "unique"),
    ('i', "ignore-case"), ('z', "zero-terminated")] ++
    valueFlags [('f', "skip-fields"), ('s', "skip-chars"), ('w', "check-chars")] ++
    [⟨'\x01', "all-repeated", .optional⟩, ⟨'\x02', "group", .optional⟩]

/-- The old forms of the numbers of fields and characters that are left out, in the form of today.
-/
def withOldSkips (args : List Chars) : List Chars := args.map fun a ↦ match a with
  | '-' :: d :: ds => if d.isDigit && ds.all Char.isDigit then '-' :: 'f' :: d :: ds else a
  | '+' :: d :: ds => if d.isDigit && ds.all Char.isDigit then '-' :: 's' :: d :: ds else a
  | a => a

/-- A number that an option gives. -/
def skipOf (name : Chars) (c : Call) (letter : Char) (what : String) : Routine (Option Nat) :=
  match c.value? letter with
  | none => pure none
  | some w => match Amount.read [] w with
    | .ok n => pure (some n)
    | .error (some _) => pure (some Numeral.wordCount)
    | .error none => fail name 1 (w ++ ": ".toList ++ what.toList)

/-- How groups are written that a call asks for. -/
def writingOf (name : Chars) (c : Call) : Routine (Kept × Gaps) := do
  match c.value? '\x02' with
  | some w =>
    let word ← if w = [] then pure "separate"
      else readWord name 1 "--group" [["prepend"], ["append"], ["separate"], ["both"]] w
    if c.has 'c' || c.has 'd' || c.has 'D' || c.has '\x01' || c.has 'u' then
      refuse name 1 "--group is mutually exclusive with -c/-d/-D/-u".toList
    return (.all, .ofWord word)
  | none =>
    let word ← match c.value? '\x01' with
      | none | some [] => pure "none"
      | some w => readWord name 1 "--all-repeated" [["none"], ["prepend"], ["separate"]] w
    let isAll := c.has 'D' || c.has '\x01'
    if isAll && c.has 'c' then
      refuse name 1 "printing all duplicated lines and repeat counts is meaningless".toList
    let kept : Kept := match isAll, c.has 'd', c.has 'u' with
      | true, _, _ => .allRepeated
      | false, true, true => .nothing
      | false, true, false => .repeated
      | false, false, true => .single
      | false, false, false => .first
    return (kept, Gaps.ofWord word)

/-- Drops lines that repeat the one before. -/
def uniq : Program := fun args _ ↦ do
  let name := args.headD []
  let c ← readCall name 1 repetitionFlags true (withOldSkips args.tail)
  if let _ :: _ :: extra :: _ := c.operands then extraOperand name 1 extra
  let fields ← skipOf name c 'f' "invalid number of fields to skip"
  let chars ← skipOf name c 's' "invalid number of bytes to skip"
  let width ← skipOf name c 'w' "invalid number of bytes to compare"
  let key : ComparedPart := ⟨fields.getD 0, chars.getD 0, width, c.has 'i'⟩
  let (kept, gaps) ← writingOf name c
  let last := lastOfLines c 'z'
  let source := c.operands.headD ['-']
  let n ← match ← openInput source with
    | .ok n => pure n
    | .error e => fail name 1 (because (shown source) e)
  let target ← match c.operands with
    | [_, file] =>
      if isStandard file then pure 1
      else match ← Routine.openPath (Chars.toPath file) .forWriting Routine.usualMode with
        | .error e => fail name 1 (because (shown file) e)
        | .ok k => pure k
    | _ => pure 1
  match ← Routine.readAll n with
  | .error e => fail name 1 ("error reading ".toList ++ because (quoted source) e)
  | .ok bs =>
    let groups := (groupLines key.of (Chars.records last (Chars.ofBytes bs))).map fun g ↦
      (kept.lines g).map fun l ↦ if c.has 'c' then countedLine g.length l else l
    let output := (gaps.apply (groups.filter (· ≠ []))).flatMap (· ++ [last])
    match ← Routine.print target output with
    | .ok () => return 0
    | .error e => fail name 1 (because "write error".toList e)

/-- Of lines that are the same but for their case the first one is kept. -/
example : (groupLines (ComparedPart.of ⟨0, 0, none, true⟩) [['a'], ['A'], ['b']]).map
    Kept.first.lines = [[['a']], [['b']]] := by decide +kernel

end ContractBuild.Utility
