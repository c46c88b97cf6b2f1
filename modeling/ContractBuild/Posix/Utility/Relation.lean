import ContractBuild.Posix.Utility.Order
import ContractBuild.Posix.Utility.Amount
import ContractBuild.Posix.Utility.Field

/-!
# Comparing sorted inputs

Two inputs whose lines are sorted are gone through side by side: which lines they have in common, or
which lines belong together because they have a field in common.  An input that is not sorted is
noticed where that can matter.
-/

namespace ContractBuild.Utility

/-- How far it is checked that inputs are sorted. -/
inductive OrderCheck
  /-- Once a line has been without a counterpart. -/
  | whereNeeded
  /-- From the start; what is wrong ends all. -/
  | always
  /-- Not at all. -/
  | never
  deriving DecidableEq

/-- The check that a call asks for. -/
def OrderCheck.ofCall (c : Call) (always never : Char) : OrderCheck :=
  match c.lastOf? [always, never] with
  | none => .whereNeeded
  | some letter => if letter = always then .always else .never

/-- An input that is gone through. -/
structure SortedInput where
  /-- Its name. -/
  name : Chars
  /-- Its number. -/
  number : Nat
  /-- The line that is looked at and those behind it. -/
  lines : List Chars
  /-- How many lines have come. -/
  count : Nat
  /-- The line before that one. -/
  before : Option Chars
  /-- Whether it has been said that it is not sorted. -/
  isBlamed : Bool

/-- The input of a number with these lines. -/
def SortedInput.start (name : Chars) (number : Nat) (lines : List Chars) : SortedInput :=
  ⟨name, number, lines, 1, none, false⟩

/-- How the order of an input is checked. -/
structure Checking where
  /-- The name of the program. -/
  program : Chars
  /-- How far it is checked. -/
  check : OrderCheck
  /-- The order of two lines of the input of a number. -/
  compare : Nat → Chars → Chars → Ordering
  /-- The complaint about the input of this name and number, and about a line of it with its number.
  -/
  message : Chars → Nat → Nat → Chars → Chars

/-- Checks that a line may come behind another one. -/
def Checking.pair (k : Checking) (seen : Bool) (a b : Chars) (count : Nat) (s : SortedInput) :
    Routine SortedInput := do
  let isDue := k.check = .always || (k.check = .whereNeeded && seen)
  if isDue && !s.isBlamed && k.compare s.number a b = .gt then
    warn k.program (k.message s.name s.number count b)
    if k.check = .always then Routine.exit 1
    return { s with isBlamed := true }
  return s

/-- Goes on to the next line of an input, where it is known whether a line has been without a
counterpart.  At the end the last two lines are looked at again. -/
def Checking.advance (k : Checking) (seen isLastChecked : Bool) (s : SortedInput) :
    Routine SortedInput := do
  match s.lines with
  | [] => return s
  | a :: rest =>
    let next := { s with lines := rest, before := some a, count := s.count + 1 }
    match rest, s.before with
    | b :: _, _ => k.pair seen a b next.count next
    | [], some z => if isLastChecked then k.pair seen z a s.count next else return next
    | [], none => return next

/-- The status of going through inputs; that one is not sorted is an error in the end. -/
def Checking.status (k : Checking) (inputs : List SortedInput) : Routine Nat := do
  if inputs.any (·.isBlamed) then fail k.program 1 "input is not in sorted order".toList
  return 0

/-! ## Common lines -/

/-- Which lines of two inputs are written, and how. -/
structure Comparison where
  /-- Whether the lines of a column are written. -/
  shows : Nat → Bool
  /-- What stands in front of every further column. -/
  between : Chars
  /-- What ends a line. -/
  last : Char

/-- A line in its column. -/
def Comparison.row (x : Comparison) (column : Nat) (line : Chars) : Chars :=
  if !x.shows column then []
  else
    let gaps := ((List.range column).filter fun k ↦ 0 < k && x.shows k).flatMap fun _ ↦ x.between
    gaps ++ line ++ [x.last]

/-- Goes through two inputs and writes their lines; the value is how many lines every column has,
and the inputs.  Every step takes a line. -/
def compareInputs (k : Checking) (x : Comparison) :
    Nat → Bool → (Nat × Nat × Nat) → SortedInput → SortedInput →
      Routine ((Nat × Nat × Nat) × List SortedInput)
  | 0, _, counts, s, t => return (counts, [s, t])
  | n + 1, seen, (p, q, r), s, t => do
    let order := match s.lines, t.lines with
      | a :: _, b :: _ => some (compareChars a b)
      | _ :: _, [] => some .lt
      | [], _ :: _ => some .gt
      | [], [] => none
    match order with
    | none => return ((p, q, r), [s, t])
    | some .eq =>
      emit k.program (x.row 3 (s.lines.headD []))
      let s ← k.advance seen true s
      let t ← k.advance seen true t
      compareInputs k x n seen (p, q, r + 1) s t
    | some .lt =>
      emit k.program (x.row 1 (s.lines.headD []))
      compareInputs k x n true (p + 1, q, r) (← k.advance true true s) t
    | some .gt =>
      emit k.program (x.row 2 (t.lines.headD []))
      compareInputs k x n true (p, q + 1, r) s (← k.advance true true t)

/-- The records of an input, which must be readable. -/
def recordsOf (name : Chars) (last : Char) (file : Chars) : Routine (List Chars) := do
  match ← readInput file with
  | .ok content => return Chars.records last content
  | .error e => fail name 1 (because (shown file) e)

/-- Compares two sorted inputs line by line. -/
def comm : Program := fun args _ ↦ do
  let name := args.headD []
  let c ← readCall name 1 (plainFlags [('1', ""), ('2', ""), ('3', ""), ('z', "zero-terminated"),
    ('\x01', "check-order"), ('\x02', "nocheck-order"), ('\x03', "total")] ++
    valueFlags [('\x04', "output-delimiter")]) true args.tail
  let given := (c.flags.filter (·.1 = '\x04')).map (·.2)
  if given.any fun w ↦ some w ≠ given.head? then
    fail name 1 "multiple output delimiters specified".toList
  match c.operands with
  | [] => missingOperand name 1
  | [a] => missingBehind name 1 a
  | [a, b] =>
    let last := lastOfLines c 'z'
    let as ← recordsOf name last a
    let bs ← recordsOf name last b
    let between := match given.head? with
      | none => ['\t']
      | some [] => ['\x00']
      | some w => w
    let k : Checking := ⟨name, .ofCall c '\x01' '\x02', fun _ ↦ compareChars,
      fun _ number _ _ ↦
        "file ".toList ++ Chars.ofNat number ++ " is not in sorted order".toList⟩
    let x : Comparison := ⟨fun n ↦ !c.has (Nat.digitChar n), between, last⟩
    let ((p, q, r), inputs) ← compareInputs k x (as.length + bs.length + 1) false (0, 0, 0)
      (.start a 1 as) (.start b 2 bs)
    if c.has '\x03' then
      emit name (Chars.join between [Chars.ofNat p, Chars.ofNat q, Chars.ofNat r,
        "total".toList] ++ [last])
    leaveStandard name 1 "-" [a, b] (← k.status inputs)
  | _ :: _ :: a :: _ => extraOperand name 1 a

/-! ## Lines that belong together -/

/-- A field of an output line. -/
inductive JoinField
  /-- The field that two lines have in common. -/
  | common
  /-- The field of a number, from zero on, in the line of an input. -/
  | field (input number : Nat)

/-- How lines are joined. -/
structure Joining where
  /-- What separates fields: a character, nothing for blanks. -/
  separator : Option Char
  /-- The numbers of the common fields, from zero on. -/
  places : Nat × Nat
  /-- Small letters count as capitals. -/
  isFolded : Bool
  /-- What is written in the place of a field that is missing. -/
  filler : Chars
  /-- The fields of an output line, if they are given. -/
  format : Option (List JoinField)
  /-- How many fields the lines of the inputs get, if they all get as many. -/
  counts : Option (Nat × Nat)
  /-- Whether the lines of the inputs without a counterpart are written. -/
  showsSingle : Bool × Bool
  /-- Whether lines that belong together are written. -/
  showsPairs : Bool
  /-- What ends a line. -/
  last : Char

namespace Joining

/-- The fields of a line. -/
def fields (j : Joining) (line : Chars) : List Chars :=
  match j.separator with
  | some '\n' => [line]
  | some c => Chars.splitOn (· = c) line
  | none =>
    let isBlank := fun (c : Char) ↦ isLineBlank c || c = '\n'
    let body := line.dropWhile isBlank
    if body = [] then []
    else
      let words := (Chars.splitOn isBlank body).filter (· ≠ [])
      if body.getLast?.any isBlank then words ++ [[]] else words

/-- The number of the common field in the lines of an input. -/
def placeIn (j : Joining) (number : Nat) : Nat := if number = 1 then j.places.1 else j.places.2

/-- The common field of a line of an input. -/
def key (j : Joining) (number : Nat) (line : Chars) : Chars :=
  ((j.fields line)[j.placeIn number]?).getD []

/-- The order of two common fields. -/
def compareKeys (j : Joining) (a b : Chars) : Ordering :=
  match a, b with
  | [], [] => .eq
  | [], _ :: _ => .lt
  | _ :: _, [] => .gt
  | a, b => if j.isFolded then compareChars (a.map Char.toUpper) (b.map Char.toUpper)
    else compareChars a b

/-- A field as it is written. -/
def shown (j : Joining) (f : Option Chars) : Chars :=
  match f with
  | none | some [] => j.filler
  | some f => f

/-- The fields of a line without the common one. -/
def others (j : Joining) (number : Nat) (line : Option Chars) : List Chars :=
  let fs := (line.map j.fields).getD []
  let count := match j.counts with
    | some (m, n) => if number = 1 then m else n
    | none => fs.length
  ((List.range count).filter (· ≠ j.placeIn number)).map fun k ↦ j.shown fs[k]?

/-- The output line for two lines, one of which can be missing. -/
def row (j : Joining) (a b : Option Chars) : Chars :=
  let common := match a, b with
    | some l, _ => (j.fields l)[j.places.1]?
    | none, some l => (j.fields l)[j.places.2]?
    | none, none => none
  let fs := match j.format with
    | some format => format.map fun f ↦ match f with
      | .common => j.shown common
      | .field input k => j.shown (((if input = 1 then a else b).map j.fields).bind (·[k]?))
    | none => j.shown common :: (j.others 1 a ++ j.others 2 b)
  Chars.join [j.separator.getD ' '] fs ++ [j.last]

/-- Takes the lines of an input, whose first one is taken in any case, as long as their common field
is the same as another one; the value is these lines and the rest. -/
def takeEqual (j : Joining) (k : Checking) (seen : Bool) (key : Chars) :
    Nat → SortedInput → Routine (List Chars × SortedInput)
  | 0, s => return ([], s)
  | n + 1, s => do
    match s.lines with
    | [] => return ([], s)
    | a :: _ =>
      if j.compareKeys (j.key s.number a) key ≠ .eq then return ([], s)
      let (rest, s) ← takeEqual j k seen key n (← k.advance seen false s)
      return (a :: rest, s)

/-- Goes through the rest of an input whose lines have no counterpart. -/
def finish (j : Joining) (k : Checking) (isShown : Bool) :
    Nat → SortedInput → Routine SortedInput
  | 0, s => return s
  | n + 1, s => do
    match s.lines with
    | [] => return s
    | a :: _ =>
      if isShown then emit k.program (if s.number = 1 then j.row (some a) none
        else j.row none (some a))
      if s.isBlamed && !isShown then return s
      finish j k isShown n (← k.advance true false s)

/-- Goes through two inputs and writes the lines that belong together.  Every step takes a line. -/
def run (j : Joining) (k : Checking) :
    Nat → Bool → SortedInput → SortedInput → Routine (List SortedInput)
  | 0, _, s, t => return [s, t]
  | n + 1, seen, s, t => do
    match s.lines, t.lines with
    | a :: _, b :: _ =>
      match j.compareKeys (j.key 1 a) (j.key 2 b) with
      | .lt =>
        if j.showsSingle.1 then emit k.program (j.row (some a) none)
        run j k n true (← k.advance seen false s) t
      | .gt =>
        if j.showsSingle.2 then emit k.program (j.row none (some b))
        run j k n true s (← k.advance seen false t)
      | .eq =>
        let (as, s) ← j.takeEqual k seen (j.key 2 b) s.lines.length s
        let (bs, t) ← j.takeEqual k seen (j.key 1 a) t.lines.length t
        if j.showsPairs then
          emit k.program (as.flatMap fun a ↦ bs.flatMap fun b ↦ j.row (some a) (some b))
        run j k n seen s t
    | [], [] => return [s, t]
    | _, _ =>
      let isChecked := k.check ≠ .never
      let goesOn := fun (isShown : Bool) (s : SortedInput) ↦
        if isShown || isChecked then j.finish k isShown (s.lines.length + 1) s else pure s
      let s ← goesOn j.showsSingle.1 s
      let t ← goesOn j.showsSingle.2 t
      return [s, t]

end Joining

/-- The number of a field, from zero on. -/
def fieldNumber (name : Chars) (w : Chars) : Routine Nat :=
  match Amount.read [] w with
  | .ok (n + 1) => pure n
  | .error (some _) => pure Numeral.wordCount
  | _ => fail name 1 ("invalid field number: ".toList ++ cited w)

/-- The last of the numbers of fields that options with some letters give; they must be the same. -/
def joinPlace (name : Chars) (c : Call) (letters : Chars) : Routine Nat := do
  let given ← (c.flags.filter fun f ↦ letters.contains f.1).mapM fun f ↦ fieldNumber name f.2
  match given with
  | [] => return 0
  | n :: ns =>
    if let some m := ns.find? (· ≠ n) then
      fail name 1 ("incompatible join fields ".toList ++ Chars.ofNat (n + 1) ++ ", ".toList ++
        Chars.ofNat (m + 1))
    return n

/-- A field of an output line as it is written. -/
def joinField (name : Chars) (w : Chars) : Routine JoinField :=
  match w with
  | ['0'] => pure .common
  | '0' :: _ => fail name 1 ("invalid field specifier: ".toList ++ cited w)
  | d :: rest =>
    if d ≠ '1' && d ≠ '2' then
      fail name 1 ("invalid file number in field spec: ".toList ++ cited w)
    else match rest with
      | '.' :: number => do
        let n ← fieldNumber name number
        return .field (if d = '1' then 1 else 2) n
      | _ => fail name 1 ("invalid field specifier: ".toList ++ cited w)
  | [] => fail name 1 ("invalid file number in field spec: ".toList ++ cited w)

/-- The separator of the fields that are joined. -/
def joinSeparator (name : Chars) (c : Call) : Routine (Option Char) := do
  let given ← (c.flags.filter (·.1 = 't')).mapM fun f ↦ match f.2 with
    | [] => pure '\n'
    | [d] => pure d
    | ['\\', '0'] => pure '\x00'
    | w => fail name 1 ("multi-character tab ".toList ++ cited w)
  match given with
  | [] => return none
  | d :: ds =>
    if ds.any (· ≠ d) then fail name 1 "incompatible tabs".toList
    return some d

/-- The numbers of inputs that an option gives. -/
def inputNumbers (name : Chars) (c : Call) (letter : Char) : Routine (List Nat) :=
  (c.flags.filter (·.1 = letter)).mapM fun f ↦ match Amount.read [] f.2 with
    | .ok 1 => pure 1
    | .ok 2 => pure 2
    | _ => fail name 1 ("invalid field number: ".toList ++ cited f.2)

/-- Joins the lines of two sorted inputs that have a field in common. -/
def join : Program := fun args _ ↦ do
  let name := args.headD []
  let c ← readCall name 1 (valueFlags [('a', ""), ('e', ""), ('j', ""), ('o', ""), ('t', ""),
    ('v', ""), ('1', ""), ('2', "")] ++ plainFlags [('i', "ignore-case"),
    ('z', "zero-terminated"), ('\x01', "check-order"), ('\x02', "nocheck-order"),
    ('\x03', "header")]) true args.tail
  let singles ← inputNumbers name c 'v'
  let extras ← inputNumbers name c 'a'
  let separator ← joinSeparator name c
  let first ← joinPlace name c ['1', 'j']
  let second ← joinPlace name c ['2', 'j']
  let surplus := if c.has 'o' then c.operands.length - 2 else 0
  let formats := (c.flags.filter (·.1 = 'o')).map (·.2) ++ c.operands.take surplus
  let isCounted := formats.contains "auto".toList
  let format ← (formats.filter (· ≠ "auto".toList)).flatMapM fun w ↦
    (Chars.splitOn (fun c ↦ c = ',' || isLineBlank c) w).mapM (joinField name)
  let (a, b) ← match c.operands.drop surplus with
    | [] => missingOperand name 1
    | [a] => missingBehind name 1 a
    | [a, b] => pure (a, b)
    | _ :: _ :: extra :: _ => extraOperand name 1 extra
  if isStandard a && isStandard b then fail name 1 "both files cannot be standard input".toList
  let last := lastOfLines c 'z'
  let as ← recordsOf name last a
  let bs ← recordsOf name last b
  let shows := fun (n : Nat) ↦ singles.contains n || extras.contains n
  let plain : Joining := ⟨separator, (first, second), c.has 'i', (c.value? 'e').getD [],
    if format = [] then none else some format, none, (shows 1, shows 2), singles = [], last⟩
  let countIn := fun (ls : List Chars) ↦ ((ls.head?.map plain.fields).getD []).length
  let j := if isCounted then { plain with counts := some (countIn as, countIn bs) } else plain
  let k : Checking := ⟨name, .ofCall c '\x01' '\x02',
    fun number a b ↦ j.compareKeys (j.key number a) (j.key number b),
    fun file _ count line ↦ file ++ ':' :: Chars.ofNat count ++ ": is not sorted: ".toList ++ line⟩
  let s := SortedInput.start a 1 as
  let t := SortedInput.start b 2 bs
  let behind := fun (s : SortedInput) ↦
    { s with lines := s.lines.drop 1, count := s.count + 1 }
  let (s, t) ← (if c.has '\x03' && (as ≠ [] || bs ≠ []) then do
      emit name (j.row as.head? bs.head?)
      return (behind s, behind t)
    else return (s, t))
  k.status (← j.run k (as.length + bs.length + 1) false s t)

/-- Lines that have their first field in common. -/
example : (Joining.row ⟨none, (0, 0), false, [], none, none, (false, false), true, '\n'⟩
    (some "1 a".toList) (some "1 b".toList)) = "1 a b\n".toList := by decide +kernel

end ContractBuild.Utility
