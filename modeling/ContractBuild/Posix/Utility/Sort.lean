import ContractBuild.Posix.Utility.Amount
import ContractBuild.Posix.Utility.Order

/-!
# Sorting

Lines are sorted by keys, which are parts of them, and by the whole line where the keys are the
same.
-/

namespace ContractBuild.Utility

/-! ## Keys -/

/-- A place in a line. -/
structure KeyPlace where
  /-- The number of the field. -/
  field : Nat
  /-- The number of the character in it; nothing stands for its end. -/
  char : Option Nat
  /-- Whether blanks at the start of the field do not count. -/
  skipsBlanks : Bool

/-- A part of a line by which lines are sorted. -/
structure SortKey where
  /-- Where it starts. -/
  first : KeyPlace
  /-- Where it ends, if not at the end of the line. -/
  last : Option KeyPlace
  /-- How it is compared, if it says so itself. -/
  comparing : Option Comparing

/-- The text from the start of a field on; fields count from zero. -/
def fromField (separator : Option Char) : Nat → Chars → Chars
  | 0, cs => cs
  | n + 1, cs =>
    match separator with
    | some c =>
      match cs.dropWhile (· ≠ c) with
      | [] => []
      | _ :: rest => fromField separator n rest
    | none => fromField separator n ((cs.dropWhile isLineBlank).dropWhile (!isLineBlank ·))

/-- The field in front of a text. -/
def frontField (separator : Option Char) (cs : Chars) : Chars :=
  match separator with
  | some c => cs.takeWhile (· ≠ c)
  | none =>
    let blanks := cs.takeWhile isLineBlank
    blanks ++ (cs.drop blanks.length).takeWhile (!isLineBlank ·)

/-- How many characters lie before a place where a key starts. -/
def keyStart (separator : Option Char) (line : Chars) (p : KeyPlace) : Nat :=
  let rest := fromField separator (p.field - 1) line
  let skipped := if p.skipsBlanks then (rest.takeWhile isLineBlank).length else 0
  line.length - rest.length + skipped + (p.char.getD 1 - 1)

/-- How many characters lie before the end of a key. -/
def keyStop (separator : Option Char) (line : Chars) (p : KeyPlace) : Nat :=
  match p.char with
  | none | some 0 =>
    let rest := fromField separator (p.field - 1) line
    line.length - rest.length + (frontField separator rest).length
  | some n => keyStart separator line { p with char := some 1 } + n

/-- The text of a key in a line. -/
def SortKey.text (separator : Option Char) (line : Chars) (k : SortKey) : Chars :=
  let start := keyStart separator line k.first
  match k.last with
  | none => line.drop start
  | some p => (line.take (keyStop separator line p)).drop start

/-- The number of a field or a character that is written in a key, and what follows it; the
complaint starts with a text. -/
def readKeyNumber (name : Chars) (what : String) (cs : Chars) : Routine (Nat × Chars) :=
  let (ds, rest) := cs.span Char.isDigit
  match Chars.toNat? ds with
  | some n => pure (min n (Numeral.wordCount - 1), rest)
  | none => fail name 2 (what.toList ++ ": invalid count at start of ".toList ++ cited cs)

/-- The complaint about a key. -/
def wrongKey {α : Type} (name written : Chars) (what : String) : Routine α :=
  fail name 2 (what.toList ++ ": invalid field specification ".toList ++ cited written)

/-- A place that is written in a key, with its letters and what follows it. -/
def readPlace (name written : Chars) (isFirst : Bool) (cs : Chars) :
    Routine (KeyPlace × Chars × Chars) := do
  let what := if isFirst then "invalid number at field start" else "invalid number after ','"
  let (field, rest) ← readKeyNumber name what cs
  if field = 0 then wrongKey name written "field number is zero"
  let (char, rest) ← match rest with
    | '.' :: rest => do
      let (n, rest) ← readKeyNumber name "invalid number after '.'" rest
      if n = 0 && isFirst then wrongKey name written "character offset is zero"
      pure (some n, rest)
    | rest => pure (none, rest)
  let letters := rest.takeWhile ("bdfghiMnRrV".toList.contains ·)
  return (⟨field, char, letters.contains 'b'⟩, letters, rest.drop letters.length)

/-- A key as it is written. -/
def readKey (name written : Chars) : Routine SortKey := do
  let (first, letters, rest) ← readPlace name written true written
  let (last, more, rest) ← match rest with
    | ',' :: rest => do
      let (p, letters, rest) ← readPlace name written false rest
      pure (some p, letters, rest)
    | rest => pure (none, [], rest)
  if rest ≠ [] then wrongKey name written "stray character in field spec"
  let all := letters ++ more
  let comparing := (Comparing.plain.withLetters all).toOption.getD .plain
  return ⟨first, last, if all = [] then none else some { comparing with skipsBlanks := false }⟩

/-! ## Sorting -/

/-- How lines are sorted. -/
structure Sorting where
  /-- The keys. -/
  keys : List SortKey
  /-- How keys are compared that do not say it. -/
  comparing : Comparing
  /-- What separates fields, if blanks do not. -/
  separator : Option Char
  /-- Lines with the same keys stay in their order. -/
  isStable : Bool
  /-- Of lines with the same keys only the first is kept. -/
  isUnique : Bool

/-- The order of two lines by their keys. -/
def Sorting.compareKeys (s : Sorting) (a b : Chars) : Ordering :=
  match s.keys with
  | [] => s.comparing.compare a b
  | keys => keys.foldl (fun o k ↦
      let first := { k.first with
        skipsBlanks := k.first.skipsBlanks || (k.comparing.isNone && s.comparing.skipsBlanks) }
      let k := { k with first }
      o.then ((k.comparing.getD { s.comparing with skipsBlanks := false }).compare
        (k.text s.separator a) (k.text s.separator b))) .eq

/-- The order of two lines. -/
def Sorting.compare (s : Sorting) (a b : Chars) : Ordering :=
  (s.compareKeys a b).then
    (if s.isStable || s.isUnique then .eq
    else if s.comparing.isReversed then (compareChars a b).swap else compareChars a b)

/-- Lines behind another one without those that have the same keys as the one before. -/
def withoutEqual (isEqual : Chars → Chars → Bool) (a : Chars) : List Chars → List Chars
  | [] => [a]
  | b :: bs => if isEqual a b then withoutEqual isEqual a bs else a :: withoutEqual isEqual b bs

/-- Lines in order. -/
def Sorting.sort (s : Sorting) (ls : List Chars) : List Chars :=
  let sorted := ls.mergeSort fun a b ↦ s.compare a b ≠ .gt
  match s.isUnique, sorted with
  | true, a :: rest => withoutEqual (fun a b ↦ s.compareKeys a b = .eq) a rest
  | _, sorted => sorted

/-- The first line that is out of order, with its number. -/
def Sorting.disorder? (s : Sorting) : Nat → List Chars → Option (Nat × Chars)
  | n, a :: b :: rest =>
    let o := s.compare a b
    if o = .gt || (s.isUnique && o = .eq) then some (n + 1, b) else disorder? s (n + 1) (b :: rest)
  | _, _ => none

/-- The lists of lines without the first line of one of them, and that line: the least of the first
lines, the first one of those that are the same. -/
def Sorting.least? (s : Sorting) : List (List Chars) → Option (Chars × List (List Chars))
  | [] => none
  | ls :: rest =>
    match ls, s.least? rest with
    | [], found => found.map fun (l, rest) ↦ (l, [] :: rest)
    | l :: ls, none => some (l, ls :: rest)
    | l :: ls, some (m, others) =>
      if s.compare l m = .gt then some (m, (l :: ls) :: others) else some (l, ls :: rest)

/-- Lists of lines that are sorted made one.  Every step takes a line. -/
def Sorting.mergeAll (s : Sorting) : Nat → List (List Chars) → List Chars
  | 0, _ => []
  | n + 1, lists =>
    match s.least? lists with
    | some (l, lists) => l :: s.mergeAll n lists
    | none => []

/-- The lines of some inputs, sorted, or put together if each input is sorted already. -/
def Sorting.output (s : Sorting) (isMerging : Bool) (inputs : List (List Chars)) : List Chars :=
  if !isMerging then s.sort inputs.flatten
  else
    let merged := s.mergeAll ((inputs.map (·.length)).foldl (· + ·) 0) inputs
    match s.isUnique, merged with
    | true, a :: rest => withoutEqual (fun a b ↦ s.compareKeys a b = .eq) a rest
    | _, merged => merged

/-! ## The program -/

/-- The options for sorting. -/
def sortFlags : List Flag :=
  plainFlags [('n', "numeric-sort"), ('g', "general-numeric-sort"), ('h', "human-numeric-sort"),
    ('V', "version-sort"), ('f', "ignore-case"), ('d', "dictionary-order"),
    ('i', "ignore-nonprinting"), ('b', "ignore-leading-blanks"), ('r', "reverse"),
    ('M', "month-sort"), ('R', "random-sort"), ('u', "unique"), ('s', "stable"), ('c', ""),
    ('C', ""), ('m', "merge"), ('z', "zero-terminated"), ('\x01', "debug")] ++
    valueFlags [('k', "key"), ('t', "field-separator"), ('o', "output"), ('S', "buffer-size"),
      ('T', "temporary-directory"), ('\x02', "files0-from"), ('\x03', "sort"),
      ('\x04', "parallel"), ('\x05', "batch-size"), ('\x06', "random-source"),
      ('\x07', "compress-program")] ++ [⟨'\x08', "check", .optional⟩]

/-- The words for ways of sorting, each with its letter. -/
def sortWords : List (String × Char) :=
  [("general-numeric", 'g'), ("human-numeric", 'h'), ("month", 'M'), ("numeric", 'n'),
    ("random", 'R'), ("version", 'V')]

/-- The options with letters in the place of words. -/
def withLetters (name : Chars) : List (Char × Chars) → Routine (List (Char × Chars))
  | [] => return []
  | (letter, w) :: rest => do
    let first ← (if letter = '\x03' then do
        let word ← readWord name 2 "--sort" (sortWords.map fun e ↦ [e.1]) w
        return ((sortWords.lookup word).getD 'n', [])
      else if letter = '\x08' then
        if w = [] then pure ('c', [])
        else do
          let word ← readWord name 2 "--check" [["quiet", "silent"], ["diagnose-first"]] w
          return (if word = "diagnose-first" then 'c' else 'C', [])
      else pure (letter, w))
    return first :: (← withLetters name rest)

/-- What separates fields in a call. -/
def fieldSeparatorOf (name : Chars) (c : Call) : Routine (Option Char) := do
  let given ← (c.flags.filter (·.1 = 't')).mapM fun f ↦ match f.2 with
    | [] => fail name 2 "empty tab".toList
    | [d] => pure d
    | ['\\', '0'] => pure '\x00'
    | w => fail name 2 ("multi-character tab ".toList ++ cited w)
  match given with
  | [] => return none
  | d :: ds =>
    if ds.any (· ≠ d) then fail name 2 "incompatible tabs".toList
    return some d

/-- The complaint about options that cannot be had together. -/
def incompatible {α : Type} (name letters : Chars) : Routine α :=
  fail name 2 ("options '-".toList ++ letters ++ "' are incompatible".toList)

/-- The sorting that a call asks for. -/
def sortingOf (name : Chars) (c : Call) : Routine Sorting := do
  let letters := (c.flags.map (·.1)).filter ("nghVfdibrMR".toList.contains ·)
  let comparing := (Comparing.plain.withLetters letters).toOption.getD .plain
  let keys ← ((c.flags.filter (·.1 = 'k')).map (·.2)).mapM (readKey name)
  let separator ← fieldSeparatorOf name c
  let all := if keys = [] then [comparing] else keys.map fun k ↦ k.comparing.getD comparing
  if let some wrong := all.find? (!·.isPossible) then incompatible name wrong.letters
  return ⟨keys, comparing, separator, c.has 's', c.has 'u'⟩

/-- The lines of an input, which must be readable. -/
def linesOf (name : Chars) (last : Char) (file : Chars) : Routine (List Chars) := do
  match ← openInput file with
  | .error e => fail name 2 ("cannot read: ".toList ++ because (shown file) e)
  | .ok n =>
    let content ← Routine.readAll n
    closeInput n
    match content with
    | .ok bs => return Chars.records last (Chars.ofBytes bs)
    | .error e => fail name 2 ("read failed: ".toList ++ because (shown file) e)

/-- The inputs of a call. -/
def sortInputs (name : Chars) (c : Call) : Routine (List Chars) :=
  match c.value? '\x02', c.operands with
  | none, files => pure (inputsOf files)
  | some _, extra :: _ => do
    warn name ("extra operand ".toList ++ quoted extra)
    say (Chars.line "file operands cannot be combined with --files0-from".toList)
    pointToHelp name
    Routine.exit 2
  | some list, [] => do
    match ← readInput list with
    | .error e => fail name 2 ("open failed: ".toList ++ because (shown list) e)
    | .ok content =>
      match Chars.records '\x00' content with
      | [] => fail name 2 ("no input from ".toList ++ quoted list)
      | files => return files

/-- Says whether an input is sorted. -/
def checkOrder (name : Chars) (s : Sorting) (last : Char) (isQuiet : Bool) (file : Chars) :
    Routine Nat := do
  let content ← match ← readInput file with
    | .ok content => pure content
    | .error e => fail name 2 ("open failed: ".toList ++ because (shown file) e)
  match s.disorder? 1 (Chars.records last content) with
  | none => return 0
  | some (n, line) =>
    if !isQuiet then
      warn name (file ++ ':' :: Chars.ofNat n ++ ": disorder: ".toList ++ line)
    return 1

/-- Sorts lines. -/
def sort : Program := fun args _ ↦ do
  let name := args.headD []
  let c ← readCall name 2 sortFlags true args.tail
  let c := { c with flags := ← withLetters name c.flags }
  let s ← sortingOf name c
  let last := lastOfLines c 'z'
  let outputs := (c.flags.filter (·.1 = 'o')).map (·.2)
  if outputs.any fun o ↦ some o ≠ outputs.head? then
    fail name 2 "multiple output files specified".toList
  let inputs ← sortInputs name c
  if c.has 'c' || c.has 'C' then
    if c.has 'c' && c.has 'C' then incompatible name "cC".toList
    let letter := if c.has 'c' then 'c' else 'C'
    if outputs ≠ [] then incompatible name [letter, 'o']
    if let _ :: extra :: _ := inputs then
      fail name 2 ("extra operand ".toList ++ quoted extra ++ " not allowed with -".toList ++
        [letter])
    return ← checkOrder name s last (letter = 'C') (inputs.headD [])
  let read ← inputs.mapM (linesOf name last)
  let output := (s.output (c.has 'm') read).flatMap (· ++ [last])
  match outputs.head? with
  | none =>
    emitBytes name 2 (Chars.toBytes output)
    return 0
  | some file =>
    match ← Routine.openPath (Chars.toPath file) .forWriting Routine.usualMode with
    | .error e => fail name 2 ("open failed: ".toList ++ because (shown file) e)
    | .ok n =>
      let _ ← Routine.print n output
      return 0

end ContractBuild.Utility
