import ContractBuild.Posix.Utility.Amount

/-!
# Copying streams

Utilities that pass on what they read: all of it, its start or its end.  They write as they read,
so that they can stand in a pipeline with a source that never ends.
-/

namespace ContractBuild.Utility

/-! ## Copying everything -/

/-- How lines are marked as they are copied. -/
structure Marking where
  /-- Lines get a number. -/
  numbersAll : Bool
  /-- Lines that are not empty get a number. -/
  numbersText : Bool
  /-- Ends of lines are shown. -/
  showsEnds : Bool
  /-- Tabs are shown. -/
  showsTabs : Bool
  /-- Characters without a form of their own are shown. -/
  showsOthers : Bool
  /-- Of empty lines that follow each other only the first is kept. -/
  squeezes : Bool

/-- The options that a marking comes from. -/
def Marking.flags : List Flag :=
  plainFlags [('A', "show-all"), ('b', "number-nonblank"), ('e', ""), ('E', "show-ends"),
    ('n', "number"), ('s', "squeeze-blank"), ('t', ""), ('T', "show-tabs"), ('u', ""),
    ('v', "show-nonprinting")]

/-- The marking that a call asks for. -/
def Marking.ofCall (c : Call) : Marking where
  numbersAll := c.has 'n' && !c.has 'b'
  numbersText := c.has 'b'
  showsEnds := c.has 'E' || c.has 'e' || c.has 'A'
  showsTabs := c.has 'T' || c.has 't' || c.has 'A'
  showsOthers := c.has 'v' || c.has 'A' || c.has 'e' || c.has 't'
  squeezes := c.has 's'

/-- Whether lines are copied as they are. -/
def Marking.isIdle (m : Marking) : Bool :=
  !(m.numbersAll || m.numbersText || m.showsEnds || m.showsTabs || m.showsOthers || m.squeezes)

/-- A character below 128 without a form of its own, with a caret. -/
def withCaret (n : Nat) : Chars :=
  if n < 32 then ['^', Char.ofNat (n + 64)] else if n = 127 then "^?".toList else [Char.ofNat n]

/-- A character as a marking shows it. -/
def Marking.char (m : Marking) (c : Char) : Chars :=
  if c = '\t' then if m.showsTabs then "^I".toList else [c]
  else if !m.showsOthers then [c]
  else if c.toNat < 128 then withCaret c.toNat
  else "M-".toList ++ withCaret (c.toNat - 128)

/-- The number of a line. -/
def lineNumber (n : Nat) : Chars :=
  let ds := Chars.ofNat n
  List.replicate (6 - ds.length) ' ' ++ ds ++ ['\t']

/-- A line as a marking shows it, and the state behind it: the number of the last line that has one
and whether the line was empty. -/
def Marking.line (m : Marking) (s : Nat × Bool) (line : Chars) : Chars × Nat × Bool :=
  let body := withoutEnd line
  let isWhole := body.length < line.length
  let isEmpty := body = [] && isWhole
  if m.squeezes && s.2 && isEmpty then ([], s)
  else
    let isNumbered := m.numbersAll || (m.numbersText && !isEmpty)
    let number := if isNumbered then s.1 + 1 else s.1
    let start := if isNumbered then lineNumber number else []
    let stop := if isWhole then (if m.showsEnds then "$\n".toList else ['\n']) else []
    let shown := if m.showsEnds && isWhole && body.getLast? = some '\r' then
      body.dropLast.flatMap m.char ++ "^M".toList else body.flatMap m.char
    (start ++ shown ++ stop, number, isEmpty)

/-- Whether an input is the file that the output goes to, with something left to be read. -/
def isOwnOutput (n : Nat) : Routine Bool := do
  if !(← isOutputFile n) then return false
  return (← standing? n).any fun (position, size) ↦ position < size

/-- Copies one input. -/
def copyInput (name : Chars) (m : Marking) (s : Nat × Bool) (file : Chars) :
    Routine ((Nat × Bool) × Nat) := do
  match ← openInput file with
  | .error e =>
    warn name (because (shown file) e)
    return (s, 1)
  | .ok n =>
    if ← isOwnOutput n then
      warn name (shown file ++ ": input file is output file".toList)
      closeInput n
      return (s, 1)
    let (s, failure) ← (if m.isIdle then foldBlocks n s fun s bs ↦ do
        emitBytes name 1 bs
        return .inl s
      else foldLines n s fun s line ↦ do
        let (cs, s) := m.line s line
        emit name cs
        return .inl s)
    closeInput n
    match failure with
    | none => return (s, 0)
    | some e =>
      warn name (because (shown file) e)
      return (s, 1)

/-- Copies some inputs. -/
def copyInputs (name : Chars) (m : Marking) : Nat × Bool → List Chars → Routine Nat
  | _, [] => return 0
  | s, file :: files => do
    let (s, status) ← copyInput name m s file
    return max status (← copyInputs name m s files)

/-- Copies its inputs to the output. -/
def cat : Program := fun args _ ↦ do
  let name := args.headD []
  let c ← readCall name 1 Marking.flags true args.tail
  if !(← Routine.isOpen 1) then fail name 1 (because "standard output".toList .badDescriptor)
  let inputs := inputsOf c.operands
  let status ← copyInputs name (.ofCall c) (0, false) inputs
  leaveStandard name 1 "closing standard input" inputs status

/-! ## Copying to files -/

/-- Opens the files that a copy goes to, each with its name. -/
def openCopies (name : Chars) (appends : Bool) : List Chars → Routine (List (Chars × Nat) × Nat)
  | [] => return ([], 0)
  | file :: files => do
    let mode := if appends then Machine.OpenMode.forAppending else .forWriting
    let opened ← Routine.openPath (Chars.toPath file) mode Routine.usualMode
    let (rest, status) ← openCopies name appends files
    match opened with
    | .ok n => return ((file, n) :: rest, status)
    | .error e =>
      warn name (because (shown file) e)
      return (rest, 1)

/-- Writes a block to some files; the value is the files that could be written, and the status. -/
def writeCopies (name : Chars) (bs : Bytes) :
    List (Chars × Nat) → Routine (List (Chars × Nat) × Nat)
  | [] => return ([], 0)
  | (file, n) :: copies => do
    let written ← Routine.write n bs
    let (rest, status) ← writeCopies name bs copies
    match written with
    | .ok () => return ((file, n) :: rest, status)
    | .error e =>
      warn name (because (shown file) e)
      return (rest, 1)

/-- Copies the input to the output and to files. -/
def tee : Program := fun args _ ↦ do
  let name := args.headD []
  let c ← readCall name 1 (plainFlags [('a', "append"), ('i', "ignore-interrupts"), ('p', "")] ++
    [⟨'\x01', "output-error", .optional⟩]) true args.tail
  let (copies, status) ← openCopies name (c.has 'a') c.operands
  let (⟨_, status⟩, failure) ← foldBlocks 0
    (⟨("standard output".toList, 1) :: copies, status⟩ : List (Chars × Nat) × Nat)
    fun (copies, status) bs ↦ do
      let (left, wrong) ← writeCopies name bs copies
      return if left = [] then .inr (left, max status wrong) else .inl (left, max status wrong)
  if let some e := failure then warn name (because "read error".toList e)
  leaveStandard name 1 "standard input" [['-']] (if failure.isSome then 1 else status)

/-- Writes a line without end. -/
def yes : Program := fun args _ ↦ do
  let name := args.headD []
  let c ← readCall name 1 [] true args.tail
  let line := Chars.line (if c.operands = [] then ['y'] else Chars.join [' '] c.operands)
  let block := Chars.toBytes (List.replicate (1 + 1024 / line.length) line).flatten
  Routine.loop () fun () ↦ do
    emitBytes name 1 block
    return .inl ()

/-! ## The start and the end -/

/-- Which part of an input is copied. -/
structure Extent where
  /-- Whether lines are counted, and not bytes. -/
  countsLines : Bool
  /-- How many of them. -/
  count : Nat
  /-- Whether the count is what is left out, or where the part starts. -/
  isInverse : Bool
  /-- What ends a line. -/
  last : Char

/-- How the parts of several inputs are told apart. -/
inductive Titles
  /-- Titles stand above the parts of several inputs. -/
  | usual
  /-- A title stands above every part. -/
  | always
  /-- There are no titles. -/
  | never

/-- The titles that a call asks for. -/
def Titles.ofCall (c : Call) : Titles :=
  match c.lastOf? ['q', '\x01', 'v'] with
  | some 'v' => .always
  | some _ => .never
  | none => .usual

/-- Whether so many parts have titles. -/
def Titles.areShown (t : Titles) (count : Nat) : Bool :=
  match t with
  | .usual => 1 < count
  | .always => true
  | .never => false

/-- The options for the start and the end of inputs. -/
def extentFlags : List Flag :=
  valueFlags [('c', "bytes"), ('n', "lines")] ++
    plainFlags [('q', "quiet"), ('\x01', "silent"), ('v', "verbose"), ('z', "zero-terminated")]

/-- The extent that a call asks for; ten lines if it asks for nothing.  A sign in front of an amount
makes it inverse. -/
def extentOf (name : Chars) (inverseSign : Char) (c : Call) : Routine Extent := do
  let last := lastOfLines c 'z'
  match (c.flags.filter fun f ↦ f.1 = 'c' || f.1 = 'n').getLast? with
  | none => return ⟨true, 10, false, last⟩
  | some (letter, value) =>
    let digits := match value with
      | '-' :: cs => cs
      | cs => cs
    let count ← readAmount name 1
      ("invalid number of " ++ if letter = 'c' then "bytes" else "lines")
      Amount.sizeLetters 0 digits
    return ⟨letter = 'n', count, value.head? = some inverseSign, last⟩

/-- What an input is called. -/
def inputTitle (file : Chars) : Chars :=
  if isStandard file then "standard input".toList else file

/-- Copies a part of every input; `isFirst` says that none came before. -/
def copyParts (name : Chars) (copy : Nat → Routine (Option IoError)) (hasTitles : Bool) :
    Bool → List Chars → Routine Nat
  | _, [] => return 0
  | isFirst, file :: files => do
    match ← openInput file with
    | .error e =>
      warn name ("cannot open ".toList ++ because (quoted file ++ " for reading".toList) e)
      return max 1 (← copyParts name copy hasTitles isFirst files)
    | .ok n =>
      if hasTitles then
        emit name ((if isFirst then [] else ['\n']) ++
          Chars.line ("==> ".toList ++ inputTitle file ++ " <==".toList))
      let failure ← copy n
      closeInput n
      match failure with
      | none => copyParts name copy hasTitles false files
      | some e =>
        warn name ("error reading ".toList ++ because (quoted (inputTitle file)) e)
        return max 1 (← copyParts name copy hasTitles false files)

/-! ### The start -/

/-- The first lines of a text without the last ones. -/
def dropLastLines (last : Char) (count : Nat) (cs : Chars) : Chars :=
  let lines := Chars.wholeRecords last cs
  (lines.take (lines.length - count)).flatten

/-- Copies the start of an input. -/
def copyStart (name : Chars) (e : Extent) (n : Nat) : Routine (Option IoError) := do
  if e.isInverse then
    match ← Routine.readAll n with
    | .error e => return some e
    | .ok bs =>
      if e.countsLines then emit name (dropLastLines e.last e.count (Chars.ofBytes bs))
      else emitBytes name 1 (bs.take (bs.length - e.count))
      return none
  else if e.count = 0 then return none
  else if e.countsLines then
    return (← foldRecords e.last n e.count fun left line ↦ do
      emit name line
      return if left ≤ 1 then .inr 0 else .inl (left - 1)).2
  else
    Routine.loop e.count fun left ↦ do
      match ← Routine.readAtMost n left with
      | .error e => return .inr (some e)
      | .ok [] => return .inr none
      | .ok bs =>
        emitBytes name 1 bs
        let left := left - bs.length
        return if left = 0 then .inr none else .inl left

/-- The old form of an amount, an option of digits and letters, in the form of today; a letter that
means nothing is an error. -/
def withOldAmount (args : List Chars) : Except Char (List Chars) :=
  match args with
  | ('-' :: d :: cs) :: rest =>
    let (ds, letters) := (d :: cs).span Char.isDigit
    if ds = [] then .ok args
    else match letters.find? fun l ↦ !"cbkmlqvz".toList.contains l with
      | some l => .error l
      | none =>
        let kind := (letters.filter ("cbkml".toList.contains ·)).getLast?
        let amount := match kind with
          | some 'c' => 'c' :: ds
          | none | some 'l' => 'n' :: ds
          | some k => 'c' :: ds ++ [k]
        .ok (('-' :: amount) :: (letters.filter ("qvz".toList.contains ·)).map (['-', ·]) ++ rest)
  | args => .ok args

/-- The complaint about a letter in the old form of an amount. -/
def wrongTrailing {α : Type} (name : Chars) (letter : Char) : Routine α :=
  refuse name 1 ("invalid trailing option -- ".toList ++ [letter])

/-- Copies the start of its inputs. -/
def head : Program := fun args _ ↦ do
  let name := args.headD []
  let words ← match withOldAmount args.tail with
    | .ok words => pure words
    | .error l => wrongTrailing name l
  let digits := plainFlags ("0123456789".toList.map (·, ""))
  let c ← readCall name 1 (extentFlags ++ digits) true words
  if let some f := c.flags.find? (·.1.isDigit) then wrongTrailing name f.1
  let e ← extentOf name '-' c
  let inputs := inputsOf c.operands
  let status ← copyParts name (copyStart name e)
    ((Titles.ofCall c).areShown inputs.length) true inputs
  leaveStandard name 1 "-" inputs status

/-! ### The end -/

/-- The end of a text. -/
def endOf (e : Extent) (cs : Chars) : Chars :=
  if e.countsLines then
    let lines := Chars.wholeRecords e.last cs
    (lines.drop (if e.isInverse then e.count - 1 else lines.length - e.count)).flatten
  else cs.drop (if e.isInverse then e.count - 1 else cs.length - e.count)

/-- Copies the end of an input. -/
def copyEnd (name : Chars) (e : Extent) (n : Nat) : Routine (Option IoError) := do
  match ← Routine.readAll n with
  | .error e => return some e
  | .ok bs =>
    emit name (endOf e (Chars.ofBytes bs))
    return none

/-- The old form of a call, in the form of today: a sign with an amount and letters, and a single
file at most. -/
def withOldEnd (args : List Chars) : List Chars :=
  match args with
  | (sign :: cs) :: files =>
    let (ds, letters) := cs.span Char.isDigit
    let isAlone := match files with
      | [] => true
      | [file] => file = ['-'] || file.head? ≠ some '-'
      | [dashes, _] => dashes = ['-', '-']
      | _ => false
    let isBare := ds = [] && (letters = [] || letters = ['c'])
    let (kind, rest) := match letters with
      | k :: rest => if "lbc".toList.contains k then (k, rest) else ('l', letters)
      | [] => ('l', [])
    let isOld := (sign = '+' || (sign = '-' && !isBare)) && isAlone && (rest = [] || rest = ['f'])
    if !isOld then args
    else
      let ds := if ds = [] then "10".toList else ds
      let amount := if kind = 'l' then 'n' :: sign :: ds
        else if kind = 'c' then 'c' :: sign :: ds else 'c' :: sign :: ds ++ ['b']
      ('-' :: amount) :: rest.map (['-', ·]) ++ files
  | args => args

/-- How long a copy of a growing file rests before it goes on, in milliseconds. -/
def followTime : Nat := 100

/-- Goes on with what is written behind the ends of some inputs, each of which is open under a
number and has a name.  The last of them that something came from has this number. -/
def followEnds (name : Chars) (hasTitles : Bool) (inputs : List (Chars × Nat)) (latest : Nat) :
    Routine Nat :=
  Routine.loop latest fun latest ↦ do
    let latest ← inputs.foldlM (fun latest (file, n) ↦ do
      match ← Routine.readAll n with
      | .ok (b :: bs) =>
        if hasTitles && n ≠ latest then
          emit name ('\n' :: Chars.line ("==> ".toList ++ inputTitle file ++ " <==".toList))
        emitBytes name 1 (b :: bs)
        return n
      | _ => return latest) latest
    Routine.sleep followTime
    return .inl latest

/-- Copies the end of its inputs. -/
def tail : Program := fun args _ ↦ do
  let name := args.headD []
  let digits := plainFlags ("0123456789".toList.map (·, ""))
  let c ← readCall name 1 (extentFlags ++ digits ++ plainFlags [('F', ""), ('\x03', "retry")] ++
    valueFlags [('s', "sleep-interval"), ('\x04', "pid"), ('\x05', "max-unchanged-stats")] ++
    [⟨'f', "", .none⟩, ⟨'\x06', "follow", .optional⟩]) true (withOldEnd args.tail)
  if let some f := c.flags.find? (·.1.isDigit) then
    fail name 1 ("option used in invalid context -- ".toList ++ [f.1])
  let e ← extentOf name '+' c
  let follows := c.has 'f' || c.has 'F' || c.has '\x06'
  let inputs := inputsOf c.operands
  if e.count = 0 && !e.isInverse && !follows then return 0
  let hasTitles := (Titles.ofCall c).areShown inputs.length
  if !follows then
    let status ← copyParts name (copyEnd name e) hasTitles true inputs
    leaveStandard name 1 "-" inputs status
  else
    let status ← copyParts name (copyEnd name e) hasTitles true inputs
    let isPipe := !(← isRewindable 0)
    let files := inputs.filter fun f ↦ !(isStandard f && isPipe)
    let opened ← files.mapM fun f ↦ do return (f, (← openInput f).toOption)
    let opened := opened.filterMap fun (f, n) ↦ n.map (f, ·)
    Routine.forEach (fun (f, n) ↦ do
      if isStandard f then pure ()
      else let _ ← Routine.readAll n) opened
    if opened = [] then
      if files ≠ [] then warn name "no files remaining".toList
      return status
    followEnds name hasTitles opened ((opened.getLast?.map (·.2)).getD 0)

/-- The last lines of a text. -/
example : endOf ⟨true, 2, false, '\n'⟩ "a\nb\nc".toList = "b\nc".toList := by decide +kernel

end ContractBuild.Utility
