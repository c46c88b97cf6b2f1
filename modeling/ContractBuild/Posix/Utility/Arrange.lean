import ContractBuild.Posix.Text.Regex
import ContractBuild.Posix.Utility.Amount
import ContractBuild.Posix.Utility.Basic
import ContractBuild.Posix.Utility.Field
import ContractBuild.Posix.Utility.Stream

/-!
# Arranging lines

Turning lines round, numbering them and breaking them.
-/

namespace ContractBuild.Utility

/-! ## Turning round -/

/-- What separates records. -/
inductive Separator
  /-- A text. -/
  | text (cs : Chars)
  /-- What an expression matches. -/
  | matching (r : Regex)

/-- How long the separator is that starts a text, if one does; the character before it is known. -/
def Separator.lengthAt? (s : Separator) (before : Option Char) (cs : Chars) : Option Nat :=
  match s with
  | .text w => if w.isPrefixOf cs then some w.length else none
  | .matching r => (r.matchAt? false ⟨0, before, cs, []⟩).map (·.stop)

/-- The last separator in the first characters of a text that starts before a place: where it starts
and where it ends.  Every step goes one place back. -/
def Separator.last? (s : Separator) (cs : Chars) : Nat → Option (Nat × Nat)
  | 0 => none
  | n + 1 =>
    match s.lengthAt? (if n = 0 then none else cs[n - 1]?) (cs.drop n) with
    | some k => some (n, n + k)
    | none => s.last? cs n

/-- The records of a text from the last one to the first one, where a separator belongs to what
stands before it or to what stands behind it.  The text is looked at up to a limit, and what has
been passed over lies between the limit and `stop`.  Every step takes a separator. -/
def turnedRecords (s : Separator) (isBefore : Bool) (cs : Chars) : Nat → Nat → Nat → List Chars
  | 0, _, _ => []
  | n + 1, limit, stop =>
    match s.last? (cs.take limit) limit with
    | none => [cs.take stop]
    | some (first, last) =>
      let cut := if isBefore then first else last
      (cs.take stop).drop cut :: turnedRecords s isBefore cs n first cut

/-- How much is written at a time when records are turned. -/
def turnedBlock : Nat := 8192

/-- Writes whole blocks of what has been turned; the value is what is left. -/
def emitTurned (name held : Chars) : Routine Chars := do
  let count := held.length / turnedBlock * turnedBlock
  emit name (held.take count)
  return held.drop count

/-- Writes records from the last one to the first one.  What does not fill a block is written at the
end. -/
def tac : Program := fun args _ ↦ do
  let name := args.headD []
  let c ← readCall name 1 (plainFlags [('b', "before"), ('r', "regex")] ++
    valueFlags [('s', "separator")]) true args.tail
  let given := (c.value? 's').getD ['\n']
  let separator : Separator ← if !c.has 'r' then
      pure (Separator.text (if given = [] then ['\x00'] else given))
    else if given = [] then fail name 1 "separator cannot be empty".toList
    else match Regex.read (.basic false false) given with
      | .ok (r, _) => pure (.matching r)
      | .error e => fail name 1 e.message.toList
  let inputs := inputsOf c.operands
  let (held, status) ← inputs.foldlM (fun (held, status) file ↦ do
    match ← openInput file with
    | .error e =>
      warn name ("failed to open ".toList ++ because (quoted file ++ " for reading".toList) e)
      return (held, 1)
    | .ok n =>
      let content ← Routine.readAll n
      closeInput n
      match content with
      | .ok bs =>
        let cs := Chars.ofBytes bs
        let turned := match separator, c.has 'b' with
          | .text [last], false => (Chars.wholeRecords last cs).reverse.flatten
          | s, isBefore => (turnedRecords s isBefore cs (cs.length + 1) cs.length cs.length).flatten
        return (← emitTurned name (held ++ turned), status)
      | .error e =>
        warn name (because (shown (inputTitle file) ++ ": read error".toList) e)
        return (held, 1)) ([], 0)
  emit name held
  leaveStandard name 1 "-" inputs status

/-- Writes every line from its last character to its first one. -/
def rev : Program := fun args _ ↦ do
  let name := args.headD []
  let c ← readCall name 1 [] true args.tail
  let isWide := (← Routine.self).isWide
  let refuse := fun e ↦ fail name 1 (because "write error".toList e)
  let (spool, status) ← (inputsOf c.operands).foldlM (fun (spool, status) file ↦ do
    match ← openInput file with
    | .error e =>
      warn name (because ("cannot open ".toList ++ file) e)
      return (spool, 1)
    | .ok n =>
      let (spool, _) ← foldLines n spool fun spool line ↦ do
        let body := withoutEnd line
        let turned := if isWide then Wide.write (Wide.read body).reverse else body.reverse
        return .inl (← spool.put refuse (turned ++ line.drop body.length))
      closeInput n
      return (spool, status)) (Spool.empty, 0)
  let _ ← spool.flush refuse
  return status

/-! ## Numbering -/

/-- Which lines get a number. -/
inductive NumberedLines
  /-- All lines, but only one of so many empty ones. -/
  | all
  /-- Lines that are not empty. -/
  | text
  /-- No lines. -/
  | nothing
  /-- Lines in which an expression matches. -/
  | matching (r : Regex)

/-- The parts of a page. -/
inductive PagePart
  /-- Its head. -/
  | header
  /-- Its body. -/
  | body
  /-- Its foot. -/
  | footer
  deriving DecidableEq

/-- How lines are numbered. -/
structure Numbering where
  /-- Which lines of a part get a number. -/
  lines : PagePart → NumberedLines
  /-- What a line consists of that starts another part, once, twice or three times. -/
  mark : Chars
  /-- The first number. -/
  first : Int
  /-- The difference between numbers. -/
  increment : Int
  /-- Of how many empty lines one gets a number. -/
  blankCount : Nat
  /-- Numbers start anew with every part. -/
  restarts : Bool
  /-- How wide numbers are. -/
  width : Nat
  /-- What follows a number. -/
  separator : Chars
  /-- How numbers are placed. -/
  format : Chars

/-- A number in front of a line. -/
def Numbering.shown (s : Numbering) (n : Int) : Chars :=
  let ds := Chars.ofInt n
  let missing := s.width - ds.length
  if s.format = "ln".toList then ds ++ List.replicate missing ' '
  else if s.format = "rz".toList then
    if n < 0 then '-' :: List.replicate missing '0' ++ ds.drop 1
    else List.replicate missing '0' ++ ds
  else List.replicate missing ' ' ++ ds

/-- How far numbering has come. -/
structure Numbering.Progress where
  /-- The next number. -/
  number : Int
  /-- The part of the page. -/
  part : PagePart
  /-- How many empty lines have gone without a number. -/
  blanks : Nat

/-- The part of a page that a line starts. -/
def Numbering.startedPart? (s : Numbering) (line : Chars) : Option PagePart :=
  if s.mark = [] then none
  else if line = s.mark ++ s.mark ++ s.mark then some .header
  else if line = s.mark ++ s.mark then some .body
  else if line = s.mark then some .footer
  else none

/-- Whether a line gets a number, and how many empty lines have gone without one then. -/
def Numbering.isNumbered (s : Numbering) (p : Progress) (line : Chars) : Bool × Nat :=
  match s.lines p.part with
  | .all =>
    if s.blankCount ≤ 1 then (true, p.blanks)
    else if line ≠ [] || p.blanks + 1 = s.blankCount then (true, 0)
    else (false, p.blanks + 1)
  | .text => (line ≠ [], p.blanks)
  | .nothing => (false, p.blanks)
  | .matching r => ((r.search false line 0).isSome, p.blanks)

/-- A line with its number, and how far numbering has come then. -/
def Numbering.step (s : Numbering) (p : Progress) (line : Chars) : Chars × Progress :=
  match s.startedPart? line with
  | some part => ([], { p with part, number := if s.restarts then s.first else p.number })
  | none =>
    match s.isNumbered p line with
    | (true, blanks) =>
      (s.shown p.number ++ s.separator ++ line,
        { p with number := p.number + s.increment, blanks })
    | (false, blanks) =>
      (List.replicate (s.width + s.separator.length) ' ' ++ line, { p with blanks })

/-- The lines that the argument of an option asks for. -/
def NumberedLines.read? (w : Chars) : Option (Except Chars NumberedLines) :=
  match w with
  | 'a' :: _ => some (.ok .all)
  | 't' :: _ => some (.ok .text)
  | 'n' :: _ => some (.ok .nothing)
  | 'p' :: pattern => match Regex.read (.basic false false) pattern with
    | .ok (r, _) => some (.ok (.matching r))
    | .error e => some (.error e.message.toList)
  | _ => none

/-- The integer that an argument spells, between two limits; the complaint starts with a text. -/
def readInteger (name : Chars) (what : String) (least greatest : Int) (w : Chars) :
    Routine Int :=
  let message := what.toList ++ ": ".toList ++ cited w
  match Numeral.read 10 w with
  | some (n, []) =>
    if least ≤ n && n ≤ greatest then pure n
    else fail name 1 (because message (.system (if Numeral.fits n then 34 else 75)))
  | _ => fail name 1 message

/-- The words for the parts of a page, each with the letter of its option. -/
def partTitles : List (Char × String) := [('h', "header"), ('b', "body"), ('f', "footer")]

/-- What is wrong with the words of options that name something. -/
def numberingFaults (c : Call) : List Chars := c.flags.filterMap fun (letter, w) ↦
  match partTitles.lookup letter with
  | some title => if (NumberedLines.read? w).isNone then
      some ("invalid ".toList ++ title.toList ++ " numbering style: ".toList ++ cited w) else none
  | none => if letter = 'n' && !(["ln", "rn", "rz"].contains (Chars.toString w)) then
      some ("invalid line numbering format: ".toList ++ cited w) else none

/-- The lines of a part that a call asks for. -/
def partLines (name : Chars) (c : Call) (letter : Char) (usual : NumberedLines) :
    Routine NumberedLines :=
  match (c.value? letter).bind NumberedLines.read? with
  | none => pure usual
  | some (.ok s) => pure s
  | some (.error message) => fail name 1 message

/-- The numbering that a call asks for. -/
def numberingOf (name : Chars) (c : Call) : Routine Numbering := do
  let int := fun (letter : Char) (what : String) (least greatest usual : Int) ↦
    match c.value? letter with
    | none => pure usual
    | some w => readInteger name what least greatest w
  let first ← int 'v' "invalid starting line number" Numeral.least Numeral.greatest 1
  let increment ← int 'i' "invalid line number increment" Numeral.least Numeral.greatest 1
  let blankCount ← int 'l' "invalid line number of blank lines" 1 Numeral.greatest 1
  let width ← int 'w' "invalid line number field width" 1 2147483647 6
  match numberingFaults c with
  | [] => pure ()
  | faults => do
    Routine.forEach (warn name) faults
    pointToHelp name
    Routine.exit 1
  let header ← partLines name c 'h' .nothing
  let body ← partLines name c 'b' .text
  let footer ← partLines name c 'f' .nothing
  return {
    lines := fun part ↦ match part with
      | .header => header
      | .body => body
      | .footer => footer
    mark := match c.value? 'd' with
      | none => "\\:".toList
      | some [d] => [d, ':']
      | some w => w
    first, increment
    blankCount := blankCount.toNat
    restarts := !c.has 'p'
    width := width.toNat
    separator := (c.value? 's').getD ['\t']
    format := (c.value? 'n').getD "rn".toList }

/-- Numbers lines. -/
def nl : Program := fun args _ ↦ do
  let name := args.headD []
  let c ← readCall name 1 (valueFlags [('b', "body-numbering"), ('d', "section-delimiter"),
    ('f', "footer-numbering"), ('h', "header-numbering"), ('i', "line-increment"),
    ('l', "join-blank-lines"), ('n', "number-format"), ('s', "number-separator"),
    ('v', "starting-line-number"), ('w', "number-width")] ++ plainFlags [('p', "no-renumber")])
    true args.tail
  let s ← numberingOf name c
  let inputs := inputsOf c.operands
  let (_, status) ← inputs.foldlM (fun (p, status) file ↦ do
    match ← openInput file with
    | .error e =>
      warn name (because (shown file) e)
      return (p, 1)
    | .ok n =>
      let (p, failure) ← foldLines n p fun p line ↦ do
        let (shown, p) := s.step p (withoutEnd line)
        emit name (Chars.line shown)
        return .inl p
      closeInput n
      match failure with
      | none => return (p, status)
      | some e =>
        warn name (because (shown file) e)
        return (p, 1)) ((⟨s.first, .body, 0⟩ : Numbering.Progress), 0)
  leaveStandard name 1 "-" inputs status

/-! ## Breaking -/

/-- The number of columns behind one more character. -/
def columnBehind (countsBytes : Bool) (column : Nat) (c : Char) : Nat :=
  if countsBytes then column + 1
  else match c with
    | '\t' => column + 8 - column % 8
    | '\x08' => column - 1
    | '\r' => 0
    | _ => column + 1

/-- A line in pieces of some width.  The piece at work comes with its width, its last character
first.  Every step takes a character or ends a piece. -/
def broken (countsBytes atBlanks : Bool) (width : Nat) :
    Nat → Chars → Nat → Chars → List Chars
  | 0, piece, _, cs => [piece.reverse ++ cs]
  | _, piece, _, [] => [piece.reverse]
  | n + 1, piece, column, c :: cs =>
    let next := columnBehind countsBytes column c
    if next ≤ width then broken countsBytes atBlanks width n (c :: piece) next cs
    else
      let behind := piece.takeWhile fun d ↦ d ≠ ' ' && d ≠ '\t'
      if atBlanks && behind.length < piece.length then
        let column := behind.reverse.foldl (columnBehind countsBytes) 0
        (piece.drop behind.length).reverse ::
          broken countsBytes atBlanks width n behind column (c :: cs)
      else if piece = [] then broken countsBytes atBlanks width n [c] next cs
      else piece.reverse :: broken countsBytes atBlanks width n [] 0 (c :: cs)

/-- The old form of a width, digits behind a dash, in the form of today. -/
def withOldWidth (args : List Chars) : List Chars := args.map fun a ↦ match a with
  | '-' :: d :: ds => if d.isDigit && ds.all Char.isDigit then '-' :: 'w' :: d :: ds else a
  | a => a

/-- Breaks lines that are too long. -/
def fold : Program := fun args _ ↦ do
  let name := args.headD []
  let c ← readCall name 1 (valueFlags [('w', "width")] ++ plainFlags [('b', "bytes"),
    ('s', "spaces")]) true (withOldWidth args.tail)
  let width ← match c.value? 'w' with
    | none => pure 80
    | some w => readAmount name 1 "invalid number of columns" [] 1 w
  forRecords name '\n' (inputsOf c.operands) fun line ↦ do
    let body := withoutEnd line
    emit name (Chars.join ['\n']
      (broken (c.has 'b') (c.has 's') width (2 * body.length + 1) [] 0 body) ++
        line.drop body.length)

/-- A line is broken behind its last blank. -/
example : broken false true 5 20 [] 0 "ab cdefgh".toList =
    ["ab ".toList, "cdefg".toList, ['h']] := by decide +kernel

/-!
## Shuffled lines

Lines come out in an order that nobody can foresee.  The order in which they came in is as good as
any other.
-/

namespace Shuffle

/-- The options. -/
def flags : List Flag :=
  plainFlags [('e', "echo"), ('r', "repeat"), ('z', "zero-terminated")] ++
    valueFlags [('i', "input-range"), ('n', "head-count"), ('o', "output"),
      ('\x01', "random-source")]

/-- The numbers of a range that a word spells. -/
def range (name w : Chars) : Routine (Nat × Nat) := do
  let what := "invalid input range"
  match w.span (· ≠ '-') with
  | (_, []) => fail name 1 (what.toList ++ ": ".toList ++ cited w)
  | (first, _ :: last) =>
    let least ← readAmount name 1 what [] 0 first
    let greatest ← readAmount name 1 what [] 0 last
    if greatest + 1 < least then fail name 1 (what.toList ++ ": ".toList ++ cited w)
    return (least, greatest)

end Shuffle

open Shuffle in
/-- Writes lines in some order. -/
def shuf : Program := fun args _ ↦ do
  let name := args.headD []
  let c ← readCall name 1 flags true args.tail
  let last := if c.has 'z' then '\x00' else '\n'
  if 1 < (c.flags.filter (·.1 = 'i')).length then
    fail name 1 "multiple -i options specified".toList
  let limits ← match c.value? 'i' with
    | some w => do pure (some (← range name w))
    | none => pure none
  let limit ← match c.value? 'n' with
    | some w => do
      match Amount.read [] w with
      | .ok n => pure (some n)
      | .error (some _) => pure none
      | .error none => fail name 1 ("invalid line count: ".toList ++ cited w)
    | none => pure none
  if c.has 'e' && limits.isSome then refuse name 1 "cannot combine -e and -i options".toList
  if !c.has 'e' then
    if let extra :: _ := c.operands.drop (if limits.isSome then 0 else 1) then
      extraOperand name 1 extra
  let wanted := fun (count : Nat) ↦ (limit.map (min count)).getD count
  let lines ← match limits with
    | some (least, greatest) =>
      let count := greatest + 1 - least
      let count := if c.has 'r' then count else wanted count
      pure ((List.range count).map fun k ↦ Chars.ofNat (least + k))
    | none =>
      if c.has 'e' then pure c.operands
      else do
        let file := c.operands.headD ['-']
        match ← readInput file with
        | .ok content => pure (Chars.records last content)
        | .error e => fail name 1 (because (shown file) e)
  let output ← match c.value? 'o' with
    | none => pure 1
    | some file => do
      match ← Routine.openPath (Chars.toPath file) .forWriting Routine.usualMode with
      | .ok n => pure n
      | .error e => fail name 1 (because (shown file) e)
  let write := fun (cs : Chars) ↦ do
    if let .error e ← Routine.print output cs then fail name 1 (because "write error".toList e)
  if !c.has 'r' then
    write ((lines.take (wanted lines.length)).flatMap (· ++ [last]))
    return 0
  match lines, limit with
  | _, some 0 => return 0
  | [], _ => fail name 1 "no lines to repeat".toList
  | line :: _, some n =>
    write ((List.replicate n (line ++ [last])).flatten)
    return 0
  | line :: _, none =>
    let all := (List.replicate 1000 (line ++ [last])).flatten
    Routine.loop () fun _ ↦ do
      write all
      return .inl ()

end ContractBuild.Utility
