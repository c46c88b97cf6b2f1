import ContractBuild.Posix.Text.Chars
import ContractBuild.Posix.Text.Numeral
import ContractBuild.Posix.Utility.Basic

/-!
# Fields of lines

Cutting parts out of lines, and putting lines together.
-/

namespace ContractBuild.Utility

/-! ## Lists of numbers -/

/-- The numbers from one to another, or to the end. -/
structure Span where
  /-- The first number. -/
  first : Nat
  /-- The last number. -/
  last : Option Nat
  deriving DecidableEq

namespace Span

/-- Whether a number lies in a span. -/
def holds (s : Span) (n : Nat) : Bool := s.first ≤ n && s.last.all (n ≤ ·)

/-- Whether a span reaches to a number. -/
def reaches (s : Span) (n : Nat) : Bool := s.last.all (n ≤ ·)

/-- Spans in the order of their first numbers, with those that overlap made one. -/
def merged (spans : List Span) : List Span :=
  let sorted := spans.mergeSort fun a b ↦ a.first ≤ b.first
  (sorted.foldl (fun done s ↦ match done with
    | [] => [s]
    | t :: rest =>
      if t.reaches s.first then
        let last := match t.last, s.last with
          | some m, some n => some (max m n)
          | _, _ => none
        ⟨t.first, last⟩ :: rest
      else s :: t :: rest) []).reverse

/-- The spans between some that are merged, from a number on. -/
def between : Nat → List Span → List Span
  | n, [] => [⟨n, none⟩]
  | n, s :: rest =>
    let gap := if n < s.first then [⟨n, some (s.first - 1)⟩] else []
    gap ++ match s.last with
      | none => []
      | some m => between (m + 1) rest

end Span

/-- The words for what a list of numbers is about. -/
structure ListTerms where
  /-- For a number that cannot be read. -/
  value : String
  /-- For a span that cannot be read. -/
  range : String
  /-- For a zero. -/
  zero : String
  /-- For a number that is too large. -/
  tooLarge : String

/-- A list of fields. -/
def ListTerms.fields : ListTerms :=
  ⟨"invalid field value ", "invalid field range", "fields are numbered from 1", "field number "⟩

/-- A list of characters. -/
def ListTerms.places : ListTerms :=
  ⟨"invalid byte/character position ", "invalid byte or character range",
    "byte/character positions are numbered from 1", "byte/character offset "⟩

/-- What has been read of an element of a list. -/
structure ListElement where
  /-- The number in front of the dash. -/
  left : Option Nat
  /-- Whether there is a dash. -/
  isRange : Bool
  /-- The number behind the dash. -/
  right : Option Nat

/-- The span that an element of a list stands for. -/
def ListElement.span (t : ListTerms) (e : ListElement) : Except Chars Span :=
  if e.isRange then
    if e.left.isNone && e.right.isNone then .error "invalid range with no endpoint: -".toList
    else match e.right with
      | none => .ok ⟨e.left.getD 1, none⟩
      | some m =>
        if m < e.left.getD 1 then .error "invalid decreasing range".toList
        else .ok ⟨e.left.getD 1, some m⟩
  else match e.left with
    | none | some 0 => .error t.zero.toList
    | some n => .ok ⟨n, some n⟩

/-- Reads a list of numbers behind a part of an element.  Every step takes a character or a
number. -/
def readElements (t : ListTerms) : Nat → ListElement → Chars → Except Chars (List Span)
  | 0, _, _ => .ok []
  | n + 1, e, cs => do
    match cs with
    | [] => return [← e.span t]
    | '-' :: rest =>
      if e.isRange then .error t.range.toList
      else if e.left = some 0 then .error t.zero.toList
      else readElements t n { e with isRange := true } rest
    | c :: rest =>
      if c = ',' || c = ' ' || c = '\t' then
        return (← e.span t) :: (← readElements t n ⟨none, false, none⟩ rest)
      else
        let (ds, behind) := cs.span Char.isDigit
        match Chars.toNat? ds with
        | none => .error (t.value.toList ++ cited cs)
        | some k =>
          if Numeral.wordCount ≤ k + 1 then
            .error (t.tooLarge.toList ++ cited ds ++ " is too large".toList)
          else if e.isRange then readElements t n { e with right := some k } behind
          else readElements t n { e with left := some k } behind

/-- Spans as they are written. -/
def readSpans (t : ListTerms) (cs : Chars) : Except Chars (List Span) :=
  (readElements t (cs.length + 1) ⟨none, false, none⟩ cs).map Span.merged

/-! ## Cutting -/

/-- What is cut out of lines. -/
structure Cutting where
  /-- The numbers of the parts. -/
  spans : List Span
  /-- What separates fields, if fields are wanted. -/
  separator : Option Char
  /-- What is written between parts; where characters are wanted, nothing may be written. -/
  between : Option Chars
  /-- Lines without a separator are left out. -/
  isStrict : Bool

/-- Whether a part is wanted. -/
def Cutting.wants (c : Cutting) (n : Nat) : Bool := c.spans.any (·.holds n)

/-- The wanted characters of a line, with a text between spans. -/
def Cutting.chars (c : Cutting) (line : Chars) : Chars :=
  let kept := (line.zipIdx 1).filter fun e ↦ c.wants e.2
  match c.between with
  | none => kept.map (·.1)
  | some between => kept.zipIdx.flatMap fun ((d, n), k) ↦
      if k ≠ 0 && c.spans.any (·.first = n) then between ++ [d] else [d]

/-- What is left of a line, if it is not left out. -/
def Cutting.apply (c : Cutting) (line : Chars) : Option Chars :=
  match c.separator with
  | none => some (c.chars line)
  | some separator =>
    if !line.contains separator then if c.isStrict then none else some line
    else
      let kept := (((Chars.splitOn (· = separator) line).zipIdx 1).filter fun e ↦ c.wants e.2)
      some (Chars.join (c.between.getD [separator]) (kept.map (·.1)))

/-- The cutting that a call asks for. -/
def cuttingOf (name : Chars) (c : Call) : Routine Cutting := do
  match c.flags.filter fun f ↦ "bcf".toList.contains f.1 with
  | [] => refuse name 1 "you must specify a list of bytes, characters, or fields".toList
  | _ :: _ :: _ => refuse name 1 "only one list may be specified".toList
  | [(letter, list)] =>
    let isField := letter = 'f'
    let separator ← match c.value? 'd' with
      | none => pure '\t'
      | some [] => pure '\x00'
      | some [d] => pure d
      | some _ => refuse name 1 "the delimiter must be a single character".toList
    if !isField && c.has 'd' then
      refuse name 1 ("an input delimiter may be specified only when operating on fields").toList
    if !isField && c.has 's' then
      refuse name 1 ("suppressing non-delimited lines makes sense\n" ++
        "\tonly when operating on fields").toList
    match readSpans (if isField then .fields else .places) list with
    | .error message => refuse name 1 message
    | .ok spans =>
      let between := (c.value? '\x02').map fun w ↦ if w = [] then ['\x00'] else w
      return ⟨if c.has '\x01' then Span.between 1 spans else spans,
        if isField then some separator else none, between, c.has 's'⟩

/-- Does something with the records of every input, which end with a character of one kind; the
value is the greatest status. -/
def forRecords (name : Chars) (last : Char) (files : List Chars) (f : Chars → Routine Unit) :
    Routine Nat := do
  let status ← forStatus (fun file ↦ do
    match ← openInput file with
    | .error e =>
      warn name (because (shown file) e)
      return 1
    | .ok n =>
      let ((), failure) ← foldRecords last n () fun () line ↦ do
        f line
        return .inl ()
      closeInput n
      match failure with
      | none => return 0
      | some e =>
        warn name (because (shown file) e)
        return 1) files
  leaveStandard name 1 "-" files status

/-- Cuts parts out of lines. -/
def cut : Program := fun args _ ↦ do
  let name := args.headD []
  let c ← readCall name 1 (valueFlags [('b', "bytes"), ('c', "characters"), ('f', "fields"),
    ('d', "delimiter"), ('\x02', "output-delimiter")] ++ plainFlags [('n', ""),
    ('s', "only-delimited"), ('\x01', "complement"), ('z', "zero-terminated")]) true args.tail
  let cutting ← cuttingOf name c
  let last := lastOfLines c 'z'
  forRecords name last (inputsOf c.operands) fun line ↦
    match cutting.apply (withoutLast last line) with
    | some kept => emit name (kept ++ [last])
    | none => pure ()

/-! ## Putting together -/

/-- The separators that a text spells, in which a backslash starts an escape; nothing if it ends
with a backslash. -/
def separatorList : Chars → Option (List Chars)
  | ['\\'] => none
  | '\\' :: c :: cs =>
    let one := if c = '0' then [] else match "bfnrtv".toList.findIdx? (· = c) with
      | some _ => [((Escape.letters.lookup c).getD c)]
      | none => [c]
    (separatorList cs).map (one :: ·)
  | c :: cs => (separatorList cs).map ([c] :: ·)
  | [] => some []

/-- Texts with separators between them, which are used in turn. -/
def joinedInTurn (separators : List Chars) (ws : List Chars) : Chars :=
  let n := max separators.length 1
  (ws.zipIdx.flatMap fun (w, k) ↦
    if k = 0 then w else (separators[(k - 1) % n]?.getD []) ++ w)

/-- Every so many-th element, starting with the first one.  Every step takes an element. -/
def everyNth {α : Type} (n : Nat) : Nat → List α → List α
  | 0, _ => []
  | _, [] => []
  | fuel + 1, a :: rest => a :: everyNth n fuel (rest.drop (n - 1))

/-- The lines of some inputs side by side; the standard input gives its lines to the inputs that
stand for it in turn. -/
def pasteColumns (name : Chars) (last : Char) (files : List Chars) :
    Routine (List (List Chars)) := do
  let named ← files.mapM fun file ↦ do
    if isStandard file then return []
    match ← readInput file with
    | .ok content => return Chars.records last content
    | .error e => fail name 1 (because (shown file) e)
  if !files.any isStandard then return named
  let shared ← match ← readInput ['-'] with
    | .ok content => pure (Chars.records last content)
    | .error e => fail name 1 (because ['-'] e)
  let count := (files.filter isStandard).length
  return (files.zip named).zipIdx.map fun ((file, ls), k) ↦
    if isStandard file then
      everyNth count shared.length (shared.drop ((files.take k).filter isStandard).length)
    else ls

/-- Puts the lines of inputs side by side, or those of one input behind each other. -/
def paste : Program := fun args _ ↦ do
  let name := args.headD []
  let c ← readCall name 1 (valueFlags [('d', "delimiters")] ++
    plainFlags [('s', "serial"), ('z', "zero-terminated")]) true args.tail
  let given := (c.value? 'd').getD ['\t']
  let separators ← match separatorList given with
    | some s => pure s
    | none => fail name 1 ("delimiter list ends with an unescaped backslash: ".toList ++
        given)
  let last := lastOfLines c 'z'
  let files := inputsOf c.operands
  let ended := fun (ls : List Chars) ↦ emit name (joinedInTurn separators ls ++ [last])
  if c.has 's' then
    let status ← forStatus (fun file ↦ do
      match ← readInput file with
      | .ok content =>
        ended (Chars.records last content)
        return 0
      | .error e =>
        warn name (because (shown file) e)
        return 1) files
    leaveStandard name 1 "-" files status
  else
    let columns ← pasteColumns name last files
    let height := (columns.map (·.length)).max?.getD 0
    Routine.forEach (fun k ↦ ended (columns.map fun ls ↦ ls[k]?.getD [])) (List.range height)
    leaveStandard name 1 "-" files 0

/-- A span without an end, and one without a start. -/
example : (readElements .places 9 ⟨none, false, none⟩ "-2,4-".toList).toOption.map (fun ss ↦
    [1, 2, 3, 4, 5].filter fun n ↦ ss.any (·.holds n)) = some [1, 2, 4, 5] := by decide +kernel

end ContractBuild.Utility
