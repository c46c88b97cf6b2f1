import ContractBuild.Posix.Text.OrderedRegex.Reader
import ContractBuild.Posix.Text.Regex
import ContractBuild.Posix.Utility.Basic

/-!
# Queries about lines

The lines of inputs are selected and shown in several ways: whole, with their neighbours, only the
matches in them, or only counted.  An input with a null character is no text: of its lines nothing
is shown but that there is one.
-/

/-!
## Matches in lines

A line is compared with expressions of which the longest match counts, or with one whose first match
counts.  A match may have to be a word or the whole line.
-/

namespace ContractBuild.Utility.Grep

/-- Where a match must lie in its line. -/
inductive Extent
  /-- Anywhere. -/
  | anywhere
  /-- Between characters that are not part of a word. -/
  | word
  /-- It must be the whole line. -/
  | line
  deriving DecidableEq, Repr

/-- What lines are compared with. -/
inductive Matcher
  /-- Expressions, of all of which the longest match counts. -/
  | longest (regexes : List Regex) (isFolded : Bool) (extent : Extent)
  /-- An expression whose first match counts. -/
  | ordered (regex : OrderedRegex)

/-- The expression of a text that stands for itself. -/
def literal (cs : Chars) : Regex := cs.foldr (fun c r ↦ .both (.one (.char c)) r) .empty

/-- Whether a match from one spot to another lies where it must. -/
def Extent.holds (e : Extent) (first last : Regex.Spot) : Bool :=
  match e with
  | .anywhere => true
  | .line => first.before.isNone && last.rest.isEmpty
  | .word => !first.before.any Regex.inWord && !last.rest.head?.any Regex.inWord

/-- The expression with what a match must lie in. -/
def Extent.around (e : Extent) (hasLines : Bool) (r : OrderedRegex) : OrderedRegex :=
  let wordSign := OrderedRegex.one false (.oneOf false [.ofClass false "word"])
  match e with
  | .anywhere => r
  | .line =>
    if hasLines then .both (.edge .lineStart) (.both r (.edge .lineEnd))
    else .both (.edge .textStart) (.both r (.edge .textEnd))
  | .word => .both (.behind true wordSign) (.both r (.ahead true wordSign))

namespace Matcher

/-- The end of the longest match of some expressions from a spot. -/
def endAt? (rs : List Regex) (isFolded : Bool) (e : Extent) (s : Regex.Spot) : Option Nat :=
  (rs.filterMap fun r ↦
    ((Regex.ways isFolded r.hasReferences r s).find? (e.holds s)).map (·.index)).max?

/-- The first and longest match of some expressions from a spot on.  Every step takes a
character. -/
def longestFrom (rs : List Regex) (isFolded : Bool) (e : Extent) :
    Nat → Regex.Spot → Option (Nat × Nat)
  | 0, _ => none
  | n + 1, s =>
    match endAt? rs isFolded e s with
    | some last => some (s.index, last)
    | none =>
      match s.next? with
      | some (_, next) => if e = .line then none else longestFrom rs isFolded e n next
      | none => none

/-- The first match in a line behind so many of its characters. -/
def find? (m : Matcher) (line : Chars) (n : Nat) : Option (Nat × Nat) :=
  match m with
  | .longest rs isFolded e =>
    let before := if n = 0 then none else (line.drop (n - 1)).head?
    longestFrom rs isFolded e (line.length + 1) ⟨n, before, line.drop n, []⟩
  | .ordered r => r.search line n

/-- Whether a line matches. -/
def hasMatch (m : Matcher) (line : Chars) : Bool := (m.find? line 0).isSome

/-- The matches in a line behind so many of its characters that are not empty, each with its place.
Every step takes a character. -/
def allFrom (m : Matcher) (line : Chars) : Nat → Nat → List (Nat × Chars)
  | 0, _ => []
  | n + 1, start =>
    match m.find? line start with
    | none => []
    | some (a, b) =>
      if b ≤ a then if b < start then [] else m.allFrom line n (max start b + 1)
      else (a, (line.drop a).take (b - a)) :: m.allFrom line n b

/-- The matches in a line that are not empty, each with its place. -/
def all (m : Matcher) (line : Chars) : List (Nat × Chars) := m.allFrom line (line.length + 1) 0

end Matcher

/-- The longest match of all expressions, only as a word. -/
example : Matcher.find? (.longest [literal "ab".toList, literal "abc".toList] false .word)
    "abcd abc".toList 0 = some (5, 8) := by decide +kernel

end ContractBuild.Utility.Grep

namespace ContractBuild.Utility.Grep

/-! ## Queries -/

/-- What is shown of an input. -/
inductive Style
  /-- Lines. -/
  | lines
  /-- The matches in lines. -/
  | parts
  /-- How many lines are selected. -/
  | count
  /-- The name of an input in which lines are selected. -/
  | filesWith
  /-- The name of an input in which none is selected. -/
  | filesWithout
  /-- Nothing. -/
  | nothing
  deriving DecidableEq, Repr

/-- What is done with inputs that are no text. -/
inductive BinaryChoice
  /-- It is only shown that there is a line. -/
  | brief
  /-- They are treated as text. -/
  | asText
  /-- They have no lines. -/
  | left
  deriving DecidableEq, Repr

/-- How lines are selected and shown. -/
structure Query where
  /-- The name of the program. -/
  name : Chars
  /-- What lines are compared with. -/
  matcher : Matcher
  /-- Lines that do not match are selected. -/
  isInverse : Bool
  /-- What is shown. -/
  style : Style
  /-- The names of inputs are shown. -/
  showsName : Bool
  /-- The names of inputs in directories are shown. -/
  namesDeep : Bool
  /-- The numbers of lines are shown. -/
  showsNumber : Bool
  /-- The places of lines are shown. -/
  showsPlace : Bool
  /-- Lines are moved to a tab stop. -/
  hasTab : Bool
  /-- How many lines are shown in front of a selected one. -/
  before : Nat
  /-- How many lines are shown behind a selected one. -/
  after : Nat
  /-- The line between groups of neighbours, if there is one, where neighbours are asked for. -/
  separator : Option Chars
  /-- The greatest number of selected lines. -/
  most : Option Nat
  /-- What is done with inputs that are no text. -/
  binary : BinaryChoice
  /-- What ends a line. -/
  lineEnd : Char
  /-- Inputs that cannot be read are no matter. -/
  isQuiet : Bool
  /-- What the standard input is called. -/
  label : Chars
  /-- What ends the name of an input in place of the usual sign. -/
  nameEnd : Option Char
  /-- Characters can have several bytes. -/
  isWide : Bool

/-- A line of an input. -/
structure Line where
  /-- Its number. -/
  number : Nat
  /-- How many bytes come before it. -/
  place : Nat
  /-- Its text. -/
  text : Chars

/-- What has been found in an input so far. -/
structure Progress where
  /-- The number of lines. -/
  number : Nat
  /-- The number of bytes. -/
  place : Nat
  /-- How many lines were selected. -/
  count : Nat
  /-- The lines before, which have not been shown; the latest first. -/
  pending : List Line
  /-- Lines have been shown before, of this input or of another one. -/
  hasShown : Bool
  /-- How many lines behind the last selected one are still to be shown. -/
  left : Nat
  /-- The number of the last line that was shown. -/
  shown : Nat
  /-- Where the last selected line ended. -/
  selectedEnd : Nat
  /-- How many lines had been selected when the input turned out to be no text. -/
  textCount : Option Nat
  /-- A line was not shown because it is no text. -/
  hidesLine : Bool

/-- The state before an input is read. -/
def Progress.ofStart (hasShown : Bool) : Progress := ⟨0, 0, 0, [], hasShown, 0, 0, 0, .none, false⟩

/-! ## Showing lines -/

/-- How wide numbers are, where lines are moved to a tab stop, in an input of so many bytes. -/
def Query.numberWidth (q : Query) (size : Option Nat) : Nat :=
  if !q.hasTab then 0
  else match size with
    | some n => (Chars.ofNat (if q.showsNumber then n + 1 else n)).length
    | none => 19

/-- A number with blanks in front. -/
def padded (width n : Nat) : Chars :=
  let ds := Chars.ofNat n
  List.replicate (width - ds.length) ' ' ++ ds

/-- The name of an input in front of something, and a sign. -/
def Query.nameHeading (q : Query) (file : Chars) (sign : Char) : Chars :=
  if q.showsName then file ++ [q.nameEnd.getD sign] else []

/-- What stands in front of a line with numbers of a width; `sign` ends each part of it. -/
def Query.heading (q : Query) (file : Chars) (width : Nat) (sign : Char) (l : Line) (place : Nat)
    (text : Chars) : Chars :=
  let parts := q.nameHeading file sign ++
    (if q.showsNumber then padded width l.number ++ [sign] else []) ++
    (if q.showsPlace then padded width place ++ [sign] else [])
  parts ++ (if q.hasTab && parts ≠ [] && text ≠ [] then ['\t'] else [])

/-- The characters that a line means. -/
def Query.meant (q : Query) (text : Chars) : Chars := if q.isWide then Wide.read text else text

/-- The bytes of characters. -/
def Query.bytes (q : Query) (cs : Chars) : Chars := if q.isWide then Wide.write cs else cs

/-- Whether a line has bytes that mean nothing. -/
def Query.isBroken (q : Query) (text : Chars) : Bool :=
  q.isWide && q.binary ≠ .asText && (Wide.read text).any fun c ↦ '\x80' ≤ c && !Wide.isWide c

/-- A line as it is shown; a line that is no text is not shown. -/
def Query.shownLine (q : Query) (file : Chars) (width : Nat) (sign : Char) (l : Line) : Chars :=
  if q.isBroken l.text then []
  else q.heading file width sign l l.place l.text ++ l.text ++ [q.lineEnd]

/-- What is shown for a selected line. -/
def Query.shownHit (q : Query) (file : Chars) (width : Nat) (s : Progress) (l : Line) : Chars :=
  let before := s.pending.reverse
  let first := (before.head?.map (·.number)).getD l.number
  let isApart := s.hasShown && (s.shown = 0 || s.shown + 1 < first)
  let gap := if isApart then (q.separator.map Chars.line).getD [] else []
  match q.style with
  | .lines =>
    gap ++ before.flatMap (q.shownLine file width '-') ++ q.shownLine file width ':' l
  | .parts =>
    if q.isInverse then []
    else
      let text := q.meant l.text
      gap ++ (q.matcher.all text).flatMap fun (place, part) ↦
        q.heading file width ':' l (l.place + (q.bytes (text.take place)).length) part ++
          q.bytes part ++ [q.lineEnd]
  | _ => []

/-- Whether a line is selected. -/
def Query.selects (q : Query) (text : Chars) : Bool :=
  q.matcher.hasMatch (q.meant text) != q.isInverse

/-- Whether as many lines have been selected as are asked for. -/
def Query.isOver (q : Query) (s : Progress) : Bool := q.most.any (· ≤ s.count)

/-! ## Reading lines -/

/-- Looks at one line. -/
def Query.step (q : Query) (file : Chars) (width : Nat) (s : Progress) (line : Chars) :
    Routine (Progress ⊕ Progress) := do
  let text := withoutLast q.lineEnd line
  let l : Line := ⟨s.number + 1, s.place, text⟩
  let s := { s with number := s.number + 1, place := s.place + line.length }
  if !q.isOver s && q.selects text then
    let t := {
      s with
      count := s.count + 1
      pending := []
      left := q.after
      shown := l.number
      hasShown := true
      selectedEnd := s.place }
    match q.style with
    | .filesWith | .filesWithout | .nothing => return .inr t
    | .count => return if q.isOver t then .inr t else .inl t
    | _ =>
      if s.textCount ≠ .none then return .inr t
      emit q.name (q.shownHit file width s l)
      let t := { t with hidesLine := t.hidesLine || (q.style = .lines && q.isBroken text) }
      return if q.isOver t && t.left = 0 then .inr t else .inl t
  else if 0 < s.left then
    if q.style = .lines && s.textCount = .none then emit q.name (q.shownLine file width '-' l)
    let t := {
      s with
      left := s.left - 1
      shown := l.number
      pending := []
      hidesLine := s.hidesLine || (q.style = .lines && q.isBroken text) }
    return if q.isOver t && t.left = 0 then .inr t else .inl t
  else if q.isOver s then return .inr s
  else return .inl { s with pending := (l :: s.pending).take q.before }

/-- Looks at some lines. -/
def Query.steps (q : Query) (file : Chars) (width : Nat) :
    Progress → List Chars → Routine (Progress ⊕ Progress)
  | s, [] => return .inl s
  | s, line :: lines => do
    match ← q.step file width s line with
    | .inl s => q.steps file width s lines
    | .inr s => return .inr s

/-- The state behind a block of an input, and the block as it is read: an input with a null
character is no text, and its lines end there as well. -/
def Query.noticed (q : Query) (s : Progress) (cs : Chars) : Progress × Chars :=
  if q.binary = .asText || q.lineEnd = '\x00' then (s, cs)
  else
    let s := if s.textCount = .none && cs.contains '\x00' then { s with textCount := some s.count }
      else s
    (s, if s.textCount = .none then cs else cs.map fun c ↦ if c = '\x00' then '\n' else c)

/-- Looks at the lines of an input as they come. -/
def Query.lines (q : Query) (file : Chars) (hasShown : Bool) (width n : Nat) :
    Routine (Progress × Option IoError) := do
  let ((s, rest), failure) ← foldBlocks n (Progress.ofStart hasShown, ([] : Chars))
    fun (s, rest) bs ↦ do
    let (s, cs) := q.noticed s (Chars.ofBytes bs)
    if s.textCount ≠ .none && q.binary = .left then
      return .inr ({ s with count := 0, textCount := .none }, [])
    let text := rest ++ cs
    let whole := (Chars.wholeRecords q.lineEnd text).filter (·.getLast? = some q.lineEnd)
    match ← q.steps file width s whole with
    | .inl s => return .inl (s, text.drop ((whole.map (·.length)).foldl (· + ·) 0))
    | .inr s => return .inr (s, [])
  if rest = [] || failure ≠ .none then return (s, failure)
  match ← q.step file width s rest with
  | .inl s | .inr s => return (s, .none)

/-! ## Inputs -/

/-- What is shown of an input as a whole. -/
def Query.summary (q : Query) (file : Chars) (s : Progress) : Chars :=
  match q.style with
  | .count => q.nameHeading file ':' ++ Chars.line (Chars.ofNat s.count)
  | .filesWith => if 0 < s.count then file ++ [q.nameEnd.getD '\n'] else []
  | .filesWithout => if s.count = 0 then file ++ [q.nameEnd.getD '\n'] else []
  | _ => []

/-- What came of inputs. -/
structure Outcome where
  /-- Lines were selected. -/
  isFound : Bool
  /-- An input could not be read. -/
  isFailure : Bool
  /-- Lines were shown. -/
  hasShown : Bool

/-- Nothing came of anything so far. -/
def Outcome.none : Outcome := ⟨false, false, false⟩

/-- Says why an input cannot be read, if that matters. -/
def Query.complain (q : Query) (file : Chars) (e : IoError) (o : Outcome) : Routine Outcome := do
  if !q.isQuiet then warn q.name (because file e)
  return { o with isFailure := true }

/-- Looks at an open input. -/
def Query.input (q : Query) (file : Chars) (n : Nat) (o : Outcome) : Routine Outcome := do
  let showsLines := q.style = .lines || q.style = .parts
  if showsLines && q.most.all (1 < ·) then
    if ← isOutputFile n then
      if !q.isQuiet then warn q.name (file ++ ": input file is also the output".toList)
      return { o with isFailure := true }
  let start ← standing? n
  let width := q.numberWidth (start.map (·.2))
  let (s, failure) ← q.lines file o.hasShown width n
  if let some (position, _) := start then
    if q.isOver s then moveTo n (position + s.selectedEnd)
  let o := { o with hasShown := s.hasShown }
  match failure with
  | some e => q.complain file e o
  | .none =>
    emit q.name (q.summary file s)
    if showsLines && (s.hidesLine || s.textCount.any (· < s.count)) then
      warn q.name (file ++ ": binary file matches".toList)
    return { o with isFound := o.isFound || 0 < s.count }

/-- Looks at a file. -/
def Query.file (q : Query) (file : Chars) (o : Outcome) : Routine Outcome := do
  match ← openInput file with
  | .error e => q.complain file e o
  | .ok n =>
    let o ← q.input (if isStandard file then q.label else file) n o
    closeInput n
    return o

end ContractBuild.Utility.Grep
