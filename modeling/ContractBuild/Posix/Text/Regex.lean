import ContractBuild.Posix.Text.Glob

/-!
# Regular expressions

Expressions in their basic and in their extended form.  Of all matches the leftmost one counts, and
of those the longest one; parts of an expression match as much as they can, the first one first.

An expression is matched by following all ways from a spot in a text: `ways` gives the spots at
which a match can end, the farthest one first.
-/

namespace ContractBuild

/-- What is asked of one character. -/
inductive CharTest
  /-- Nothing. -/
  | any
  /-- It is this one. -/
  | char (c : Char)
  /-- It is one of some characters, or none of these. -/
  | oneOf (isNegated : Bool) (items : List Glob.Item)
  deriving DecidableEq, Repr

/-- What is asked of a place between characters. -/
inductive Edge
  /-- The text starts. -/
  | textStart
  /-- The text ends. -/
  | textEnd
  /-- The text starts, or what counts as a line. -/
  | lineStart
  /-- The text ends, or what counts as a line. -/
  | lineEnd
  /-- A line of the text starts. -/
  | innerStart
  /-- A line of the text ends. -/
  | innerEnd
  /-- A word starts. -/
  | wordStart
  /-- A word ends. -/
  | wordEnd
  /-- A word starts or ends. -/
  | word
  /-- No word starts or ends. -/
  | noWord
  deriving DecidableEq, Repr

/-- A regular expression. -/
inductive Regex
  /-- The empty text. -/
  | empty
  /-- One character. -/
  | one (test : CharTest)
  /-- A place. -/
  | edge (e : Edge)
  /-- A part that can be referred to by its number. -/
  | group (number : Nat) (body : Regex)
  /-- The text of a part that has been matched. -/
  | same (number : Nat)
  /-- One expression behind another. -/
  | both (first second : Regex)
  /-- One of two expressions. -/
  | either (first second : Regex)
  /-- An expression several times, so often at least and at most. -/
  | repeated (body : Regex) (least : Nat) (most : Option Nat)

namespace Regex

/-! ## Matching -/

/-- A spot in a text, with the parts that have been matched on the way. -/
structure Spot where
  /-- How many characters lie before it. -/
  index : Nat
  /-- The character before it. -/
  before : Option Char
  /-- The characters behind it. -/
  rest : Chars
  /-- The parts, each with its number, its start and its text, the latest first. -/
  groups : List (Nat × Nat × Chars)

/-- The spot at the start of a text. -/
def Spot.start (text : Chars) : Spot := ⟨0, none, text, []⟩

/-- The spot behind the next character. -/
def Spot.next? (s : Spot) : Option (Char × Spot) :=
  match s.rest with
  | [] => none
  | c :: cs => some (c, { s with index := s.index + 1, before := some c, rest := cs })

/-- Whether a character belongs to words. -/
def inWord (c : Char) : Bool := c.isAlphanum || c = '_' || Wide.isLetter c

/-- Whether a place is as it is asked for. -/
def Edge.holds (s : Spot) (e : Edge) : Bool :=
  let before := s.before.any inWord
  let behind := s.rest.head?.any inWord
  match e with
  | .textStart | .lineStart => s.before.isNone
  | .textEnd | .lineEnd => s.rest.isEmpty
  | .innerStart => s.before.all (· = '\n')
  | .innerEnd => s.rest.head?.all (· = '\n')
  | .wordStart => !before && behind
  | .wordEnd => before && !behind
  | .word => before != behind
  | .noWord => before == behind

/-- Whether a character is as it is asked for; capitals count as small letters on demand. -/
def CharTest.holds (isFolded : Bool) (c : Char) (t : CharTest) : Bool :=
  let forms := if isFolded then [Wide.toLower c, Wide.toUpper c] else [c]
  match t with
  | .any => true
  | .char d => forms.contains d
  | .oneOf isNegated items => (forms.any fun c ↦ items.any (·.holds c)) != isNegated

/-- Whether two spots are the same as far as it matters to what follows. -/
def Spot.isLike (hasReferences : Bool) (s t : Spot) : Bool :=
  s.index = t.index && (!hasReferences || s.groups = t.groups)

/-- Puts a spot among others, the farthest one first, unless the same is there. -/
def insertSpot (hasReferences : Bool) (s : Spot) : List Spot → List Spot
  | [] => [s]
  | t :: ts =>
    if t.index < s.index then s :: t :: ts
    else if t.isLike hasReferences s then t :: ts
    else t :: insertSpot hasReferences s ts

/-- The spots without the ones that come again, the farthest one first. -/
def ordered (hasReferences : Bool) (ss : List Spot) : List Spot :=
  match ss with
  | [] | [_] => ss
  | ss => ss.foldl (fun ss s ↦ insertSpot hasReferences s ss) []

/-- The spots behind a text that must stand there. -/
def skipText (isFolded : Bool) : Chars → Spot → Option Spot
  | [], s => some s
  | c :: cs, s =>
    match s.next? with
    | some (d, s) =>
      if c = d || (isFolded && Wide.toLower c = Wide.toLower d) then skipText isFolded cs s
      else none
    | none => none

/-- The spots behind characters of one kind, so many at most, the farthest one first. -/
def runOf (isFolded : Bool) (t : CharTest) : Nat → List Spot → Spot → List Spot
  | 0, done, s => s :: done
  | n + 1, done, s =>
    match s.next? with
    | some (c, next) =>
      if CharTest.holds isFolded c t then runOf isFolded t n (s :: done) next else s :: done
    | none => s :: done

/-- The spots that so many steps lead to. -/
def steps (hasReferences : Bool) (step : Spot → List Spot) : Nat → List Spot → List Spot
  | 0, ss => ss
  | n + 1, ss => steps hasReferences step n (ordered hasReferences (ss.flatMap step))

/-- The spots that any number of steps lead to, so many at most; `seen` has been reached before the
last step. -/
def reached (hasReferences : Bool) (step : Spot → List Spot) :
    Nat → List Spot → List Spot → List Spot
  | 0, seen, ss => ss ++ seen
  | _, seen, [] => seen
  | n + 1, seen, ss =>
    let all := ss ++ seen
    let fresh := (ss.flatMap step).filter fun s ↦ !all.any (·.isLike hasReferences s)
    reached hasReferences step n all (ordered hasReferences fresh)

/-- The spots at which a match from a spot can end, the farthest one first. -/
def ways (isFolded hasReferences : Bool) : Regex → Spot → List Spot
  | .empty, s => [s]
  | .one t, s =>
    match s.next? with
    | some (c, next) => if CharTest.holds isFolded c t then [next] else []
    | none => []
  | .edge e, s => if Edge.holds s e then [s] else []
  | .group number body, s =>
    (ways isFolded hasReferences body s).map fun t ↦
      { t with groups := (number, s.index, s.rest.take (t.index - s.index)) :: t.groups }
  | .same number, s =>
    match s.groups.lookup number with
    | some (_, text) => (skipText isFolded text s).toList
    | none => []
  | .both first second, s =>
    ordered hasReferences
      ((ways isFolded hasReferences first s).flatMap (ways isFolded hasReferences second))
  | .either first second, s =>
    ordered hasReferences
      (ways isFolded hasReferences first s ++ ways isFolded hasReferences second s)
  | .repeated (.one t) least most, s =>
    let limit := min (most.getD s.rest.length) s.rest.length
    (runOf isFolded t limit [] s).filter fun t ↦ s.index + least ≤ t.index
  | .repeated body least most, s =>
    let step := ways isFolded hasReferences body
    let more := match most with
      | some n => n - least
      | none => s.rest.length + 1
    let first := steps hasReferences step least [s]
    ordered hasReferences (reached hasReferences step more [] first)

/-- Whether an expression refers to its parts. -/
def hasReferences : Regex → Bool
  | .same _ => true
  | .group _ body | .repeated body _ _ => hasReferences body
  | .both first second | .either first second => hasReferences first || hasReferences second
  | _ => false

/-- What is asked of one character, where a line feed is only matched by itself. -/
def onLinesTest : CharTest → CharTest
  | .any => .oneOf true [.range '\n' '\n']
  | .oneOf true items => .oneOf true (.range '\n' '\n' :: items)
  | t => t

/-- The expression where a line feed is only matched by itself; on demand every line of the text
counts as a line. -/
def onLines (movesEdges : Bool) : Regex → Regex
  | .one t => .one (onLinesTest t)
  | .edge .lineStart => .edge (if movesEdges then .innerStart else .lineStart)
  | .edge .lineEnd => .edge (if movesEdges then .innerEnd else .lineEnd)
  | .group number body => .group number (onLines movesEdges body)
  | .both first second => .both (onLines movesEdges first) (onLines movesEdges second)
  | .either first second => .either (onLines movesEdges first) (onLines movesEdges second)
  | .repeated body least most => .repeated (onLines movesEdges body) least most
  | r => r

/-- A match in a text. -/
structure Match where
  /-- How many characters lie before it. -/
  start : Nat
  /-- How many characters lie before its end. -/
  stop : Nat
  /-- The texts of the parts, each with its number. -/
  groups : List (Nat × Chars)
  /-- The text behind it. -/
  rest : Chars

/-- The match from a spot, if there is one. -/
def matchAt? (isFolded : Bool) (r : Regex) (s : Spot) : Option Match :=
  (ways isFolded (hasReferences r) r s).head?.map fun t ↦
    ⟨s.index, t.index, t.groups.map fun g ↦ (g.1, g.2.2), t.rest⟩

/-- The leftmost match from a spot on.  Every step takes a character. -/
def searchFrom (isFolded : Bool) (r : Regex) : Nat → Spot → Option Match
  | 0, _ => none
  | n + 1, s =>
    match matchAt? isFolded r s with
    | some m => some m
    | none =>
      match s.next? with
      | some (_, next) => searchFrom isFolded r n next
      | none => none

/-- The leftmost match in a text behind so many of its characters. -/
def search (isFolded : Bool) (r : Regex) (text : Chars) (first : Nat) : Option Match :=
  let before := if first = 0 then none else text[first - 1]?
  let rest := text.drop first
  searchFrom isFolded r (rest.length + 1) ⟨first, before, rest, []⟩

/-! ## Reading -/

/-- How expressions are written. -/
structure Form where
  /-- The signs that have a meaning when they stand alone. -/
  plain : List Char
  /-- The signs that have a meaning behind a backslash. -/
  marked : List Char
  /-- A repetition of nothing and an interval that is wrong are refused, as far as they could have a
  meaning. -/
  isStrict : Bool
  /-- Brackets that look like the name of a class are refused. -/
  isCautious : Bool

namespace Form

/-- All signs that can have a meaning alone or behind a backslash. -/
def allSigns : List Char := ['(', ')', '|', '+', '?', '\x7b']

/-- The basic form. -/
def basic (isStrict isCautious : Bool) : Form := ⟨[], allSigns, isStrict, isCautious⟩

/-- The extended form. -/
def extended (isStrict isCautious : Bool) : Form := ⟨allSigns, [], isStrict, isCautious⟩

/-- Whether groups are written without a backslash, so that places have their meaning everywhere. -/
def isExtended (f : Form) : Bool := f.plain.contains '('

/-- Whether what is wrong stands for itself. -/
def isLenient (f : Form) : Bool := f.isExtended && !f.isStrict

end Form

/-- What is wrong with an expression. -/
inductive Wrong
  /-- Brackets do not end. -/
  | openBracket
  /-- Nothing follows a bracket. -/
  | bareBracket
  /-- There is no class of a name. -/
  | className
  /-- Signs within brackets stand for no character. -/
  | collation
  /-- A range has its end before its start. -/
  | range
  /-- Brackets look like the name of a class. -/
  | confusing
  /-- There is nothing to be repeated. -/
  | bareTimes
  /-- An interval does not end. -/
  | openInterval
  /-- The numbers of an interval are wrong. -/
  | interval
  /-- A number of an interval is too great. -/
  | tooBig
  /-- A backslash stands at the end. -/
  | lastBackslash
  /-- A part does not end. -/
  | openGroup
  /-- A part ends that has not started. -/
  | closedGroup
  /-- There is no part of a number. -/
  | reference
  deriving DecidableEq, Repr

/-- The words for what is wrong. -/
def Wrong.message : Wrong → String
  | .openBracket => "Unmatched [, [^, [:, [., or [="
  | .bareBracket => "Invalid regular expression"
  | .className => "Invalid character class name"
  | .collation => "Invalid collation character"
  | .range => "Invalid range end"
  | .confusing => "character class syntax is [[:space:]], not [:space:]"
  | .bareTimes => "Invalid preceding regular expression"
  | .openInterval => "Unmatched \\\x7b"
  | .interval => "Invalid content of \\\x7b\\\x7d"
  | .tooBig => "Regular expression too big"
  | .lastBackslash => "Trailing backslash"
  | .openGroup => "Unmatched ( or \\("
  | .closedGroup => "Unmatched ) or \\)"
  | .reference => "Invalid back reference"

/-- A sign of an expression. -/
inductive Sign
  /-- An expression of one character or of none. -/
  | atom (r : Regex)
  /-- So many times at least and at most. -/
  | times (least : Nat) (most : Option Nat)
  /-- A repetition of nothing, as it is called. -/
  | bare (shown : String)
  /-- The start of a part. -/
  | opening
  /-- The end of a part. -/
  | closing
  /-- A choice. -/
  | bar

/-- What comes before a sign. -/
inductive Before
  /-- Nothing that could be repeated. -/
  | nothing
  /-- Something that can be repeated. -/
  | piece
  /-- A repetition. -/
  | count
  deriving DecidableEq, Repr

/-- The characters of words, as items. -/
def wordItems : List Glob.Item := [.ofClass "alnum".toList, .range '_' '_']

/-- Blanks of any kind, as items. -/
def spaceItems : List Glob.Item := [.ofClass "space".toList]

/-- The expression that a letter behind a backslash stands for. -/
def escaped (c : Char) : Regex :=
  match c with
  | 'w' => .one (.oneOf false wordItems)
  | 'W' => .one (.oneOf true wordItems)
  | 's' => .one (.oneOf false spaceItems)
  | 'S' => .one (.oneOf true spaceItems)
  | 'b' => .edge .word
  | 'B' => .edge .noWord
  | '<' => .edge .wordStart
  | '>' => .edge .wordEnd
  | '\x60' => .edge .textStart
  | '\'' => .edge .textEnd
  | c => .one (.char c)

/-! ### Brackets -/

/-- The names of the classes of characters. -/
def classNames : List String :=
  ["alnum", "alpha", "blank", "cntrl", "digit", "graph", "lower", "print", "punct", "space",
    "upper", "xdigit"]

/-- The name between two signs and a closing bracket, and what follows it. -/
def namedItem? (sign : Char) (cs : Chars) : Option (Chars × Chars) :=
  let name := cs.takeWhile (· ≠ sign)
  match cs.drop name.length with
  | d :: ']' :: rest => if d = sign then some (name, rest) else none
  | _ => none

/-- The character between two signs and a closing bracket, and what follows it. -/
def namedChar (sign : Char) (cs : Chars) : Except Wrong (Char × Chars) :=
  match namedItem? sign cs with
  | some ([c], rest) => .ok (c, rest)
  | some _ => .error .collation
  | none => .error .openBracket

/-- The end of a range in brackets, and what follows it. -/
def rangeEnd : Chars → Except Wrong (Char × Chars)
  | '[' :: '.' :: cs => namedChar '.' cs
  | c :: cs => .ok (c, cs)
  | [] => .error .openBracket

/-- The items in brackets up to their end, and what follows it.  Every step takes a character. -/
def bracketItems : Nat → Bool → Chars → Except Wrong (List Glob.Item × Chars)
  | 0, _, _ => .error .openBracket
  | n + 1, isFirst, cs => do
    let goOn := fun (i : Glob.Item) (cs : Chars) ↦ do
      let (items, rest) ← bracketItems n false cs
      return (i :: items, rest)
    let range := fun (low : Char) (cs : Chars) ↦
      match cs with
      | '-' :: ']' :: _ => goOn (.range low low) cs
      | '-' :: cs => do
        let (high, rest) ← rangeEnd cs
        if high < low then throw Wrong.range
        goOn (.range low high) rest
      | cs => goOn (.range low low) cs
    match cs with
    | [] => .error .openBracket
    | ']' :: rest => if isFirst then range ']' rest else return ([], rest)
    | '[' :: ':' :: rest =>
      match namedItem? ':' rest with
      | none => .error .openBracket
      | some (name, rest) =>
        if classNames.contains (Chars.toString name) then goOn (.ofClass name) rest
        else .error .className
    | '[' :: '=' :: rest => do
      let (c, rest) ← namedChar '=' rest
      goOn (.range c c) rest
    | '[' :: '.' :: rest => do
      let (c, rest) ← namedChar '.' rest
      range c rest
    | c :: rest => range c rest

/-- Whether items look like the name of a class: single characters between two colons. -/
def isConfusing (items : List Glob.Item) : Bool :=
  let isColon := fun (i : Glob.Item) ↦ i = .range ':' ':'
  let isSingle := fun (i : Glob.Item) ↦ match i with
    | .range low high => low = high
    | .ofClass _ => false
  items.all isSingle && items.head?.any isColon && items.getLast?.any isColon &&
    !items.all isColon

/-- The expression of brackets, behind the first one, and what follows them. -/
def brackets (f : Form) (cs : Chars) : Except Wrong (Regex × Chars) := do
  let (isNegated, cs) := match cs with
    | '^' :: cs => (true, cs)
    | cs => (false, cs)
  if cs.isEmpty then throw Wrong.bareBracket
  let (items, rest) ← bracketItems (cs.length + 1) true cs
  if f.isCautious && isConfusing items then throw Wrong.confusing
  return (.one (.oneOf isNegated items), rest)

/-! ### Intervals -/

/-- How often an expression can be asked for. -/
def timesLimit : Nat := 32767

/-- The text up to the end of an interval, and what follows it if it ends. -/
def untilBrace (isExtended : Bool) : Chars → Chars × Option Chars
  | [] => ([], none)
  | ['\x7d'] => if isExtended then ([], some []) else (['\x7d'], none)
  | [c] => ([c], none)
  | c :: d :: cs =>
    if isExtended && c = '\x7d' then ([], some (d :: cs))
    else if !isExtended && c = '\\' && d = '\x7d' then ([], some cs)
    else
      let (text, rest) := untilBrace isExtended (d :: cs)
      (c :: text, rest)

/-- A number of an interval, which may be missing; nothing for what is no number. -/
def bound? (cs : Chars) : Option (Option Nat) :=
  if cs = [] then some none else (Chars.toNat? cs).map some

/-- The numbers of an interval, behind its first brace, and what follows it; nothing if the brace
stands for itself. -/
def interval (f : Form) (cs : Chars) : Except Wrong (Option (Sign × Chars)) :=
  let refuse := fun (e : Wrong) ↦ if f.isLenient then .ok none else .error e
  let (text, rest) := untilBrace f.isExtended cs
  let (first, second) := text.span (· ≠ ',')
  match bound? first, rest, second with
  | none, some _, _ | none, none, _ :: _ => refuse .interval
  | none, none, [] | some _, none, _ => refuse .openInterval
  | some none, some _, [] => .error .interval
  | some (some n), some rest, [] =>
    if timesLimit < n then .error .tooBig else .ok (some (.times n (some n), rest))
  | some least, some rest, _ :: second =>
    let least := least.getD 0
    match bound? second with
    | none => if second.contains ',' then .error .interval else refuse .interval
    | some most =>
      if most.any (· < least) then .error .interval
      else if timesLimit < most.getD least then .error .tooBig
      else .ok (some (.times least most, rest))

/-! ### Signs -/

/-- Whether an expression ends here, so that a dollar sign stands for the end of a line. -/
def endsHere (f : Form) (cs : Chars) : Bool :=
  f.isExtended || match cs with
    | [] | '\\' :: ')' :: _ | '\\' :: '|' :: _ => true
    | _ => false

/-- The signs of an expression behind others.  Every step takes a character. -/
def signs (f : Form) : Nat → Before → Chars → Except Wrong (List Sign)
  | 0, _, _ => .ok []
  | n + 1, before, cs => do
    let goOn := fun (s : Sign) (before : Before) (cs : Chars) ↦ do
      return s :: (← signs f n before cs)
    let char := fun (c : Char) (cs : Chars) ↦ goOn (.atom (.one (.char c))) .piece cs
    let repeating := fun (s : Sign) (shown : String) (refusesMore : Bool)
        (literally : Except Wrong (List Sign)) (cs : Chars) ↦
      match before with
      | .nothing =>
        if !f.isExtended then literally
        else if f.isStrict then .error .bareTimes
        else goOn (.bare shown) .nothing cs
      | .piece => goOn s .count cs
      | .count => if refusesMore && f.isStrict && !f.isExtended then .error .bareTimes
        else goOn s .count cs
    let special := fun (c : Char) (cs : Chars) ↦
      match c with
      | '(' => goOn .opening .nothing cs
      | ')' => goOn .closing .piece cs
      | '|' => goOn .bar .nothing cs
      | '+' => repeating (.times 1 none) "+" false (char '+' cs) cs
      | '?' => repeating (.times 0 (some 1)) "?" false (char '?' cs) cs
      | _ =>
        if before = .nothing && f.isStrict then .error .bareTimes
        else if before = .nothing && !f.isExtended then char '\x7b' cs
        else match interval f cs with
          | .ok (some (s, rest)) =>
            repeating s "\x7b...\x7d" true (char '\x7b' cs) rest
          | .ok none => char '\x7b' cs
          | .error e => if before = .nothing then char '\x7b' cs else .error e
    match cs with
    | [] => return []
    | ['\\'] => .error .lastBackslash
    | '\\' :: c :: cs =>
      if f.marked.contains c then special c cs
      else if '1' ≤ c && c ≤ '9' then goOn (.atom (.same (c.toNat - '0'.toNat))) .piece cs
      else goOn (.atom (escaped c)) .piece cs
    | '[' :: cs => do
      let (r, rest) ← brackets f cs
      goOn (.atom r) .piece rest
    | '.' :: cs => goOn (.atom (.one .any)) .piece cs
    | '*' :: cs => repeating (.times 0 none) "*" true (char '*' cs) cs
    | '^' :: cs =>
      if f.isExtended || before = .nothing then goOn (.atom (.edge .lineStart)) .nothing cs
      else char '^' cs
    | '$' :: cs =>
      if endsHere f cs then goOn (.atom (.edge .lineEnd)) .piece cs else char '$' cs
    | c :: cs => if f.plain.contains c then special c cs else char c cs

/-- The signs of an expression. -/
def allSigns (f : Form) (cs : Chars) : Except Wrong (List Sign) :=
  signs f (cs.length + 1) .nothing cs

/-! ### Expressions -/

/-- An expression repeated as the signs behind it say, and what follows these. -/
def withTimes (r : Regex) : List Sign → Regex × List Sign
  | .times least most :: ss => withTimes (.repeated r least most) ss
  | ss => (r, ss)

/-- An expression, with the number of the next part and the signs behind it. -/
abbrev Part := Regex × Nat × List Sign

mutual

/-- The expression up to the end of a part, with the number of the next part and the signs behind
it.  Every step takes a sign. -/
def choice : Nat → Nat → List Sign → Except Wrong Part
  | 0, number, ss => .ok (.empty, number, ss)
  | n + 1, number, ss => do
    let (first, number, ss) ← branch n number ss
    match ss with
    | .bar :: ss =>
      let (second, number, ss) ← choice n number ss
      return (.either first second, number, ss)
    | ss => return (first, number, ss)

/-- The expression up to the end of a branch. -/
def branch : Nat → Nat → List Sign → Except Wrong Part
  | 0, number, ss => .ok (.empty, number, ss)
  | n + 1, number, ss => do
    let goOn := fun (r : Regex) (number : Nat) (ss : List Sign) ↦ do
      let (r, ss) := withTimes r ss
      let (rest, number, ss) ← branch n number ss
      return (match rest with
        | .empty => (r, number, ss)
        | rest => (.both r rest, number, ss))
    match ss with
    | .atom r :: ss => goOn r number ss
    | .times .. :: ss | .bare _ :: ss => branch n number ss
    | .opening :: ss =>
      let (body, next, ss) ← choice n (number + 1) ss
      match ss with
      | .closing :: ss => goOn (.group number body) next ss
      | _ => .error .openGroup
    | ss => return (.empty, number, ss)

end

/-- Whether the parts to which an expression refers are among so many. -/
def refersWithin (count : Nat) : Regex → Bool
  | .same number => number ≤ count
  | .group _ body | .repeated body _ _ => refersWithin count body
  | .both first second | .either first second =>
    refersWithin count first && refersWithin count second
  | _ => true

/-- The signs where an end of a part that has not started stands for itself. -/
def withLoneEnds : Nat → List Sign → List Sign
  | _, [] => []
  | depth, .opening :: ss => .opening :: withLoneEnds (depth + 1) ss
  | 0, .closing :: ss => .atom (.one (.char ')')) :: withLoneEnds 0 ss
  | depth + 1, .closing :: ss => .closing :: withLoneEnds depth ss
  | depth, s :: ss => s :: withLoneEnds depth ss

/-- The expression that a text spells, with the number of its parts. -/
def read (f : Form) (cs : Chars) : Except Wrong (Regex × Nat) := do
  let ss ← allSigns f cs
  let ss := if f.isLenient then withLoneEnds 0 ss else ss
  let (r, number, rest) ← choice (3 * ss.length + 3) 1 ss
  if !rest.isEmpty then throw Wrong.closedGroup
  if !refersWithin (number - 1) r then throw Wrong.reference
  return (r, number - 1)

/-- The remarks about signs of an expression that are probably not meant. -/
def remarks (f : Form) (cs : Chars) : List Chars :=
  match allSigns f cs with
  | .ok ss => ss.filterMap fun
      | .bare shown => some (shown.toList ++ " at start of expression".toList)
      | _ => none
  | .error _ => []

/-- The leftmost and longest match. -/
def firstMatch (f : Form) (pattern text : String) : Option (Nat × Nat) :=
  match read f pattern.toList with
  | .ok (r, _) => (search false r text.toList 0).map fun m ↦ (m.start, m.stop)
  | .error _ => none

/-- The longest way counts. -/
example : firstMatch (.extended true true) "(a|ab)(c|bcd)?" "xabcd" = some (1, 5) := by
  decide +kernel

/-- Signs that need a backslash in the basic form. -/
example : firstMatch (.basic true true) "^*a\\+$" "*aa" = some (0, 3) := by decide +kernel

/-- A part is found again. -/
example : firstMatch (.basic false false) "\\([a-z]\\)\\1" "abccb" = some (2, 4) := by
  decide +kernel

/-- A repetition of nothing. -/
example : remarks (.extended false true) "*a|+b".toList =
    ["* at start of expression".toList, "+ at start of expression".toList] := by decide +kernel

end Regex

end ContractBuild
