import ContractBuild.Posix.Text.Glob

/-!
# Regular expressions with an order

Expressions whose matches have an order: of all matches at the leftmost spot the first one counts,
where the branches of a choice are tried as they are written and a repetition says itself whether it
prefers more or less.  Such an expression can look at what lies around a spot, forbid a second try,
and refer to its own parts.

`run` follows an expression from a spot and hands every spot behind it to what comes next, until
this accepts one.
-/

namespace ContractBuild

namespace OrderedRegex

/-- What a repetition prefers. -/
inductive Mood
  /-- As much as it can get. -/
  | greedy
  /-- As little as it can do with. -/
  | lazy
  /-- As much as it can get, of which it gives nothing back. -/
  | possessive
  deriving DecidableEq, Repr

/-- A part of what a pair of brackets holds. -/
inductive Piece
  /-- All from one character to another. -/
  | range (low high : Char)
  /-- All of a class, or all but these. -/
  | ofClass (isNegated : Bool) (name : String)
  deriving DecidableEq, Repr

/-- What is asked of one character. -/
inductive Test
  /-- Nothing. -/
  | any
  /-- It is one of some characters, or none of these. -/
  | oneOf (isNegated : Bool) (pieces : List Piece)
  deriving DecidableEq, Repr

/-- What is asked of a place between characters. -/
inductive Edge
  /-- The text starts. -/
  | textStart
  /-- The text ends. -/
  | textEnd
  /-- The last line of the text ends. -/
  | lastLineEnd
  /-- A line starts. -/
  | lineStart
  /-- A line ends. -/
  | lineEnd
  /-- A word starts or ends, or does neither. -/
  | word (isNegated : Bool)
  /-- The search starts. -/
  | searchStart
  deriving DecidableEq, Repr

end OrderedRegex

/-- A regular expression with an order. -/
inductive OrderedRegex
  /-- The empty text. -/
  | empty
  /-- One character. -/
  | one (isFolded : Bool) (test : OrderedRegex.Test)
  /-- A place between characters. -/
  | edge (e : OrderedRegex.Edge)
  /-- A part with a number. -/
  | group (number : Nat) (body : OrderedRegex)
  /-- The text of a part that has been matched. -/
  | same (isFolded : Bool) (number : Nat)
  /-- One expression behind another. -/
  | both (first second : OrderedRegex)
  /-- One of two expressions, the first one rather. -/
  | either (first second : OrderedRegex)
  /-- An expression several times, so often at least and at most. -/
  | repeated (mood : OrderedRegex.Mood) (body : OrderedRegex) (least : Nat) (most : Option Nat)
  /-- An expression of whose matches only the first one counts. -/
  | atomic (body : OrderedRegex)
  /-- An expression that must match here, or must not. -/
  | ahead (isNegated : Bool) (body : OrderedRegex)
  /-- An expression that must match up to here, or must not. -/
  | behind (isNegated : Bool) (body : OrderedRegex)
  /-- One of two expressions: the first one if a part has been matched. -/
  | ifMatched (number : Nat) (first second : OrderedRegex)
  /-- The expression of a part once more. -/
  | again (number : Nat)
  /-- The match that is reported starts here. -/
  | startHere
  deriving Repr

namespace OrderedRegex

/-! ## Characters and places -/

/-- Whether a character that is no letter beyond ASCII belongs to a class. -/
def inClass (name : String) (c : Char) : Bool :=
  !Wide.isWide c && match name with
    | "word" => c.isAlphanum || c = '_'
    | "ascii" => c < '\x80'
    | "blank" => c = ' ' || c = '\t'
    | "upright" => '\n' ≤ c && c ≤ '\r'
    | name => Glob.inClass name.toList c

/-- Whether a character is among those of a part of brackets. -/
def Piece.holds (c : Char) : Piece → Bool
  | .range low high => low ≤ c && c ≤ high
  | .ofClass isNegated name => inClass name c != isNegated

/-- Whether a character is as it is asked for; capitals count as small letters on demand. -/
def Test.holds (isFolded : Bool) (c : Char) : Test → Bool
  | .any => true
  | .oneOf isNegated pieces =>
    let forms := if isFolded then [Wide.toLower c, Wide.toUpper c] else [c]
    (forms.any fun c ↦ pieces.any (·.holds c)) != isNegated

/-- A spot in a text, with what has been matched on the way. -/
structure Spot where
  /-- How many characters lie before it. -/
  index : Nat
  /-- The characters before it, the nearest first. -/
  past : Chars
  /-- The characters behind it. -/
  rest : Chars
  /-- The texts of the parts that have been matched, each with its number, the latest first. -/
  groups : List (Nat × Chars)
  /-- Where the match that is reported starts, if an expression has said so. -/
  start : Option Nat
  /-- Where the search started. -/
  origin : Nat
  deriving Repr

/-- The spot in a text behind so many of its characters. -/
def Spot.ofText (text : Chars) (n : Nat) : Spot :=
  ⟨n, (text.take n).reverse, text.drop n, [], none, n⟩

/-- The spot behind the next character. -/
def Spot.next? (s : Spot) : Option (Char × Spot) :=
  match s.rest with
  | [] => none
  | c :: cs => some (c, { s with index := s.index + 1, past := c :: s.past, rest := cs })

/-- The spot before the last character. -/
def Spot.previous? (s : Spot) : Option Spot :=
  match s.past with
  | [] => none
  | c :: cs => some { s with index := s.index - 1, past := cs, rest := c :: s.rest }

/-- Whether a place is as it is asked for. -/
def Edge.holds (s : Spot) : Edge → Bool
  | .textStart => s.past = []
  | .textEnd => s.rest = []
  | .lastLineEnd => s.rest = [] || s.rest = ['\n']
  | .lineStart => s.past = [] || (s.past.head? = some '\n' && s.rest ≠ [])
  | .lineEnd => s.rest.head?.all (· = '\n')
  | .word isNegated =>
    (s.past.head?.any (inClass "word") != s.rest.head?.any (inClass "word")) != isNegated
  | .searchStart => s.index = s.origin

/-! ## Matching -/

/-- What comes behind an expression. -/
abbrev Sequel := Spot → Option Spot

/-- What an expression does: it goes on from a spot. -/
abbrev Step := Spot → Sequel → Option Spot

/-- Follows a text that must stand there. -/
def skipText (isFolded : Bool) : Chars → Spot → Option Spot
  | [], s => some s
  | c :: cs, s =>
    match s.next? with
    | some (d, s) =>
      if c = d || (isFolded && Wide.toLower c = Wide.toLower d) then skipText isFolded cs s
      else none
    | none => none

/-- A step so many times. -/
def exactly (step : Step) : Nat → Step
  | 0, s, k => k s
  | n + 1, s, k => step s fun t ↦ exactly step n t k

/-- A step as often as it can be done, so many times at most.  A step that leads nowhere is the last
one. -/
def asOften (step : Step) : Nat → Step
  | 0, s, k => k s
  | n + 1, s, k =>
    match step s fun t ↦ if t.index = s.index then k t else asOften step n t k with
    | some t => some t
    | none => k s

/-- A step as seldom as it will do, so many times at most. -/
def asSeldom (step : Step) : Nat → Step
  | 0, s, k => k s
  | n + 1, s, k =>
    match k s with
    | some t => some t
    | none => step s fun t ↦ if t.index = s.index then k t else asSeldom step n t k

/-- The spots from one back to the start of its text, so many at most. -/
def Spot.earlier : Nat → Spot → List Spot
  | 0, s => [s]
  | n + 1, s => s :: (s.previous?.map (earlier n)).getD []

/-- Follows an expression; `again` follows the expression of a part. -/
def run (again : Nat → Step) : OrderedRegex → Step
  | .empty, s, k => k s
  | .one isFolded t, s, k =>
    match s.next? with
    | some (c, next) => if t.holds isFolded c then k next else none
    | none => none
  | .edge e, s, k => if e.holds s then k s else none
  | .group number body, s, k => run again body s fun t ↦
      k { t with groups := (number, s.rest.take (t.index - s.index)) :: t.groups }
  | .same isFolded number, s, k =>
    match s.groups.lookup number with
    | some text => (skipText isFolded text s).bind k
    | none => none
  | .both first second, s, k => run again first s fun t ↦ run again second t k
  | .either first second, s, k =>
    match run again first s k with
    | some t => some t
    | none => run again second s k
  | .repeated mood body least most, s, k =>
    let step := run again body
    let more := most.getD (s.rest.length + 1 + least) - least
    match mood with
    | .greedy => exactly step least s fun t ↦ asOften step more t k
    | .lazy => exactly step least s fun t ↦ asSeldom step more t k
    | .possessive => (exactly step least s fun t ↦ asOften step more t some).bind k
  | .atomic body, s, k => (run again body s some).bind k
  | .ahead isNegated body, s, k =>
    match run again body s some with
    | some t => if isNegated then none else k { s with groups := t.groups, start := t.start }
    | none => if isNegated then k s else none
  | .behind isNegated body, s, k =>
    let fits := (s.earlier s.index).findSome? fun t ↦
      run again body t fun u ↦ if u.index = s.index then some u else none
    match fits with
    | some t => if isNegated then none else k { s with groups := t.groups }
    | none => if isNegated then k s else none
  | .ifMatched number first second, s, k =>
    if (s.groups.lookup number).isSome then run again first s k else run again second s k
  | .again number, s, k => again number s fun t ↦ k { t with groups := s.groups }
  | .startHere, s, k => k { s with start := some s.index }

/-- The parts of an expression, each with its number. -/
def parts : OrderedRegex → List (Nat × OrderedRegex)
  | .group number body => (number, .group number body) :: parts body
  | .both first second | .either first second | .ifMatched _ first second =>
    parts first ++ parts second
  | .repeated _ body _ _ | .atomic body | .ahead _ body | .behind _ body => parts body
  | _ => []

/-- Follows one of some parts, which can follow parts themselves so many times. -/
def runPart (parts : List (Nat × OrderedRegex)) : Nat → Nat → Step
  | 0, _ => fun _ _ ↦ none
  | n + 1, number =>
    match parts.lookup number with
    | some r => run (runPart parts n) r
    | none => fun _ _ ↦ none

/-- How often parts can be followed from within parts. -/
def partLimit : Nat := 250

/-- Where a match starts and where it ends. -/
abbrev Match := Nat × Nat

/-- The first match at a spot. -/
def matchAt? (r : OrderedRegex) (s : Spot) : Option Match :=
  (run (runPart ((0, r) :: parts r) partLimit) r s some).map fun t ↦
    (t.start.getD s.index, t.index)

/-- The first match from a spot on.  Every step takes a character. -/
def searchFrom (r : OrderedRegex) : Nat → Spot → Option Match
  | 0, _ => none
  | n + 1, s =>
    match matchAt? r s with
    | some m => some m
    | none =>
      match s.next? with
      | some (_, next) => searchFrom r n next
      | none => none

/-- The first match in a text behind so many of its characters. -/
def search (r : OrderedRegex) (text : Chars) (n : Nat) : Option Match :=
  searchFrom r (text.length + 1) (.ofText text n)

end OrderedRegex

end ContractBuild
