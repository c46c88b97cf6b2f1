import ContractBuild.Posix.Text.Wide

/-!
# Glob patterns

A pattern matches whole texts: `*` matches any text, `?` any character, brackets one of some
characters, and everything else itself.  A backslash, or quoting from outside, makes a character
stand for itself.

A pattern is matched by following all ways through a text at once: `reach` says for every length
whether the pattern matches the start of that length.
-/

namespace ContractBuild.Glob

/-- Characters that a pair of brackets holds. -/
inductive Item
  /-- All from one character to another. -/
  | range (low high : Char)
  /-- All of a class. -/
  | ofClass (name : Chars)
  deriving DecidableEq, Repr

/-- A part of a pattern. -/
inductive Part
  /-- A character that stands for itself. -/
  | char (c : Char)
  /-- Any text. -/
  | anything
  /-- Any character. -/
  | anyChar
  /-- One of some characters, or any but these. -/
  | oneOf (isNegated : Bool) (items : List Item)
  deriving DecidableEq, Repr

/-! ## Matching -/

/-- Whether a character belongs to a class of this name. -/
def inClass (name : Chars) (c : Char) : Bool :=
  let n := c.toNat
  if Wide.isWide c then Wide.inClass name c
  else match Chars.toString name with
  | "alpha" => c.isAlpha
  | "digit" => c.isDigit
  | "alnum" => c.isAlphanum
  | "upper" => c.isUpper
  | "lower" => c.isLower
  | "space" => c = ' ' || (9 ≤ n && n ≤ 13)
  | "blank" => c = ' ' || c = '\t'
  | "punct" => 33 ≤ n && n ≤ 126 && !c.isAlphanum
  | "print" => 32 ≤ n && n ≤ 126
  | "graph" => 33 ≤ n && n ≤ 126
  | "cntrl" => n < 32 || n = 127
  | "xdigit" => c.isDigit || ('a' ≤ c && c ≤ 'f') || ('A' ≤ c && c ≤ 'F')
  | _ => false

/-- Whether a character is among those of an item. -/
def Item.holds (c : Char) : Item → Bool
  | .range low high => low ≤ c && c ≤ high
  | .ofClass name => inClass name c

/-- Whether a part that stands for one character stands for this one. -/
def Part.matchesChar (c : Char) : Part → Bool
  | .char d => c = d
  | .anything => false
  | .anyChar => true
  | .oneOf isNegated items => items.any (·.holds c) != isNegated

/-- Moves every way on by one character of the text that a part stands for.  `before` says whether
a way ends before the text. -/
def stepChar (part : Part) : Bool → Chars → List Bool → List Bool
  | _, [], _ => []
  | _, _ :: _, [] => []
  | before, c :: cs, b :: bs => (before && part.matchesChar c) :: stepChar part b cs bs

/-- Moves every way on by any number of characters. -/
def stepAnything : Bool → List Bool → List Bool
  | _, [] => []
  | before, b :: bs => (before || b) :: stepAnything (before || b) bs

/-- Moves every way on by what a part stands for. -/
def step (t : Chars) (ways : List Bool) (part : Part) : List Bool :=
  match part, ways with
  | .anything, ways => stepAnything false ways
  | _, [] => []
  | part, b :: bs => false :: stepChar part b t bs

/-- For every length, whether a pattern matches the start of that length. -/
def reach (p : List Part) (t : Chars) : List Bool :=
  p.foldl (step t) (true :: t.map fun _ ↦ false)

/-- Whether a pattern matches a text. -/
def matchesText (p : List Part) (t : Chars) : Bool := (reach p t).getLast?.getD false

/-- The lengths of the starts that a pattern matches, the least first. -/
def startLengths (p : List Part) (t : Chars) : List Nat :=
  (reach p t).zipIdx.filterMap fun e ↦ if e.1 then some e.2 else none

/-- The lengths of the ends that a pattern matches, the least first. -/
def endLengths (p : List Part) (t : Chars) : List Nat := startLengths p.reverse t.reverse

/-! ## Reading patterns -/

/-- A character of a pattern as it is written, and whether it is quoted. -/
abbrev Mark := Char × Bool

/-- The name of a class that starts here, behind its first bracket, and what follows it. -/
def className? (ms : List Mark) : Option (Chars × List Mark) :=
  match ms with
  | (':', _) :: ms =>
    let name := ms.takeWhile fun m ↦ m.1.isAlpha
    match ms.drop name.length with
    | (':', _) :: (']', _) :: rest => some (name.map (·.1), rest)
    | _ => none
  | _ => none

/-- The character that stands here in brackets, and what follows it. -/
def bracketChar? : List Mark → Option (Char × List Mark)
  | ('\\', false) :: (c, _) :: rest => some (c, rest)
  | (c, _) :: rest => some (c, rest)
  | [] => none

/-- The item that starts with a character, which a dash may make the start of a range. -/
def rangeFrom? : Char × List Mark → Option (Item × List Mark)
  | (low, ('-', false) :: (']', false) :: rest) =>
    some (.range low low, ('-', true) :: (']', false) :: rest)
  | (low, ('-', false) :: rest) =>
    (bracketChar? rest).map fun (high, rest) ↦ (.range low high, rest)
  | (low, rest) => some (.range low low, rest)

/-- The item that starts here in brackets, and what follows it. -/
def item? (ms : List Mark) : Option (Item × List Mark) :=
  match ms with
  | ('[', false) :: rest =>
    match className? rest with
    | some (name, rest) => some (.ofClass name, rest)
    | none => rangeFrom? ('[', rest)
  | ms => (bracketChar? ms).bind rangeFrom?

/-- The items of a pair of brackets up to its end, and what follows it; a bracket that would end
it is an item if `isFirst` says that nothing comes before.  Every step takes a character. -/
def items? : Nat → Bool → List Mark → Option (List Item × List Mark)
  | 0, _, _ => none
  | n + 1, isFirst, ms => do
    if !isFirst && ms.head? = some (']', false) then return ([], ms.tail)
    let (item, rest) ← item? ms
    let (items, rest) ← items? n false rest
    return (item :: items, rest)

/-- The brackets that start here, behind the first one, and what follows them; one of some signs at
their start negates them. -/
def brackets? (negations : List Char) (ms : List Mark) : Option (Part × List Mark) :=
  let (isNegated, ms) := match ms with
    | (c, false) :: rest => if negations.contains c then (true, rest) else (false, ms)
    | ms => (false, ms)
  (items? (ms.length + 1) true ms).map fun (items, rest) ↦ (.oneOf isNegated items, rest)

/-- The parts of a pattern.  Every step takes a character. -/
def partsWithin (negations : List Char) : Nat → List Mark → List Part
  | 0, _ => []
  | n + 1, ms =>
    match ms with
    | [] => []
    | ('*', false) :: ms => .anything :: partsWithin negations n ms
    | ('?', false) :: ms => .anyChar :: partsWithin negations n ms
    | ('\\', false) :: (c, _) :: ms => .char c :: partsWithin negations n ms
    | ('[', false) :: ms =>
      match brackets? negations ms with
      | some (part, ms) => part :: partsWithin negations n ms
      | none => .char '[' :: partsWithin negations n ms
    | (c, _) :: ms => .char c :: partsWithin negations n ms

/-- The parts of a pattern of a shell, where only an exclamation mark negates. -/
def ofMarks (ms : List Mark) : List Part := partsWithin ['!'] (ms.length + 1) ms

/-- The parts of a pattern for file names of which nothing is quoted. -/
def ofChars (cs : Chars) : List Part :=
  partsWithin ['!', '^'] (cs.length + 1) (cs.map fun c ↦ (c, false))

/-- A range in brackets, a class, and a bracket that nothing closes. -/
example : matchesText (ofChars "[a-c]*[[:digit:]][x".toList) "beta7[x".toList = true := by
  decide +kernel

end ContractBuild.Glob
