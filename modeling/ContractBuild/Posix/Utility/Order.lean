import ContractBuild.Posix.Text.Binary
import ContractBuild.Posix.Text.Version
import ContractBuild.Posix.Text.Wide

/-!
# The order of lines

The ways in which lines can be compared: as text, by numbers of several kinds, or by names.
-/

namespace ContractBuild.Utility

/-- How two keys are compared. -/
structure Comparing where
  /-- By the numbers in front of them. -/
  isNumeric : Bool
  /-- By any numbers in front of them, also very large or small ones. -/
  isGeneral : Bool
  /-- By numbers with suffixes for their size. -/
  isHuman : Bool
  /-- By the numbers within them. -/
  isVersion : Bool
  /-- Small letters count as capitals. -/
  isFolded : Bool
  /-- Only blanks, letters and digits count. -/
  isDictionary : Bool
  /-- Only characters with a form of their own count. -/
  isPrintable : Bool
  /-- By the names of months. -/
  isMonth : Bool
  /-- In no order that means anything. -/
  isRandom : Bool
  /-- Blanks in front do not count. -/
  skipsBlanks : Bool
  /-- The order is turned round. -/
  isReversed : Bool
  deriving DecidableEq

namespace Comparing

/-- Byte by byte. -/
def plain : Comparing :=
  ⟨false, false, false, false, false, false, false, false, false, false, false⟩

/-- A way of comparing with what a letter adds to it. -/
def withLetter? (c : Comparing) : Char → Option Comparing
  | 'n' => some { c with isNumeric := true }
  | 'g' => some { c with isGeneral := true }
  | 'h' => some { c with isHuman := true }
  | 'V' => some { c with isVersion := true }
  | 'f' => some { c with isFolded := true }
  | 'd' => some { c with isDictionary := true }
  | 'i' => some { c with isPrintable := true }
  | 'M' => some { c with isMonth := true }
  | 'R' => some { c with isRandom := true }
  | 'b' => some { c with skipsBlanks := true }
  | 'r' => some { c with isReversed := true }
  | _ => none

/-- The letters of the ways of comparing that are not about the place of a key. -/
def letters (c : Comparing) : Chars :=
  let all : List (Bool × Char) := [(c.isDictionary, 'd'), (c.isFolded, 'f'), (c.isGeneral, 'g'),
    (c.isHuman, 'h'), (c.isPrintable && !c.isDictionary, 'i'), (c.isMonth, 'M'), (c.isNumeric, 'n'),
    (c.isRandom, 'R'), (c.isVersion, 'V')]
  (all.filter (·.1)).map (·.2)

/-- Whether the ways of comparing can be had together. -/
def isPossible (c : Comparing) : Bool :=
  let ways := [c.isNumeric, c.isGeneral, c.isHuman, c.isMonth,
    c.isVersion || c.isRandom || c.isDictionary || c.isPrintable]
  (ways.filter id).length ≤ 1

/-- A way of comparing with what some letters add to it; the first letter that means nothing is an
error. -/
def withLetters (c : Comparing) : Chars → Except Char Comparing
  | [] => .ok c
  | l :: ls =>
    match c.withLetter? l with
    | some c => withLetters c ls
    | none => .error l

end Comparing

/-- Whether a character is a blank within a line. -/
def isLineBlank (c : Char) : Bool := c = ' ' || c = '\t'

/-- The order of two numbers. -/
def compareNat (a b : Nat) : Ordering := if a < b then .lt else if b < a then .gt else .eq

/-- The order of two texts, byte by byte. -/
def compareChars (a b : Chars) : Ordering :=
  if Chars.isBefore a b then .lt else if a = b then .eq else .gt

/-- The number in front of a text: whether it is negative, its whole part and its places. -/
def decimal (cs : Chars) : Bool × Chars × Chars :=
  let cs := cs.dropWhile isLineBlank
  let (isNegative, cs) := match cs with
    | '-' :: cs => (true, cs)
    | cs => (false, cs)
  let (whole, rest) := cs.span Char.isDigit
  let places := match rest with
    | '.' :: rest => rest.takeWhile Char.isDigit
    | _ => []
  (isNegative, whole.dropWhile (· = '0'), (places.reverse.dropWhile (· = '0')).reverse)

/-- The order of two numbers without sign. -/
def compareAbsolute (a b : Chars × Chars) : Ordering :=
  (compareNat a.1.length b.1.length).then
    ((compareChars a.1 b.1).then (compareChars a.2 b.2))

/-- The order of the numbers in front of two texts. -/
def compareDecimal (a b : Chars) : Ordering :=
  let (isNegativeA, a) := decimal a
  let (isNegativeB, b) := decimal b
  let isZero := fun (x : Chars × Chars) ↦ x.1 = [] && x.2 = []
  match isNegativeA && !isZero a, isNegativeB && !isZero b with
  | true, false => .lt
  | false, true => .gt
  | false, false => compareAbsolute a b
  | true, true => compareAbsolute b a

/-- The size that the suffix of a number stands for. -/
def suffixRank (cs : Chars) : Nat :=
  let cs := (cs.dropWhile isLineBlank).dropWhile fun c ↦ c = '-' || c.isDigit || c = '.'
  match cs with
  | c :: _ => (("KMGTPEZYRQ".toList.findIdx? (· = c.toUpper)).map (· + 1)).getD 0
  | [] => 0

/-- The order of two numbers with suffixes. -/
def compareHuman (a b : Chars) : Ordering :=
  let isNegative := fun (cs : Chars) ↦ (decimal cs).1
  match isNegative a, isNegative b with
  | true, false => .lt
  | false, true => .gt
  | isNegative, _ =>
    let ranks := compareNat (suffixRank a) (suffixRank b)
    (if isNegative then ranks.swap else ranks).then (compareDecimal a b)

/-- The order of two numbers as a program computes with them; what is no number comes first. -/
def compareGeneral (a b : Chars) : Ordering :=
  let key := fun (cs : Chars) ↦ match Binary.read (cs.dropWhile isLineBlank) with
    | none => none
    | some (b, _) => match b.magnitude with
      | .finite units power =>
        let n : Int := if b.isNegative then -(units : Int) else units
        some (n, power)
      | _ => some (if b.isNegative then -1 else 1, (10000 : Int))
  match key a, key b with
  | none, none => .eq
  | none, some _ => .lt
  | some _, none => .gt
  | some (x, p), some (y, q) =>
    let least := min p q
    let scaled := fun (n p : Int) ↦ n * (Nat.pow 2 (p - least).toNat : Nat)
    compare (scaled x p) (scaled y q)

/-- The names of the months. -/
def monthNames : List String :=
  ["JAN", "FEB", "MAR", "APR", "MAY", "JUN", "JUL", "AUG", "SEP", "OCT", "NOV", "DEC"]

/-- The number of the month in front of a text; what is no month has none. -/
def monthRank (cs : Chars) : Nat :=
  let cs := ((cs.dropWhile isLineBlank).take 3).map Char.toUpper
  ((monthNames.findIdx? (·.toList = cs)).map (· + 1)).getD 0

/-- The order of two keys. -/
def Comparing.compare (c : Comparing) (a b : Chars) : Ordering :=
  let trimmed := fun (cs : Chars) ↦ if c.skipsBlanks then cs.dropWhile isLineBlank else cs
  let (a, b) := (trimmed a, trimmed b)
  let kept := fun (cs : Chars) ↦
    let cs := if c.isDictionary then cs.filter fun c ↦ isLineBlank c || c.isAlphanum
      else if c.isPrintable then cs.filter Wide.isPrintable else cs
    if c.isFolded then cs.map Char.toUpper else cs
  let order :=
    if c.isNumeric then compareDecimal a b
    else if c.isGeneral then compareGeneral a b
    else if c.isHuman then compareHuman a b
    else if c.isMonth then compareNat (monthRank a) (monthRank b)
    else if c.isVersion then Version.compareNames (kept a) (kept b)
    else compareChars (kept a) (kept b)
  if c.isReversed then order.swap else order

/-- Numbers are compared by their value. -/
example : compareDecimal "10".toList "9".toList = .gt ∧
    compareDecimal "-2".toList "-1.5".toList = .lt := by decide +kernel

end ContractBuild.Utility
