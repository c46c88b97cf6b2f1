import ContractBuild.Posix.Text.Chars

/-!
# The order of versions

Names with numbers in them are ordered so that numbers count by their value: texts and numbers are
compared in turn.  Names that start with a dot come first, and endings count only where the rest is
the same.
-/

namespace ContractBuild.Version

/-- The place of a character in front of which a text may end; a tilde comes before that end. -/
def rank : Option Char → Int
  | none => -1
  | some c =>
    if c.isDigit then 0
    else if c.isAlpha then c.toNat
    else if c = '~' then -2
    else c.toNat + 256

/-- The order of two numbers without zeros in front. -/
def compareDigits (a b : Chars) : Ordering :=
  (compare a.length b.length).then
    (if Chars.isBefore a b then .lt else if a = b then .eq else .gt)

/-- The order of two texts, part by part.  Every step takes a character or a number. -/
def compareParts : Nat → Chars → Chars → Ordering
  | 0, _, _ => .eq
  | n + 1, a, b =>
    let isText := fun (cs : Chars) ↦ cs.head?.any (!·.isDigit)
    if a = [] && b = [] then .eq
    else if isText a || isText b then
      (compare (rank a.head?) (rank b.head?)).then (compareParts n a.tail b.tail)
    else
      let number := fun (cs : Chars) ↦ (cs.takeWhile Char.isDigit).dropWhile (· = '0')
      (compareDigits (number a) (number b)).then
        (compareParts n (a.dropWhile Char.isDigit) (b.dropWhile Char.isDigit))

/-- Whether a text consists of endings: dots with letters, and then digits, behind them.  Every step
takes a character; `isInside` says that an ending has been entered. -/
def isEndings : Bool → Chars → Bool
  | _, [] => true
  | isInside, '.' :: c :: cs =>
    if c.isAlpha || c = '~' then isEndings true cs
    else isInside && false
  | isInside, c :: cs => isInside && (c.isAlphanum || c = '~') && isEndings true cs

/-- A name without its endings; its first character always stays. -/
def withoutEndings : Chars → Chars
  | [] => []
  | c :: cs => c :: cut cs
where
  /-- The text up to where only endings follow. -/
  cut : Chars → Chars
    | [] => []
    | c :: cs => if isEndings false (c :: cs) then [] else c :: cut cs

/-- The order of two names. -/
def compareNames (a b : Chars) : Ordering :=
  let special := fun (cs : Chars) ↦
    if cs = [] then 0
    else if cs = ['.'] then 1
    else if cs = ['.', '.'] then 2
    else if cs.head? = some '.' then 3 else 4
  let fuel := a.length + b.length + 1
  let ranks := compare (special a) (special b)
  if ranks ≠ .eq then ranks
  else (compareParts fuel (withoutEndings a) (withoutEndings b)).then (compareParts fuel a b)

/-- Numbers count by their value, and endings last. -/
example : compareNames "a10.txt".toList "a9.txt".toList = .gt ∧
    compareNames "a.c".toList "a1.c".toList = .lt := by decide +kernel

end ContractBuild.Version
