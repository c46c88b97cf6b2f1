import ContractBuild.Posix.Text.Numeral

/-!
# Binary fractions

Numbers with a fraction as programs hold them: some bits and a power of two, or infinite, or no
number at all.  A decimal text is rounded to the nearest of them, and a half goes to the even
neighbour; the decimal digits of one are exact before they are rounded in the same way.
-/

namespace ContractBuild

/-- The size of a binary fraction. -/
inductive Magnitude
  /-- A number of units times a power of two. -/
  | finite (units : Nat) (power : Int)
  /-- More than can be told. -/
  | infinite
  /-- No number. -/
  | undefined
  deriving DecidableEq, Repr

/-- A binary fraction. -/
structure Binary where
  /-- Whether it stands behind a minus sign. -/
  isNegative : Bool
  /-- Its size. -/
  magnitude : Magnitude
  deriving DecidableEq, Repr

namespace Binary

/-! ## Rounding -/

/-- A quotient rounded to a whole number; a half goes to the even neighbour. -/
def quotient (a b : Nat) : Nat :=
  let q := a / b
  let twice := 2 * (a % b)
  if b < twice || (twice = b && q % 2 = 1) then q + 1 else q

/-- A power of two, as the factors above and below a line. -/
def twoTo (power : Int) : Nat × Nat :=
  if 0 ≤ power then (1 <<< power.toNat, 1) else (1, 1 <<< (-power).toNat)

/-- A power of ten, as the factors above and below a line. -/
def tenTo (power : Int) : Nat × Nat :=
  if 0 ≤ power then (Nat.pow 10 power.toNat, 1) else (1, Nat.pow 10 (-power).toNat)

/-- What binary fractions of a kind can tell. -/
structure Precision where
  /-- How many bits a full number has. -/
  bits : Nat
  /-- The least power of two. -/
  leastPower : Int
  /-- The greatest power of two. -/
  greatestPower : Int
  /-- How many bits the first one of its hexadecimal digits has. -/
  leadingBits : Nat
  deriving DecidableEq, Repr

/-- Binary fractions of four bytes. -/
def Precision.single : Precision := ⟨24, -149, 104, 1⟩

/-- Binary fractions of eight bytes. -/
def Precision.double : Precision := ⟨53, -1074, 971, 1⟩

/-- Binary fractions of ten bytes. -/
def Precision.extended : Precision := ⟨64, -16445, 16320, 4⟩

/-- How many units a full number has at least. -/
def Precision.fullUnits (p : Precision) : Nat := 1 <<< (p.bits - 1)

/-- The nearest binary fraction of a quotient. -/
def nearest (p : Precision) (a b : Nat) : Magnitude :=
  if a = 0 then .finite 0 0
  else
    let guess := (Nat.log2 a : Int) - (Nat.log2 b : Int) - (p.bits - 1)
    let scaled := fun (power : Int) ↦
      let (up, down) := twoTo power
      (a * down, b * up)
    let (x, y) := scaled guess
    let power := max p.leastPower (if x / y < p.fullUnits then guess - 1 else guess)
    let (x, y) := scaled power
    let units := quotient x y
    let (units, power) :=
      if units = 2 * p.fullUnits then (p.fullUnits, power + 1) else (units, power)
    if p.greatestPower < power then .infinite else .finite units power

/-! ## Reading -/

/-- The exponent behind a mark, and what follows it. -/
def readExponent (marks : Chars) (cs : Chars) : Int × Chars :=
  match cs with
  | c :: rest =>
    if marks.contains c then
      let (isNegative, ds) := match rest with
        | '-' :: ds => (true, ds)
        | '+' :: ds => (false, ds)
        | ds => (false, ds)
      match Numeral.digits 10 ds with
      | ([], _) => (0, cs)
      | (digits, after) =>
        let n : Int := min (Numeral.value 10 digits) 100000
        (if isNegative then -n else n, after)
    else (0, cs)
  | [] => (0, [])

/-- The digits in front of a point and behind it, and what follows them. -/
def readDigits (base : Nat) (cs : Chars) : Option (Chars × Chars × Chars) :=
  let (whole, rest) := Numeral.digits base cs
  let (part, rest) := match rest with
    | '.' :: after =>
      let (part, behind) := Numeral.digits base after
      if whole = [] && part = [] then ([], rest) else (part, behind)
    | rest => ([], rest)
  if whole = [] && part = [] then none else some (whole, part, rest)

/-- The magnitude that decimal digits spell, and what follows them. -/
def readDecimal (p : Precision) (cs : Chars) : Option (Magnitude × Chars) :=
  (readDigits 10 cs).map fun (whole, part, rest) ↦
    let (e, rest) := readExponent ['e', 'E'] rest
    let (up, down) := tenTo (e - part.length)
    (nearest p (Numeral.value 10 (whole ++ part) * up) down, rest)

/-- The magnitude that hexadecimal digits spell, and what follows them. -/
def readHexadecimal (p : Precision) (cs : Chars) : Option (Magnitude × Chars) :=
  (readDigits 16 cs).map fun (whole, part, rest) ↦
    let (e, rest) := readExponent ['p', 'P'] rest
    let (up, down) := twoTo (e - 4 * part.length)
    (nearest p (Numeral.value 16 (whole ++ part) * up) down, rest)

/-- The magnitude that a word spells, and what follows it. -/
def readWord (cs : Chars) : Option (Magnitude × Chars) :=
  let starts := fun (word : String) ↦ (cs.take word.length).map Char.toLower = word.toList
  if starts "infinity" then some (.infinite, cs.drop 8)
  else if starts "inf" then some (.infinite, cs.drop 3)
  else if starts "nan" then some (.undefined, cs.drop 3)
  else none

/-- The magnitude in front of a text, and what follows it. -/
def readMagnitude (p : Precision) (cs : Chars) : Option (Magnitude × Chars) :=
  match cs with
  | '0' :: x :: rest =>
    if x = 'x' || x = 'X' then
      match readHexadecimal p rest with
      | some e => some e
      | none => some (.finite 0 0, x :: rest)
    else readDecimal p cs
  | cs => (readDecimal p cs).orElse fun () ↦ readWord cs

/-- The binary fraction of a kind in front of a text, behind blanks and a sign, and what follows
it. -/
def readIn (p : Precision) (cs : Chars) : Option (Binary × Chars) :=
  let signed := fun (isNegative : Bool) (cs : Chars) ↦
    (readMagnitude p cs).map fun (m, rest) ↦ (Binary.mk isNegative m, rest)
  match cs.dropWhile Numeral.isBlank with
  | '-' :: cs => signed true cs
  | '+' :: cs => signed false cs
  | cs => signed false cs

/-- The binary fraction of eight bytes in front of a text, behind blanks and a sign, and what
follows it. -/
def read (cs : Chars) : Option (Binary × Chars) := readIn .double cs

/-! ## Digits -/

/-- The digits of a magnitude with so many places. -/
def fixed (places : Nat) (units : Nat) (power : Int) : Chars × Chars :=
  let (up, down) := twoTo power
  let n := quotient (units * up * Nat.pow 10 places) down
  let digits := Chars.ofNatWide (places + 1) n
  (digits.take (digits.length - places), digits.drop (digits.length - places))

/-- The power of ten of the first digit of a quotient. -/
def firstPower (a b : Nat) : Int :=
  let guess : Int := (((Nat.log2 a : Int) - (Nat.log2 b : Int)) * 30103) / 100000
  let isReached := fun (x : Int) ↦
    let (up, down) := tenTo x
    b * up ≤ a * down
  if isReached (guess + 1) then guess + 1 else if isReached guess then guess else guess - 1

/-- The digits of a magnitude with one in front of the point and so many behind it, and the power
of ten of the first one. -/
def scientific (places : Nat) (units : Nat) (power : Int) : Chars × Int :=
  if units = 0 then (List.replicate (places + 1) '0', 0)
  else
    let (up, down) := twoTo power
    let (a, b) := (units * up, down)
    let first := firstPower a b
    let (tu, td) := tenTo (places - first)
    let n := quotient (a * tu) (b * td)
    if Nat.pow 10 (places + 1) ≤ n then (Chars.ofNatWide (places + 1) (n / 10), first + 1)
    else (Chars.ofNatWide (places + 1) n, first)

/-- A decimal fraction that cannot be told exactly. -/
example : ((read "0.1".toList).map fun e ↦ e.1.magnitude) =
    some (.finite 0x1999999999999a (-56)) := by decide +kernel

end Binary

end ContractBuild
