import ContractBuild.Posix.Text.Chars

/-!
# Numerals

Integers as programs read them from text: blanks, a sign, and digits in a base, which the digits
themselves can say.  What follows the digits is left to the reader.
-/

namespace ContractBuild.Numeral

/-- Whether a character is a blank in front of a number. -/
def isBlank (c : Char) : Bool := c = ' ' || ('\t' ≤ c && c ≤ '\r')

/-- The value of a digit; what is no digit is too large for every base. -/
def digit (c : Char) : Nat :=
  if c.isDigit then c.toNat - '0'.toNat
  else if 'a' ≤ c && c ≤ 'z' then c.toNat - 'a'.toNat + 10
  else if 'A' ≤ c && c ≤ 'Z' then c.toNat - 'A'.toNat + 10
  else 36

/-- The digits of a base in front, and what follows them. -/
def digits (base : Nat) (cs : Chars) : Chars × Chars := cs.span fun c ↦ digit c < base

/-- The value of digits. -/
def value (base : Nat) (ds : Chars) : Nat := ds.foldl (fun n c ↦ n * base + digit c) 0

/-- The number in front whose base its first characters say. -/
def readAnyBase (cs : Chars) : Option (Nat × Chars) :=
  let hexadecimal := match cs with
    | '0' :: x :: rest =>
      if (x = 'x' || x = 'X') && (digits 16 rest).1 ≠ [] then some rest else none
    | _ => none
  match hexadecimal with
  | some rest => some (value 16 (digits 16 rest).1, (digits 16 rest).2)
  | none =>
    let base := if cs.head? = some '0' then 8 else 10
    match digits base cs with
    | ([], _) => none
    | (ds, rest) => some (value base ds, rest)

/-- The number in front in a base, or in any base if that is zero. -/
def readNat (base : Nat) (cs : Chars) : Option (Nat × Chars) :=
  if base = 0 then readAnyBase cs
  else match digits base cs with
    | ([], _) => none
    | (ds, rest) => some (value base ds, rest)

/-- The integer in front, behind blanks and a sign, and what follows it. -/
def read (base : Nat) (cs : Chars) : Option (Int × Chars) :=
  let signed := fun (isNegative : Bool) (cs : Chars) ↦
    (readNat base cs).map fun (n, rest) ↦ (if isNegative then -(n : Int) else n, rest)
  match cs.dropWhile isBlank with
  | '-' :: cs => signed true cs
  | '+' :: cs => signed false cs
  | cs => signed false cs

/-! ## Words of 64 bits -/

/-- The greatest number of 64 bits with a sign. -/
def greatest : Int := 9223372036854775807

/-- The least number of 64 bits with a sign. -/
def least : Int := -9223372036854775808

/-- How many numbers 64 bits can tell apart. -/
def wordCount : Nat := 18446744073709551616

/-- Whether an integer fits into 64 bits with a sign. -/
def fits (n : Int) : Bool := least ≤ n && n ≤ greatest

/-- The nearest number of 64 bits with a sign. -/
def clamp (n : Int) : Int := if n < least then least else if greatest < n then greatest else n

/-- The number of 64 bits with a sign that has the same last bits. -/
def wrap (n : Int) : Int := n.bmod wordCount

/-- The bits of a number of 64 bits, as a number without a sign. -/
def bits (n : Int) : Nat := (n % (wordCount : Int)).toNat

end ContractBuild.Numeral
