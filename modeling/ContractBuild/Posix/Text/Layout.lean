import ContractBuild.Posix.Text.Binary

/-!
# Layouts

How a value is shown in a field: at which side it stands, what fills the field, how many digits
there are and how a sign is shown.
-/

namespace ContractBuild

/-- How a value is shown. -/
structure Layout where
  /-- It stands at the left of its field. -/
  isLeft : Bool
  /-- The field is filled with zeros. -/
  hasZeros : Bool
  /-- A number that is not negative gets a plus sign. -/
  hasPlus : Bool
  /-- A number that is not negative gets a space. -/
  hasSpace : Bool
  /-- A number shows its base, or its point in any case. -/
  isMarked : Bool
  /-- The least width. -/
  width : Nat
  /-- The greatest length of a text, or the number of digits. -/
  precision : Option Nat
  deriving DecidableEq, Repr

namespace Layout

/-- The layout without any demands. -/
def plain : Layout := ⟨false, false, false, false, false, 0, none⟩

/-- Fills a field to its width. -/
def fill (l : Layout) (cs : Chars) : Chars :=
  let missing := List.replicate (l.width - cs.length) ' '
  if l.isLeft then cs ++ missing else missing ++ cs

/-- A text in its field. -/
def text (l : Layout) (cs : Chars) : Chars :=
  l.fill (match l.precision with
    | some k => cs.take k
    | none => cs)

/-- A number behind its sign, in its field. -/
def withZeros (l : Layout) (sign digits : Chars) : Chars :=
  sign ++ List.replicate (l.width - sign.length - digits.length) '0' ++ digits

/-- The sign of a number. -/
def sign (l : Layout) (isNegative : Bool) : Chars :=
  if isNegative then ['-'] else if l.hasPlus then ['+'] else if l.hasSpace then [' '] else []

/-- Digits behind a sign or a mark. -/
def digits (l : Layout) (sign ds : Chars) : Chars :=
  match l.precision with
  | some k =>
    let ds := if k = 0 && ds = ['0'] then [] else List.replicate (k - ds.length) '0' ++ ds
    l.fill (sign ++ ds)
  | none => if l.hasZeros && !l.isLeft then l.withZeros sign ds else l.fill (sign ++ ds)

/-- An integer. -/
def integer (l : Layout) (n : Int) : Chars := l.digits (l.sign (n < 0)) (Chars.ofNat n.natAbs)

/-- The digits of a number in a base, in small letters or in capital ones. -/
def inBase (base : Nat) (isUpper : Bool) (n : Nat) : Chars :=
  let ds := Nat.toDigits base n
  if isUpper then ds.map Char.toUpper else ds

/-- A number without a sign in a base. -/
def natural (l : Layout) (base : Nat) (isUpper : Bool) (n : Nat) : Chars :=
  let ds := inBase base isUpper n
  if !l.isMarked || base = 10 then l.digits [] ds
  else if base = 8 then
    let isLong : Bool := match l.precision with
      | some k => ds.length < k
      | none => false
    if ds.head? = some '0' then { l with precision := l.precision.map (max 1) }.digits [] ds
    else if isLong then l.digits [] ds
    else l.digits [] ('0' :: ds)
  else if n = 0 then l.digits [] ds
  else l.digits (if isUpper then ['0', 'X'] else ['0', 'x']) ds

/-! ## Fractions -/

/-- The whole part and the places of a number with a point between them, if there is one. -/
def pointed (isMarked : Bool) (whole places : Chars) : Chars :=
  if places = [] && !isMarked then whole else whole ++ '.' :: places

/-- An exponent with a mark. -/
def exponent (mark : Char) (least : Nat) (x : Int) : Chars :=
  mark :: (if x < 0 then '-' else '+') :: Chars.ofNatWide least x.natAbs

/-- Places without the zeros at their end. -/
def shortened (places : Chars) : Chars := (places.reverse.dropWhile (· = '0')).reverse

/-- How many places there are if nothing else is said. -/
def usualPlaces : Nat := 6

/-- The digits of a magnitude with a fixed number of places. -/
def fixed (l : Layout) (units : Nat) (power : Int) : Chars :=
  let (whole, places) := Binary.fixed (l.precision.getD usualPlaces) units power
  pointed l.isMarked whole places

/-- The digits of a magnitude with an exponent. -/
def scientific (l : Layout) (units : Nat) (power : Int) : Chars :=
  let (ds, x) := Binary.scientific (l.precision.getD usualPlaces) units power
  pointed l.isMarked (ds.take 1) (ds.drop 1) ++ exponent 'e' 2 x

/-- The digits of a magnitude in the shorter one of both ways. -/
def general (l : Layout) (units : Nat) (power : Int) : Chars :=
  let count := match l.precision with
    | some 0 => 1
    | some k => k
    | none => usualPlaces
  let (ds, x) := Binary.scientific (count - 1) units power
  let cut := fun (places : Chars) ↦ if l.isMarked then places else shortened places
  if x < -4 || (count : Int) ≤ x then
    pointed l.isMarked (ds.take 1) (cut (ds.drop 1)) ++ exponent 'e' 2 x
  else
    let (whole, places) := Binary.fixed (((count : Int) - 1 - x).toNat) units power
    pointed l.isMarked whole (cut places)

/-- The digits of a magnitude in base sixteen. -/
def hexadecimal (l : Layout) (p : Binary.Precision) (units : Nat) (power : Int) : Chars :=
  let count := (p.bits - p.leadingBits) / 4
  if units = 0 then
    "0x".toList ++ pointed l.isMarked ['0'] (List.replicate (l.precision.getD 0) '0') ++
      "p+0".toList
  else
    let shift := p.bits - 1 - Nat.log2 units
    let units := units <<< shift
    let x := power - shift + 4 * count
    let units := match l.precision with
      | some k =>
        if k < count then Binary.quotient units (1 <<< (4 * (count - k))) <<< (4 * (count - k))
        else units
      | none => units
    let (units, x) := if units < 16 <<< (4 * count) then (units, x) else (units / 16, x + 4)
    let ds := Nat.toDigits 16 (units % (1 <<< (4 * count)))
    let part := List.replicate (count - ds.length) '0' ++ ds
    let part := match l.precision with
      | some k => (part ++ List.replicate (k - count) '0').take k
      | none => shortened part
    "0x".toList ++ pointed l.isMarked (Nat.toDigits 16 (units >>> (4 * count))) part ++
      (if x < 0 then "p-".toList else "p+".toList) ++ Chars.ofNat x.natAbs

/-- A fraction of a kind in one of the ways to show it, each of which a letter stands for. -/
def fractionIn (l : Layout) (p : Binary.Precision) (letter : Char) (b : Binary) : Chars :=
  let s := l.sign b.isNegative
  let plainField := { l with hasZeros := false, precision := none }
  let inCase := fun (cs : Chars) ↦ if letter.isUpper then cs.map Char.toUpper else cs
  match b.magnitude with
  | .infinite => plainField.fill (inCase (s ++ "inf".toList))
  | .undefined => plainField.fill (inCase (s ++ "nan".toList))
  | .finite units power =>
    let ds := inCase (match letter.toLower with
      | 'f' => l.fixed units power
      | 'e' => l.scientific units power
      | 'a' => l.hexadecimal p units power
      | _ => l.general units power)
    if l.hasZeros && !l.isLeft then
      if letter.toLower = 'a' then l.withZeros (s ++ ds.take 2) (ds.drop 2)
      else l.withZeros s ds
    else l.fill (s ++ ds)

/-- A fraction of eight bytes in one of the ways to show it. -/
def fraction (l : Layout) (letter : Char) (b : Binary) : Chars := l.fractionIn .double letter b

/-! ## Reading -/

/-- The layout that the flags in front of a directive ask for, and what follows them. -/
def readFlags (l : Layout) : Chars → Layout × Chars
  | '-' :: cs => readFlags { l with isLeft := true } cs
  | '0' :: cs => readFlags { l with hasZeros := true } cs
  | '+' :: cs => readFlags { l with hasPlus := true } cs
  | ' ' :: cs => readFlags { l with hasSpace := true } cs
  | '#' :: cs => readFlags { l with isMarked := true } cs
  | cs => (l, cs)

/-- The layout with a width that can be negative. -/
def withWidth (l : Layout) (n : Int) : Layout :=
  if n < 0 then { l with isLeft := true, width := n.natAbs } else { l with width := n.toNat }

/-- The layout with a precision that counts only if it is not negative. -/
def withPrecision (l : Layout) (n : Int) : Layout :=
  { l with precision := if n < 0 then none else some n.toNat }

/-- A number in a field of zeros. -/
example : ({ plain with hasZeros := true, width := 5 } : Layout).integer (-42) =
    "-0042".toList := by decide +kernel

end Layout

end ContractBuild
