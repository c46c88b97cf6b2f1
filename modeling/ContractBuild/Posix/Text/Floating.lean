import ContractBuild.Posix.Text.Layout

/-!
# Floating numbers

The binary fractions of eight bytes with which a program calculates, and the fractions that they
are: `ofBinary` and `toBinary` go from one to the other by the bits, so digits are read and written
without a loss.
-/

namespace ContractBuild.Floating

/-! ## Bits -/

/-- How many bits the units of a number have, without the first one. -/
def unitBits : Nat := 52

/-- The exponent of what is no finite number. -/
def specialExponent : Nat := 2047

/-- The distance of an exponent from a power of two of units. -/
def exponentShift : Int := 1075

/-- The bits of a sign, an exponent and units. -/
def bits (isNegative : Bool) (exponent units : Nat) : UInt64 :=
  ((if isNegative then 1 <<< 63 else 0) + (exponent <<< unitBits) + units).toUInt64

/-- The floating number of a binary fraction. -/
def ofBinary (b : Binary) : Float :=
  .ofBits (match b.magnitude with
    | .infinite => bits b.isNegative specialExponent 0
    | .undefined => bits b.isNegative specialExponent (1 <<< (unitBits - 1))
    | .finite units power =>
      if units < 1 <<< unitBits then bits b.isNegative 0 units
      else bits b.isNegative (power + exponentShift).toNat (units % (1 <<< unitBits)))

/-- The binary fraction of a floating number. -/
def toBinary (x : Float) : Binary :=
  let n := x.toBits.toNat
  let exponent := (n >>> unitBits) % (specialExponent + 1)
  let units := n % (1 <<< unitBits)
  let isNegative := 1 <<< 63 ≤ n
  ⟨isNegative,
    if exponent = specialExponent then if units = 0 then .infinite else .undefined
    else if exponent = 0 then .finite units (1 - exponentShift)
    else .finite (units + (1 <<< unitBits)) (exponent - exponentShift)⟩

/-! ## Texts -/

/-- The floating number in front of a text, and what follows it. -/
def read (cs : Chars) : Option (Float × Chars) :=
  let ds := cs.takeWhile Char.isDigit
  let rest := cs.drop ds.length
  let isSimple := match rest with
    | [] => true
    | c :: _ => !(c.isAlphanum || c = '.')
  if ds ≠ [] && ds.length < 16 && isSimple then
    some (Float.ofNat (Numeral.value 10 ds), rest)
  else (Binary.read cs).map fun (b, rest) ↦ (ofBinary b, rest)

/-- The whole part of a floating number, if it has one. -/
def whole? (x : Float) : Option Int :=
  match (toBinary x).magnitude with
  | .finite units power =>
    let n : Nat := if 0 ≤ power then units <<< power.toNat else units >>> (-power).toNat
    some (if (toBinary x).isNegative then -n else n)
  | _ => none

/-- Whether a floating number is a whole one. -/
def isWhole (x : Float) : Bool :=
  match (toBinary x).magnitude with
  | .finite units power =>
    0 ≤ power || units % (1 <<< (-power).toNat) = 0
  | _ => false

/-- The floating number of an integer. -/
def ofInt (n : Int) : Float :=
  ofBinary ⟨n < 0, Binary.nearest .double n.natAbs 1⟩

/-- What a division leaves, with the sign of the first number; it is exact. -/
def remainder (x y : Float) : Float :=
  match toBinary x, toBinary y with
  | ⟨s, .finite a p⟩, ⟨_, .finite b q⟩ =>
    if b = 0 then 0 / 0
    else
      let least := min p q
      let m := a <<< (p - least).toNat
      let n := b <<< (q - least).toNat
      let (up, down) := Binary.twoTo least
      ofBinary ⟨s, Binary.nearest .double (m % n * up) down⟩
  | ⟨_, .finite _ _⟩, ⟨_, .infinite⟩ => x
  | _, _ => 0 / 0

end ContractBuild.Floating
