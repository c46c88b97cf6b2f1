import ContractBuild.Posix.Text.Floating

/-!
# Values of record programs

A value is a number or a text.  A text that comes from an input also counts as a number when it
looks like one, and a variable without a value is both the empty text and zero.  `shownIn` writes
values in a format.
-/

namespace ContractBuild.Utility.RecordProgram

/-- A value. -/
inductive Value
  /-- That of a variable which never got one. -/
  | unset
  /-- A number. -/
  | number (x : Float)
  /-- A text. -/
  | text (cs : Chars)
  /-- A text from an input. -/
  | input (cs : Chars)

instance : Inhabited Value := ⟨.unset⟩

/-! ## Numbers -/

/-- The number that a whole text looks like; blanks around it do not matter. -/
def numberLike? (cs : Chars) : Option Float :=
  let cs := cs.dropWhile Numeral.isBlank
  let unsigned := match cs with
    | '-' :: cs | '+' :: cs => cs
    | cs => cs
  let isDecimal := match unsigned with
    | '.' :: c :: _ => c.isDigit
    | '0' :: c :: _ => c ≠ 'x' && c ≠ 'X'
    | c :: _ => c.isDigit
    | [] => false
  if !isDecimal then none
  else match Floating.read cs with
    | some (x, rest) => if rest.all Numeral.isBlank then some x else none
    | none => none

/-- The number in front of a text, or zero. -/
def numberOf (cs : Chars) : Float := ((Floating.read cs).map (·.1)).getD 0

/-- The binary fraction of a number as it is shown. -/
def shownBinary (x : Float) : Binary :=
  let b := Floating.toBinary x
  { b with isNegative := b.isNegative || b.magnitude = .undefined }

/-- The integer of a number without its fraction, within the range of words with a sign. -/
def integerOf (x : Float) : Int :=
  match Floating.whole? x with
  | some n => max (-Numeral.greatest) (min Numeral.greatest n)
  | none => if 0 < x then Numeral.greatest else if x < 0 then -Numeral.greatest else Numeral.least

/-- A conversion of a format. -/
inductive Conversion
  /-- A text. -/
  | text
  /-- A character. -/
  | char
  /-- An integer. -/
  | integer
  /-- A number without a sign in a base; its digits are capital letters on demand. -/
  | natural (base : Nat) (isUpper : Bool)
  /-- A fraction. -/
  | fraction (letter : Char)

/-- The conversion that a letter asks for. -/
def Conversion.ofLetter? (c : Char) : Option Conversion :=
  match c with
  | 's' => some .text
  | 'c' => some .char
  | 'd' | 'i' => some .integer
  | 'u' => some (.natural 10 false)
  | 'o' => some (.natural 8 false)
  | 'x' => some (.natural 16 false)
  | 'X' => some (.natural 16 true)
  | 'e' | 'E' | 'f' | 'g' | 'G' => some (.fraction c)
  | _ => none

/-- A number in a conversion. -/
def Conversion.number (l : Layout) (x : Float) : Conversion → Chars
  | .integer => if x < 9223372036854775808.0 then l.integer (integerOf x)
    else l.integer (min ((Floating.whole? x).getD Numeral.wordCount) (Numeral.wordCount - 1))
  | .natural base isUpper => l.natural base isUpper (match Floating.whole? x with
    | some n => if (Numeral.wordCount : Int) ≤ n then Numeral.wordCount - 1
      else Numeral.bits (max (-Numeral.greatest) n)
    | none => if 0 < x then Numeral.wordCount - 1 else 0)
  | .fraction c => l.fraction c (shownBinary x)
  | .char => l.fill [Char.ofNat (integerOf x % 256).toNat]
  | .text => []

/-- Whether an integer is written with all its digits. -/
def isExact (x : Float) : Bool := Floating.isWhole x && -9.3e18 < x && x < 9.3e18

/-- The layout of a conversion, its letter, and what follows it. -/
def plainLayout (cs : Chars) : Layout × Chars :=
  let (l, cs) := Layout.plain.readFlags cs
  let (ds, cs) := cs.span Char.isDigit
  let l := { l with width := Numeral.value 10 ds }
  match cs with
  | '.' :: cs =>
    let (ds, cs) := cs.span Char.isDigit
    ({ l with precision := some (Numeral.value 10 ds) }, cs)
  | cs => (l, cs)

/-- A number in a format that holds one conversion. -/
def fractionIn (format : Chars) (x : Float) : Chars :=
  let (before, rest) := format.span (· ≠ '%')
  match rest with
  | [] => before
  | _ :: cs =>
    let (l, cs) := plainLayout cs
    match cs with
    | [] => before
    | c :: rest =>
      match Conversion.ofLetter? c with
      | some k => before ++ k.number l x ++ rest
      | none => before ++ rest

/-- How numbers become texts if nothing else is said. -/
def usualFormat : Chars := "%.6g".toList

/-- The text of a number. -/
def textOfNumber (format : Chars) (x : Float) : Chars :=
  if isExact x then Chars.ofInt ((Floating.whole? x).getD 0)
  else if format = usualFormat then
    ({ Layout.plain with precision := some 6 }).fraction 'g' (shownBinary x)
  else fractionIn format x

/-! ## Values -/

namespace Value

/-- The value of a truth. -/
def ofBool (b : Bool) : Value := .number (if b then 1 else 0)

/-- The value of a count. -/
def ofNat (n : Nat) : Value := .number (Float.ofNat n)

/-- The number of a value. -/
def toNumber : Value → Float
  | .unset => 0
  | .number x => x
  | .text cs | .input cs => numberOf cs

/-- The text of a value; numbers become texts in a format. -/
def toText (format : Chars) : Value → Chars
  | .unset => []
  | .number x => textOfNumber format x
  | .text cs | .input cs => cs

/-- Whether a value is true. -/
def isTrue : Value → Bool
  | .unset => false
  | .number x => x != 0
  | .text cs => cs ≠ []
  | .input cs =>
    match numberLike? cs with
    | some x => x != 0
    | none => cs ≠ []

/-- The number that a value is, or looks like. -/
def number? : Value → Option Float
  | .unset => some 0
  | .number x => some x
  | .text _ => none
  | .input cs => numberLike? cs

/-- How two values compare: as numbers if both are some, and as texts otherwise. -/
def compare (format : Chars) (a b : Value) : Ordering :=
  match number? a, number? b with
  | some x, some y => if x < y then .lt else if y < x then .gt else .eq
  | _, _ =>
    let s := toText format a
    let t := toText format b
    if Chars.isBefore s t then .lt else if s = t then .eq else .gt

end Value

/-! ## Formats -/

/-- What came of a format: the output, and what is wrong. -/
structure Shown where
  /-- The output. -/
  output : Chars
  /-- What is wrong, in words. -/
  complaint : Option Chars

/-- A number of a layout, which can be taken from the values, and what follows it. -/
def layoutNumber? (cs : Chars) (values : List Value) : Option (Int × Chars × List Value) :=
  match cs, values with
  | '*' :: _, [] => none
  | '*' :: cs, v :: values => some (integerOf v.toNumber, cs, values)
  | cs, values =>
    let (ds, cs) := cs.span Char.isDigit
    some (Numeral.value 10 ds, cs, values)

/-- The layout of a conversion, what follows it, and the values that are left. -/
def layout? (cs : Chars) (values : List Value) : Option (Layout × Chars × List Value) := do
  let (l, cs) := Layout.plain.readFlags cs
  let (width, cs, values) ← layoutNumber? cs values
  let l := l.withWidth width
  match cs with
  | '.' :: cs =>
    let (precision, cs, values) ← layoutNumber? cs values
    return (l.withPrecision precision, cs, values)
  | cs => return (l, cs, values)

/-- A value in a conversion. -/
def Conversion.value (format : Chars) (l : Layout) (v : Value) (k : Conversion) : Chars :=
  match k with
  | .text => l.text (v.toText format)
  | .char =>
    match v with
    | .text cs => l.fill [cs.headD '\x00']
    | .unset => l.fill ['\x00']
    | .number x => k.number l x
    | .input cs =>
      match numberLike? cs with
      | some x => k.number l x
      | none => l.fill [cs.headD '\x00']
  | k => k.number l v.toNumber

/-- Shows values in a format from a conversion on, behind the last one of so many.  Every step takes
a character. -/
def showFrom (textFormat : Chars) (fault : String → Chars) :
    Nat → Nat → Chars → Chars → List Value → Shown
  | 0, _, done, _, _ => ⟨done.reverse, none⟩
  | n + 1, count, done, cs, values =>
    let few := ⟨done.reverse, some (fault "not enough arguments passed to ")⟩
    let improper := Shown.mk done.reverse
      (some (fault ("improper conversion(number " ++ Nat.repr (count + 1) ++ ") in ")))
    match cs with
    | [] => ⟨done.reverse, none⟩
    | '%' :: '%' :: cs => showFrom textFormat fault n count ('%' :: done) cs values
    | '%' :: cs =>
      match layout? cs values with
      | none => few
      | some (_, _, []) => few
      | some (l, cs, v :: values) =>
        let (isSized, cs) := match cs with
          | 'l' :: cs | 'h' :: cs => (true, cs)
          | cs => (false, cs)
        match cs with
        | [] => improper
        | c :: cs =>
          match Conversion.ofLetter? c, isSized with
          | none, _ | some .text, true | some .char, true | some (.fraction _), true => improper
          | some k, _ => showFrom textFormat fault n (count + 1)
              ((k.value textFormat l v).reverse ++ done) cs values
    | c :: cs => showFrom textFormat fault n count (c :: done) cs values

/-- Values in a format, for a function of a name. -/
def shownIn (textFormat : Chars) (name : String) (format : Chars) (values : List Value) : Shown :=
  showFrom textFormat (fun what ↦ what.toList ++ name.toList ++ "(\"".toList ++ format ++
    "\")".toList) (format.length + 1) 0 [] format values

end ContractBuild.Utility.RecordProgram
