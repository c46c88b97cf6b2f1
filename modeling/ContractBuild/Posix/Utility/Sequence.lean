import ContractBuild.Posix.Text.Layout
import ContractBuild.Posix.Text.Numeral
import ContractBuild.Posix.Utility.Basic

/-!
# Sequences of numbers

Counting from one number to another, with all decimal places of the numbers that were given.
-/

namespace ContractBuild.Utility

/-- A decimal number: an integer, and how many of its digits are places. -/
structure Decimal where
  /-- All digits, with the sign. -/
  units : Int
  /-- How many of them stand behind the point. -/
  places : Nat
  /-- How many characters it was written with in front of the point. -/
  width : Nat
  /-- Whether it was written with a minus sign. -/
  isNegative : Bool

namespace Decimal

/-- The exponent behind the digits of a number. -/
def readExponent (cs : Chars) : Option Int :=
  match cs with
  | [] => some 0
  | e :: rest =>
    if e = 'e' || e = 'E' then
      match Numeral.read 10 rest with
      | some (n, []) => some n
      | _ => none
    else none

/-- A power of ten. -/
def tens (n : Nat) : Nat := Nat.pow 10 n

/-- The number that a text spells. -/
def read (cs : Chars) : Option Decimal :=
  let isNegative := cs.head? = some '-'
  let body := if isNegative || cs.head? = some '+' then cs.drop 1 else cs
  let sign := fun (n : Nat) ↦ if isNegative then -(n : Int) else n
  match body with
  | '0' :: x :: ds =>
    if (x = 'x' || x = 'X') && ds ≠ [] && (Numeral.digits 16 ds).2 = [] then
      some ⟨sign (Numeral.value 16 ds), 0, 0, isNegative⟩
    else decimal isNegative sign body
  | _ => decimal isNegative sign body
where
  /-- The number that decimal digits spell. -/
  decimal (isNegative : Bool) (sign : Nat → Int) (body : Chars) : Option Decimal := do
    let (whole, rest) := body.span Char.isDigit
    let (places, rest) := match rest with
      | '.' :: rest => rest.span Char.isDigit
      | rest => ([], rest)
    let digits ← Chars.toNat? (whole ++ places)
    let x ← readExponent rest
    let count := (places.length : Int) - x
    let signWidth := if isNegative then 1 else 0
    if 0 ≤ count then
      return ⟨sign digits, count.toNat, max 1 whole.length + signWidth, isNegative⟩
    else return ⟨sign (digits * tens (-count).toNat), 0, whole.length + (-count).toNat + signWidth,
      isNegative⟩

/-- The integer of a number with so many places. -/
def scaled (d : Decimal) (places : Nat) : Int := d.units * (tens (places - d.places) : Nat)

/-- A number with so many places, and how wide it is at least. -/
def text (places width : Nat) (isNegative : Bool) (n : Int) : Chars :=
  let ds := Chars.ofNat n.natAbs
  let ds := List.replicate (places + 1 - ds.length) '0' ++ ds
  let whole := ds.take (ds.length - places)
  let sign := if n < 0 || (isNegative && n = 0) then ['-'] else []
  let point := if places = 0 then [] else '.' :: ds.drop (ds.length - places)
  sign ++ List.replicate (width - (sign.length + whole.length + point.length)) '0' ++ whole ++ point

end Decimal

/-- A format with a single directive: what stands in front of it, its layout and letter, and what
stands behind it. -/
structure NumberFormat where
  /-- The text in front. -/
  front : Chars
  /-- How the number is shown. -/
  layout : Layout
  /-- In which way. -/
  letter : Char
  /-- The text behind. -/
  behind : Chars

namespace NumberFormat

/-- The text up to a directive, with doubled signs halved, and the text from it on. -/
def plainText : Chars → Chars × Option Chars
  | '%' :: '%' :: cs => let (a, b) := plainText cs; ('%' :: a, b)
  | '%' :: cs => ([], some cs)
  | c :: cs => let (a, b) := plainText cs; (c :: a, b)
  | [] => ([], none)

/-- The format that a text spells. -/
def read (cs : Chars) : Except Chars NumberFormat :=
  let wrong := fun (what : Chars) ↦ Except.error ("format ".toList ++ cited cs ++ ' ' :: what)
  match plainText cs with
  | (_, none) => wrong "has no % directive".toList
  | (front, some rest) =>
    let (layout, rest) := Layout.plain.readFlags rest
    let (ds, rest) := rest.span Char.isDigit
    let layout := layout.withWidth ((Chars.toNat? ds).getD 0)
    let (layout, rest) := match rest with
      | '.' :: rest =>
        let (ds, rest) := rest.span Char.isDigit
        (layout.withPrecision ((Chars.toNat? ds).getD 0), rest)
      | rest => (layout, rest)
    match rest with
    | [] => wrong "ends in %".toList
    | letter :: rest =>
      if !"aAeEfFgG".toList.contains letter then
        wrong ("has unknown %".toList ++ letter :: " directive".toList)
      else match plainText rest with
        | (_, some _) => wrong "has too many % directives".toList
        | (behind, none) => .ok ⟨front, layout, letter, behind⟩

/-- A number in a format. -/
def apply (f : NumberFormat) (number : Chars) : Chars :=
  match Binary.read number with
  | some (b, _) => f.front ++ f.layout.fraction f.letter b ++ f.behind
  | none => f.front ++ f.behind

end NumberFormat

/-- The options of `seq` and the numbers behind them. -/
def sequenceCall (flags : List Flag) (args : List Chars) : Except Chars Call :=
  let isNumber := fun (a : Chars) ↦ match a with
    | '-' :: c :: _ => c.isDigit || c = '.'
    | _ => false
  let front := args.takeWhile (!isNumber ·)
  if front.length = args.length then Flag.read flags false args
  else do
    let c ← Flag.read flags false front
    return { c with operands := c.operands ++ args.drop front.length }

/-- Whether the end of a sequence has not been passed. -/
def isWithin (step last n : Int) : Bool := if 0 < step then n ≤ last else last ≤ n

/-- Writes a sequence of numbers, in pieces. -/
def seq : Program := fun args _ ↦ do
  let name := args.headD []
  let flags := valueFlags [('f', "format"), ('s', "separator")] ++
    plainFlags [('w', "equal-width")]
  let c ← match sequenceCall flags args.tail with
    | .ok c => pure c
    | .error message => refuse name 1 message
  let number := fun (w : Chars) ↦ match Decimal.read w with
    | some d => (pure d : Routine Decimal)
    | none => refuse name 1 ("invalid floating point argument: ".toList ++ cited w)
  let one : Decimal := ⟨1, 0, 1, false⟩
  if let _ :: _ :: _ :: extra :: _ := c.operands then extraOperand name 1 extra
  let format ← match c.value? 'f' with
    | none => pure none
    | some w => match NumberFormat.read w with
      | .ok f => pure (some f)
      | .error message => fail name 1 message
  let isEndless := (c.operands.getLast?.getD []).map Char.toLower |> "infinity".toList.isPrefixOf
  let isEndless := isEndless || c.operands.getLast? = some "inf".toList
  let last := fun (w : Chars) ↦ if isEndless then (pure one : Routine Decimal) else number w
  let (first, step, last) ← match c.operands with
    | [] => missingOperand name 1
    | [a] => do pure (one, one, ← last a)
    | [a, b] => do pure (← number a, one, ← last b)
    | a :: s :: b :: _ => do
      let first ← number a
      let step ← number s
      if step.units = 0 then refuse name 1 ("invalid Zero increment value: ".toList ++ cited s)
      pure (first, step, ← last b)
  let places := max first.places step.places
  let all := max places last.places
  let stepUnits := step.scaled all
  let lastUnits := last.scaled all
  let wide := fun (d : Decimal) ↦ d.width + (if places = 0 then 0 else places + 1)
  let width := if c.has 'w' then max (wide first) (wide last) else 0
  let start := first.scaled all
  let shown := fun (n : Int) ↦
    let cs := Decimal.text places width (first.isNegative && n = start)
      (Int.tdiv n (Decimal.tens (all - places)))
    match format with
    | some f => f.apply cs
    | none => cs
  let separator := (c.value? 's').getD ['\n']
  let isIn := fun (n : Int) ↦ isEndless || isWithin stepUnits lastUnits n
  if !isIn start then return 0
  Routine.loop start fun n ↦ do
    let ns := ((List.range 500).map fun k ↦ n + stepUnits * (k : Nat)).takeWhile isIn
    let behind := n + stepUnits * 500
    let isLast := ns.length < 500 || !isIn behind
    emit name (Chars.join separator (ns.map shown) ++ if isLast then ['\n'] else separator)
    return if isLast then .inr 0 else .inl behind

/-! ## Prime factors -/

/-- The prime factors of a number from a divisor on.  Every step divides or goes to the next
divisor. -/
def factorsFrom : Nat → Nat → Nat → List Nat
  | 0, _, n => [n]
  | fuel + 1, d, n =>
    if n ≤ 1 then []
    else if n < d * d then [n]
    else if n % d = 0 then d :: factorsFrom fuel d (n / d)
    else factorsFrom fuel (d + 1) n

/-- Writes the prime factors of a number, where some output has not been written. -/
def factorNumber (name : Chars) (refuse : IoError → Routine Unit) (spool : Spool) (w : Chars) :
    Routine (Spool × Nat) := do
  match Chars.toNat? w with
  | some n =>
    let text := Chars.line (Chars.ofNat n ++ ':' ::
      (factorsFrom 10000000 2 n).flatMap fun p ↦ ' ' :: Chars.ofNat p)
    return (← spool.put refuse text, 0)
  | none =>
    warn name (cited w ++ " is not a valid positive integer".toList)
    return (spool, 1)

/-- Writes prime factors. -/
def factor : Program := fun args _ ↦ do
  let name := args.headD []
  let c ← readCall name 1 [] true args.tail
  let refuse := fun e ↦ fail name 1 (because "write error".toList e)
  let (words, status) ← (if c.operands ≠ [] then return (c.operands, 0) else do
    let (content, status) ← readInputs name 1 [['-']]
    return ((Chars.splitOn (fun d ↦ d = ' ' || d = '\n' || d = '\t') content).filter (· ≠ []),
      status) : Routine (List Chars × Nat))
  let (spool, status) ← words.foldlM (fun (spool, status) w ↦ do
    let (spool, code) ← factorNumber name refuse spool w
    return (spool, max status code)) (Spool.empty, status)
  let _ ← spool.flush refuse
  return status

/-- A number with places in a field of zeros. -/
example : Decimal.text 1 5 false 25 = "002.5".toList := by decide +kernel

end ContractBuild.Utility
