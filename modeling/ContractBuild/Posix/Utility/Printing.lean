import ContractBuild.Posix.Text.Chars
import ContractBuild.Posix.Text.Layout
import ContractBuild.Posix.Utility.Basic

/-!
# Formatted output

A utility that shows its arguments in the way that a format says.  The format is used again as long
as arguments are left.  Complaints come between the parts of the output, where they arise.
-/

namespace ContractBuild.Utility

namespace Printing

/-- How far output has come. -/
structure Progress where
  /-- The name of the program. -/
  name : Chars
  /-- Text may be UTF-8. -/
  isWide : Bool
  /-- What is shown but not written yet, the last character first. -/
  output : Chars
  /-- The arguments that are left. -/
  args : List Chars
  /-- The status. -/
  status : Nat

namespace Progress

/-- The progress with more output. -/
def put (p : Progress) (cs : Chars) : Progress := { p with output := cs.reverse ++ p.output }

/-- Writes what is not written yet. -/
def flush (p : Progress) : Routine Progress := do
  emit p.name p.output.reverse
  return { p with output := [] }

/-- Complains about something. -/
def complain (p : Progress) (message : Chars) (status : Nat) : Routine Progress := do
  let p ← p.flush
  warn p.name message
  return { p with status := max status p.status }

/-- Complains about something and ends. -/
def stop {α : Type} (p : Progress) (message : Chars) : Routine α := do
  let p ← p.flush
  fail p.name 1 message

/-- The next argument, which is empty if there is none. -/
def next (p : Progress) : Chars × Progress := (p.args.headD [], { p with args := p.args.tail })

end Progress

/-! ## Escapes -/

/-- The value of hexadecimal digits, at most so many of them, with their number and what follows. -/
def hexadecimal : Nat → Chars → Nat × Nat × Chars
  | 0, cs => (0, 0, cs)
  | _, [] => (0, 0, [])
  | k + 1, c :: cs =>
    if Numeral.digit c < 16 then
      let (n, count, rest) := hexadecimal k cs
      (Numeral.digit c * Nat.pow 16 count + n, count + 1, rest)
    else (0, 0, c :: cs)

/-- Characters that may not be spelled by their number. -/
def isRefused (n : Nat) : Bool :=
  (n ≤ 0x9F && n ≠ 0x24 && n ≠ 0x40 && n ≠ 0x60) || (0xD800 ≤ n && n ≤ 0xDFFF)

/-- A number in hexadecimal digits, at least so many. -/
def hexadecimalDigits (isUpper : Bool) (count n : Nat) : Chars :=
  let ds := Layout.inBase 16 isUpper n
  List.replicate (count - ds.length) '0' ++ ds

/-- A character that is spelled by its number, which is shown as it is written where there is no
such character. -/
def character (isWide : Bool) (n : Nat) : Chars :=
  if n < 0x80 then [Char.ofNat n]
  else if isWide then Chars.ofBytes (Utf8.encodeChar (Char.ofNat n))
  else if n < 0x10000 then "\\u".toList ++ hexadecimalDigits true 4 n
  else "\\U".toList ++ hexadecimalDigits true 8 n

/-- Shows what the text behind a backslash spells; the text behind that comes with the progress, or
nothing if all output ends.  Octal numbers can have a zero more in front. -/
def escape (hasZero : Bool) (cs : Chars) (p : Progress) : Routine (Progress × Option Chars) := do
  match cs with
  | [] => return (p.put ['\\'], some [])
  | 'x' :: rest =>
    match hexadecimal 2 rest with
    | (_, 0, _) => p.stop "missing hexadecimal number in escape".toList
    | (n, _, rest) => return (p.put [Escape.byte n], some rest)
  | 'c' :: _ => return (p, none)
  | '"' :: rest => return (p.put ['"'], some rest)
  | c :: rest =>
    if (Escape.octalDigit? c).isSome then
      let (n, rest) := Escape.octal 0 3 (if hasZero && c = '0' then rest else c :: rest)
      return (p.put [Escape.byte n], some rest)
    else if c = 'u' || c = 'U' then
      let count := if c = 'u' then 4 else 8
      let (n, found, rest) := hexadecimal count rest
      if found < count then p.stop "missing hexadecimal number in escape".toList
      if isRefused n then
        p.stop ("invalid universal character name \\".toList ++
          c :: hexadecimalDigits false count n)
      return (p.put (character p.isWide n), some rest)
    else
      match Escape.outputLetters.lookup c with
      | some d => return (p.put [d], some rest)
      | none => return (p.put ['\\', c], some rest)

/-- Shows a text with its escapes; the truth value says whether one of them ends all output.  Every
step takes a character. -/
def escaped : Nat → Chars → Progress → Routine (Progress × Bool)
  | 0, _, p => return (p, false)
  | _, [], p => return (p, false)
  | n + 1, '\\' :: cs, p => do
    match ← escape true cs p with
    | (p, some rest) => escaped n rest p
    | (p, none) => return (p, true)
  | n + 1, c :: cs, p => escaped n cs (p.put [c])

/-! ## Numbers -/

/-- Complains about what has not been understood of an argument. -/
def check (a rest : Chars) (isEmpty isTooLarge : Bool) (p : Progress) : Routine Progress :=
  if isTooLarge then p.complain (because (cited a) (.system 34)) 1
  else if rest = [] then pure p
  else if isEmpty then p.complain (cited a ++ ": expected a numeric value".toList) 1
  else p.complain (cited a ++ ": value not completely converted".toList) 1

/-- The number of the character behind a quote, if an argument asks for that. -/
def characterCode (a : Chars) (p : Progress) : Routine (Option Nat × Progress) := do
  match a with
  | q :: c :: cs =>
    if q ≠ '"' && q ≠ '\'' then return (none, p)
    let read := if p.isWide then Wide.read (c :: cs) else c :: cs
    let first := read.headD c
    let rest := Wide.write read.tail
    let p ← if rest = [] then pure p
      else p.complain ("warning: ".toList ++ rest ++
        ": character(s) following character constant have been ignored".toList) 0
    return (some (Wide.unplaced first).toNat, p)
  | _ => return (none, p)

/-- The integer that an argument spells. -/
def integer (isSigned : Bool) (a : Chars) (p : Progress) : Routine (Int × Progress) := do
  match ← characterCode a p with
  | (some n, p) => return (n, p)
  | (none, p) =>
    match Numeral.read 0 a with
    | none => return (0, ← check a a true false p)
    | some (n, rest) =>
      let isTooLarge :=
        if isSigned then !Numeral.fits n else decide (Numeral.wordCount ≤ n.natAbs)
      let value := if isSigned then Numeral.clamp n
        else if isTooLarge then (Numeral.wordCount : Int) - 1 else n
      return (value, ← check a rest false isTooLarge p)

/-- The fraction that an argument spells. -/
def fraction (a : Chars) (p : Progress) : Routine (Binary × Progress) := do
  match ← characterCode a p with
  | (some n, p) => return (⟨false, .finite n 0⟩, p)
  | (none, p) =>
    match Binary.readIn .extended a with
    | none => return (⟨false, .finite 0 0⟩, ← check a a true false p)
    | some (b, rest) =>
      let isTooLarge := b.magnitude = .infinite && a.any Char.isDigit
      return (b, ← check a rest false isTooLarge p)

/-! ## Directives -/

/-- The flags in front of a directive. -/
def flagLetters : Chars := "-+ #0'I".toList

/-- The directives that can follow some flags and whether there is a precision. -/
def allowed (flags : Chars) (hasPrecision : Bool) : Chars :=
  "aAcdeEfFgGiosuxX".toList.filter fun c ↦
    !((flags.contains '\'' || flags.contains 'I') && "aAceEosxX".toList.contains c) &&
    !(flags.contains '#' && "cdisu".toList.contains c) &&
    !(flags.contains '0' && "cs".toList.contains c) && !(hasPrecision && c = 'c')

/-- The greatest width. -/
def greatestWidth : Int := 2147483647

/-- A number of the layout, which can be taken from the arguments, and what follows it.  A number
that is out of bounds is complained about. -/
def layoutNumber (what : String) (least : Option Int) (cs : Chars) (p : Progress) :
    Routine (Option Int × Chars × Progress) := do
  match cs with
  | '*' :: rest =>
    if p.args = [] then return (some 0, rest, p)
    let (a, p) := p.next
    let (n, p) ← integer true a p
    if greatestWidth < n || least.any (n < ·) then
      p.stop ("invalid ".toList ++ what.toList ++ ": ".toList ++ cited a)
    return (some n, rest, p)
  | cs =>
    let (ds, rest) := cs.span Char.isDigit
    return ((Chars.toNat? ds).map Int.ofNat, rest, p)

/-- Whether a word means the same without quotes, where a colon is nothing special. -/
def isPlainWord (cs : Chars) : Bool :=
  cs ≠ [] && !Quoting.isNeeded (cs.map fun c ↦ if c = ':' then 'a' else c)

/-- Shows an argument in the way of a letter. -/
def single (l : Layout) (letter : Char) (a : Chars) (p : Progress) : Routine Progress := do
  match letter with
  | 's' => return p.put (l.text a)
  | 'c' => return p.put (l.fill [a.headD '\x00'])
  | 'd' | 'i' =>
    let (n, p) ← integer true a p
    return p.put (l.integer n)
  | c =>
    if "aAeEfFgG".toList.contains c then
      let (b, p) ← fraction a p
      return p.put (l.fractionIn .extended c b)
    else
      let (n, p) ← integer false a p
      let base := if c = 'o' then 8 else if c = 'u' then 10 else 16
      return p.put (l.natural base (decide (c = 'X')) (Numeral.bits n))

/-- Shows the directive behind a percent sign; the text behind it comes with the progress, or
nothing if all output ends. -/
def directive (cs : Chars) (p : Progress) : Routine (Progress × Option Chars) := do
  match cs with
  | '%' :: rest => return (p.put ['%'], some rest)
  | 'b' :: rest =>
    let (a, p) := p.next
    match ← escaped a.length a p with
    | (p, true) => return (p, none)
    | (p, false) => return (p, some rest)
  | 'q' :: rest =>
    if p.args = [] then return (p, some rest)
    let (a, p) := p.next
    return (p.put (if isPlainWord a then a else Quoting.always.apply p.isWide a), some rest)
  | cs =>
    let (flags, rest) := cs.span flagLetters.contains
    let (l, _) := Layout.plain.readFlags (flags.filter fun c ↦ c ≠ '\'' && c ≠ 'I')
    let (width, rest, p) ← layoutNumber "field width" (some (-greatestWidth - 1)) rest p
    let l := match width with
      | some n => l.withWidth n
      | none => l
    let (l, hasPrecision, rest, p) ← (match rest with
      | '.' :: rest => do
        let (precision, rest, p) ← layoutNumber "precision" none rest p
        return (l.withPrecision (precision.getD 0), true, rest, p)
      | rest => return (l, false, rest, p))
    let rest := rest.dropWhile "lLhjtz".toList.contains
    match rest with
    | c :: behind =>
      if !(allowed flags hasPrecision).contains c then
        p.stop ('%' :: cs.take (cs.length - behind.length) ++
          ": invalid conversion specification".toList)
      let (a, p) := p.next
      return (← single l c a p, some behind)
    | [] => p.stop ('%' :: cs ++ ": invalid conversion specification".toList)

/-- Shows a format once; the truth value says whether all output ends.  Every step takes a
character. -/
def once : Nat → Chars → Progress → Routine (Progress × Bool)
  | 0, _, p => return (p, false)
  | _, [], p => return (p, false)
  | n + 1, '\\' :: cs, p => do
    match ← escape false cs p with
    | (p, some rest) => once n rest p
    | (p, none) => return (p, true)
  | n + 1, '%' :: cs, p => do
    match ← directive cs p with
    | (p, some rest) => once n rest p
    | (p, none) => return (p, true)
  | n + 1, c :: cs, p => once n cs (p.put [c])

/-- Shows a format as long as it takes arguments, and at least once.  Every turn takes one. -/
def again (format : Chars) : Nat → Progress → Routine (Progress × Bool)
  | 0, p => return (p, false)
  | n + 1, p => do
    let count := p.args.length
    match ← once (format.length + 1) format p with
    | (p, false) =>
      if p.args = [] || p.args.length = count then return (p, false) else again format n p
    | e => return e

end Printing

/-- Writes its arguments by a format. -/
def printf : Program := fun args _ ↦ do
  let name := args.headD []
  let words := match args.tail with
    | ['-', '-'] :: ws => ws
    | ws => ws
  match words with
  | [] => missingOperand name 1
  | format :: ws =>
    let isWide := (← Routine.self).isWide
    match ← Printing.again format (ws.length + 1) ⟨name, isWide, [], ws, 0⟩ with
    | (p, true) =>
      let _ ← p.flush
      return 0
    | (p, false) =>
      let p ← (match p.args with
        | [] => pure p
        | a :: _ =>
          p.complain ("warning: ignoring excess arguments, starting with ".toList ++ cited a) 0)
      let p ← p.flush
      return p.status

/-- A precision keeps characters away from single ones. -/
example : (Printing.allowed ['#'] true).contains 'c' = false ∧
    Printing.hexadecimal 2 "4g".toList = (4, 1, ['g']) := by decide +kernel

end ContractBuild.Utility
