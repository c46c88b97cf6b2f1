import ContractBuild.Posix.Text.Chars
import ContractBuild.Posix.Text.Layout

/-!
# Formatted output

A format is text with directives, each of which shows one argument.  It is used again as long as
arguments are left, and an argument that is missing counts as empty or zero.
-/

namespace ContractBuild.Shell.Format

/-- What has been shown, and what is left to be shown. -/
structure Progress where
  /-- The output, the last character first. -/
  output : Chars
  /-- The complaints, the last one first. -/
  complaints : List Chars
  /-- The arguments that are left. -/
  args : List Chars

/-- Why the output ends. -/
inductive End
  /-- The format is used up. -/
  | used
  /-- An escape ended it. -/
  | stopped
  /-- The format is wrong. -/
  | wrong (message : Chars)

namespace Progress

/-- The next argument, if there is one. -/
def next (p : Progress) : Option Chars × Progress :=
  match p.args with
  | [] => (none, p)
  | a :: as => (some a, { p with args := as })

/-- The progress with more output. -/
def put (p : Progress) (cs : Chars) : Progress := { p with output := cs.reverse ++ p.output }

/-- The progress with a complaint about an argument. -/
def complain (p : Progress) (a : Chars) (message : String) : Progress :=
  { p with complaints := (a ++ message.toList) :: p.complaints }

end Progress

/-! ## Arguments -/

/-- The progress after an argument of which only the rest was not understood. -/
def checked (p : Progress) (a rest : Chars) (isEmpty isTooLarge : Bool) : Progress :=
  if rest ≠ [] then
    p.complain a (if isEmpty then ": expected numeric value" else ": not completely converted")
  else if isTooLarge then p.complain a ": Numerical result out of range"
  else p

/-- The number that an argument spells.  A quote at its front asks for the number of the character
behind it. -/
def nextInteger (isSigned : Bool) (p : Progress) : Int × Progress :=
  let code := fun (cs : Chars) ↦ ((cs.head?.map (·.toNat)).getD 0 : Int)
  match p.next with
  | (none, p) => (0, p)
  | (some ('"' :: cs), p) => (code cs, p)
  | (some ('\'' :: cs), p) => (code cs, p)
  | (some a, p) =>
    match Numeral.read 0 a with
    | none => (0, checked p a a true false)
    | some (n, rest) =>
      let isTooLarge :=
        if isSigned then !Numeral.fits n else decide (Numeral.wordCount ≤ n.natAbs)
      let value := if isSigned then Numeral.clamp n
        else if isTooLarge then (Numeral.wordCount : Int) - 1 else n
      (value, checked p a rest false isTooLarge)

/-- The fraction that an argument spells. -/
def nextFraction (p : Progress) : Binary × Progress :=
  let zero : Binary := ⟨false, .finite 0 0⟩
  let code := fun (cs : Chars) ↦
    Binary.mk false (.finite ((cs.head?.map (·.toNat)).getD 0) 0)
  match p.next with
  | (none, p) => (zero, p)
  | (some ('"' :: cs), p) => (code cs, p)
  | (some ('\'' :: cs), p) => (code cs, p)
  | (some a, p) =>
    match Binary.read a with
    | none => (zero, checked p a a true false)
    | some (b, rest) => (b, checked p a rest false false)

/-! ## Directives -/

/-- A number of the layout, which can be taken from the arguments, and what follows it. -/
def layoutNumber (cs : Chars) (p : Progress) : Option Int × Chars × Progress :=
  match cs with
  | '*' :: cs =>
    let (n, p) := nextInteger true p
    (some n, cs, p)
  | cs =>
    let (ds, rest) := cs.span Char.isDigit
    ((Chars.toNat? ds).map Int.ofNat, rest, p)

/-- The layout in front of a directive, and what follows it. -/
def layout (cs : Chars) (p : Progress) : Layout × Chars × Progress :=
  let (l, cs) := Layout.plain.readFlags cs
  let (width, cs, p) := layoutNumber cs p
  let l := match width with
    | some n => l.withWidth n
    | none => l
  match cs with
  | '.' :: cs =>
    let (precision, cs, p) := layoutNumber cs p
    (l.withPrecision (precision.getD 0), cs, p)
  | cs => (l, cs, p)

/-- Shows an argument in the way of a letter; nothing if there is no such letter.  The truth value
says whether an escape ends all output. -/
def directive (l : Layout) (letter : Char) (p : Progress) : Option (Progress × Bool) :=
  let natural := fun (base : Nat) (isUpper : Bool) ↦
    let (n, p) := nextInteger false p
    some (p.put (l.natural base isUpper (Numeral.bits n)), false)
  match letter with
  | 's' =>
    let (a, p) := p.next
    some (p.put (l.text (a.getD [])), false)
  | 'b' =>
    let (a, p) := p.next
    let (cs, isStopped) := Escape.replace (a.getD [])
    some (p.put (l.text cs), isStopped)
  | 'c' =>
    let (a, p) := p.next
    some (p.put (l.fill [((a.getD []).head?).getD '\x00']), false)
  | 'd' | 'i' =>
    let (n, p) := nextInteger true p
    some (p.put (l.integer n), false)
  | 'u' => natural 10 false
  | 'o' => natural 8 false
  | 'x' => natural 16 false
  | 'X' => natural 16 true
  | c =>
    if "aAeEfFgG".toList.contains c then
      let (b, p) := nextFraction p
      some (p.put (l.fraction c b), false)
    else none

/-- Shows a format once.  Every step takes a character. -/
def once : Nat → Chars → Progress → Progress × End
  | 0, _, p => (p, .used)
  | n + 1, cs, p =>
    match cs with
    | [] => (p, .used)
    | '\\' :: cs =>
      let (c, rest) := Escape.oneOf Escape.outputLetters cs
      once n rest (p.put [c])
    | '%' :: '%' :: cs => once n cs (p.put ['%'])
    | '%' :: cs =>
      let (l, rest, p) := layout cs p
      match rest with
      | [] => (p, .wrong "missing format character".toList)
      | c :: behind =>
        match directive l c p with
        | some (p, false) => once n behind p
        | some (p, true) => (p, .stopped)
        | none =>
          let shown := '%' :: cs.take (cs.length - behind.length)
          (p, .wrong (shown ++ ": invalid directive".toList))
    | c :: cs => once n cs (p.put [c])

/-- Shows a format as long as arguments are left, and at least once.  Every turn takes an
argument. -/
def again (format : Chars) : Nat → Progress → Progress × End
  | 0, p => (p, .used)
  | n + 1, p =>
    match once (format.length + 1) format p with
    | (q, .used) =>
      if q.args.isEmpty || q.args.length = p.args.length then (q, .used) else again format n q
    | e => e

/-- The output for a format and its arguments, the complaints, and why the output ends. -/
def output (format : Chars) (args : List Chars) : Chars × List Chars × End :=
  let (p, e) := again format (args.length + 1) ⟨[], [], args⟩
  (p.output.reverse, p.complaints.reverse, e)

/-- The format is used for every argument. -/
example : (output "<%2s>".toList [['a'], ['b']]).1 = "< a>< b>".toList := by decide +kernel

end ContractBuild.Shell.Format
