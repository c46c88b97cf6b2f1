import ContractBuild.Posix.Shell.Syntax
import ContractBuild.Posix.Text.Numeral

/-!
# Arithmetic

Integer expressions in words of 64 bits.  A comparison is one or zero, and a name stands for the
number that its variable holds.  An expression can assign to variables; the values that it assigned
come with its own value, and an operand that cannot matter is not evaluated.
-/

namespace ContractBuild.Shell.Arithmetic

/-- A token of an expression. -/
inductive Token
  /-- A number. -/
  | number (n : Int)
  /-- A variable. -/
  | name (t : Chars)
  /-- An operator or a parenthesis. -/
  | sign (o : String)
  /-- A character that means nothing. -/
  | meaningless
  deriving DecidableEq, Repr

/-- An expression. -/
inductive Expression
  /-- A number. -/
  | number (n : Int)
  /-- A variable. -/
  | name (t : Chars)
  /-- An operator before its operand. -/
  | unary (o : String) (a : Expression)
  /-- An operator between its operands. -/
  | binary (o : String) (a b : Expression)
  /-- One of two expressions, as a condition is not zero or zero. -/
  | choose (c a b : Expression)
  /-- An assignment. -/
  | assign (t : Chars) (a : Expression)
  deriving Repr

/-- What is wrong with an expression. -/
inductive Problem
  /-- An operand is missing. -/
  | noPrimary
  /-- A parenthesis is not closed. -/
  | noClosing
  /-- The second half of a choice is missing. -/
  | noColon
  /-- Something follows the expression. -/
  | noEnd
  /-- A divisor is zero. -/
  | divisionByZero
  /-- A variable holds no number. -/
  | notANumber (t : Chars)
  deriving DecidableEq, Repr

/-- The text of a problem with an expression. -/
def Problem.message (expression : Chars) : Problem → Chars
  | .noPrimary => quoting "expecting primary"
  | .noClosing => quoting "expecting ')'"
  | .noColon => quoting "expecting ':'"
  | .noEnd => quoting "expecting EOF"
  | .divisionByZero => quoting "division by zero"
  | .notANumber t => "Illegal number: ".toList ++ t
where
  /-- A complaint followed by the expression in quotes. -/
  quoting (s : String) : Chars :=
    "arithmetic expression: ".toList ++ s.toList ++ ": \"".toList ++ expression ++ ['"']

/-! ## Tokens -/

/-- The operators, the longer ones first. -/
def signs : List String :=
  ["<<=", ">>=", "<=", ">=", "==", "!=", "&&", "||", "<<", ">>", "+=", "-=", "*=", "/=", "%=",
    "&=", "|=", "^=", "=", "+", "-", "*", "/", "%", "<", ">", "!", "~", "&", "|", "^", "?", ":",
    "(", ")"]

/-- The tokens of an expression.  Every step takes a character. -/
def tokens : Nat → Chars → List Token
  | 0, _ => []
  | n + 1, cs =>
    match cs with
    | [] => []
    | c :: rest =>
      if c = ' ' || c = '\t' || c = '\n' then tokens n rest
      else if c.isDigit then
        match Numeral.readAnyBase cs with
        | some (k, rest) => .number (Numeral.clamp k) :: tokens n rest
        | none => [.meaningless]
      else if startsName c then
        .name (cs.takeWhile inName) :: tokens n (cs.dropWhile inName)
      else match signs.find? fun o ↦ o.toList.isPrefixOf cs with
        | some o => .sign o :: tokens n (cs.drop o.length)
        | none => [.meaningless]

/-! ## Expressions -/

/-- The binary operators, those that bind least first. -/
def binarySigns : List (List String) :=
  [["||"], ["&&"], ["|"], ["^"], ["&"], ["==", "!="], ["<", "<=", ">", ">="], ["<<", ">>"],
    ["+", "-"], ["*", "/", "%"]]

/-- How strongly a binary operator binds; higher binds more. -/
def strength? (o : String) : Option Nat := binarySigns.findIdx? (·.contains o)

/-- The unary operators. -/
def unarySigns : List String := ["-", "+", "!", "~"]

/-- The operators that change a variable. -/
def changingSigns : List String :=
  ["+=", "-=", "*=", "/=", "%=", "<<=", ">>=", "&=", "|=", "^="]

/-- What an assignment to a variable stores, if a sign is one. -/
def stored? (t : Chars) (o : String) (a : Expression) : Option Expression :=
  if o = "=" then some a
  else if changingSigns.contains o then
    some (.binary (String.ofList o.toList.dropLast) (.name t) a)
  else none

/-- What reading an expression gives: it and the tokens behind it. -/
abbrev Reading := Except Problem (Expression × List Token)

mutual

/-- The expression at the front: an assignment or a choice. -/
def expression : Nat → List Token → Reading
  | 0, _ => .error .noPrimary
  | n + 1, ts =>
    match ts with
    | .name t :: .sign o :: rest =>
      if (stored? t o (.number 0)).isSome then do
        let (a, rest) ← expression n rest
        return (.assign t ((stored? t o a).getD a), rest)
      else choice n ts
    | _ => choice n ts

/-- A condition with two expressions behind it, or a binary expression. -/
def choice : Nat → List Token → Reading
  | 0, _ => .error .noPrimary
  | n + 1, ts => do
    let (c, ts) ← binary n 0 ts
    match ts with
    | .sign "?" :: ts =>
      let (a, ts) ← expression n ts
      match ts with
      | .sign ":" :: ts =>
        let (b, ts) ← choice n ts
        return (.choose c a b, ts)
      | _ => .error .noColon
    | ts => return (c, ts)

/-- A number, a variable, an expression in parentheses, or one with a unary operator. -/
def operand : Nat → List Token → Reading
  | 0, _ => .error .noPrimary
  | n + 1, ts =>
    match ts with
    | .number k :: ts => .ok (.number k, ts)
    | .name t :: ts => .ok (.name t, ts)
    | .sign "(" :: ts => do
      let (a, ts) ← expression n ts
      match ts with
      | .sign ")" :: ts => return (a, ts)
      | _ => .error .noClosing
    | .sign o :: ts =>
      if unarySigns.contains o then do
        let (a, ts) ← operand n ts
        return (.unary o a, ts)
      else .error .noPrimary
    | _ => .error .noPrimary

/-- An expression whose operators bind at least so strongly. -/
def binary : Nat → Nat → List Token → Reading
  | 0, _, _ => .error .noPrimary
  | n + 1, least, ts => do
    let (a, ts) ← operand n ts
    binaryRest n least a ts

/-- The rest of such an expression behind its first operand. -/
def binaryRest : Nat → Nat → Expression → List Token → Reading
  | 0, _, _, _ => .error .noPrimary
  | n + 1, least, a, ts =>
    match ts with
    | .sign o :: rest =>
      match strength? o with
      | some s =>
        if least ≤ s then do
          let (b, rest) ← binary n (s + 1) rest
          binaryRest n least (.binary o a b) rest
        else .ok (a, ts)
      | none => .ok (a, ts)
    | _ => .ok (a, ts)

end

/-! ## Values -/

/-- The value of a condition. -/
def truth (b : Bool) : Int := if b then 1 else 0

/-- The value of a unary operation. -/
def unaryValue (o : String) (a : Int) : Int :=
  match o with
  | "-" => Numeral.wrap (-a)
  | "!" => truth (a = 0)
  | "~" => -a - 1
  | _ => a

/-- The value of a binary operation. -/
def binaryValue (o : String) (a b : Int) : Except Problem Int :=
  let bits := fun (f : Nat → Nat → Nat) ↦
    Except.ok (Numeral.wrap (f (Numeral.bits a) (Numeral.bits b) : Nat))
  match o with
  | "|" => bits Nat.lor
  | "^" => bits Nat.xor
  | "&" => bits Nat.land
  | "==" => .ok (truth (a = b))
  | "!=" => .ok (truth (a ≠ b))
  | "<" => .ok (truth (a < b))
  | "<=" => .ok (truth (a ≤ b))
  | ">" => .ok (truth (b < a))
  | ">=" => .ok (truth (b ≤ a))
  | "<<" => .ok (Numeral.wrap (a <<< (Numeral.bits b % 64)))
  | ">>" => .ok (a >>> (Numeral.bits b % 64))
  | "+" => .ok (Numeral.wrap (a + b))
  | "-" => .ok (Numeral.wrap (a - b))
  | "*" => .ok (Numeral.wrap (a * b))
  | "/" => if b = 0 then .error .divisionByZero else .ok (Numeral.wrap (a.tdiv b))
  | "%" => if b = 0 then .error .divisionByZero else .ok (a.tmod b)
  | _ => .error .noPrimary

/-- The values that an expression assigned, the latest first. -/
abbrev Assigned := List (Chars × Int)

/-- The number that the text of a variable spells; no text is zero. -/
def held? (t : Chars) : Option Int :=
  match Numeral.read 0 t with
  | some (n, rest) => if Numeral.fits n && rest.all Numeral.isBlank then some n else none
  | none => if t.all Numeral.isBlank then some 0 else none

/-- The value of an expression, where `look` gives the text of a variable that the expression has
not assigned to.  What need not be known is not evaluated. -/
def evaluate (look : Chars → Chars) : Expression → Assigned → Except Problem (Int × Assigned)
  | .number n, done => .ok (n, done)
  | .name t, done =>
    match done.lookup t with
    | some n => .ok (n, done)
    | none =>
      match held? (look t) with
      | some n => .ok (n, done)
      | none => .error (.notANumber (look t))
  | .unary o a, done => do
    let (x, done) ← evaluate look a done
    return (unaryValue o x, done)
  | .binary o a b, done => do
    let (x, done) ← evaluate look a done
    if o = "||" && x ≠ 0 then return (1, done)
    if o = "&&" && x = 0 then return (0, done)
    let (y, done) ← evaluate look b done
    if o = "||" || o = "&&" then return (truth (y ≠ 0), done)
    return (← binaryValue o x y, done)
  | .choose c a b, done => do
    let (x, done) ← evaluate look c done
    if x ≠ 0 then evaluate look a done else evaluate look b done
  | .assign t a, done => do
    let (x, done) ← evaluate look a done
    return (x, (t, x) :: done)

/-- The value of the expression that a text spells, with the values that it assigned. -/
def value (look : Chars → Chars) (t : Chars) : Except Problem (Int × Assigned) := do
  let ts := tokens (t.length + 1) t
  match ← expression (16 * (ts.length + 1)) ts with
  | (e, []) => evaluate look e []
  | _ => .error .noEnd

/-- Products bind more than sums, and comparisons less. -/
example : (value (fun _ ↦ []) "x = 1 + 2 * 3 < 8".toList).toOption =
    some (1, [(['x'], 1)]) := by decide +kernel

end ContractBuild.Shell.Arithmetic
