import ContractBuild.Posix.Text.Regex
import ContractBuild.Posix.Utility.Basic

/-!
# Expressions in words

An expression whose operators and operands are words of their own.  It is decided while it is read;
an operand that does not count any more is read without being worked out.
-/

namespace ContractBuild.Utility

namespace Expression

/-- The operators of each level, the ones that bind least first. -/
def levels : List (List String) :=
  [["|"], ["&"], ["<", "<=", "=", "==", "!=", ">=", ">"], ["+", "-"], ["*", "/", "%"], [":"]]

/-- Whether a word spells an integer. -/
def toInt? (w : Chars) : Option Int :=
  match w with
  | '-' :: ds => (Chars.toNat? ds).map fun n ↦ -(n : Int)
  | ds => (Chars.toNat? ds).map Int.ofNat

/-- Whether a value counts as nothing: it is empty or zero. -/
def isNull (w : Chars) : Bool :=
  match w with
  | [] => true
  | ['-'] => false
  | '-' :: ds | ds => ds.all (· = '0')

/-- The value of a truth value. -/
def ofBool (b : Bool) : Chars := if b then ['1'] else ['0']

/-- A comparison, of numbers if both operands are such. -/
def compare (o : String) (a b : Chars) : Bool :=
  let order : Ordering := match toInt? a, toInt? b with
    | some m, some n => Ord.compare m n
    | _, _ =>
      let (a, b) := (Wide.write a, Wide.write b)
      if Chars.isBefore a b then .lt else if Chars.isBefore b a then .gt else .eq
  match o with
  | "<" => order = .lt
  | "<=" => order ≠ .gt
  | "=" | "==" => order = .eq
  | "!=" => order ≠ .eq
  | ">=" => order ≠ .lt
  | _ => order = .gt

/-- The result of a calculation. -/
def calculate (o : String) (a b : Chars) : Except Chars Chars :=
  match toInt? a, toInt? b with
  | some m, some n =>
    if n = 0 && (o = "/" || o = "%") then .error "division by zero".toList
    else .ok (Chars.ofInt (match o with
      | "+" => m + n
      | "-" => m - n
      | "*" => m * n
      | "/" => Int.tdiv m n
      | _ => Int.tmod m n))
  | _, _ => .error "non-integer argument".toList

/-- What an expression finds at the start of a text: the text of its first part, or the number of
characters. -/
def matching (text pattern : Chars) : Except Chars Chars :=
  match Regex.read (.basic false false) pattern with
  | .error e => .error e.message.toList
  | .ok (r, count) =>
    let found := Regex.matchAt? false r (Regex.Spot.start text)
    .ok (if 0 < count then (found.bind fun m ↦ m.groups.lookup 1).getD []
      else Chars.ofNat ((found.map (·.stop)).getD 0))

/-- The number of the first character of a text that is among others. -/
def indexOf (text cs : Chars) : Chars :=
  Chars.ofNat ((text.findIdx? cs.contains).map (· + 1) |>.getD 0)

/-- A part of a text. -/
def part (text start count : Chars) : Chars :=
  match toInt? start, toInt? count with
  | some s, some k => if 0 < s && 0 < k then (text.drop (s.toNat - 1)).take k.toNat else []
  | _, _ => []

/-- A complaint about the form of an expression. -/
def wrongForm (what : String) (w : Chars) : Chars :=
  "syntax error: ".toList ++ what.toList ++ ' ' :: cited w

/-- What is left to be read, with the word in front of it. -/
structure Rest where
  /-- The last word that was read. -/
  last : Chars
  /-- The words that are left. -/
  words : List Chars

/-- The next word. -/
def next (r : Rest) : Except Chars (Chars × Rest) :=
  match r.words with
  | [] => .error (wrongForm "missing argument after" r.last)
  | w :: ws => .ok (w, ⟨w, ws⟩)

/-- The result of an operator. -/
def apply (o : String) (a b : Chars) : Except Chars Chars :=
  match o with
  | "|" => .ok (if !isNull a then a else if isNull b then ['0'] else b)
  | "&" => .ok (if isNull a || isNull b then ['0'] else a)
  | ":" => matching a b
  | "+" | "-" | "*" | "/" | "%" => calculate o a b
  | o => .ok (ofBool (compare o a b))

/-- The operands of a word that stands in front of all of them, and its result. -/
def named? (w : Chars) : Option (Nat × (List Chars → Except Chars Chars)) :=
  match Chars.toString w with
  | "length" => some (1, fun as ↦ .ok (Chars.ofNat (as.headD []).length))
  | "match" => some (2, fun as ↦ matching (as.headD []) (as.getD 1 []))
  | "index" => some (2, fun as ↦ .ok (indexOf (as.headD []) (as.getD 1 [])))
  | "substr" => some (3, fun as ↦ .ok (part (as.headD []) (as.getD 1 []) (as.getD 2 [])))
  | _ => none

mutual

/-- The value of an expression with the operators of these levels.  Every step goes one level down
or takes a word; nothing is worked out unless `counts` says so. -/
def level (counts : Bool) : Nat → List (List String) → Rest → Except Chars (Chars × Rest)
  | 0, _, _ => .error []
  | n + 1, [], r => operand counts n r
  | n + 1, operators :: inner, r => do
    let (a, r) ← level counts n inner r
    chain counts n operators inner a r

/-- The value of operators of one level behind a value. -/
def chain (counts : Bool) : Nat → List String → List (List String) → Chars → Rest →
    Except Chars (Chars × Rest)
  | 0, _, _, _, _ => .error []
  | n + 1, operators, inner, a, r =>
    match r.words with
    | w :: ws =>
      let o := Chars.toString w
      if operators.contains o then do
        let isDecided := (o = "|" && !isNull a) || (o = "&" && isNull a)
        let goesOn := counts && !isDecided
        let (b, r) ← level goesOn n inner ⟨w, ws⟩
        let value ← if goesOn then apply o a b
          else .ok (if o = "&" && isNull a then ['0'] else a)
        chain counts n operators inner value r
      else .ok (a, r)
    | [] => .ok (a, r)

/-- The value of a word, of an expression in parentheses, or of words behind their name. -/
def operand (counts : Bool) : Nat → Rest → Except Chars (Chars × Rest)
  | 0, _ => .error []
  | n + 1, r => do
    let (w, r) ← next r
    if w = ['('] then
      let (a, r) ← level counts n levels r
      match r.words with
      | [')'] :: ws => return (a, ⟨[')'], ws⟩)
      | [] => throw (wrongForm "expecting ')' after" r.last)
      | v :: _ => throw (wrongForm "expecting ')' instead of" v)
    else if w = [')'] then throw "syntax error: unexpected ')'".toList
    else if w = ['+'] then next r
    else match named? w with
      | some (count, f) =>
        let (as, r) ← operands counts n count r
        let a ← if counts then f as else .ok []
        return (a, r)
      | none => return (w, r)

/-- The values of so many operands. -/
def operands (counts : Bool) : Nat → Nat → Rest → Except Chars (List Chars × Rest)
  | 0, _, _ => .error []
  | _, 0, r => .ok ([], r)
  | n + 1, count + 1, r => do
    let (a, r) ← operand counts n r
    let (as, r) ← operands counts n count r
    return (a :: as, r)

end

/-- The value of some words. -/
def value (ws : List Chars) : Except Chars Chars := do
  let (a, r) ← level true (16 * ws.length + 16) levels ⟨[], ws⟩
  match r.words with
  | [] => return a
  | w :: _ => throw (if w = [')'] then "syntax error: unexpected ')'".toList
      else wrongForm "unexpected argument" w)

end Expression

/-- Writes the value of an expression. -/
def expr : Program := fun args _ ↦ do
  let name := args.headD []
  let words := match args.tail with
    | ['-', '-'] :: ws => ws
    | ws => ws
  if words = [] then missingOperand name 2
  let isWide := (← Routine.self).isWide
  match Expression.value (if isWide then words.map Wide.read else words) with
  | .error message => fail name 2 message
  | .ok a =>
    emit name (Chars.line (Wide.write a))
    return if Expression.isNull a then 1 else 0

/-- Products come before sums. -/
example : (Expression.value (["2", "+", "3", "*", "4"].map (·.toList))).toOption =
    some "14".toList := by decide +kernel

end ContractBuild.Utility
