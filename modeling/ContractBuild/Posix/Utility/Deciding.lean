import ContractBuild.Posix.Shell.Condition
import ContractBuild.Posix.Utility.Basic

/-!
# Deciding conditions

A utility that decides a condition: properties of files and comparisons of texts and of numbers,
joined by negation, conjunction and disjunction.  Few words are understood by their number; more
words are read from left to right.
-/

namespace ContractBuild.Utility

namespace Deciding

/-- The operators on two operands. -/
def binaryOperators : List String :=
  ["=", "==", "!=", "-eq", "-ne", "-lt", "-le", "-gt", "-ge", "-nt", "-ot", "-ef"]

/-- The operators on one operand. -/
def unaryLetters : Chars := "erwxNOGfdsScbpLhugktnz".toList

/-- The operator on two operands that a word is. -/
def binary? (w : Chars) : Option String := binaryOperators.find? fun o ↦ o.toList = w

/-- Whether a word looks like an operator on one operand. -/
def isUnary (w : Chars) : Bool := w.length = 2 && w.head? = some '-'

/-- What the reading of a condition goes by. -/
structure Context where
  /-- The files. -/
  host : Host
  /-- The last word. -/
  last : Chars

/-- What a part of a condition says, and the words behind it. -/
abbrev Reading : Type := Except Chars (Bool × List Chars)

/-- The complaint about words that are missing. -/
def Context.beyond (x : Context) : Chars := "missing argument after ".toList ++ cited x.last

/-! ## Single conditions -/

/-- The integer that a word spells, with blanks around it. -/
def integer (w : Chars) : Except Chars Int :=
  match Numeral.read 10 w with
  | some (n, rest) =>
    if rest.all fun c ↦ c = ' ' || c = '\t' then .ok n
    else .error ("invalid integer ".toList ++ cited w)
  | none => .error ("invalid integer ".toList ++ cited w)

/-- The time of the last change of what a path leads to. -/
def modified? (h : Host) (w : Chars) : Option Moment :=
  match h.entry (Chars.toPath w) with
  | .ok (_, n) => some n.modified
  | .error _ => none

/-- Whether what a word leads to was changed after what another one leads to, or is there alone. -/
def isNewer (h : Host) (a b : Chars) : Bool :=
  match modified? h a, modified? h b with
  | some x, some y => y < x
  | some _, none => true
  | none, _ => false

/-- Whether a condition on one operand holds. -/
def unary (h : Host) (letter : Char) (w : Chars) : Except Chars Bool :=
  match letter with
  | 'z' => .ok (w = [])
  | 'n' => .ok (w ≠ [])
  | 't' => (integer w).map fun _ ↦ false
  | 'N' => .ok (match h.entry (Chars.toPath w) with
    | .ok (_, n) => n.accessed < n.modified
    | .error _ => false)
  | c => .ok (Shell.Condition.fileHas h (String.ofList ['-', c]) (Chars.toPath w))

/-- A number, which can be the length of a word. -/
def number (isLength : Bool) (w : Chars) : Except Chars Int :=
  if isLength then .ok w.length else integer w

/-- Whether a condition on two operands holds; they can be there for their lengths. -/
def binary (h : Host) (o : String) (isLeftLength : Bool) (a : Chars) (isRightLength : Bool)
    (b : Chars) : Except Chars Bool :=
  let numbers := fun (holds : Int → Int → Bool) ↦ do
    return holds (← number isLeftLength a) (← number isRightLength b)
  let files := fun (value : Bool) ↦
    if isLeftLength || isRightLength then Except.error (o.toList ++ " does not accept -l".toList)
    else .ok value
  match o with
  | "=" | "==" => .ok (a = b)
  | "!=" => .ok (a ≠ b)
  | "-eq" => numbers fun x y ↦ x = y
  | "-ne" => numbers fun x y ↦ x ≠ y
  | "-lt" => numbers fun x y ↦ x < y
  | "-le" => numbers fun x y ↦ x ≤ y
  | "-gt" => numbers fun x y ↦ y < x
  | "-ge" => numbers fun x y ↦ y ≤ x
  | "-nt" => files (isNewer h a b)
  | "-ot" => files (isNewer h b a)
  | _ => files (h.sameEntry (Chars.toPath a) (Chars.toPath b))

/-- A condition with an operator on two operands at the front of some words. -/
def Context.binaryAt (x : Context) (isLength : Bool) (o : String) (ws : List Chars) : Reading :=
  match ws with
  | a :: _ :: ['-', 'l'] :: b :: rest => do return (← binary x.host o isLength a true b, rest)
  | a :: _ :: b :: rest => do return (← binary x.host o isLength a false b, rest)
  | _ => .error x.beyond

/-- A condition with an operator on one operand at the front of some words. -/
def Context.unaryAt (x : Context) (ws : List Chars) : Reading :=
  match ws with
  | w :: rest =>
    let letter := (w.drop 1).headD ' '
    if !unaryLetters.contains letter then
      .error (cited w ++ ": unary operator expected".toList)
    else match rest with
      | a :: rest => do return (← unary x.host letter a, rest)
      | [] => .error x.beyond
  | [] => .error x.beyond

/-! ## Conditions of few words -/

/-- One word. -/
def one (ws : List Chars) : Reading := .ok (ws.headD [] ≠ [], ws.tail)

/-- The same condition negated. -/
def negated (r : Reading) : Reading := r.map fun e ↦ (!e.1, e.2)

/-- Two words. -/
def Context.two (x : Context) (ws : List Chars) : Reading :=
  match ws with
  | ['!'] :: rest => negated (one rest)
  | w :: _ => if isUnary w then x.unaryAt ws else .error x.beyond
  | [] => .error x.beyond

/-! ## Conditions of many words -/

mutual

/-- So many words.  Every step goes one level down or one word on. -/
def Context.words (x : Context) : Nat → Nat → List Chars → Reading
  | 0, _, _ => .error x.beyond
  | n + 1, count, ws =>
    match count, ws with
    | 1, ws => one ws
    | 2, ws => x.two ws
    | 3, ws => x.three n ws
    | 4, ['!'] :: rest => negated (x.three n rest)
    | 4, ['('] :: a :: b :: [')'] :: rest => (x.two [a, b]).map fun e ↦ (e.1, e.2 ++ rest)
    | _, ws => x.disjunction n ws

/-- Three words. -/
def Context.three (x : Context) : Nat → List Chars → Reading
  | 0, _ => .error x.beyond
  | n + 1, ws =>
    match ws with
    | a :: o :: b :: rest =>
      match binary? o with
      | some name => x.binaryAt false name ws
      | none =>
        if a = ['!'] then negated (x.two (o :: b :: rest))
        else if a = ['('] && b = [')'] then .ok (o ≠ [], rest)
        else if o = "-a".toList || o = "-o".toList then x.disjunction n ws
        else .error (cited o ++ ": binary operator expected".toList)
    | _ => .error x.beyond

/-- A disjunction at the front of some words. -/
def Context.disjunction (x : Context) : Nat → List Chars → Reading
  | 0, _ => .error x.beyond
  | n + 1, ws => do
    let (a, rest) ← x.conjunction n ws
    match rest with
    | ['-', 'o'] :: rest =>
      let (b, rest) ← x.disjunction n rest
      return (a || b, rest)
    | rest => return (a, rest)

/-- A conjunction at the front of some words. -/
def Context.conjunction (x : Context) : Nat → List Chars → Reading
  | 0, _ => .error x.beyond
  | n + 1, ws => do
    let (a, rest) ← x.term n ws
    match rest with
    | ['-', 'a'] :: rest =>
      let (b, rest) ← x.conjunction n rest
      return (a && b, rest)
    | rest => return (a, rest)

/-- A condition at the front of some words that can be negated or stand in parentheses. -/
def Context.term (x : Context) : Nat → List Chars → Reading
  | 0, _ => .error x.beyond
  | n + 1, ws =>
    match ws with
    | [] => .error x.beyond
    | ['!'] :: rest => if rest = [] then .error x.beyond else negated (x.term n rest)
    | ['('] :: rest =>
      if rest = [] then .error x.beyond
      else do
        let inside := (rest.tail.takeWhile (· ≠ [')'])).length + 1
        let (a, rest) ← x.words n (if 4 < inside then rest.length else inside) rest
        match rest with
        | [')'] :: rest => return (a, rest)
        | [] => throw (cited [')'] ++ " expected".toList)
        | w :: _ => throw (cited [')'] ++ " expected, found ".toList ++ cited w)
    | w :: rest =>
      let isLength := w = "-l".toList && 4 ≤ ws.length
      match if isLength then rest.tail.head?.bind binary? else none,
          if 3 ≤ ws.length then rest.head?.bind binary? else none with
      | some o, _ => x.binaryAt true o rest
      | none, some o => x.binaryAt false o ws
      | none, none => if isUnary w then x.unaryAt ws else .ok (w ≠ [], rest)

end

/-- Whether a condition holds, or what is wrong with it. -/
def holds (h : Host) (ws : List Chars) : Except Chars Bool :=
  if ws = [] then .ok false
  else do
    let x : Context := ⟨h, ws.getLastD []⟩
    let (a, rest) ← x.words (8 * ws.length + 8) ws.length ws
    match rest with
    | [] => return a
    | w :: _ => throw ("extra argument ".toList ++ cited w)

end Deciding

/-- Decides a condition. -/
def decideWords (name : Chars) (ws : List Chars) : Routine Nat := do
  match ← Routine.look fun h ↦ Deciding.holds h ws with
  | .ok true => return 0
  | .ok false => return 1
  | .error message => fail name 2 message

/-- Decides a condition. -/
def test : Program := fun args _ ↦ decideWords (args.headD []) args.tail

/-- Decides a condition between brackets. -/
def bracket : Program := fun args _ ↦
  if args.tail.getLast? = some [']'] then decideWords (args.headD []) args.tail.dropLast
  else fail (args.headD []) 2 "missing ']'".toList

/-- Texts are compared, also if they look like operators. -/
example (h : Host) : Deciding.holds h ["-f".toList, "=".toList, "-f".toList] = .ok true := by rfl

end ContractBuild.Utility
