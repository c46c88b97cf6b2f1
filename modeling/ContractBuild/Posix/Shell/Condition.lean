import ContractBuild.Posix.Machine.Call
import ContractBuild.Posix.Text.Numeral

/-!
# Conditions

The expressions that a shell decides for its scripts: properties of files and comparisons of texts
and of numbers, joined by negation, conjunction and disjunction.  What a word means depends on the
words behind it, since any operator can also be an operand.
-/

namespace ContractBuild.Shell.Condition

/-- The operators on one operand. -/
def unaryOperators : List String :=
  ["-r", "-w", "-x", "-e", "-f", "-d", "-c", "-b", "-p", "-u", "-g", "-k", "-s", "-t", "-z", "-n",
    "-h", "-O", "-G", "-L", "-S"]

/-- The operators on two operands. -/
def binaryOperators : List String :=
  ["=", "!=", "<", ">", "-eq", "-ne", "-ge", "-gt", "-le", "-lt", "-nt", "-ot", "-ef"]

/-- What a word is where it stands. -/
inductive Token
  /-- There is no word. -/
  | ended
  /-- A text. -/
  | operand
  /-- An operator on one operand. -/
  | unary (o : String)
  /-- An operator on two operands. -/
  | binary (o : String)
  /-- A conjunction. -/
  | both
  /-- A disjunction. -/
  | either
  /-- A negation. -/
  | negation
  /-- An opening parenthesis. -/
  | opening
  /-- A closing parenthesis. -/
  | closing
  deriving DecidableEq, Repr

/-- Whether a word is an operator on two operands. -/
def isBinary (w : Chars) : Bool := binaryOperators.contains (Chars.toString w)

/-- Whether what looks like an operator on one operand is an operand itself, judged by the words
behind it. -/
def isOperand : List Chars → Bool
  | [] => true
  | [_] => false
  | w :: _ => isBinary w

/-- What the first of some words is. -/
def tokenOf : List Chars → Token
  | [] => .ended
  | w :: ws =>
    let name := Chars.toString w
    if unaryOperators.contains name then if isOperand ws then .operand else .unary name
    else if binaryOperators.contains name then .binary name
    else match name with
      | "-a" => .both
      | "-o" => .either
      | "!" => .negation
      | "(" => if ws.isEmpty then .operand else .opening
      | ")" => .closing
      | _ => .operand

/-! ## Single conditions -/

/-- The permissions of what a path leads to. -/
def modeOf? (h : Host) (p : Path) : Option Nat :=
  match h.entry p with
  | .ok (_, .file f) => some f.mode
  | .ok (_, .directory d) => some d.mode
  | .ok _ => some 0
  | .error _ => none

/-- Whether what a path leads to has a property. -/
def fileHas (h : Host) (o : String) (p : Path) : Bool :=
  let has := fun (property : Node → Bool) ↦ match h.entry p with
    | .ok (_, n) => property n
    | .error _ => false
  match o with
  | "-f" => h.isFile p
  | "-d" => h.isDirectory p
  | "-L" | "-h" => match h.locateLink p with
    | .ok (.entry _ (.link _)) => true
    | _ => false
  | "-c" => has fun
    | .device _ => true
    | _ => false
  | "-s" => has fun
    | .file f => !f.content.isEmpty
    | .directory _ => true
    | _ => false
  | "-x" => has (·.allows .run)
  | "-r" => has (·.allows .read)
  | "-w" => has (·.allows .write)
  | "-O" | "-G" => has fun n ↦ n.attributes?.any (!·.isForeign)
  | "-u" => (modeOf? h p).any (·.testBit 11)
  | "-g" => (modeOf? h p).any (·.testBit 10)
  | "-k" => (modeOf? h p).any (·.testBit 9)
  | "-p" | "-S" | "-b" => false
  | _ => h.pathExists p

/-- The number that an operand spells. -/
def number (w : Chars) : Except Chars Int :=
  let wrong := Except.error ("Illegal number: ".toList ++ w)
  match Numeral.read 10 w with
  | some (n, rest) => if Numeral.fits n && rest.all Numeral.isBlank then .ok n else wrong
  | none => wrong

/-- Whether a condition on one operand holds. -/
def unary (h : Host) (o : String) (w : Chars) : Except Chars Bool :=
  match o with
  | "-z" => .ok w.isEmpty
  | "-n" => .ok !w.isEmpty
  | "-t" => do
    let _ ← number w
    return false
  | o => .ok (fileHas h o (Chars.toPath w))

/-- Whether a file was changed after another one. -/
def isNewer (h : Host) (p q : Path) : Bool :=
  match h.entry p, h.entry q with
  | .ok (_, a), .ok (_, b) => b.modified < a.modified
  | _, _ => false

/-- Whether a condition on two operands holds. -/
def binary (h : Host) (a : Chars) (o : String) (b : Chars) : Except Chars Bool :=
  let numbers := fun (holds : Int → Int → Bool) ↦ do return holds (← number a) (← number b)
  match o with
  | "=" => .ok (a = b)
  | "!=" => .ok (a ≠ b)
  | "<" => .ok (Chars.isBefore a b)
  | ">" => .ok (Chars.isBefore b a)
  | "-eq" => numbers fun x y ↦ x = y
  | "-ne" => numbers fun x y ↦ x ≠ y
  | "-lt" => numbers fun x y ↦ x < y
  | "-le" => numbers fun x y ↦ x ≤ y
  | "-gt" => numbers fun x y ↦ y < x
  | "-ge" => numbers fun x y ↦ y ≤ x
  | "-nt" => .ok (isNewer h (Chars.toPath a) (Chars.toPath b))
  | "-ot" => .ok (isNewer h (Chars.toPath b) (Chars.toPath a))
  | _ => .ok (h.sameEntry (Chars.toPath a) (Chars.toPath b))

/-- A complaint about an operator. -/
def wrong (w : Chars) (message : String) : Chars :=
  if w = [] then message.toList else w ++ ": ".toList ++ message.toList

/-- The value of a condition at the front of some words without connectives.  The words from its
last one on come with it. -/
def simple (h : Host) (t : Token) (ws : List Chars) : Except Chars (Bool × List Chars) :=
  match t, ws with
  | .ended, _ => .ok (false, ws)
  | .unary o, _ :: w :: rest => return (← unary h o w, w :: rest)
  | .unary o, _ => .error (wrong o.toList "argument expected")
  | _, a :: ow :: rest =>
    match tokenOf (ow :: rest), rest with
    | .binary o, b :: rest => return (← binary h a o b, b :: rest)
    | .binary o, [] => .error (wrong o.toList "argument expected")
    | _, _ => .ok (!a.isEmpty, ws)
  | _, ws => .ok (ws.head?.any (!·.isEmpty), ws)

/-! ## Connectives -/

mutual

/-- The value of a disjunction at the front of some words, the first of which is such a token.  The
words from its last one on come with it.  Every step goes one level down or one word on. -/
def disjunction (h : Host) : Nat → Token → List Chars → Except Chars (Bool × List Chars)
  | 0, _, ws => .ok (false, ws)
  | n + 1, t, ws => do
    let (a, ws) ← conjunction h n t ws
    if tokenOf (ws.drop 1) = .either then
      let (b, ws) ← disjunction h n (tokenOf (ws.drop 2)) (ws.drop 2)
      return (a || b, ws)
    else return (a, ws)

/-- The value of a conjunction. -/
def conjunction (h : Host) : Nat → Token → List Chars → Except Chars (Bool × List Chars)
  | 0, _, ws => .ok (false, ws)
  | n + 1, t, ws => do
    let (a, ws) ← negation h n t ws
    if tokenOf (ws.drop 1) = .both then
      let (b, ws) ← conjunction h n (tokenOf (ws.drop 2)) (ws.drop 2)
      return (a && b, ws)
    else return (a, ws)

/-- The value of a condition that can be negated or stand in parentheses. -/
def negation (h : Host) : Nat → Token → List Chars → Except Chars (Bool × List Chars)
  | 0, _, ws => .ok (false, ws)
  | n + 1, t, ws => do
    match t with
    | .negation =>
      let next := tokenOf (ws.drop 1)
      let (a, ws) ← negation h n next (if next = .ended then ws else ws.drop 1)
      return (!a, ws)
    | .opening =>
      let ws := ws.drop 1
      if tokenOf ws = .closing then return (false, ws)
      let (a, ws) ← disjunction h n (tokenOf ws) ws
      if tokenOf (ws.drop 1) = .closing then return (a, ws.drop 1)
      else .error "closing paren expected".toList
    | t => simple h t ws

end

/-- Whether a condition holds whose first word is such a token. -/
def decideFrom (h : Host) (t : Token) (ws : List Chars) : Except Chars Bool := do
  let (a, rest) ← disjunction h (4 * ws.length + 4) t ws
  match rest with
  | w :: _ :: _ => .error (wrong w "unexpected operator")
  | _ => return a

/-- Whether a condition holds, or what is wrong with it.  Three or four words are understood by
their number first. -/
def holds (h : Host) : List Chars → Except Chars Bool
  | [] => .ok false
  | ['!'] :: [a, b, c] => (!·) <$> holds h [a, b, c]
  | ['('] :: [a, b, [')']] => decideFrom h (tokenOf [a, b]) [a, b]
  | [a, o, b] =>
    if isBinary o then decideFrom h .operand [a, o, b]
    else if a = ['('] && b = [')'] then decideFrom h (tokenOf [o]) [o]
    else if a = ['!'] then (!·) <$> decideFrom h (tokenOf [o, b]) [o, b]
    else decideFrom h (tokenOf [a, o, b]) [a, o, b]
  | ws => decideFrom h (tokenOf ws) ws

/-- Texts are compared, also if they look like operators. -/
example (h : Host) : holds h ["-f".toList, "=".toList, "-f".toList] = .ok true := by rfl

end ContractBuild.Shell.Condition
