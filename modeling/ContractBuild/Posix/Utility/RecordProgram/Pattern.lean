import ContractBuild.Posix.Text.Numeral
import ContractBuild.Posix.Text.Regex

/-!
# Patterns

The regular expressions of record programs.  Anchors have their meaning everywhere, an end of a
group that has not started stands for itself, and there are no intervals.
-/

namespace ContractBuild.Utility.RecordProgram.Pattern

/-- What is wrong with a pattern. -/
inductive Wrong
  /-- A group does not end. -/
  | openGroup
  /-- There is nothing to be repeated or to be chosen. -/
  | noOperand
  /-- Brackets do not end, or hold the name of no class. -/
  | brackets
  deriving DecidableEq, Repr

/-- The words for what is wrong. -/
def Wrong.message : Wrong → String
  | .openGroup => "missing ')'"
  | .noOperand => "missing operand"
  | .brackets => "bad class -- [], [^] or ["

/-! ## Characters -/

/-- The characters that letters behind a backslash stand for. -/
def letters : List (Char × Char) :=
  [('a', '\x07'), ('b', '\x08'), ('f', '\x0c'), ('n', '\n'), ('r', '\r'), ('t', '\t'),
    ('v', '\x0b')]

/-- The character behind a backslash, and what follows it. -/
def escaped (cs : Chars) : Char × Chars :=
  let ds := (cs.take 3).takeWhile fun c ↦ '0' ≤ c && c ≤ '7'
  if ds ≠ [] then (Char.ofNat (Numeral.value 8 ds % 256), cs.drop ds.length)
  else match cs with
    | 'x' :: rest =>
      let hs := (rest.take 2).takeWhile fun c ↦ Numeral.digit c < 16
      if hs = [] then ('x', rest) else (Char.ofNat (Numeral.value 16 hs), rest.drop hs.length)
    | c :: rest => ((letters.lookup c).getD c, rest)
    | [] => ('\\', [])

/-! ## Brackets -/

/-- The character in front of a text in brackets, and what follows it. -/
def innerChar : Chars → Option (Char × Chars)
  | '\\' :: cs => some (escaped cs)
  | c :: cs => some (c, cs)
  | [] => none

/-- The items in brackets up to their end, and what follows it.  Every step takes a character. -/
def items : Nat → Bool → Chars → Except Wrong (List Glob.Item × Chars)
  | 0, _, _ => .error .brackets
  | n + 1, isFirst, cs => do
    let goOn := fun (i : List Glob.Item) (cs : Chars) ↦ do
      let (is, rest) ← items n false cs
      return (i ++ is, rest)
    let single := fun (cs : Chars) ↦
      match innerChar cs with
      | none => .error .brackets
      | some (low, '-' :: ']' :: rest) => goOn [.range low low] ('-' :: ']' :: rest)
      | some (low, '-' :: rest) =>
        match innerChar rest with
        | none => .error .brackets
        | some (high, rest) => goOn (if low ≤ high then [.range low high] else []) rest
      | some (low, rest) => goOn [.range low low] rest
    match cs with
    | ']' :: rest => if isFirst then single cs else return ([], rest)
    | '[' :: ':' :: rest =>
      match Regex.namedItem? ':' rest with
      | none => single cs
      | some (name, rest) =>
        if Regex.classNames.contains (Chars.toString name) then goOn [.ofClass name] rest
        else .error .brackets
    | cs => single cs

/-- The expression of brackets, behind the first one, and what follows them. -/
def brackets (cs : Chars) : Except Wrong (Regex × Chars) := do
  let (isNegated, cs) := match cs with
    | '^' :: cs => (true, cs)
    | cs => (false, cs)
  let (is, rest) ← items (cs.length + 1) true cs
  return (.one (.oneOf isNegated is), rest)

/-! ## Expressions -/

/-- An expression repeated as the signs behind it say, and what follows these. -/
def repetitions (r : Regex) : Chars → Regex × Chars
  | '*' :: cs => repetitions (.repeated r 0 none) cs
  | '+' :: cs => repetitions (.repeated r 1 none) cs
  | '?' :: cs => repetitions (.repeated r 0 (some 1)) cs
  | cs => (r, cs)

/-- One expression behind another, if there is one. -/
def behind (first : Option Regex) (second : Regex) : Regex :=
  match first with
  | none => second
  | some first => .both first second

mutual

/-- The expression up to the end of a group, and what follows it.  Every step takes a character, and
the depth is that of the groups. -/
def choice : Nat → Nat → Chars → Except Wrong (Regex × Chars)
  | 0, _, _ => .error .noOperand
  | n + 1, depth, cs => do
    let (first, cs) ← branch n depth none cs
    match cs with
    | '|' :: cs => do
      let (second, cs) ← choice n depth cs
      return (.either first second, cs)
    | cs => return (first, cs)

/-- The expression up to the end of a branch, behind what has been read of it. -/
def branch : Nat → Nat → Option Regex → Chars → Except Wrong (Regex × Chars)
  | 0, _, _, _ => .error .noOperand
  | n + 1, depth, before, cs => do
    let goOn := fun (r : Regex) (cs : Chars) ↦
      let (r, cs) := repetitions r cs
      branch n depth (some (behind before r)) cs
    let stop := match before with
      | some r => .ok (r, cs)
      | none => .error .noOperand
    match cs with
    | [] | '|' :: _ => stop
    | '*' :: _ | '+' :: _ | '?' :: _ => .error .noOperand
    | ')' :: cs => if depth = 0 then goOn (.one (.char ')')) cs else stop
    | '(' :: ')' :: cs => if before.isSome then goOn .empty cs else .error .noOperand
    | '(' :: cs => do
      let (r, cs) ← choice n (depth + 1) cs
      match cs with
      | ')' :: cs => goOn r cs
      | _ => .error .openGroup
    | '[' :: cs => do
      let (r, cs) ← brackets cs
      goOn r cs
    | '.' :: cs => goOn (.one .any) cs
    | '^' :: cs => goOn (.edge .textStart) cs
    | '$' :: cs => goOn (.edge .textEnd) cs
    | '\\' :: cs =>
      let (c, cs) := escaped cs
      goOn (.one (.char c)) cs
    | c :: cs => goOn (.one (.char c)) cs

end

/-- The expression that a text spells. -/
def read (cs : Chars) : Except Wrong Regex :=
  if cs = [] then .ok .empty
  else (choice (3 * cs.length + 3) 0 cs).map (·.1)

/-- What is matched first in a text by a pattern. -/
def firstOf (pattern text : String) : Option (Nat × Nat) :=
  match read pattern.toList with
  | .ok r => (Regex.search false r text.toList 0).map fun m ↦ (m.start, m.stop)
  | .error _ => none

/-- Intervals stand for themselves. -/
example : firstOf "a\x7b2\x7d|b)" "aab)" = some (2, 4) := by decide +kernel

/-- A backslash has its meaning in brackets as well. -/
example : firstOf "[\\]x]+$" "ax]" = some (1, 3) := by decide +kernel

end ContractBuild.Utility.RecordProgram.Pattern
