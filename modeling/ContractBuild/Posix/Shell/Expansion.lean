import ContractBuild.FileSystem.Host
import ContractBuild.FileSystem.Users
import ContractBuild.Posix.Shell.Arithmetic
import ContractBuild.Posix.Shell.Fields
import ContractBuild.Posix.Text.Glob

/-!
# Expansion of words

Replacing the pieces of a word: parameters by their values, commands by their outputs, expressions
by their numbers, and a tilde by the home directory.  What comes out is cut into fields and, where
it is a pattern, replaced by the paths that it names.

How the output of a command is got is a parameter, since running commands needs expansion.
-/

/-!
## Entries that a pattern names

A pattern can stand for the paths of all entries that it matches, name by name.  A name that starts
with a dot is matched only by a dot.
-/

namespace ContractBuild.Shell.EntryNames

/-- Whether a pattern has a part that can match other texts than its own. -/
def isWild (ms : List Glob.Mark) : Bool :=
  ms.any fun m ↦ !m.2 && (m.1 = '*' || m.1 = '?' || m.1 = '[')

/-- The text that a pattern without wild parts spells. -/
def spelled : List Glob.Mark → Chars
  | ('\\', false) :: (c, _) :: ms => c :: spelled ms
  | (c, _) :: ms => c :: spelled ms
  | [] => []

/-- The part of a pattern up to the next slash, the slashes there, and the rest. -/
def splitAtSlash (ms : List Glob.Mark) : List Glob.Mark × Chars × List Glob.Mark :=
  let first := ms.takeWhile (·.1 ≠ '/')
  let rest := ms.drop first.length
  let slashes := rest.takeWhile (·.1 = '/')
  (first, slashes.map (·.1), rest.drop slashes.length)

/-- The names in a directory, with those of itself and of the one above. -/
def allNames (h : Host) (dir : Chars) : List Chars :=
  match h.list (if dir = [] then .here else Chars.toPath dir) with
  | .ok names => ['.'] :: ['.', '.'] :: names.map Chars.ofBytes
  | .error _ => []

/-- The names in a directory that a pattern matches. -/
def matchedNames (h : Host) (dir : Chars) (ms : List Glob.Mark) : List Chars :=
  let startsWithDot := match ms with
    | ('.', _) :: _ => true
    | ('\\', false) :: ('.', _) :: _ => true
    | _ => false
  let parts := Glob.ofMarks ms
  (allNames h dir).filter fun name ↦
    (startsWithDot || name.head? ≠ some '.') && Glob.matchesText parts name

/-- The paths behind a start that a pattern names.  Every step takes a part of the pattern. -/
def pathsFrom (h : Host) : Nat → Chars → List Glob.Mark → List Chars
  | 0, _, _ => []
  | n + 1, start, ms =>
    let (first, slashes, rest) := splitAtSlash ms
    if isWild first then
      (matchedNames h start first).flatMap fun name ↦
        if slashes = [] then [start ++ name]
        else pathsFrom h n (start ++ name ++ slashes) rest
    else
      let path := start ++ spelled first ++ slashes
      if rest = [] then
        match h.locateLink (Chars.toPath path) with
        | .ok (.entry ..) => [path]
        | _ => []
      else pathsFrom h n path rest

/-- The paths that a pattern names, in ascending order. -/
def paths (h : Host) (ms : List Glob.Mark) : List Chars :=
  (pathsFrom h (ms.length + 1) [] ms).mergeSort fun a b ↦ !Chars.isBefore b a

end ContractBuild.Shell.EntryNames

namespace ContractBuild.Shell

/-- How a word is expanded. -/
structure Manner where
  /-- The word can become any number of fields. -/
  isCut : Bool
  /-- A tilde at its start is replaced. -/
  hasTilde : Bool
  /-- Tildes behind colons and behind the first equals sign are replaced. -/
  isAssignment : Bool
  /-- It is the operand of a parameter, whose own text can be cut too. -/
  isOperand : Bool

namespace Manner

/-- A word of a command. -/
def argument : Manner := ⟨true, true, false, false⟩

/-- A word that stays one. -/
def single : Manner := ⟨false, true, false, false⟩

/-- An assignment. -/
def assignment : Manner := ⟨false, false, true, false⟩

/-- A document or an expression. -/
def raw : Manner := ⟨false, false, false, false⟩

/-- The operand of a parameter in a word of this manner. -/
def operand (m : Manner) : Manner := { m with hasTilde := true, isOperand := true }

end Manner

namespace Expansion

/-- How the output of a command is got. -/
abbrev OutputOf := Command → Action Chars

/-- How a word inside of a piece is expanded. -/
abbrev Inside := Manner → Word → Action (List Run)

/-! ## Values of parameters -/

/-- The value of a parameter, and where it is cut. -/
structure Value where
  /-- The text; a zero character separates the elements of a list. -/
  text : Chars
  /-- Where it is cut. -/
  cut : Cut

/-- The elements of a list with a character between them, if there is one. -/
def joined (between : Option Char) (as : List Chars) : Chars := Chars.join between.toList as

/-- What separates the arguments when they become one text. -/
def State.argumentSeparator (s : State) : Option Char :=
  match s.separators? with
  | none => some ' '
  | some cs => cs.head?

/-- The value of all arguments. -/
def allArguments (s : State) (m : Manner) (isList isQuoted : Bool) : Value :=
  if isQuoted && isList && m.isCut then
    ⟨joined (some '\x00') s.args, if s.args = [] then .never else .betweenElements⟩
  else if isQuoted || !m.isCut then
    ⟨joined (State.argumentSeparator s) s.args, if isQuoted then .never else .atSeparators⟩
  else
    ⟨joined (some (if s.separators?.isNone then ' ' else '\x00')) s.args, .atSeparators⟩

/-- The value of a parameter, if it has one. -/
def value? (s : State) (m : Manner) (name : Chars) (isQuoted : Bool) : Option Value :=
  let one := fun (cs : Chars) ↦
    some (Value.mk cs (if isQuoted then .never else .atSeparators))
  match name with
  | ['$'] => one (Chars.ofNat s.process)
  | ['?'] => one (Chars.ofNat s.status)
  | ['#'] => one (Chars.ofNat s.args.length)
  | ['!'] => s.lastBackground.bind fun k ↦ one (Chars.ofNat k)
  | ['-'] => one s.options
  | ['@'] => some (allArguments s m true isQuoted)
  | ['*'] => some (allArguments s m false isQuoted)
  | name =>
    match Chars.toNat? name with
    | some 0 => one s.name
    | some n => s.args[n - 1]?.bind one
    | none => (s.valueOf? name).bind one

/-- The run of a value. -/
def Value.run (v : Value) (isQuoted : Bool) : Run := .ofChars v.text isQuoted v.cut

/-- Complains about a parameter without a value. -/
def failUnset {α : Type} (name message : Chars) : Action α := fail (name ++ ": ".toList ++ message)

/-- The text of a complaint about a parameter without a value. -/
def unsetMessage (orEmpty : Bool) : Chars :=
  if orEmpty then "parameter not set or null".toList else "parameter not set".toList

/-- The value without a start or an end of one of these lengths. -/
def Value.without (v : Value) (isStart isLongest : Bool) (lengths : List Nat) : Value :=
  match if isLongest then lengths.getLast? else lengths.head? with
  | none => v
  | some k => { v with
      text := if isStart then v.text.drop k else v.text.take (v.text.length - k) }

/-- The runs that a parameter becomes. -/
def parameter (inside : Inside) (m : Manner) (name : Chars) (use : Use) (operand : Word)
    (isQuoted : Bool) : Action (List Run) := do
  let s ← Action.state
  let value := value? s m name isQuoted
  let isMissing := fun (orEmpty : Bool) ↦ match value with
    | none => true
    | some v => orEmpty && v.text = []
  let runs := value.toList.map (·.run isQuoted)
  let checked := if value.isNone && s.has 'u' then failUnset name (unsetMessage false) else pure ()
  match use with
  | .meaningless => fail "Bad substitution".toList
  | .value =>
    checked
    return runs
  | .length =>
    checked
    let length := (value.map (·.text.length)).getD 0
    return [.ofChars (Chars.ofNat length) isQuoted (if isQuoted then .never else .atSeparators)]
  | .fallback orEmpty => if isMissing orEmpty then inside m.operand operand else return runs
  | .alternative orEmpty => if isMissing orEmpty then return [] else inside m.operand operand
  | .assign orEmpty =>
    if !isMissing orEmpty then return runs
    else
      assign name (Run.text (← inside .single operand))
      return ((value? (← Action.state) m name isQuoted).toList.map (·.run isQuoted))
  | .require orEmpty =>
    if !isMissing orEmpty then return runs
    else match operand with
      | [] => failUnset name (unsetMessage orEmpty)
      | _ => failUnset name (Run.text (← inside .single operand))
  | .dropStart isLongest =>
    checked
    let p := Run.pattern (← inside .single operand)
    return value.toList.map fun v ↦
      (v.without true isLongest (Glob.startLengths p v.text)).run isQuoted
  | .dropEnd isLongest =>
    checked
    let p := Run.pattern (← inside .single operand)
    return value.toList.map fun v ↦
      (v.without false isLongest (Glob.endLengths p v.text)).run isQuoted

/-! ## Other pieces -/

/-- The value of an expression; what it assigns is assigned. -/
def arithmetic (expression : Chars) : Action Int := do
  let s ← Action.state
  match Arithmetic.value (fun name ↦ (s.valueOf? name).getD []) expression with
  | .error p => fail (p.message expression)
  | .ok (n, assigned) =>
    Action.forEach (fun e ↦ setVariable e.1 (some (Chars.ofInt e.2)) false) assigned.reverse
    return n

/-- The home directory of a user. -/
def homeOf? (s : State) (user : Chars) : Option Chars :=
  if user = [] then s.valueOf? "HOME".toList
  else (User.named? (Chars.toString user)).map (·.home.toList)

/-- The user whose home a tilde in front stands for, and what follows. -/
def tilde? (isAssignment : Bool) (w : Word) : Option (Chars × Word) :=
  let isName := fun
    | Piece.char c false => c ≠ '/' && !(isAssignment && c = ':')
    | _ => false
  match w with
  | .char '~' false :: w =>
    let name := w.takeWhile isName
    let rest := w.drop name.length
    match rest with
    | [] | .char _ false :: _ => some (spelled name, rest)
    | _ => none
  | _ => none

/-- The text that a command wrote, as it replaces the command. -/
def withoutNewlines (cs : Chars) : Chars :=
  ((cs.reverse.dropWhile (· = '\n')).reverse).filter (· ≠ '\x00')

/-- Whether a tilde can stand behind a character of an assignment. -/
def precedesTilde (c : Char) : Bool := c = '=' || c = ':'

/-- The literal characters in front of a word, all quoted or none, the last one first, up to a sign
behind which a tilde can stand. -/
def literal (isAssignment isQuoted : Bool) : Chars → Word → Chars × Word
  | done, .char c q :: w =>
    if q != isQuoted then (done, .char c q :: w)
    else if isAssignment && !q && precedesTilde c then (c :: done, w)
    else literal isAssignment isQuoted (c :: done) w
  | done, w => (done, w)

/-- What comes before the rest of a word that is expanded. -/
structure Progress where
  /-- The runs, the last one first. -/
  done : List Run
  /-- Whether the rest starts between quotation marks. -/
  isInQuotes : Bool
  /-- Whether a tilde here is replaced. -/
  hasTilde : Bool
  /-- Whether an equals sign has been met. -/
  hasEquals : Bool

/-- The progress with more runs. -/
def Progress.add (p : Progress) (runs : List Run) : Progress :=
  { p with done := runs.reverse ++ p.done, hasTilde := false }

/-- The run of literal characters. -/
def literalRun (m : Manner) (cs : Chars) (isQuoted : Bool) : Run :=
  .ofChars cs isQuoted (if m.isOperand && !isQuoted then .atSeparators else .never)

/-- The runs that a word becomes.  Every step takes a piece. -/
def expandWith (output : OutputOf) (inside : Inside) (m : Manner) :
    Nat → Progress → Word → Action (List Run)
  | 0, p, _ => return p.done.reverse
  | n + 1, p, w => do
    let go := expandWith output inside m n
    match w with
    | [] => return p.done.reverse
    | .mark :: .parameter ['@'] .value operand true :: .mark :: rest =>
      if p.isInQuotes then go { p.add [⟨[.mark], .never⟩] with isInQuotes := false } w.tail
      else go (p.add (← parameter inside m ['@'] .value operand true)) rest
    | .mark :: rest => go { p.add [⟨[.mark], .never⟩] with isInQuotes := !p.isInQuotes } rest
    | .char c q :: rest =>
      match if p.hasTilde then tilde? m.isAssignment w else none with
      | some (user, behind) =>
        match homeOf? (← Action.state) user with
        | some home => go (p.add [.ofChars home true .never]) behind
        | none => go (p.add [literalRun m ['~'] false]) rest
      | none =>
        let (cs, behind) := literal m.isAssignment q [] w
        let isSign := m.isAssignment && !q && precedesTilde (cs.headD c)
        let isEquals := isSign && cs.head? = some '='
        go { p.add [literalRun m cs.reverse q] with
          hasTilde := isSign && !(isEquals && p.hasEquals)
          hasEquals := p.hasEquals || isEquals } behind
    | .parameter name use operand q :: rest =>
      go (p.add (← parameter inside m name use operand q)) rest
    | .output body q :: rest =>
      let text := withoutNewlines (← output body)
      go (p.add [.ofChars text q (if q then .never else .atSeparators)]) rest
    | .arithmetic expression q :: rest =>
      let k ← arithmetic (Run.text (← inside .raw expression))
      go (p.add [.ofChars (Chars.ofInt k) q (if q then .never else .atSeparators)]) rest

/-- The runs that a word becomes, with so many levels of words in words. -/
def runsWithin (output : OutputOf) : Nat → Inside
  | 0, _, _ => pure []
  | n + 1, m, w =>
    expandWith output (runsWithin output n) m (2 * w.length + 1) ⟨[], false, m.hasTilde, false⟩ w

/-- How deep words can be nested. -/
def depth : Nat := 10000

/-- The runs that a word becomes. -/
def runs (output : OutputOf) : Inside := runsWithin output depth

/-- The text that a word becomes. -/
def text (output : OutputOf) (m : Manner) (w : Word) : Action Chars :=
  return Run.text (← runs output m w)

/-- The paths that a field stands for, or the field itself. -/
def pathsOf (s : State) (field : List Cell) : Action (List Chars) := do
  let ms := Run.marksOf field
  if s.has 'f' || !EntryNames.isWild ms then return [Run.charsOf field]
  else
    match ← (Routine.look fun h ↦ EntryNames.paths h ms : Routine _) with
    | [] => return [Run.charsOf field]
    | paths => return paths

/-- The fields that a word becomes. -/
def fields (output : OutputOf) (w : Word) : Action (List Chars) := do
  let rs ← runs output .argument w
  let s ← Action.state
  let fields := Fields.cut (s.separators?.getD State.usualBlanks) rs
  return (← Action.forAll (pathsOf s) fields).flatten

end Expansion

end ContractBuild.Shell
