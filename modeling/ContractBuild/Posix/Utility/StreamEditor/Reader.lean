import ContractBuild.Posix.Text.Chars
import ContractBuild.Posix.Text.Numeral
import ContractBuild.Posix.Text.Version
import ContractBuild.Posix.Utility.StreamEditor.Script

/-!
# Reading scripts of a stream editor

Every command is a letter, behind the lines that it is for and in front of what it needs.  What is
wrong with a script is told with the place up to which it has been read.
-/

namespace ContractBuild.Utility.StreamEditor

/-- How scripts are written. -/
structure Dialect where
  /-- Patterns have the extended form. -/
  isExtended : Bool
  /-- Commands that run others or deal with files are refused. -/
  isGuarded : Bool
  /-- Lines end with line feeds. -/
  hasLineFeeds : Bool

/-- Where a script is wrong. -/
inductive Site
  /-- In front of a text that has not been read. -/
  | before (rest : Chars)
  /-- As a whole. -/
  | whole
  /-- That is not told. -/
  | untold

/-- What is wrong with a script. -/
structure Fault where
  /-- Where it is wrong. -/
  site : Site
  /-- What is wrong. -/
  message : Chars

/-- Says what is wrong in front of a text. -/
def fault {α : Type} (rest : Chars) (message : String) : Except Fault α :=
  .error ⟨.before rest, message.toList⟩

/-- A text without the blanks in front of it. -/
def skipBlanks (cs : Chars) : Chars := cs.dropWhile fun c ↦ c = ' ' || c = '\t'

/-- Whether a character separates commands. -/
def isSeparator (c : Char) : Bool := c = ';' || c = ' ' || ('\t' ≤ c && c ≤ '\r')

/-- The digits in front of a text. -/
def digitsOf (cs : Chars) : Option (Nat × Chars) :=
  let ds := cs.takeWhile Char.isDigit
  (Chars.toNat? ds).map (·, cs.drop ds.length)

/-! ## Texts between signs -/

/-- The characters of brackets up to their end, with what follows.  The closing sign at the front
stands for itself.  Every step takes a character. -/
def bracketText : Nat → Bool → Chars → Option (Chars × Chars)
  | 0, _, _ => none
  | n + 1, isFirst, cs =>
    let go := fun (front : Chars) (rest : Chars) ↦
      (bracketText n false rest).map fun (a, b) ↦ (front ++ a, b)
    match cs with
    | [] | '\n' :: _ => none
    | ']' :: rest => if isFirst then go [']'] rest else some ([']'], rest)
    | '[' :: c :: rest =>
      if c = ':' || c = '.' || c = '=' then
        let name := rest.takeWhile fun d ↦ d ≠ c && d ≠ '\n' && d ≠ ']'
        match rest.drop name.length with
        | d :: ']' :: behind =>
          if d = c then go ('[' :: c :: name ++ [c, ']']) behind else go ['['] (c :: rest)
        | _ => go ['['] (c :: rest)
      else go ['['] (c :: rest)
    | '\\' :: 'n' :: rest => go ['\n'] rest
    | '\\' :: 't' :: rest => go ['\t'] rest
    | '\\' :: c :: rest => if c = ']' then go ['\\'] (c :: rest) else go ['\\', c] rest
    | c :: rest => go [c] rest

/-- The text up to a sign, with what follows that.  A backslash quotes the sign; in a pattern it
makes the letter `n` a line feed, and the sign stands for itself between brackets.  Every step
takes a character. -/
def signed (isPattern : Bool) (sign : Char) : Nat → Chars → Except Chars (Chars × Chars)
  | 0, cs => .error cs
  | n + 1, cs =>
    let go := fun (front : Chars) (rest : Chars) ↦ do
      let (a, b) ← signed isPattern sign n rest
      return (front ++ a, b)
    match cs with
    | [] | '\n' :: _ => .error cs
    | '\\' :: c :: rest =>
      if c = 'n' && isPattern then go ['\n'] rest
      else if c = '\n' || (c = sign && (isPattern || c ≠ '&')) then go [c] rest
      else go ['\\', c] rest
    | ['\\'] => .error []
    | c :: rest =>
      if c = sign then .ok ([], rest)
      else if c = '[' && isPattern then
        let (mark, behind) := match rest with
          | '^' :: behind => (['^'], behind)
          | behind => ([], behind)
        match bracketText (behind.length + 1) true behind with
        | some (inside, rest) => go ('[' :: mark ++ inside) rest
        | none => .error (cs.dropWhile (· ≠ '\n'))
      else go [c] rest

/-- The characters that mean something in a pattern. -/
def patternSigns : List Char := "*[]^$.\\".toList

/-- The number that so many digits of a base spell. -/
def codeOf? (base most : Nat) (cs : Chars) : Option (Char × Chars) :=
  let ds := (cs.take most).takeWhile fun c ↦ Numeral.digit c < base
  if ds = [] then none else some (Escape.byte (Numeral.value base ds), cs.drop ds.length)

/-- The character that an escape stands for: the text behind the backslash, and what follows. -/
def escape? : Chars → Option (Char × Chars)
  | 'a' :: cs => some ('\x07', cs)
  | 'f' :: cs => some ('\x0c', cs)
  | 'n' :: cs => some ('\n', cs)
  | 'r' :: cs => some ('\r', cs)
  | 't' :: cs => some ('\t', cs)
  | 'v' :: cs => some ('\x0b', cs)
  | 'd' :: cs => codeOf? 10 3 cs
  | 'o' :: cs => codeOf? 8 3 cs
  | 'x' :: cs => codeOf? 16 2 cs
  | 'c' :: c :: cs =>
    let n := c.toUpper.toNat
    some (Char.ofNat (if n < 64 then n + 64 else n - 64), cs)
  | _ => none

/-- A pattern with its escapes replaced.  Every step takes a character. -/
def patternText : Nat → Chars → Chars
  | 0, _ => []
  | n + 1, cs =>
    match cs with
    | '\\' :: rest =>
      match escape? rest with
      | some (c, behind) =>
        (if patternSigns.contains c then ['\\', c] else [c]) ++ patternText n behind
      | none => match rest with
        | c :: rest => '\\' :: c :: patternText n rest
        | [] => ['\\']
    | c :: cs => c :: patternText n cs
    | [] => []

/-- How patterns are written. -/
def form (x : Dialect) : Regex.Form :=
  if x.isExtended then .extended true true else .basic true true

/-- The expression that a pattern spells, with the number of its parts, where a text follows that
has not been read; none for an empty one. -/
def expressionOf (x : Dialect) (cs rest : Chars) : Except Fault (Option Regex × Nat) :=
  if cs = [] then .ok (none, 9)
  else match Regex.read (form x) (patternText (cs.length + 1) cs) with
    | .ok (r, n) => .ok (some r, n)
    | .error .confusing => .error ⟨.untold, Regex.Wrong.confusing.message.toList⟩
    | .error e => fault rest e.message

/-! ## Lines -/

/-- The letters behind a pattern that is used to find lines. -/
def patternLetters (isFolded hasLines : Bool) : Chars → (Bool × Bool) × Chars
  | 'I' :: cs => patternLetters true hasLines cs
  | 'M' :: cs => patternLetters isFolded true cs
  | cs => ((isFolded, hasLines), cs)

/-- A pattern that is used to find lines, behind its first sign. -/
def linePattern (x : Dialect) (sign : Char) (cs : Chars) : Except Fault (Pattern × Chars) :=
  match signed true sign (cs.length + 1) cs with
  | .error rest => fault rest "unterminated address regex"
  | .ok (text, rest) => do
    let ((isFolded, hasLines), rest) := patternLetters false false rest
    let (r, _) ← expressionOf x text rest
    return (⟨if hasLines then r.map (Regex.onLines x.hasLineFeeds) else r, isFolded⟩, rest)

/-- The line in front of a command, if there is one. -/
def address (x : Dialect) (cs : Chars) : Except Fault (Option Address × Chars) :=
  match cs with
  | '$' :: rest => .ok (some .last, rest)
  | '/' :: rest => do
    let (p, rest) ← linePattern x '/' rest
    return (some (.pattern p), rest)
  | '\\' :: sign :: rest => do
    let (p, rest) ← linePattern x sign rest
    return (some (.pattern p), rest)
  | '+' :: rest | '~' :: rest =>
    match digitsOf (skipBlanks rest) with
    | some (_, rest) => fault rest "invalid usage of +N or ~N as first address"
    | none => .ok (none, rest)
  | cs =>
    match digitsOf cs with
    | none => .ok (none, cs)
    | some (n, rest) =>
      match skipBlanks rest with
      | '~' :: behind =>
        match digitsOf (skipBlanks behind) with
        | some (0, rest) => .ok (some (.line n), rest)
        | some (m, rest) => .ok (some (.step n m), rest)
        | none => .ok (some (.line n), skipBlanks behind)
      | _ => .ok (some (.line n), rest)

/-- The last line behind a comma. -/
def bound (x : Dialect) (cs : Chars) : Except Fault (Bound × Chars) := do
  match cs with
  | '+' :: rest =>
    let (n, rest) := (digitsOf (skipBlanks rest)).getD (0, rest)
    return (.behind n, rest)
  | '~' :: rest =>
    let (n, rest) := (digitsOf (skipBlanks rest)).getD (0, rest)
    return (.multiple n, rest)
  | cs =>
    match ← address x cs with
    | (some (.line n), rest) | (some (.step n _), rest) => return (.line n, rest)
    | (some .last, rest) => return (.last, rest)
    | (some (.pattern p), rest) => return (.pattern p, rest)
    | (none, rest) => fault (rest.drop 1) "unexpected \x60,'"

/-- The lines that a command is for. -/
def selection (x : Dialect) (cs : Chars) : Except Fault (Selection × Chars) := do
  let (first, rest) ← address x cs
  let (bound, rest) ← match first, skipBlanks rest with
    | some _, ',' :: rest => do
      let (b, rest) ← StreamEditor.bound x (skipBlanks rest)
      pure (some b, skipBlanks rest)
    | _, rest => pure (none, rest)
  match first, bound with
  | some (.line 0), some (.pattern _) => pure ()
  | some (.line 0), _ => fault (rest.drop 1) "invalid usage of line address 0"
  | _, _ => pure ()
  match rest with
  | '!' :: rest =>
    match skipBlanks rest with
    | '!' :: rest => fault rest "multiple \x60!'s"
    | rest => return (⟨first, bound, true⟩, rest)
  | rest => return (⟨first, bound, false⟩, rest)

/-! ## What commands need -/

/-- The end of a command. -/
def commandEnd (cs : Chars) : Except Fault Chars :=
  match skipBlanks cs with
  | [] => .ok []
  | '\n' :: rest | ';' :: rest => .ok rest
  | '#' :: rest => .ok ('#' :: rest)
  | '\x7d' :: rest => .ok ('\x7d' :: rest)
  | '\r' :: rest => .ok rest
  | _ :: rest => fault rest "extra characters after command"

/-- A command that needs nothing else. -/
def bare (v : Verb) (cs : Chars) : Except Fault (Verb × Chars) := do return (v, ← commandEnd cs)

/-- The name of a file, up to the end of the line. -/
def fileOf (cs : Chars) : Except Fault (Chars × Chars) :=
  let cs := skipBlanks cs
  let file := cs.takeWhile (· ≠ '\n')
  let rest := cs.drop (file.length + 1)
  if file = [] then fault rest "missing filename in r/R/w/W commands" else .ok (file, rest)

/-- A label. -/
def labelOf (cs : Chars) : Chars × Chars :=
  let cs := skipBlanks cs
  let name := cs.takeWhile fun c ↦ !isSeparator c && c ≠ '\x7d'
  (name, cs.drop name.length)

/-- The text of a command up to the end of its last line.  Every step takes a character. -/
def lineText : Nat → Chars → Chars × Chars
  | 0, cs => ([], cs)
  | n + 1, cs =>
    let go := fun (front : Chars) (rest : Chars) ↦
      let (a, b) := lineText n rest
      (front ++ a, b)
    match cs with
    | [] => (['\n'], [])
    | '\n' :: rest => (['\n'], rest)
    | ['\\'] => (['\n'], [])
    | '\\' :: '\n' :: rest => go ['\n'] rest
    | '\\' :: rest =>
      match escape? rest, rest with
      | some (c, rest), _ => go [c] rest
      | none, c :: rest => go [c] rest
      | none, [] => ([], [])
    | c :: rest => go [c] rest

/-- The text behind the letter of a command. -/
def textOf (cs : Chars) : Except Fault (Chars × Chars) :=
  let missing := fault [] "expected \\ after \x60a', \x60c' or \x60i'"
  match skipBlanks cs with
  | [] => missing
  | ['\\'] => .ok ([], [])
  | '\\' :: rest =>
    match skipBlanks rest with
    | '\n' :: text => .ok (lineText (text.length + 1) text)
    | _ =>
      .ok (lineText (rest.length + 1) rest)
  | text => .ok (lineText (text.length + 1) text)

/-- The parts of a replacement.  Every step takes a character. -/
def pieces : Nat → Chars → List Piece
  | 0, _ => []
  | n + 1, cs =>
    let text := fun (c : Char) (rest : Chars) ↦
      match pieces n rest with
      | .text ds :: ps => .text (c :: ds) :: ps
      | ps => .text [c] :: ps
    match cs with
    | [] => []
    | '&' :: rest => .group 0 :: pieces n rest
    | '\\' :: 'L' :: rest => .casing .lower :: pieces n rest
    | '\\' :: 'U' :: rest => .casing .upper :: pieces n rest
    | '\\' :: 'E' :: rest => .casing .plain :: pieces n rest
    | '\\' :: 'l' :: rest => .casing .nextLower :: pieces n rest
    | '\\' :: 'u' :: rest => .casing .nextUpper :: pieces n rest
    | '\\' :: rest =>
      match escape? rest, rest with
      | some (c, rest), _ => text c rest
      | none, c :: rest =>
        if c.isDigit then .group (c.toNat - '0'.toNat) :: pieces n rest else text c rest
      | none, [] => text '\\' []
    | c :: rest => text c rest

/-- The words for a command that is refused. -/
def guarded : String := "e/r/w commands disabled in sandbox mode"

/-- The first byte of a character, and the others. -/
def firstByte (c : Char) : Char × Chars :=
  match Wide.writeChar c with
  | b :: bs => (b, bs)
  | [] => (c, [])

/-- What the letters behind a replacement ask for. -/
structure Letters where
  /-- All matches are replaced. -/
  isGlobal : Bool
  /-- The result is run as a command. -/
  runs : Bool
  /-- The result is written, in front of that and behind it. -/
  prints : Bool × Bool
  /-- Capitals count as small letters. -/
  isFolded : Bool
  /-- Every line of a text counts as a line. -/
  hasLines : Bool
  /-- The number of the first match that is replaced. -/
  number : Option Nat
  /-- The file that the result is written to. -/
  file : Option Chars

/-- The letters behind a replacement.  Every step takes a character. -/
def letters (x : Dialect) : Nat → Letters → Chars → Except Fault (Letters × Chars)
  | 0, l, cs => .ok (l, cs)
  | n + 1, l, cs =>
    match cs with
    | [] => .ok (l, [])
    | '\n' :: rest | ';' :: rest => .ok (l, rest)
    | '\x7d' :: _ | '#' :: _ => .ok (l, cs)
    | ' ' :: rest | '\t' :: rest | '\r' :: rest => letters x n l rest
    | 'i' :: rest | 'I' :: rest => letters x n { l with isFolded := true } rest
    | 'm' :: rest | 'M' :: rest => letters x n { l with hasLines := true } rest
    | 'e' :: rest =>
      if x.isGuarded then fault rest guarded else letters x n { l with runs := true } rest
    | 'p' :: rest =>
      if if l.runs then l.prints.2 else l.prints.1 then
        fault rest "multiple \x60p' options to \x60s' command"
      else letters x n { l with prints := (l.prints.1 || !l.runs, l.prints.2 || l.runs) } rest
    | 'g' :: rest =>
      if l.isGlobal then fault rest "multiple \x60g' options to \x60s' command"
      else letters x n { l with isGlobal := true } rest
    | 'w' :: rest => do
      if x.isGuarded then fault rest guarded
      let (file, rest) ← fileOf rest
      return ({ l with file }, rest)
    | c :: rest =>
      match digitsOf cs with
      | none =>
        fault ((firstByte c).2 ++ rest) (if c = '\x00' then "" else "unknown option to \x60s'")
      | some (k, rest) =>
        if l.number.isSome then fault rest "multiple number options to \x60s' command"
        else if k = 0 then fault rest "number option to \x60s' command may not be zero"
        else letters x n { l with number := some k } rest

/-- The greatest number of a part in a replacement. -/
def greatestPart (ps : List Piece) : Nat :=
  (ps.map fun
    | .group n => n
    | _ => 0).foldl max 0

/-- A substitution, behind its letter. -/
def substitution (x : Dialect) (cs : Chars) : Except Fault (Substitution × Chars) := do
  let unterminated := fun (rest : Chars) ↦ fault rest "unterminated \x60s' command"
  match cs with
  | [] | '\n' :: _ | '\\' :: _ => unterminated cs
  | sign :: cs =>
    match signed true sign (cs.length + 1) cs with
    | .error rest => unterminated rest
    | .ok (old, cs) =>
      match signed false sign (cs.length + 1) cs with
      | .error rest => unterminated rest
      | .ok (new, cs) =>
        let ps := pieces (new.length + 1) new
        let (l, rest) ← letters x (cs.length + 1)
          ⟨false, false, (false, false), false, false, none, none⟩ cs
        let (r, count) ← expressionOf x old rest
        let greatest := greatestPart ps
        if count < greatest then
          throw ⟨.before rest, "invalid reference \\".toList ++ Chars.ofNat greatest ++
            " on \x60s' command's RHS".toList⟩
        let r := if l.hasLines then r.map (Regex.onLines x.hasLineFeeds) else r
        return (⟨⟨r, l.isFolded⟩, ps, l.number.getD 1, l.isGlobal, l.runs, l.prints, l.file⟩, rest)

/-- The characters of a set, in which a backslash quotes. -/
def setChars : Nat → Chars → Chars
  | 0, _ => []
  | n + 1, cs =>
    match cs with
    | '\\' :: '\\' :: rest => '\\' :: setChars n rest
    | '\\' :: rest =>
      match escape? rest with
      | some (c, rest) => c :: setChars n rest
      | none => '\\' :: setChars n rest
    | c :: rest => c :: setChars n rest
    | [] => []

/-- Pairs of characters, behind the letter of their command. -/
def translation (cs : Chars) : Except Fault ((List (Char × Char)) × Chars) := do
  let unterminated := fun (rest : Chars) ↦ fault rest "unterminated \x60y' command"
  match cs with
  | [] | '\n' :: _ | '\\' :: _ => unterminated cs
  | sign :: cs =>
    match signed false sign (cs.length + 1) cs with
    | .error rest => unterminated rest
    | .ok (old, cs) =>
      match signed false sign (cs.length + 1) cs with
      | .error rest => unterminated rest
      | .ok (new, rest) =>
        let old := setChars (old.length + 1) old
        let new := setChars (new.length + 1) new
        if old.length ≠ new.length then
          fault rest "strings for \x60y' command are different lengths"
        else return (old.zip new, ← commandEnd rest)

/-- A number that a command can have, and the end of the command. -/
def numbered (f : Option Nat → Verb) (cs : Chars) : Except Fault (Verb × Chars) :=
  match digitsOf (skipBlanks cs) with
  | some (n, rest) => bare (f (some n)) rest
  | none => bare (f none) cs

/-- The version of the language of scripts. -/
def currentVersion : Chars := "4.9".toList

/-- What a command does, behind the lines that it is for. -/
def verb (x : Dialect) (s : Selection) (cs : Chars) : Except Fault (Verb × Chars) := do
  match cs with
  | [] => fault [] "missing command"
  | c :: rest =>
    let withText := fun (f : Chars → Verb) ↦ do
      let (text, rest) ← textOf rest
      return (f text, rest)
    let withFile := fun (f : Chars → Verb) ↦ do
      let (file, rest) ← fileOf rest
      return (f file, rest)
    let jump := fun (d : Condition) ↦
      let (name, rest) := labelOf rest
      .ok (.jump d name, rest)
    if x.isGuarded && ['e', 'r', 'R', 'w', 'W'].contains c then fault rest guarded
    match c with
    | '\x7b' => return (.opening, rest)
    | '\x7d' =>
      if s.first.isSome then fault rest "\x7d doesn't want any addresses" else bare .closing rest
    | ':' =>
      if s.first.isSome then fault rest ": doesn't want any addresses"
      else match labelOf rest with
        | ([], rest) => fault rest "\":\" lacks a label"
        | (name, rest) => return (.label name, rest)
    | '=' => bare .number rest
    | 'a' => withText .append
    | 'i' => withText .insert
    | 'c' => withText .change
    | 'b' => jump .always
    | 't' => jump .replaced
    | 'T' => jump .notReplaced
    | 'd' => bare .delete rest
    | 'D' => bare .deleteFirst rest
    | 'e' =>
      let line := (skipBlanks rest).takeWhile (· ≠ '\n')
      return (.run line, (skipBlanks rest).drop (line.length + 1))
    | 'F' => bare .fileName rest
    | 'g' => bare (.get false) rest
    | 'G' => bare (.get true) rest
    | 'h' => bare (.hold false) rest
    | 'H' => bare (.hold true) rest
    | 'x' => bare .exchange rest
    | 'l' => numbered .list rest
    | 'n' => bare .next rest
    | 'N' => bare .join rest
    | 'p' => bare .print rest
    | 'P' => bare .printFirst rest
    | 'q' | 'Q' =>
      if s.bound.isSome then fault rest "command only uses one address"
      else numbered (fun n ↦ .quit (c = 'Q') (n.getD 0)) rest
    | 'r' => withFile .readFile
    | 'R' => withFile .readLine
    | 'w' => withFile (.writeFile false)
    | 'W' => withFile (.writeFile true)
    | 's' => do
      let (r, rest) ← substitution x rest
      return (.substitute r, rest)
    | 'y' => do
      let (pairs, rest) ← translation rest
      return (.translate pairs, rest)
    | 'z' => bare .clear rest
    | 'v' =>
      let (version, rest) := labelOf rest
      if Version.compareNames currentVersion version = .lt then
        fault rest "expected newer version of sed"
      else return (.nothing, rest)
    | c =>
      let (first, more) := firstByte c
      throw ⟨.before (more ++ rest), "unknown command: \x60".toList ++ [first, '\'']⟩

/-- The commands of a script, so many blocks deep.  Every step takes a character. -/
def commands (x : Dialect) : Nat → Nat → Chars → Except Fault (List Command)
  | 0, _, _ => .ok []
  | n + 1, depth, cs => do
    match cs.dropWhile isSeparator with
    | [] =>
      if depth = 0 then return []
      else throw ⟨.whole, "unmatched \x60\x7b'".toList⟩
    | '#' :: rest => commands x n depth (rest.dropWhile (· ≠ '\n'))
    | cs =>
      let (s, rest) ← selection x cs
      if rest.head? = some '#' then
        fault (rest.drop 1) "comments don't accept any addresses"
      let (v, rest) ← if rest.head? = some '\x7d' && depth = 0 then
          fault (rest.drop 1) "unexpected \x60\x7d'"
        else verb x s rest
      let depth := match v with
        | .opening => depth + 1
        | .closing => depth - 1
        | _ => depth
      return ⟨s, v⟩ :: (← commands x n depth rest)

/-- The commands of a script. -/
def read (x : Dialect) (cs : Chars) : Except Fault (List Command) :=
  commands x (cs.length + 1) 0 cs

/-- The parts of a replacement. -/
example : pieces 10 "a\\1&\\n".toList = [.text ['a'], .group 1, .group 0, .text ['\n']] := by
  decide +kernel

end ContractBuild.Utility.StreamEditor
