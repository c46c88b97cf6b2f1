import ContractBuild.Posix.Text.Floating
import ContractBuild.Posix.Utility.RecordProgram.Pattern

/-!
# Tokens of record programs

The words and signs of a program.  Whether a slash starts a pattern depends on what stands before
it, and whether a sign starts a destination depends on the statement.  A missing end of a statement
is supplied in front of a closing brace.
-/

namespace ContractBuild.Utility.RecordProgram

/-- A word or sign of a program. -/
inductive Token
  /-- A number. -/
  | number (x : Float)
  /-- A text. -/
  | text (cs : Chars)
  /-- A pattern. -/
  | pattern (cs : Chars)
  /-- The name of a variable. -/
  | name (cs : Chars)
  /-- The name of a function with the parenthesis right behind it. -/
  | function (cs : Chars)
  /-- A word of the language. -/
  | word (w : String)
  /-- A sign. -/
  | sign (s : String)
  /-- A sign in front of a destination. -/
  | toward (s : String)
  /-- The end of a line. -/
  | lineEnd
  /-- The end of the program. -/
  | last
  /-- Something that is wrong, in words; nothing more is read. -/
  | wrong (isWhole : Bool) (message : Chars)
  /-- Something that is too much, in words. -/
  | surplus (message : Chars)

/-- A token of a program with its circumstances. -/
structure Placed where
  /-- The token. -/
  token : Token
  /-- Its line. -/
  line : Nat
  /-- How it is shown. -/
  shown : Chars
  /-- How many parentheses are open. -/
  parentheses : Nat
  /-- How many braces are open. -/
  braces : Nat

namespace Token

/-- The words of the language. -/
def words : List String :=
  ["BEGIN", "END", "function", "if", "else", "for", "in", "while", "do", "break", "continue",
    "next", "nextfile", "exit", "return", "delete", "print", "printf", "getline", "length",
    "substr", "index", "split", "sub", "gsub", "match", "sprintf", "sin", "cos", "atan2", "exp",
    "log", "sqrt", "int", "rand", "srand", "system", "close", "fflush", "tolower", "toupper",
    "systime", "mktime", "strftime"]

/-- Whether a slash behind a token divides. -/
def isOperand : Token → Bool
  | .number _ | .text _ | .name _ | .pattern _ => true
  | .sign s => s = ")" || s = "]"
  | .word w => w = "getline"
  | _ => false

/-- Whether a statement has ended before a closing brace. -/
def isEnd : Token → Bool
  | .lineEnd => true
  | .sign s => s = ";" || s = "\x7d"
  | _ => false

/-! ## Texts -/

/-- The letters with a meaning behind a backslash in a text. -/
def textLetters : List (Char × Char) :=
  ('"', '"') :: ('\\', '\\') :: Pattern.letters

/-- A text where what stands behind backslashes has its meaning.  Every step takes a character. -/
def unescaped : Nat → Chars → Chars
  | 0, _ => []
  | _, [] => []
  | n + 1, '\\' :: cs =>
    match cs with
    | [] => ['\\']
    | '\n' :: cs => unescaped n cs
    | c :: rest =>
      if ('0' ≤ c && c ≤ '7') || c = 'x' then
        let (d, rest) := Pattern.escaped cs
        if c = 'x' && d = 'x' then '\\' :: 'x' :: unescaped n rest else d :: unescaped n rest
      else match textLetters.lookup c with
        | some d => d :: unescaped n rest
        | none => '\\' :: c :: unescaped n rest
  | n + 1, c :: cs => c :: unescaped n cs

/-- A text where what stands behind backslashes has its meaning. -/
def withoutEscapes (cs : Chars) : Chars := unescaped cs.length cs

/-- What stands before the end of a text on its line, and what follows it. -/
def textUntil : Nat → Chars → Chars → Option (Chars × Chars)
  | 0, _, _ => none
  | n + 1, done, cs =>
    match cs with
    | '"' :: cs => some (done.reverse, cs)
    | '\\' :: c :: cs => textUntil n (c :: '\\' :: done) cs
    | '\n' :: _ | [] => none
    | c :: cs => textUntil n (c :: done) cs

/-- What stands before the end of a pattern on its line, and what follows it; a slash in brackets is
no end. -/
def patternUntil : Nat → Bool → Chars → Chars → Option (Chars × Chars)
  | 0, _, _, _ => none
  | n + 1, isInside, done, cs =>
    match cs with
    | '/' :: cs =>
      if isInside then patternUntil n isInside ('/' :: done) cs else some (done.reverse, cs)
    | '\\' :: '/' :: cs => patternUntil n isInside ('/' :: done) cs
    | '\\' :: '\n' :: cs => patternUntil n isInside done cs
    | '\\' :: c :: cs => patternUntil n isInside (c :: '\\' :: done) cs
    | '\n' :: _ | [] => none
    | '[' :: '^' :: ']' :: cs => patternUntil n true (']' :: '^' :: '[' :: done) cs
    | '[' :: ']' :: cs =>
      if isInside then patternUntil n false (']' :: '[' :: done) cs
      else patternUntil n true (']' :: '[' :: done) cs
    | '[' :: cs => patternUntil n true ('[' :: done) cs
    | ']' :: cs => patternUntil n false (']' :: done) cs
    | c :: cs => patternUntil n isInside (c :: done) cs

/-! ## Numbers -/

/-- The characters of a number in front of a text, and what follows them. -/
def numberSpan (cs : Chars) : Chars × Chars :=
  let (whole, rest) := cs.span Char.isDigit
  let (part, rest) := match rest with
    | '.' :: rest =>
      let (ds, rest) := rest.span Char.isDigit
      ('.' :: ds, rest)
    | rest => ([], rest)
  let power := match rest with
    | e :: s :: rest =>
      if e = 'e' || e = 'E' then
        let (signs, rest) := if s = '+' || s = '-' then ([s], rest) else ([], s :: rest)
        let (ds, rest) := rest.span Char.isDigit
        if ds = [] then none else some (e :: signs ++ ds, rest)
      else none
    | _ => none
  match power with
  | some (ds, rest) => (whole ++ part ++ ds, rest)
  | none => (whole ++ part, rest)

/-! ## Tokens one by one -/

/-- Where reading has got to. -/
structure Progress where
  /-- The token before. -/
  before : Token
  /-- The line. -/
  line : Nat
  /-- How many parentheses are open. -/
  parentheses : Nat
  /-- How many braces are open. -/
  braces : Nat
  /-- Whether the values of a statement that writes are read. -/
  writes : Bool

/-- Skips blanks and remarks. -/
def skipBlanks : Nat → Chars → Chars
  | 0, cs => cs
  | n + 1, cs =>
    match cs with
    | ' ' :: cs | '\t' :: cs | '\r' :: cs | '\x0c' :: cs | '\x0b' :: cs => skipBlanks n cs
    | '#' :: cs => skipBlanks n (cs.dropWhile (· ≠ '\n'))
    | cs => cs

/-- Skips blanks, remarks and ends of lines; the number is how many lines have ended. -/
def skipLines : Nat → Chars → Nat × Chars
  | 0, cs => (0, cs)
  | n + 1, cs =>
    match skipBlanks cs.length cs with
    | '\n' :: cs =>
      let (k, cs) := skipLines n cs
      (k + 1, cs)
    | '\\' :: '\n' :: cs =>
      let (k, cs) := skipLines n cs
      (k + 1, cs)
    | cs => (0, cs)

/-- The signs of several characters, the longest ones first. -/
def longSigns : List String :=
  ["++", "--", "+=", "-=", "*=", "/=", "%=", "^=", "==", "<=", ">=", "!=", "!~", "&&", "||"]

/-- The signs of one character. -/
def shortSigns : Chars :=
  ['+', '-', '*', '/', '%', '^', '=', '<', '>', '!', '~', '?', ':', ',', '$', '(', ')', '[', ']',
    '\x7b', '\x7d', ';', '|']

/-- The signs behind which lines can end. -/
def openSigns : List String := ["\x7b", ";", ",", "&&", "||"]

/-- The tokens of a program.  Every step takes a character, or supplies the end of a statement. -/
def readFrom : Nat → Progress → Chars → List Placed
  | 0, _, _ => []
  | n + 1, p, cs =>
    let place := fun (t : Token) (shown : Chars) ↦
      Placed.mk t p.line shown p.parentheses p.braces
    let goOn := fun (t : Token) (shown : Chars) (p' : Progress) (rest : Chars) ↦
      Placed.mk t p.line shown p'.parentheses p'.braces ::
        readFrom n { p' with before := t } rest
    let behindLines := fun (t : Token) (shown : Chars) (p' : Progress) (rest : Chars) ↦
      let (k, rest) := skipLines rest.length rest
      goOn t shown { p' with line := p'.line + k } rest
    let wrong := fun (isWhole : Bool) (message : Chars) ↦ [place (.wrong isWhole message) []]
    let sign := fun (s : String) (rest : Chars) ↦
      let t := Token.sign s
      let shown := s.toList
      if openSigns.contains s then
        let p' := if s = ";" then { p with writes := false } else p
        behindLines t shown { p' with braces := p.braces + (if s = "\x7b" then 1 else 0) } rest
      else if s = "(" then goOn t shown { p with parentheses := p.parentheses + 1 } rest
      else if s = ")" then
        if p.parentheses = 0 then
          place (.surplus "extra ')'".toList) [] :: readFrom n p rest
        else goOn t shown { p with parentheses := p.parentheses - 1 } rest
      else if s = "\x7d" then
        let withoutEnd := match skipBlanks rest.length rest with
          | ';' :: rest => rest
          | rest => rest
        if p.braces = 0 then
          place (.surplus "extra '\x7d'".toList) [] :: readFrom n p withoutEnd
        else if p.before.isEnd then
          let rest := if p.braces = 1 then withoutEnd else rest
          behindLines t shown { p with braces := p.braces - 1, writes := false } rest
        else goOn (.sign ";") shown { p with writes := false } cs
      else goOn t shown p rest
    let cs := skipBlanks cs.length cs
    match cs with
    | [] => [place .last "end of file".toList]
    | '\n' :: rest =>
      let (k, rest) := skipLines rest.length rest
      goOn .lineEnd "end of line".toList { p with line := p.line + 1 + k, writes := false } rest
    | '\\' :: '\n' :: rest => readFrom n { p with line := p.line + 1 } rest
    | '"' :: rest =>
      match textUntil (rest.length + 1) [] rest with
      | some (raw, rest) =>
        let lines := (raw.filter (· = '\n')).length
        let text := withoutEscapes raw
        goOn (.text text) text { p with line := p.line + lines } rest
      | none => wrong false ("runaway string constant \"".toList ++
          (rest.takeWhile (· ≠ '\n')).take 10 ++ " ...".toList)
    | '/' :: rest =>
      if p.before.isOperand then
        match rest with
        | '=' :: rest => sign "/=" rest
        | rest => sign "/" rest
      else match patternUntil (rest.length + 1) false [] rest with
        | some (raw, rest) => goOn (.pattern raw) raw p rest
        | none => wrong false ("runaway regular expression /".toList ++
            (rest.takeWhile (· ≠ '\n')).take 10 ++ " ...".toList)
    | c :: rest =>
      if c.isDigit || (c = '.' && rest.head?.any Char.isDigit) then
        let (ds, rest) := numberSpan cs
        goOn (.number (((Floating.read ds).map (·.1)).getD 0)) ds p rest
      else if c.isAlpha || c = '_' then
        let (letters, rest) := cs.span fun c ↦ c.isAlphanum || c = '_'
        let w := Chars.toString letters
        if words.contains w then
          let p' := { p with writes := if w = "print" || w = "printf" then true else p.writes }
          goOn (.word w) letters p' rest
        else if rest.head? = some '(' then goOn (.function letters) letters p rest
        else goOn (.name letters) letters p rest
      else
        let isAtTop := p.writes && p.parentheses = 0
        match cs with
        | '>' :: '>' :: rest =>
          if isAtTop then goOn (.toward ">>") ">>".toList { p with writes := false } rest
          else sign ">" ('>' :: rest)
        | _ =>
          if isAtTop && c = '>' then goOn (.toward ">") [c] { p with writes := false } rest
          else match longSigns.find? fun s ↦ s.toList.isPrefixOf cs with
            | some s => sign s (cs.drop s.length)
            | none =>
              if isAtTop && c = '|' then goOn (.toward "|") [c] { p with writes := false } rest
              else if shortSigns.contains c then sign (String.singleton c) rest
              else wrong true (Chars.ofNat p.line ++ ": unexpected character '".toList ++ [c, '\''])

/-- The tokens of a program. -/
def readAll (cs : Chars) : List Placed :=
  let cs := Chars.line cs
  let (k, rest) := skipLines cs.length cs
  readFrom (2 * cs.length + 2) ⟨.lineEnd, k + 1, 0, 0, false⟩ rest

/-- The tokens as they are shown. -/
def shownOf (program : String) : List String :=
  (readAll program.toList).map fun t ↦ Chars.toString t.shown

/-- The end of a statement is supplied. -/
example : shownOf "\x7bprint $1/2 > \"f\"\x7d" =
    ["\x7b", "print", "$", "1", "/", "2", ">", "f", "\x7d", "\x7d", "end of file"] := by
  decide +kernel

end Token

end ContractBuild.Utility.RecordProgram
