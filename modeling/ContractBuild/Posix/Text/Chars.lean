import ContractBuild.Path.Basic

/-!
# Bytes as characters

Programs that work on text of any encoding see one character for each byte.  `ofBytes` and
`toBytes` go between the two views.
-/

namespace ContractBuild

/-- Text with one character for each byte. -/
abbrev Chars := List Char

namespace Chars

/-- The characters of some bytes. -/
def ofBytes (bs : Bytes) : Chars := bs.map fun b ↦ Char.ofNat b.toNat

/-- The bytes that some characters stand for. -/
def toBytes (cs : Chars) : Bytes := cs.map fun c ↦ c.toNat.toUInt8

/-- The characters of a text. -/
def ofString (s : String) : Chars := ofBytes (Bytes.ofString s)

/-- The text that characters spell, for comparing them with names of the program's own. -/
def toString (cs : Chars) : String := String.ofList cs

/-- The path that characters spell. -/
def toPath (cs : Chars) : Path := ⟨toBytes cs⟩

/-- The characters of a path. -/
def ofPath (p : Path) : Chars := ofBytes p.raw

/-- The digits of a number. -/
def ofNat (n : Nat) : Chars := Nat.toDigits 10 n

/-- The digits of an integer behind its sign. -/
def ofInt (n : Int) : Chars := if n < 0 then '-' :: ofNat n.natAbs else ofNat n.natAbs

/-- The digits of a number, at least so many of them. -/
def ofNatWide (width n : Nat) : Chars :=
  List.replicate (width - (ofNat n).length) '0' ++ ofNat n

/-- The number that decimal digits spell. -/
def toNat? (cs : Chars) : Option Nat :=
  if cs ≠ [] ∧ cs.all Char.isDigit then
    some (cs.foldl (fun n c ↦ n * 10 + (c.toNat - '0'.toNat)) 0)
  else none

/-- The parts of a text between characters of one kind; there is always at least one. -/
def splitOn (isEnd : Char → Bool) (cs : Chars) : List Chars :=
  let (first, rest) := cs.foldr (fun c (w, ws) ↦
    if isEnd c then ([], w :: ws) else (c :: w, ws)) ([], [])
  first :: rest

/-- The records of a text, which end with a character of one kind, without their ends; what follows
the last end is a record unless it is empty. -/
def records (last : Char) (cs : Chars) : List Chars :=
  match (splitOn (· = last) cs).reverse with
  | [] :: ls => ls.reverse
  | ls => ls.reverse

/-- The lines of a text without their ends; what follows the last end is a line unless it is
empty. -/
def lines (cs : Chars) : List Chars := records '\n' cs

/-- The records of a text with their ends. -/
def wholeRecords (last : Char) (cs : Chars) : List Chars :=
  let rs := splitOn (· = last) cs
  rs.dropLast.map (· ++ [last]) ++ rs.getLast?.toList.filter (· ≠ [])

/-- Texts with another one between them. -/
def join (between : Chars) (ws : List Chars) : Chars := (ws.intersperse between).flatten

/-- A text with a line feed behind it. -/
def line (cs : Chars) : Chars := cs ++ ['\n']

/-- Whether a text comes before another, byte by byte. -/
def isBefore : Chars → Chars → Bool
  | [], [] => false
  | [], _ :: _ => true
  | _ :: _, [] => false
  | a :: as, b :: bs => a < b || (a = b && isBefore as bs)

end Chars

end ContractBuild

/-!
## Escapes

What a backslash and the characters behind it mean to the commands that print text.
-/

namespace ContractBuild.Escape

/-- The value of an octal digit. -/
def octalDigit? (c : Char) : Option Nat :=
  if '0' ≤ c ∧ c ≤ '7' then some (c.toNat - '0'.toNat) else none

/-- The number of at most so many octal digits, added to one already read, and the text behind. -/
def octal (n : Nat) : Nat → Chars → Nat × Chars
  | 0, cs => (n, cs)
  | _, [] => (n, [])
  | k + 1, c :: cs =>
    match octalDigit? c with
    | some d => octal (n * 8 + d) k cs
    | none => (n, c :: cs)

/-- The character that a byte of this number is. -/
def byte (n : Nat) : Char := Char.ofNat (n % 256)

/-- The characters that a letter behind a backslash stands for. -/
def letters : List (Char × Char) :=
  [('\\', '\\'), ('a', '\x07'), ('b', '\x08'), ('f', '\x0c'), ('n', '\n'), ('r', '\r'),
    ('t', '\t'), ('v', '\x0b')]

/-- The characters that a letter behind a backslash stands for in output. -/
def outputLetters : List (Char × Char) := ('e', '\x1b') :: letters

/-- The character that the text behind a backslash spells where these letters mean something, and
what is left of the text.  A backslash that starts no escape stands for itself. -/
def oneOf (letters : List (Char × Char)) (cs : Chars) : Char × Chars :=
  match cs with
  | [] => ('\\', [])
  | c :: rest =>
    match octalDigit? c, letters.lookup c with
    | some _, _ =>
      let (n, rest) := octal 0 3 cs
      (byte n, rest)
    | none, some d => (d, rest)
    | none, none => ('\\', cs)

/-- The character that the text behind a backslash spells, and what is left of the text. -/
def one (cs : Chars) : Char × Chars := oneOf letters cs

/-- Replaces escapes behind what has been replaced, the last character first; the truth value says
whether an escape ends all output.  Octal numbers may have a zero more at their start.  Every step
takes a character. -/
def replaceFrom : Nat → Chars → Chars → Chars × Bool
  | 0, done, _ => (done.reverse, false)
  | _, done, [] => (done.reverse, false)
  | n + 1, done, '\\' :: cs =>
    match cs with
    | 'c' :: _ => (done.reverse, true)
    | '0' :: rest =>
      let (k, rest) := octal 0 3 rest
      replaceFrom n (byte k :: done) rest
    | _ =>
      let (c, rest) := oneOf outputLetters cs
      replaceFrom n (c :: done) rest
  | n + 1, done, c :: cs => replaceFrom n (c :: done) cs

/-- The text with its escapes replaced, and whether one of them ends all output. -/
def replace (cs : Chars) : Chars × Bool := replaceFrom cs.length [] cs

/-- A letter, one that means nothing, and an octal number. -/
example : replace "a\\tb\\x\\101".toList = ("a\tb\\xA".toList, false) := by decide +kernel

end ContractBuild.Escape
