import ContractBuild.Posix.Text.Wide

/-!
# Messages

Programs put names into what they say, in quotes so that nobody mistakes a part of a name for a
part of the message.  How that looks depends on the characters that the reader knows: where text is
UTF-8 its characters have forms of their own and quotes are curved.

So a message is text in which names stand between marks, each with the way in which it is quoted,
and `Message.render` puts the quotes in.  A mark is no byte, and a name is bytes, so no name is
mistaken for a mark.
-/

namespace ContractBuild.Utility

/-- How a name is quoted. -/
inductive Quoting
  /-- As a word for a shell. -/
  | always
  /-- As a word for a shell if that needs quotes. -/
  | needed
  /-- With the quotes of a text. -/
  | cited
  deriving DecidableEq, Repr

namespace Quoting

/-- The mark in front of a name. -/
def mark : Quoting → Char
  | .always => '\uE000'
  | .needed => '\uE001'
  | .cited => '\uE002'

/-- The mark behind a name. -/
def lastMark : Char := '\uE003'

/-- The way of quoting that a mark stands for. -/
def ofMark? (c : Char) : Option Quoting := [always, needed, cited].find? (·.mark = c)

/-! ## Escapes -/

/-- A byte without a form of its own as an escape. -/
def escaped (c : Char) : Chars :=
  match c with
  | '\n' => "\\n".toList
  | '\t' => "\\t".toList
  | '\r' => "\\r".toList
  | '\x07' => "\\a".toList
  | '\x08' => "\\b".toList
  | '\x0c' => "\\f".toList
  | '\x0b' => "\\v".toList
  | c =>
    let digits := Nat.toDigits 8 c.toNat
    '\\' :: List.replicate (3 - digits.length) '0' ++ digits

/-- A character without a form of its own as escapes. -/
def escapes (c : Char) : Chars := (Wide.writeChar c).flatMap escaped

/-! ## Words for a shell -/

/-- Whether a character means something to a shell. -/
def isSpecial (c : Char) : Bool :=
  " !\"$&()*:;<=>?[\\^|\x60'".toList.contains c || !Wide.isPrintable c

/-- The inside of a name in single quotes, where `isEscaping` says whether escapes are written.
Quotes and characters without a form of their own interrupt it. -/
def wordInside : Bool → Chars → Chars
  | _, [] => []
  | isEscaping, c :: cs =>
    if !Wide.isPrintable c then
      (if isEscaping then [] else "'$'".toList) ++ escapes c ++ wordInside true cs
    else
      (if isEscaping then "''".toList else []) ++
        (if c = '\'' then "'\\''".toList else [c]) ++ wordInside false cs

/-- A name as a word in quotes. -/
def word (cs : Chars) : Chars :=
  let isPlain := !cs.any fun c ↦ !Wide.isPrintable c || "\"$\\\x60!".toList.contains c
  if cs.contains '\'' && isPlain then '"' :: cs ++ ['"']
  else '\'' :: wordInside false cs ++ ['\'']

/-- Whether a name needs quotes to be a word. -/
def isNeeded (cs : Chars) : Bool :=
  cs = [] || cs.head? = some '#' || cs.head? = some '~' || cs = ['\x7b'] || cs = ['\x7d'] ||
    cs.any isSpecial

/-! ## Quotes of a text -/

/-- A name with the quotes of a text, before the first one and behind the last one. -/
def citation (opening closing : Char) (cs : Chars) : Chars :=
  let inside := cs.flatMap fun c ↦
    if c = '\\' || c = closing then ['\\', c]
    else if Wide.isPrintable c then [c] else escapes c
  opening :: inside ++ [closing]

/-- A name as it is quoted, where text may be UTF-8. -/
def apply (isWide : Bool) (name : Chars) (q : Quoting) : Chars :=
  let bytes := Wide.write name
  let cs := if isWide then Wide.read bytes else bytes
  Wide.write (match q with
    | .always => word cs
    | .needed => if isNeeded cs then word cs else cs
    | .cited => if isWide then citation '‘' '’' cs else citation '\'' '\'' cs)

end Quoting

/-- A name in quotes, as a word for a shell. -/
def quoted (cs : Chars) : Chars := Quoting.always.mark :: cs ++ [Quoting.lastMark]

/-- A name, in quotes if a shell would need them. -/
def shown (cs : Chars) : Chars := Quoting.needed.mark :: cs ++ [Quoting.lastMark]

/-- A name with the quotes of a text. -/
def cited (cs : Chars) : Chars := Quoting.cited.mark :: cs ++ [Quoting.lastMark]

/-! ## Rendering -/

/-- How far a message has been rendered. -/
structure Rendering where
  /-- What has been rendered, the last character first. -/
  done : Chars
  /-- The name that has been entered, the last character first, with how it is quoted. -/
  name : Option (Quoting × Chars)

/-- Renders one more character. -/
def Rendering.step (isWide : Bool) (r : Rendering) (c : Char) : Rendering :=
  match r.name, Quoting.ofMark? c with
  | none, none => ⟨(Wide.writeChar c).reverse ++ r.done, none⟩
  | none, some q => ⟨r.done, some (q, [])⟩
  | some (q, name), _ =>
    if c = Quoting.lastMark then ⟨(q.apply isWide name.reverse).reverse ++ r.done, none⟩
    else ⟨r.done, some (q, c :: name)⟩

/-- A message as it is said, where text may be UTF-8. -/
def render (isWide : Bool) (message : Chars) : Chars :=
  (message.foldl (Rendering.step isWide) ⟨[], none⟩).done.reverse

/-- Quotes in a name, and a character without a form of its own. -/
example : (render false (quoted "a'b".toList), render false (quoted "a\nb".toList),
    render false (shown "a-b".toList), render false (cited "a'b".toList)) =
    ("\"a'b\"".toList, "'a'$'\\n''b'".toList, "a-b".toList, "'a\\'b'".toList) := by decide +kernel

/-!
## Styles for names

Names in a listing are written as they are, or quoted so that nothing in them is mistaken for
something else.
-/

/-- How names are written. -/
inductive NameStyle
  /-- As they are. -/
  | literal
  /-- As words for a shell if that needs quotes, without escapes. -/
  | shell
  /-- As words for a shell in quotes, without escapes. -/
  | shellAlways
  /-- As words for a shell if that needs quotes. -/
  | word
  /-- As words for a shell in quotes. -/
  | wordAlways
  /-- In double quotes with escapes. -/
  | double
  /-- In double quotes with escapes, if it has any. -/
  | doubleMaybe
  /-- With escapes. -/
  | escape
  /-- With the quotes of a text. -/
  | citation
  /-- With the quotes of a text, double ones where only ASCII is known. -/
  | doubleCitation
  deriving DecidableEq, Repr

namespace NameStyle

/-- The words for the styles. -/
def words : List (String × NameStyle) :=
  [("literal", literal), ("shell", shell), ("shell-always", shellAlways), ("shell-escape", word),
    ("shell-escape-always", wordAlways), ("c", double), ("c-maybe", doubleMaybe),
    ("escape", escape), ("locale", citation), ("clocale", doubleCitation)]

/-- Characters with backslashes in front of those that need them. -/
def escapedInside (special : Chars) (cs : Chars) : Chars :=
  cs.flatMap fun c ↦
    if c = '\\' || special.contains c then ['\\', c]
    else if Wide.isPrintable c then [c] else Quoting.escapes c

/-- A name in a style.  Characters that are special besides are escaped; `hides` says that
characters without a form of their own are not shown. -/
def apply (s : NameStyle) (isWide hides : Bool) (special name : Chars) : Chars :=
  let cs := if isWide then Wide.read name else name
  let masked := if hides then cs.map fun c ↦ if Wide.isPrintable c then c else '?' else cs
  let inSingle := fun (cs : Chars) ↦
    if cs.contains '\'' && !cs.any ("\"$\\\x60!".toList.contains ·) then '"' :: cs ++ ['"']
    else '\'' :: (cs.flatMap fun c ↦ if c = '\'' then "'\\''".toList else [c]) ++ ['\'']
  let plainly := fun (c : Char) ↦ if c = ':' && !special.contains c then 'a' else c
  let isMarked := fun (cs : Chars) ↦ Quoting.isNeeded (cs.map fun c ↦
    if Wide.isPrintable c then plainly c else 'a')
  Wide.write (match s with
    | .literal => masked
    | .shell => if isMarked masked || masked.contains '\n' then inSingle masked else masked
    | .shellAlways => inSingle masked
    | .word => if Quoting.isNeeded (cs.map plainly) then Quoting.word cs else cs
    | .wordAlways => Quoting.word cs
    | .double => '"' :: escapedInside ('"' :: special.filter (· ≠ ' ')) cs ++ ['"']
    | .doubleMaybe =>
      let inside := escapedInside ['"'] cs
      if inside = cs then cs else '"' :: inside ++ ['"']
    | .escape => escapedInside special cs
    | .citation => if isWide then Quoting.citation '‘' '’' cs else Quoting.citation '\'' '\'' cs
    | .doubleCitation =>
      if isWide then Quoting.citation '‘' '’' cs else Quoting.citation '"' '"' cs)

/-- A blank and a byte that is no character. -/
example : apply .escape false false [' '] "a \xff".toList = "a\\ \\377".toList := by
  decide +kernel

end NameStyle

end ContractBuild.Utility
