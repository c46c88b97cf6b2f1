import ContractBuild.Posix.Text.Chars

/-!
# Characters of several bytes

Text in UTF-8 has characters of several bytes.  `read` goes from one character for each byte to the
characters that are meant, and `write` goes back.  A byte that belongs to no character stays as it
is, so characters below 256 that are not ASCII are always such bytes; the characters that are meant
by these numbers have another place.
-/

namespace ContractBuild.Wide

/-! ## Reading and writing -/

/-- How far the characters of one byte's numbers are moved. -/
def distance : Nat := 0x10FE00

/-- A character in its place. -/
def placed (c : Char) : Char :=
  if 0x80 ≤ c.toNat && c.toNat < 0x100 then Char.ofNat (c.toNat + distance) else c

/-- The character in a place. -/
def unplaced (c : Char) : Char :=
  if distance + 0x80 ≤ c.toNat && c.toNat < distance + 0x100 then Char.ofNat (c.toNat - distance)
  else c

/-- Whether a character is more than a byte. -/
def isWide (c : Char) : Bool := 0x100 ≤ c.toNat

/-- How many bytes the character has that starts with this one. -/
def lengthAt (b : Char) : Nat := if b.toNat < 0xE0 then 2 else if b.toNat < 0xF0 then 3 else 4

/-- The characters that bytes mean.  Every step takes a byte. -/
def readFrom : Nat → Chars → Chars
  | 0, _ => []
  | _, [] => []
  | n + 1, c :: cs =>
    if c < '\x80' then c :: readFrom n cs
    else
      let k := lengthAt c - 1
      match Utf8.decode? (Chars.toBytes (c :: cs.take k)) with
      | some [d] => placed d :: readFrom n (cs.drop k)
      | _ => c :: readFrom n cs

/-- The characters that bytes mean. -/
def read (cs : Chars) : Chars := if cs.all (· < '\x80') then cs else readFrom cs.length cs

/-- The bytes of one character. -/
def writeChar (c : Char) : Chars :=
  if isWide c then Chars.ofBytes (Utf8.encodeChar (unplaced c)) else [c]

/-- The bytes of some characters. -/
def write (cs : Chars) : Chars := if cs.all (!isWide ·) then cs else cs.flatMap writeChar

/-! ## Kinds of characters -/

/-- Whether a number lies in one of some ranges. -/
def isIn (ranges : List (Nat × Nat)) (n : Nat) : Bool := ranges.any fun r ↦ r.1 ≤ n && n ≤ r.2

/-- The characters that take no room of their own. -/
def zeroRanges : List (Nat × Nat) :=
  [(0x300, 0x36F), (0x483, 0x489), (0x591, 0x5BD), (0x610, 0x61A), (0x64B, 0x65F),
    (0x200B, 0x200F), (0x202A, 0x202E), (0x2060, 0x2064), (0x20D0, 0x20F0), (0xFE00, 0xFE0F),
    (0xFE20, 0xFE2F), (0xFEFF, 0xFEFF)]

/-- The characters that take double room. -/
def doubleRanges : List (Nat × Nat) :=
  [(0x1100, 0x115F), (0x231A, 0x231B), (0x23E9, 0x23EC), (0x2E80, 0x303E), (0x3041, 0x33FF),
    (0x3400, 0x4DBF), (0x4E00, 0x9FFF), (0xA000, 0xA4CF), (0xAC00, 0xD7A3), (0xF900, 0xFAFF),
    (0xFE30, 0xFE6F), (0xFF00, 0xFF60), (0xFFE0, 0xFFE6), (0x1F300, 0x1F64F),
    (0x1F680, 0x1F6FF), (0x1F900, 0x1F9FF), (0x20000, 0x3FFFD)]

/-- The characters of more than a byte that are letters. -/
def letterRanges : List (Nat × Nat) :=
  [(0xAA, 0xAA), (0xB5, 0xB5), (0xBA, 0xBA), (0xC0, 0xD6), (0xD8, 0xF6), (0xF8, 0x2C1),
    (0x370, 0x373), (0x376, 0x377), (0x37B, 0x37D), (0x37F, 0x37F), (0x386, 0x386),
    (0x388, 0x3FF), (0x400, 0x481), (0x48A, 0x556), (0x561, 0x587), (0x5D0, 0x5EA),
    (0x620, 0x64A), (0x904, 0x939), (0x1E00, 0x1FFF), (0x2C00, 0x2DFF), (0x3041, 0x3096),
    (0x30A1, 0x30FA), (0x3105, 0x312F), (0x3400, 0x4DBF), (0x4E00, 0x9FFF), (0xA000, 0xA48C),
    (0xAC00, 0xD7A3), (0xF900, 0xFAFF), (0xFF21, 0xFF3A), (0xFF41, 0xFF5A), (0x20000, 0x3FFFD)]

/-- Whether a character of more than a byte is a blank. -/
def isSpace (c : Char) : Bool :=
  isIn [(0x1680, 0x1680), (0x2000, 0x2006), (0x2008, 0x200A), (0x2028, 0x2029), (0x205F, 0x205F),
    (0x3000, 0x3000)] c.toNat

/-- Whether a character of more than a byte is a letter. -/
def isLetter (c : Char) : Bool := isWide c && isIn letterRanges (unplaced c).toNat

/-- Whether a character has a form of its own. -/
def isPrintable (c : Char) : Bool :=
  if isWide c then !isIn [(0x80, 0x9F), (0x2028, 0x2029), (0xE000, 0xF8FF)] (unplaced c).toNat
  else ' ' ≤ c && c < '\x7f'

/-- How much room a character takes; characters without a form of their own take none. -/
def width (c : Char) : Nat :=
  let n := (unplaced c).toNat
  if !isPrintable c || (isWide c && isIn zeroRanges n) then 0
  else if isWide c && isIn doubleRanges n then 2 else 1

/-- The capital letters with the distance to their small ones. -/
def capitals : List ((Nat × Nat) × Nat) :=
  [((0xC0, 0xD6), 32), ((0xD8, 0xDE), 32), ((0x391, 0x3A1), 32), ((0x3A3, 0x3AB), 32),
    ((0x410, 0x42F), 32), ((0x400, 0x40F), 80), ((0x531, 0x556), 48), ((0xFF21, 0xFF3A), 32)]

/-- Where capital letters and small ones take turns, beginning with a capital one. -/
def pairRanges : List (Nat × Nat) :=
  [(0x100, 0x12F), (0x132, 0x137), (0x14A, 0x177), (0x1DE, 0x1EF), (0x1F8, 0x21F),
    (0x222, 0x233), (0x3D8, 0x3EF), (0x460, 0x481), (0x48A, 0x4BF), (0x4D0, 0x52F),
    (0x1E00, 0x1E95), (0x1EA0, 0x1EFF)]

/-- The small letter for a character. -/
def toLower (c : Char) : Char :=
  if !isWide c then c.toLower
  else
    let n := (unplaced c).toNat
    match capitals.find? fun e ↦ e.1.1 ≤ n && n ≤ e.1.2 with
    | some e => placed (Char.ofNat (n + e.2))
    | none => if isIn pairRanges n && n % 2 = 0 then Char.ofNat (n + 1) else c

/-- The capital letter for a character. -/
def toUpper (c : Char) : Char :=
  if !isWide c then c.toUpper
  else
    let n := (unplaced c).toNat
    match capitals.find? fun e ↦ e.1.1 + e.2 ≤ n && n ≤ e.1.2 + e.2 with
    | some e => placed (Char.ofNat (n - e.2))
    | none => if isIn pairRanges n && n % 2 = 1 then Char.ofNat (n - 1) else c

/-- Whether a character of more than a byte belongs to a class of this name. -/
def inClass (name : Chars) (c : Char) : Bool :=
  match Chars.toString name with
  | "alpha" | "alnum" => isLetter c
  | "upper" => toLower c ≠ c
  | "lower" => toUpper c ≠ c
  | "space" | "blank" => isSpace c
  | "punct" => isPrintable c && !isLetter c && !isSpace c
  | "print" => isPrintable c
  | "graph" => isPrintable c && !isSpace c
  | "cntrl" => !isPrintable c
  | _ => false

/-- A byte alone stays, and so does ASCII. -/
example : write (read "a\xc3\xa9\xff".toList) = "a\xc3\xa9\xff".toList ∧
    (read "\xc3\xa9\xff".toList).length = 2 := by decide +kernel

/-- The small letter for a capital one. -/
example : write ((read "\xc3\x89".toList).map toLower) = "\xc3\xa9".toList := by decide +kernel

end ContractBuild.Wide
