/-!
# Text as bytes

Files, paths and command-line words hold bytes; messages hold text.  This module goes between
the two: `encode` writes text as UTF-8, `decodeLossy` reads any bytes as text and puts one
replacement character where a malformed part stands, and `decode?` reads only well-formed bytes.

Both readers are the same machine, run one byte at a time.  A malformed part is as long as it can
be while it still could have become a character, so the byte that rules it out is read again.
-/

namespace ContractBuild

/-- Raw bytes, as files, paths and command-line words hold them. -/
abbrev Bytes := List UInt8

namespace Utf8

/-! ## Writing -/

/-- The UTF-8 form of one character. -/
def encodeChar (c : Char) : Bytes :=
  let n := c.toNat
  if n < 0x80 then [n.toUInt8]
  else if n < 0x800 then [(0xC0 + n / 64).toUInt8, (0x80 + n % 64).toUInt8]
  else if n < 0x10000 then
    [(0xE0 + n / 4096).toUInt8, (0x80 + n / 64 % 64).toUInt8, (0x80 + n % 64).toUInt8]
  else
    [(0xF0 + n / 262144).toUInt8, (0x80 + n / 4096 % 64).toUInt8,
      (0x80 + n / 64 % 64).toUInt8, (0x80 + n % 64).toUInt8]

/-- The UTF-8 form of a text. -/
def encode (s : List Char) : Bytes := s.flatMap encodeChar

/-! ## Reading -/

/-- Where a reader stands between two bytes. -/
inductive State
  /-- Between characters. -/
  | ready
  /-- Inside a character: the bits read so far, the continuation bytes still owed after the next
  one, and the least and greatest value that the next one may have. -/
  | inside (bits owed : Nat) (least greatest : UInt8)
  deriving DecidableEq, Repr

/-- What one byte adds: characters read, where `none` stands for a malformed part, and the state
after it. -/
abbrev Reading := List (Option Char) × State

/-- Reads a byte that starts a character.  The bounds on the second byte rule out overlong forms,
surrogates and values above U+10FFFF. -/
def start (b : UInt8) : Reading :=
  if b < 0x80 then ([some (Char.ofNat b.toNat)], .ready)
  else if b < 0xC2 then ([none], .ready)
  else if b < 0xE0 then ([], .inside (b.toNat - 0xC0) 0 0x80 0xBF)
  else if b < 0xF0 then
    ([], .inside (b.toNat - 0xE0) 1 (if b = 0xE0 then 0xA0 else 0x80)
      (if b = 0xED then 0x9F else 0xBF))
  else if b < 0xF5 then
    ([], .inside (b.toNat - 0xF0) 2 (if b = 0xF0 then 0x90 else 0x80)
      (if b = 0xF4 then 0x8F else 0xBF))
  else ([none], .ready)

/-- Reads one byte. -/
def step : State → UInt8 → Reading
  | .ready, b => start b
  | .inside bits owed least greatest, b =>
    if least ≤ b ∧ b ≤ greatest then
      let bits := bits * 64 + (b.toNat - 0x80)
      match owed with
      | 0 => ([some (Char.ofNat bits)], .ready)
      | owed + 1 => ([], .inside bits owed 0x80 0xBF)
    else (none :: (start b).1, (start b).2)

/-- Reads bytes from a state on; what is unfinished at the end is malformed. -/
def readFrom : State → Bytes → List (Option Char)
  | .ready, [] => []
  | .inside .., [] => [none]
  | s, b :: bs => (step s b).1 ++ readFrom (step s b).2 bs

/-- The characters of some bytes, `none` for each malformed part. -/
def read (bs : Bytes) : List (Option Char) := readFrom .ready bs

/-- What is shown for a malformed part. -/
def replacement : Char := '\uFFFD'

/-- The text of any bytes, with one replacement character for each malformed part. -/
def decodeLossy (bs : Bytes) : List Char := (read bs).map (·.getD replacement)

/-- The characters of a reading without malformed parts. -/
def wellFormed? : List (Option Char) → Option (List Char)
  | [] => some []
  | none :: _ => none
  | some c :: r => (wellFormed? r).map (c :: ·)

/-- The text of bytes that are well-formed throughout. -/
def decode? (bs : Bytes) : Option (List Char) := wellFormed? (read bs)

@[simp] theorem encode_nil : encode [] = [] := rfl

@[simp] theorem encode_cons (c : Char) (s : List Char) :
    encode (c :: s) = encodeChar c ++ encode s := rfl

@[simp] theorem encode_append (s t : List Char) : encode (s ++ t) = encode s ++ encode t :=
  List.flatMap_append

/-- What reads well is shown as it reads. -/
theorem decodeLossy_eq_of_decode? {bs : Bytes} {s : List Char} (h : decode? bs = some s) :
    decodeLossy bs = s := by
  unfold decode? at h
  unfold decodeLossy
  generalize read bs = r at h
  induction r generalizing s with
  | nil => simpa [wellFormed?] using h
  | cons c r ih =>
    cases c with
    | none => simp [wellFormed?] at h
    | some c =>
      obtain ⟨t, ht, rfl⟩ := Option.map_eq_some_iff.1 h
      simp [ih ht]

end Utf8

namespace Bytes

/-- The bytes of a text. -/
def ofString (s : String) : Bytes := Utf8.encode s.toList

/-- The text that stands for bytes in a message. -/
def display (bs : Bytes) : String := String.ofList (Utf8.decodeLossy bs)

/-- The text of well-formed bytes. -/
def toString? (bs : Bytes) : Option String := (Utf8.decode? bs).map String.ofList

/-- The decimal digits of a number. -/
def ofNat (n : Nat) : Bytes := ofString (toString n)

end Bytes

end ContractBuild
