import ContractBuild.Posix.Text.Chars

/-!
# Numbers as bytes

A number takes a fixed count of bytes, the least significant one first or the most significant one
first.  `toLittle` and `ofLittle` go between the two, and what fits into its bytes comes back.
-/

namespace ContractBuild.Bytes

/-- The number that bytes spell, the least significant one first. -/
def ofLittle : Bytes → Nat
  | [] => 0
  | b :: bs => b.toNat + 256 * ofLittle bs

/-- The number that bytes spell, the most significant one first. -/
def ofBig (bs : Bytes) : Nat := ofLittle bs.reverse

/-- A number in so many bytes, the least significant one first. -/
def toLittle : Nat → Nat → Bytes
  | 0, _ => []
  | k + 1, n => n.toUInt8 :: toLittle k (n / 256)

/-- A number in so many bytes, the most significant one first. -/
def toBig (k n : Nat) : Bytes := (toLittle k n).reverse

/-- Bytes in blocks of one size; the last one can be shorter.  Every step takes a byte at least. -/
def blocksFrom (size : Nat) : Nat → Bytes → List Bytes
  | 0, _ => []
  | _, [] => []
  | n + 1, bs => bs.take (max 1 size) :: blocksFrom size n (bs.drop (max 1 size))

/-- Bytes in blocks of one size; the last one can be shorter. -/
def blocks (size : Nat) (bs : Bytes) : List Bytes := blocksFrom size bs.length bs

/-- The hexadecimal digits of some bytes. -/
def hexadecimal (bs : Bytes) : Chars :=
  bs.flatMap fun b ↦ [Nat.digitChar (b.toNat / 16), Nat.digitChar (b.toNat % 16)]

end ContractBuild.Bytes

/-!
## Bytes as text

Bytes can be written with few characters, each of which stands for some bits.  Characters come in
groups that stand for whole bytes, and a group that is not full is filled up.
-/

namespace ContractBuild

/-- A way of writing bytes as text. -/
structure BinaryText where
  /-- The characters, each with its number as its place. -/
  alphabet : Chars
  /-- How many bits a character stands for. -/
  bits : Nat
  /-- How many characters a group has. -/
  group : Nat
  /-- Groups that are not full say nothing at all. -/
  isWhole : Bool
  deriving DecidableEq, Repr

namespace BinaryText

/-- The character that fills up groups. -/
def filler : Char := '='

/-- Capital letters. -/
def capitals : Chars := "ABCDEFGHIJKLMNOPQRSTUVWXYZ".toList

/-- Digits. -/
def digits : Chars := "0123456789".toList

/-- Letters and digits, the characters for 62 numbers. -/
def alphanumerics : Chars := capitals ++ capitals.map Char.toLower ++ digits

/-- Six bits for a character. -/
def base64 : BinaryText := ⟨alphanumerics ++ ['+', '/'], 6, 4, false⟩

/-- Six bits for a character, without those that mean something in addresses. -/
def base64url : BinaryText := ⟨alphanumerics ++ ['-', '_'], 6, 4, false⟩

/-- Five bits for a character. -/
def base32 : BinaryText := ⟨capitals ++ "234567".toList, 5, 8, true⟩

/-- Five bits for a character, in the order of digits. -/
def base32hex : BinaryText := ⟨digits ++ capitals.take 22, 5, 8, true⟩

/-- Four bits for a character. -/
def base16 : BinaryText := ⟨digits ++ capitals.take 6, 4, 2, true⟩

/-- One bit for a character. -/
def base2 : BinaryText := ⟨['0', '1'], 1, 8, true⟩

/-- How many bytes a group stands for. -/
def groupBytes (t : BinaryText) : Nat := t.group * t.bits / 8

/-- How many characters of a group tell its first bytes. -/
def needed (t : BinaryText) (count : Nat) : Nat := (8 * count + t.bits - 1) / t.bits

/-! ## Writing -/

/-- The first characters of a number that fills a group. -/
def groupChars (t : BinaryText) (n count : Nat) : Chars :=
  (List.range count).map fun i ↦
    t.alphabet.getD (n >>> (t.bits * (t.group - 1 - i)) % (1 <<< t.bits)) filler

/-- A group for some bytes. -/
def encodeGroup (t : BinaryText) (bs : Bytes) : Chars :=
  let n := Bytes.ofBig (bs ++ List.replicate (t.groupBytes - bs.length) 0)
  let count := t.needed bs.length
  t.groupChars n count ++ List.replicate (t.group - count) filler

/-- The text for some bytes. -/
def encode (t : BinaryText) (bs : Bytes) : Chars :=
  (Bytes.blocks t.groupBytes bs).flatMap t.encodeGroup

/-! ## Reading -/

/-- The number of a character. -/
def value? (t : BinaryText) (c : Char) : Option Nat := t.alphabet.findIdx? (· = c)

/-- The byte with a place in a group with these numbers. -/
def byteAt (t : BinaryText) (ns : List Nat) (place : Nat) : UInt8 :=
  let n := ns.foldl (fun n d ↦ n * (1 <<< t.bits) + d) 0
  (n >>> (t.bits * ns.length - 8 * (place + 1))).toUInt8

/-- The bytes of a group, and whether it is right; a group that is not can say some of them. -/
def decodeGroup (t : BinaryText) (cs : Chars) : Bytes × Bool :=
  let ns := (cs.map t.value?).takeWhile (·.isSome) |>.filterMap id
  let rest := cs.drop ns.length
  let count := ns.length * t.bits / 8
  let isFull := cs.length = t.group
  let bytes := (List.range count).map fun i ↦ t.byteAt (ns.take (t.needed (i + 1))) i
  if t.isWhole && !isFull then ([], false)
  else (bytes, isFull && ns ≠ [] && rest.all (· = filler) && t.needed count = ns.length)

/-- The bytes of groups, and whether all are right; nothing is read behind a group that is not.
Every step takes a character. -/
def decodeGroups (t : BinaryText) : Nat → Chars → Bytes × Bool
  | 0, _ => ([], true)
  | _, [] => ([], true)
  | n + 1, cs =>
    match t.decodeGroup (cs.take t.group) with
    | (bs, true) =>
      let (rest, isRight) := decodeGroups t n (cs.drop t.group)
      (bs ++ rest, isRight)
    | (bs, false) => (bs, false)

/-- The bytes that a text spells, and whether it is right; line feeds mean nothing. -/
def decode (t : BinaryText) (cs : Chars) : Bytes × Bool :=
  let cs := cs.filter (· ≠ '\n')
  t.decodeGroups cs.length cs

/-- The same text without characters that mean nothing. -/
def cleaned (t : BinaryText) (cs : Chars) : Chars :=
  cs.filter fun c ↦ (t.value? c).isSome || c = filler

/-- Groups of different lengths. -/
example : base64.encode [97, 98, 99, 255] = "YWJj/w==".toList ∧
    base32.encode [97, 98, 99] = "MFRGG===".toList ∧
    base64.decode "YQ==YWI".toList = ([97, 97, 98], false) := by decide +kernel

end BinaryText

end ContractBuild
