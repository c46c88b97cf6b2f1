import ContractBuild.Posix.Text.Octets

/-!
# Checksums and digests

Sums of few bits, and digests that work on blocks of one size: MD5, the secure hash algorithms and
BLAKE2.
-/

/-!
## Padding

Digests work on blocks of one size.  A message gets a bit that is set, then bits that are not, and
its length in bits at the end of the last block.
-/

namespace ContractBuild.Checksum

/-- How many bytes without a bit that is set complete a block, behind a message of so many bytes,
the bit behind it and a length of so many bytes. -/
def emptyBytes (size lengthSize length : Nat) : Nat :=
  (size - (length + 1 + lengthSize) % size) % size

/-- The blocks of a message; the function writes the length in bits. -/
def paddedBlocks (size lengthSize : Nat) (writeLength : Nat → Bytes) (bs : Bytes) : List Bytes :=
  Bytes.blocks size
    (bs ++ 0x80 :: List.replicate (emptyBytes size lengthSize bs.length) 0 ++
      writeLength (8 * bs.length))

/-- The words of a block, each of so many bytes; the function reads one of them. -/
def wordsOf (w size : Nat) (read : Bytes → Nat) (block : Bytes) : Array (BitVec w) :=
  ((Bytes.blocks size block).map fun bs ↦ BitVec.ofNat w (read bs)).toArray

end ContractBuild.Checksum

/-!
## Sums and cyclic checksums

Checksums of few bits: the remainder of a message as a polynomial, and two ways to add up its bytes.
-/

namespace ContractBuild.Checksum

/-! ### Remainders -/

/-- The polynomial that is divided by, without its first bit. -/
def divisor : BitVec 32 := 0x04C11DB7#32

/-- The remainder with one bit more. -/
def shiftRemainder (r : BitVec 32) : BitVec 32 := if r.msb then (r <<< 1) ^^^ divisor else r <<< 1

/-- The remainder with one byte more. -/
def addByte (r : BitVec 32) (b : UInt8) : BitVec 32 :=
  Nat.repeat shiftRemainder 8 (r ^^^ (BitVec.ofNat 32 b.toNat <<< 24))

/-- The bytes that tell how long a message is, as few as possible.  Every step takes a byte. -/
def lengthBytes : Nat → Nat → Bytes
  | 0, _ => []
  | k + 1, n => if n = 0 then [] else n.toUInt8 :: lengthBytes k (n / 256)

/-- The cyclic checksum of a message with its length. -/
def cyclic (bs : Bytes) : Nat :=
  (~~~((bs ++ lengthBytes 8 bs.length).foldl addByte 0)).toNat

/-! ### Sums -/

/-- The sum of the bytes in 16 bits, which are rotated before each of them. -/
def rotatingSum (bs : Bytes) : Nat :=
  (bs.foldl (fun (s : BitVec 16) b ↦ s.rotateRight 1 + BitVec.ofNat 16 b.toNat) 0).toNat

/-- The sum of the bytes, folded into 16 bits. -/
def foldedSum (bs : Bytes) : Nat :=
  let s := (bs.foldl (fun n b ↦ n + b.toNat) 0) % 0x100000000
  let r := s % 0x10000 + s / 0x10000
  r % 0x10000 + r / 0x10000

/-- Nothing, and three letters. -/
example : cyclic [] = 4294967295 ∧ cyclic [97, 98, 99] = 1219131554 ∧
    rotatingSum [97, 98, 99] = 16556 ∧ foldedSum [97, 98, 99] = 294 := by decide +kernel

end ContractBuild.Checksum

/-!
## MD5

A digest of 128 bits: four words of 32 bits, which every block stirs in 64 steps.
-/

namespace ContractBuild.Checksum.Md5

/-- The constants of the steps: the first 32 bits of the sine of every whole number from one on,
without its sign. -/
def constants : Array (BitVec 32) :=
  #[0xd76aa478#32, 0xe8c7b756#32, 0x242070db#32, 0xc1bdceee#32, 0xf57c0faf#32, 0x4787c62a#32,
    0xa8304613#32, 0xfd469501#32, 0x698098d8#32, 0x8b44f7af#32, 0xffff5bb1#32, 0x895cd7be#32,
    0x6b901122#32, 0xfd987193#32, 0xa679438e#32, 0x49b40821#32, 0xf61e2562#32, 0xc040b340#32,
    0x265e5a51#32, 0xe9b6c7aa#32, 0xd62f105d#32, 0x02441453#32, 0xd8a1e681#32, 0xe7d3fbc8#32,
    0x21e1cde6#32, 0xc33707d6#32, 0xf4d50d87#32, 0x455a14ed#32, 0xa9e3e905#32, 0xfcefa3f8#32,
    0x676f02d9#32, 0x8d2a4c8a#32, 0xfffa3942#32, 0x8771f681#32, 0x6d9d6122#32, 0xfde5380c#32,
    0xa4beea44#32, 0x4bdecfa9#32, 0xf6bb4b60#32, 0xbebfbc70#32, 0x289b7ec6#32, 0xeaa127fa#32,
    0xd4ef3085#32, 0x04881d05#32, 0xd9d4d039#32, 0xe6db99e5#32, 0x1fa27cf8#32, 0xc4ac5665#32,
    0xf4292244#32, 0x432aff97#32, 0xab9423a7#32, 0xfc93a039#32, 0x655b59c3#32, 0x8f0ccc92#32,
    0xffeff47d#32, 0x85845dd1#32, 0x6fa87e4f#32, 0xfe2ce6e0#32, 0xa3014314#32, 0x4e0811a1#32,
    0xf7537e82#32, 0xbd3af235#32, 0x2ad7d2bb#32, 0xeb86d391#32]

/-- How far a step rotates. -/
def rotation (i : Nat) : Nat :=
  let row := match i / 16 with
    | 0 => #[7, 12, 17, 22]
    | 1 => #[5, 9, 14, 20]
    | 2 => #[4, 11, 16, 23]
    | _ => #[6, 10, 15, 21]
  row.getD (i % 4) 0

/-- The four words between blocks. -/
structure State where
  /-- The first word. -/
  a : BitVec 32
  /-- The second word. -/
  b : BitVec 32
  /-- The third word. -/
  c : BitVec 32
  /-- The fourth word. -/
  d : BitVec 32

/-- The words in the beginning. -/
def State.start : State := ⟨0x67452301#32, 0xefcdab89#32, 0x98badcfe#32, 0x10325476#32⟩

/-- How a step mixes three words, and the number of the word of the block that it takes. -/
def mixed (s : State) (i : Nat) : BitVec 32 × Nat :=
  match i / 16 with
  | 0 => ((s.b &&& s.c) ||| (~~~s.b &&& s.d), i)
  | 1 => ((s.d &&& s.b) ||| (~~~s.d &&& s.c), (5 * i + 1) % 16)
  | 2 => (s.b ^^^ s.c ^^^ s.d, (3 * i + 5) % 16)
  | _ => (s.c ^^^ (s.b ||| ~~~s.d), (7 * i) % 16)

/-- One step. -/
def step (block : Array (BitVec 32)) (s : State) (i : Nat) : State :=
  let (f, k) := mixed s i
  let sum := s.a + f + constants.getD i 0 + block.getD k 0
  ⟨s.d, s.b + sum.rotateLeft (rotation i), s.b, s.c⟩

/-- The words behind a block. -/
def addBlock (s : State) (block : Bytes) : State :=
  let words := wordsOf 32 4 Bytes.ofLittle block
  let t := (List.range 64).foldl (step words) s
  ⟨s.a + t.a, s.b + t.b, s.c + t.c, s.d + t.d⟩

/-- The digest of a message. -/
def digest (bs : Bytes) : Bytes :=
  let s := (paddedBlocks 64 8 (Bytes.toLittle 8) bs).foldl addBlock .start
  [s.a, s.b, s.c, s.d].flatMap fun w ↦ Bytes.toLittle 4 w.toNat

end ContractBuild.Checksum.Md5

/-!
## Secure hash algorithms

The first of these digests has five words of 32 bits.  The others have eight words of 32 or 64 bits
and are alike but for the sizes; their constants are the first bits of roots of primes.
-/

namespace ContractBuild.Checksum

/-! ### Five words -/

namespace Sha1

/-- The five words between blocks. -/
structure State where
  /-- The first word. -/
  a : BitVec 32
  /-- The second word. -/
  b : BitVec 32
  /-- The third word. -/
  c : BitVec 32
  /-- The fourth word. -/
  d : BitVec 32
  /-- The fifth word. -/
  e : BitVec 32

/-- The words in the beginning. -/
def State.start : State :=
  ⟨0x67452301#32, 0xefcdab89#32, 0x98badcfe#32, 0x10325476#32, 0xc3d2e1f0#32⟩

/-- The words of all steps: those of the block, and each further one from four before it. -/
def schedule (block : Array (BitVec 32)) : Array (BitVec 32) :=
  (List.range 64).foldl (fun ws i ↦
    let before := fun k ↦ ws.getD (i + 16 - k) 0
    ws.push ((before 3 ^^^ before 8 ^^^ before 14 ^^^ before 16).rotateLeft 1)) block

/-- How a step mixes three words, and its constant. -/
def mixed (s : State) (i : Nat) : BitVec 32 × BitVec 32 :=
  match i / 20 with
  | 0 => ((s.b &&& s.c) ||| (~~~s.b &&& s.d), 0x5a827999#32)
  | 1 => (s.b ^^^ s.c ^^^ s.d, 0x6ed9eba1#32)
  | 2 => ((s.b &&& s.c) ||| (s.b &&& s.d) ||| (s.c &&& s.d), 0x8f1bbcdc#32)
  | _ => (s.b ^^^ s.c ^^^ s.d, 0xca62c1d6#32)

/-- One step. -/
def step (words : Array (BitVec 32)) (s : State) (i : Nat) : State :=
  let (f, k) := mixed s i
  ⟨s.a.rotateLeft 5 + f + s.e + k + words.getD i 0, s.a, s.b.rotateLeft 30, s.c, s.d⟩

/-- The words behind a block. -/
def addBlock (s : State) (block : Bytes) : State :=
  let words := schedule (wordsOf 32 4 Bytes.ofBig block)
  let t := (List.range 80).foldl (step words) s
  ⟨s.a + t.a, s.b + t.b, s.c + t.c, s.d + t.d, s.e + t.e⟩

/-- The digest of a message. -/
def digest (bs : Bytes) : Bytes :=
  let s := (paddedBlocks 64 8 (Bytes.toBig 8) bs).foldl addBlock .start
  [s.a, s.b, s.c, s.d, s.e].flatMap fun w ↦ Bytes.toBig 4 w.toNat

end Sha1

/-! ### Roots of primes -/

/-- Whether a number is a prime. -/
def isPrime (n : Nat) : Bool := 2 ≤ n && (List.range n).all fun d ↦ d < 2 || n % d ≠ 0

/-- The first primes. -/
def primes : List Nat := (List.range 410).filter isPrime

/-- The whole part of the root of a degree, which has so many bits. -/
def rootFloor (degree bits n : Nat) : Nat :=
  (List.range bits).reverse.foldl (fun r i ↦
    if Nat.pow (r + 1 <<< i) degree ≤ n then r + 1 <<< i else r) 0

/-- The first bits behind the point of the root of a number below 1024. -/
def rootBits (degree bits n : Nat) : Nat :=
  rootFloor degree (bits + 5) (n <<< (degree * bits)) % (1 <<< bits)

/-- The root of two. -/
example : rootBits 2 8 2 = 0x6a := by decide +kernel

/-! ### Eight words -/

namespace Sha2

/-- The sizes of a digest with words of `w` bits. -/
structure Family (w : Nat) where
  /-- The constants of the steps, one for each. -/
  constants : List (BitVec w)
  /-- How the first word is rotated. -/
  first : Nat × Nat × Nat
  /-- How the fifth word is rotated. -/
  fifth : Nat × Nat × Nat
  /-- How an early word of the block is rotated twice and shifted. -/
  early : Nat × Nat × Nat
  /-- How a late word of the block is rotated twice and shifted. -/
  late : Nat × Nat × Nat

/-- The sizes for words of 32 bits. -/
def family32 : Family 32 where
  constants := (primes.take 64).map fun p ↦ BitVec.ofNat 32 (rootBits 3 32 p)
  first := (2, 13, 22)
  fifth := (6, 11, 25)
  early := (7, 18, 3)
  late := (17, 19, 10)

/-- The sizes for words of 64 bits. -/
def family64 : Family 64 where
  constants := (primes.take 80).map fun p ↦ BitVec.ofNat 64 (rootBits 3 64 p)
  first := (28, 34, 39)
  fifth := (14, 18, 41)
  early := (1, 8, 7)
  late := (19, 61, 6)

/-- The first bits of the square roots of the first eight primes. -/
def firstRoots (w : Nat) : List (BitVec w) :=
  (primes.take 8).map fun p ↦ BitVec.ofNat w (rootBits 2 w p)

/-- The last bits of the first 64 of the square roots of the next eight primes. -/
def nextRoots (w : Nat) : List (BitVec w) :=
  ((primes.drop 8).take 8).map fun p ↦ BitVec.ofNat w (rootBits 2 64 p)

variable {w : Nat}

/-- A word rotated in three ways. -/
def rotated (r : Nat × Nat × Nat) (x : BitVec w) : BitVec w :=
  x.rotateRight r.1 ^^^ x.rotateRight r.2.1 ^^^ x.rotateRight r.2.2

/-- A word rotated in two ways and shifted. -/
def shifted (r : Nat × Nat × Nat) (x : BitVec w) : BitVec w :=
  x.rotateRight r.1 ^^^ x.rotateRight r.2.1 ^^^ (x >>> r.2.2)

/-- The words of all steps: those of the block, and each further one from four before it. -/
def schedule (f : Family w) (block : Array (BitVec w)) : Array (BitVec w) :=
  (List.range (f.constants.length - 16)).foldl (fun ws i ↦
    let before := fun k ↦ ws.getD (i + 16 - k) 0
    ws.push (shifted f.late (before 2) + before 7 + shifted f.early (before 15) + before 16)) block

/-- One step with its constant and its word. -/
def step (f : Family w) (s : List (BitVec w)) (k : BitVec w × BitVec w) : List (BitVec w) :=
  match s with
  | [a, b, c, d, e, g, h, i] =>
    let x := i + rotated f.fifth e + ((e &&& g) ^^^ (~~~e &&& h)) + k.1 + k.2
    let y := rotated f.first a + ((a &&& b) ^^^ (a &&& c) ^^^ (b &&& c))
    [x + y, a, b, c, d + x, e, g, h]
  | s => s

/-- The words behind a block. -/
def addBlock (f : Family w) (s : List (BitVec w)) (block : Bytes) : List (BitVec w) :=
  let words := schedule f (wordsOf w (w / 8) Bytes.ofBig block)
  let t := (f.constants.zip words.toList).foldl (step f) s
  List.zipWith (· + ·) s t

/-- The digest of a message, from words in the beginning. -/
def digest (f : Family w) (start : List (BitVec w)) (bs : Bytes) : Bytes :=
  let s := (paddedBlocks (2 * w) (w / 4) (Bytes.toBig (w / 4)) bs).foldl (addBlock f) start
  s.flatMap fun x ↦ Bytes.toBig (w / 8) x.toNat

end Sha2

/-- The digest of 224 bits. -/
def sha224 (bs : Bytes) : Bytes := (Sha2.digest Sha2.family32 (Sha2.nextRoots 32) bs).take 28

/-- The digest of 256 bits. -/
def sha256 (bs : Bytes) : Bytes := Sha2.digest Sha2.family32 (Sha2.firstRoots 32) bs

/-- The digest of 384 bits. -/
def sha384 (bs : Bytes) : Bytes := (Sha2.digest Sha2.family64 (Sha2.nextRoots 64) bs).take 48

/-- The digest of 512 bits. -/
def sha512 (bs : Bytes) : Bytes := Sha2.digest Sha2.family64 (Sha2.firstRoots 64) bs

end ContractBuild.Checksum

/-!
## BLAKE2

A digest of up to 64 bytes from eight words of 64 bits, which every block stirs in twelve rounds.
-/

namespace ContractBuild.Checksum.Blake

/-- The words of a block in the order of each round. -/
def orders : List (List Nat) :=
  let first := List.range 16
  let second := [14, 10, 4, 8, 9, 15, 13, 6, 1, 12, 0, 2, 11, 7, 5, 3]
  [first, second,
    [11, 8, 12, 0, 5, 2, 15, 13, 10, 14, 3, 6, 7, 1, 9, 4],
    [7, 9, 3, 1, 13, 12, 11, 14, 2, 6, 5, 10, 4, 0, 15, 8],
    [9, 0, 5, 7, 2, 4, 10, 15, 14, 1, 11, 12, 6, 8, 3, 13],
    [2, 12, 6, 10, 0, 11, 8, 3, 4, 13, 7, 5, 15, 14, 1, 9],
    [12, 5, 1, 15, 14, 13, 4, 10, 0, 7, 6, 3, 9, 2, 8, 11],
    [13, 11, 7, 14, 12, 1, 3, 9, 5, 0, 15, 4, 8, 6, 2, 10],
    [6, 15, 14, 9, 11, 3, 0, 8, 12, 2, 13, 7, 1, 4, 10, 5],
    [10, 2, 8, 4, 7, 6, 1, 5, 15, 11, 9, 14, 3, 12, 13, 0],
    first, second]

/-- The places that the steps of a round stir: columns, then diagonals. -/
def places : List (Nat × Nat × Nat × Nat) :=
  [(0, 4, 8, 12), (1, 5, 9, 13), (2, 6, 10, 14), (3, 7, 11, 15),
    (0, 5, 10, 15), (1, 6, 11, 12), (2, 7, 8, 13), (3, 4, 9, 14)]

/-- Stirs four places with two words. -/
def stir (v : Array (BitVec 64)) (p : Nat × Nat × Nat × Nat) (x y : BitVec 64) :
    Array (BitVec 64) :=
  let (i, j, k, l) := p
  let a := v.getD i 0 + v.getD j 0 + x
  let d := (v.getD l 0 ^^^ a).rotateRight 32
  let c := v.getD k 0 + d
  let b := (v.getD j 0 ^^^ c).rotateRight 24
  let a := a + b + y
  let d := (d ^^^ a).rotateRight 16
  let c := c + d
  let b := (b ^^^ c).rotateRight 63
  (((v.setIfInBounds i a).setIfInBounds j b).setIfInBounds k c).setIfInBounds l d

/-- The words of a block in pairs, in an order. -/
def pairs (block : Array (BitVec 64)) : List Nat → List (BitVec 64 × BitVec 64)
  | i :: j :: is => (block.getD i 0, block.getD j 0) :: pairs block is
  | _ => []

/-- One round. -/
def turn (block : Array (BitVec 64)) (v : Array (BitVec 64)) (order : List Nat) :
    Array (BitVec 64) :=
  (places.zip (pairs block order)).foldl (fun v e ↦ stir v e.1 e.2.1 e.2.2) v

/-- The words behind a block; `count` bytes have been seen with it. -/
def addBlock (s : List (BitVec 64)) (count : Nat) (isLast : Bool) (block : Bytes) :
    List (BitVec 64) :=
  let words := wordsOf 64 8 Bytes.ofLittle (block ++ List.replicate (128 - block.length) 0)
  let v := (s ++ Sha2.firstRoots 64).toArray
  let v := v.modify 12 (· ^^^ BitVec.ofNat 64 count)
  let v := if isLast then v.modify 14 (~~~·) else v
  let v := orders.foldl (turn words) v
  s.zipIdx.map fun (x, i) ↦ x ^^^ v.getD i 0 ^^^ v.getD (i + 8) 0

/-- The words behind some blocks, `count` bytes of which have been seen. -/
def addBlocks (s : List (BitVec 64)) (count : Nat) : List Bytes → List (BitVec 64)
  | [] => s
  | [block] => addBlock s (count + block.length) true block
  | block :: blocks => addBlocks (addBlock s (count + 128) false block) (count + 128) blocks

/-- The words in the beginning, for a digest of so many bytes. -/
def start (size : Nat) : List (BitVec 64) :=
  match Sha2.firstRoots 64 with
  | x :: xs => (x ^^^ 0x01010000#64 ^^^ BitVec.ofNat 64 size) :: xs
  | [] => []

/-- The digest of so many bytes. -/
def digest (size : Nat) (bs : Bytes) : Bytes :=
  let blocks := if bs = [] then [[]] else Bytes.blocks 128 bs
  ((addBlocks (start size) 0 blocks).flatMap fun x ↦ Bytes.toLittle 8 x.toNat).take size

end ContractBuild.Checksum.Blake
