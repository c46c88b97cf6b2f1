import ContractBuild.Posix.Text.Layout
import ContractBuild.Posix.Text.Octets
import ContractBuild.Posix.Utility.Amount

/-!
# Dumps

A dump shows what bytes an input has: in blocks, each behind its place, and every block in one or
more ways.  Columns of different ways stand below each other.
-/

namespace ContractBuild.Utility

namespace Dump

/-! ## Ways of showing -/

/-- How items are shown. -/
inductive Kind
  /-- Characters with names. -/
  | named
  /-- Characters with escapes. -/
  | character
  /-- Integers with a sign. -/
  | signed
  /-- Numbers in some base, ten of them without a sign. -/
  | inBase (base : Nat)
  /-- Fractions. -/
  | fraction
  deriving DecidableEq, Repr

/-- A way of showing a block. -/
structure Form where
  /-- How its items are shown. -/
  kind : Kind
  /-- How many bytes an item has. -/
  size : Nat
  /-- Its text follows. -/
  showsText : Bool
  deriving DecidableEq, Repr

/-- How many digits of a base the numbers of some bytes have at most. -/
def digitCount (base size : Nat) : Nat := (Nat.toDigits base (1 <<< (8 * size) - 1)).length

/-- How wide items are. -/
def Form.width (f : Form) : Nat :=
  match f.kind with
  | .named | .character => 3
  | .signed => (Nat.toDigits 10 (1 <<< (8 * f.size - 1))).length + 1
  | .inBase base => digitCount base f.size
  | .fraction => if f.size = 4 then 15 else if f.size = 8 then 24 else 29

/-- The names of the characters without a form of their own. -/
def names : List String :=
  ["nul", "soh", "stx", "etx", "eot", "enq", "ack", "bel", "bs", "ht", "nl", "vt", "ff", "cr", "so",
    "si", "dle", "dc1", "dc2", "dc3", "dc4", "nak", "syn", "etb", "can", "em", "sub", "esc", "fs",
    "gs", "rs", "us", "sp"]

/-- A character with its name, whatever its first bit is. -/
def name (n : Nat) : Chars :=
  let n := n % 128
  match names[n]? with
  | some w => w.toList
  | none => if n = 127 then "del".toList else [Char.ofNat n]

/-- The escapes of characters. -/
def escapes : List (Nat × Char) :=
  [(0, '0'), (7, 'a'), (8, 'b'), (9, 't'), (10, 'n'), (11, 'v'), (12, 'f'), (13, 'r')]

/-- A number in a base with so many digits at least. -/
def padded (base count n : Nat) : Chars :=
  let ds := Nat.toDigits base n
  List.replicate (count - ds.length) '0' ++ ds

/-- A character with its escape. -/
def escape (n : Nat) : Chars :=
  match escapes.lookup n with
  | some c => ['\\', c]
  | none => if 32 ≤ n && n < 127 then [Char.ofNat n] else padded 8 3 n

/-! ### Fractions -/

/-- What fractions of so many bytes can tell, and how many decimal digits all of them keep. -/
def precision (size : Nat) : Binary.Precision × Nat :=
  if size = 4 then (.single, 6) else if size = 8 then (.double, 15) else (.extended, 18)

/-- The fraction that the bits of a number stand for. -/
def fractionOf (size n : Nat) : Binary :=
  let p := (precision size).1
  let stored := if size = 16 then p.bits else p.bits - 1
  let exponents := (if size = 16 then 80 else 8 * size) - stored - 1
  let units := n % (1 <<< stored)
  let e := n >>> stored % (1 <<< exponents)
  let isNegative := n >>> (stored + exponents) % 2 = 1
  let magnitude : Magnitude :=
    if e + 1 = 1 <<< exponents then
      if units % p.fullUnits = 0 then .infinite else .undefined
    else if e = 0 then .finite units p.leastPower
    else if size = 16 && units < p.fullUnits then .undefined
    else .finite (if size = 16 then units else units + p.fullUnits) (e - 1 + p.leastPower)
  ⟨isNegative, magnitude⟩

/-- Whether a text spells a magnitude. -/
def reads (p : Binary.Precision) (cs : Chars) (m : Magnitude) : Bool :=
  match Binary.readIn p cs, m with
  | some (⟨_, .finite k x⟩, _), .finite l y =>
    let (up, down) := Binary.twoTo (x - y)
    k * up = l * down
  | _, _ => true

/-- The text of a fraction with the fewest digits from which it can be read, out of so many numbers
of digits. -/
def shortest (p : Binary.Precision) (b : Binary) : Nat → Nat → Chars
  | 0, digits => ({ Layout.plain with precision := some digits } : Layout).fractionIn p 'g' b
  | n + 1, digits =>
    let cs := shortest p b 0 digits
    if reads p cs b.magnitude then cs else shortest p b n (digits + 1)

/-- A fraction as text. -/
def fraction (size n : Nat) : Chars :=
  let (p, digits) := precision size
  let b := fractionOf size n
  let isTiny : Bool := match b.magnitude with
    | .finite units _ => units < p.fullUnits
    | _ => false
  shortest p b 20 (if isTiny then 1 else digits)

/-! ### Items -/

/-- An item of a block. -/
def Form.item (f : Form) (isBig : Bool) (bs : Bytes) : Chars :=
  let n := if isBig then Bytes.ofBig bs else Bytes.ofLittle bs
  match f.kind with
  | .named => name n
  | .character => escape n
  | .signed => Chars.ofInt ((n : Int).bmod ((1 : Nat) <<< (8 * f.size)))
  | .inBase 10 => Chars.ofNat n
  | .inBase base => padded base f.width n
  | .fraction => fraction f.size n

/-- The items of a block that is not full; what is missing is zero. -/
def Form.items (f : Form) (isBig : Bool) (block : Bytes) : List Chars :=
  (Bytes.blocks f.size block).map fun bs ↦
    f.item isBig (bs ++ List.replicate (f.size - bs.length) 0)

/-- The text of a block. -/
def text (block : Bytes) : Chars :=
  "  >".toList ++ (Chars.ofBytes block).map (fun c ↦ if ' ' ≤ c && c < '\x7f' then c else '.') ++
    ['<']

/-- Items in their columns, behind so many blanks in all where the block is full. -/
def columns (width blanks count : Nat) : Nat → List Chars → Chars
  | _, [] => []
  | left, item :: items =>
    let next := blanks * (left - 1) / count
    let before := blanks * left / count
    let field := before - next + width
    List.replicate (field - item.length) ' ' ++ item ++ columns width blanks count (left - 1) items

/-! ## Lines -/

/-- How an input is shown. -/
structure Style where
  /-- The base of places, if they are shown, and how many digits they have. -/
  places : Option (Nat × Nat)
  /-- The ways in which every block is shown. -/
  forms : List Form
  /-- How many bytes a block has. -/
  size : Nat
  /-- Numbers start with their most significant byte. -/
  isBig : Bool
  /-- Blocks like the one before are shown as well. -/
  showsAll : Bool

/-- A place. -/
def Style.place (s : Style) (n : Nat) : Chars :=
  match s.places with
  | some (base, count) => padded base count n
  | none => []

/-- How wide lines are behind their places. -/
def Style.width (s : Style) : Nat :=
  (s.forms.map fun f ↦ (f.width + 1) * (s.size / f.size)).foldl max 0

/-- A block in one way. -/
def Style.line (s : Style) (block : Bytes) (f : Form) : Chars :=
  let count := s.size / f.size
  let blanks := s.width - f.width * count
  let items := f.items s.isBig block
  let missing := (s.size - block.length) / f.size
  columns f.width blanks count count items ++
    (if f.showsText then
      List.replicate (missing * f.width + blanks * missing / count) ' ' ++ text block
    else [])

/-- The lines of a block at a place. -/
def Style.lines (s : Style) (place : Nat) (block : Bytes) : Chars :=
  let title := s.place place
  let others := (s.places.map fun e ↦ List.replicate e.2 ' ').getD []
  match s.forms.map (s.line block) with
  | [] => []
  | l :: ls => Chars.line (title ++ l) ++ ls.flatMap fun l ↦ Chars.line (others ++ l)

/-- How far an input has been shown. -/
structure Progress where
  /-- The place of what is not shown yet. -/
  place : Nat
  /-- What is not shown yet. -/
  rest : Bytes
  /-- The block before, if there is one. -/
  last : Option Bytes
  /-- The block before was like the one before it. -/
  isRepeated : Bool

/-- Shows all whole blocks; the output comes with the state behind them.  Every step takes a
byte. -/
def Style.advance (s : Style) : Nat → Progress → Chars → Chars × Progress
  | 0, p, done => (done, p)
  | n + 1, p, done =>
    if p.rest.length < s.size || s.size = 0 then (done, p)
    else
      let block := p.rest.take s.size
      let rest := p.rest.drop s.size
      let isSame := !s.showsAll && p.last = some block
      let shown := if !isSame then s.lines p.place block
        else if p.isRepeated then [] else "*\n".toList
      s.advance n ⟨p.place + s.size, rest, some block, isSame⟩ (done ++ shown)

/-- The lines for what is left in the end. -/
def Style.finish (s : Style) (p : Progress) : Chars :=
  (if p.rest = [] then [] else s.lines p.place p.rest) ++
    match s.places with
    | some _ => Chars.line (s.place (p.place + p.rest.length))
    | none => []

/-! ## Reading types -/

/-- The sizes of integers that letters stand for. -/
def integerSizes : List (Char × Nat) := [('C', 1), ('S', 2), ('I', 4), ('L', 8)]

/-- The sizes of fractions that letters stand for. -/
def fractionSizes : List (Char × Nat) := [('F', 4), ('D', 8), ('L', 16)]

/-- The size in front of a text, which a letter or a number says, and what follows it. -/
def readSize (letters : List (Char × Nat)) (allowed : List Nat) (usual : Nat) (what : String)
    (cs : Chars) : Except Chars (Nat × Chars) :=
  match cs.head?.bind fun c ↦ letters.lookup c with
  | some size => .ok (size, cs.tail)
  | none =>
    let (ds, rest) := cs.span Char.isDigit
    match Chars.toNat? ds with
    | none => .ok (usual, rest)
    | some n =>
      if allowed.contains n then .ok (n, rest)
      else .error (";\nthis system doesn't provide a ".toList ++ ds ++ "-byte ".toList ++
        what.toList ++ " type".toList)

/-- The ways of showing that a text spells.  Every step takes a character. -/
def readForms (whole : Chars) : Nat → Chars → Except Chars (List Form)
  | 0, _ => .ok []
  | _, [] => .ok []
  | n + 1, c :: cs => do
    let (kind, sized) ← (match c with
      | 'a' => .ok (Kind.named, .ok (1, cs))
      | 'c' => .ok (Kind.character, .ok (1, cs))
      | 'd' => .ok (Kind.signed, readSize integerSizes [1, 2, 4, 8] 4 "integral" cs)
      | 'u' => .ok (Kind.inBase 10, readSize integerSizes [1, 2, 4, 8] 4 "integral" cs)
      | 'o' => .ok (Kind.inBase 8, readSize integerSizes [1, 2, 4, 8] 4 "integral" cs)
      | 'x' => .ok (Kind.inBase 16, readSize integerSizes [1, 2, 4, 8] 4 "integral" cs)
      | 'f' => .ok (Kind.fraction, readSize fractionSizes [4, 8, 16] 8 "floating point" cs)
      | c => Except.error ("invalid character '".toList ++ c :: "' in type string ".toList ++
          cited whole))
    let (size, rest) ← Except.mapError
      (fun behind ↦ "invalid type string ".toList ++ cited whole ++ behind) sized
    let (showsText, rest) := match rest with
      | 'z' :: rest => (true, rest)
      | rest => (false, rest)
    return ⟨kind, size, showsText⟩ :: (← readForms whole n rest)

/-- The ways of showing that letters of options stand for. -/
def letterForms : List (Char × String) :=
  [('a', "a"), ('b', "o1"), ('B', "o2"), ('c', "c"), ('d', "u2"), ('D', "u4"), ('e', "fD"),
    ('f', "fF"), ('F', "fD"), ('h', "x2"), ('H', "x4"), ('i', "dI"), ('I', "dL"), ('l', "dL"),
    ('L', "dL"), ('o', "o2"), ('O', "o4"), ('s', "d2"), ('x', "x2"), ('X', "x4")]

/-- The ways of showing that a call asks for. -/
def formsOf (c : Call) : Except Chars (List Form) := do
  let texts := c.flags.filterMap fun (letter, a) ↦
    if letter = 't' then some a else (letterForms.lookup letter).map String.toList
  let forms ← texts.mapM fun t ↦ readForms t (t.length + 1) t
  return if forms.flatten = [] then [⟨.inBase 8, 2, false⟩] else forms.flatten

/-- The number of an operand that says how much is skipped, if it is one. -/
def readOffset (w : Chars) : Option Nat := do
  let cs := if w.head? = some '+' then w.tail else w
  let (cs, base) := if cs.contains '.' then (cs.filter (· ≠ '.'), 10)
    else match cs with
      | '0' :: 'x' :: rest | '0' :: 'X' :: rest => (rest, 16)
      | cs => (cs, 8)
  let (ds, rest) := Numeral.digits base cs
  let scale ← match rest with
    | [] => some 1
    | ['b'] => some 512
    | ['B'] => some 1024
    | _ => none
  if ds = [] then none else some (Numeral.value base ds * scale)

/-- The operands that are files, and how much one of the others says is skipped. -/
def splitOffset (c : Call) : List Chars × Nat :=
  if c.flags.any fun f ↦ "AjNStvw\x01".toList.contains f.1 then (c.operands, 0)
  else match c.operands with
    | [w] => match if w.head? = some '+' then readOffset w else none with
      | some n => ([], n)
      | none => (c.operands, 0)
    | [file, w] =>
      match if w.head?.any fun d ↦ d = '+' || d.isDigit then readOffset w else none with
      | some n => ([file], n)
      | none => (c.operands, 0)
    | operands => (operands, 0)

end Dump

/-! ## The program -/

/-- What is left to be skipped and to be shown of some inputs. -/
structure DumpWindow where
  /-- How many bytes are skipped. -/
  skip : Nat
  /-- How many bytes are shown at most. -/
  limit : Option Nat

/-- The next bytes of an input, no more than are wanted. -/
def DumpWindow.read (w : DumpWindow) (n : Nat) : Routine (Except IoError Bytes) :=
  if 0 < w.skip then Routine.readAtMost n (min w.skip Routine.block)
  else match w.limit with
    | some 0 => return .ok []
    | some k => Routine.readAtMost n (min k Routine.block)
    | none => Routine.read n

/-- Shows some inputs; the value is the status, with the state in the end. -/
def dumpInputs (name : Chars) (s : Dump.Style) :
    List Chars → DumpWindow → Dump.Progress → Routine (Nat × DumpWindow × Option Dump.Progress)
  | [], w, p => return (0, w, some p)
  | file :: files, w, p => do
    match ← openInput file with
    | .error e =>
      warn name (because (shown file) e)
      let (status, w, p) ← dumpInputs name s files w p
      return (max 1 status, w, p)
    | .ok n =>
      let ((w, p), failure) ← Routine.loop (w, p) fun (w, p) ↦ do
        match ← w.read n with
        | .error e => return .inr ((w, p), some e)
        | .ok [] => return .inr ((w, p), none)
        | .ok bs =>
          if 0 < w.skip then return .inl ({ w with skip := w.skip - bs.length }, p)
          let p := { p with rest := p.rest ++ bs }
          let (cs, p) := s.advance p.rest.length p []
          emit name cs
          return .inl ({ w with limit := w.limit.map (· - bs.length) }, p)
      closeInput n
      let status ← (match failure with
        | some e => do
          warn name (because (shown (if isStandard file then "standard input".toList else file)) e)
          return 1
        | none => return 0)
      let (rest, w, p) ← dumpInputs name s files w p
      return (max status rest, w, p)

/-- The count in an option. -/
def dumpCount (name : Chars) (letter : Char) (w : Chars) : Routine Nat := do
  let wrong := ("invalid -".toList ++ letter :: " argument ".toList ++ cited w)
  match Numeral.read 0 w with
  | some (n, rest) =>
    match Amount.scale? "bEGKkMmPTYZ0".toList rest with
    | some k => if n < 0 then fail name 1 wrong else return n.toNat * k
    | none => fail name 1 (if rest = [] then wrong
        else "invalid suffix in -".toList ++ letter :: " argument ".toList ++ cited w)
  | none => fail name 1 wrong

/-- The count in an option that can be missing. -/
def dumpCount? (name : Chars) (letter : Char) (c : Call) : Routine (Option Nat) :=
  match c.value? letter with
  | some w => some <$> dumpCount name letter w
  | none => return none

/-- How many bytes a block has. -/
def dumpBlock (name : Chars) (forms : List Dump.Form) (c : Call) : Routine Nat := do
  let unit := (forms.map (·.size)).foldl Nat.lcm 1
  match c.value? 'w' with
  | none => return 16 / unit * unit
  | some w =>
    let n ← if w = [] then pure 32 else dumpCount name 'w' w
    if n ≠ 0 && n % unit = 0 then return n
    warn name ("warning: invalid width ".toList ++ Chars.ofNat n ++ "; using ".toList ++
      Chars.ofNat unit ++ " instead".toList)
    return unit

/-- Shows the bytes of its inputs. -/
def od : Program := fun args _ ↦ do
  let name := args.headD []
  let c ← readCall name 1 (plainFlags ((Dump.letterForms.map fun e ↦ (e.1, "")) ++
    [('v', "output-duplicates"), ('\x02', "traditional")]) ++
    valueFlags [('A', "address-radix"), ('j', "skip-bytes"), ('N', "read-bytes"), ('t', "format"),
      ('\x01', "endian")] ++ [⟨'w', "width", .optional⟩]) true args.tail
  let places ← (match c.value? 'A' with
    | some ['d'] => return some (10, 7)
    | some ['x'] => return some (16, 6)
    | some ['n'] => return none
    | some ['o'] | none => return some (8, 7)
    | some w => fail name 1 ("invalid output address radix '".toList ++ w.take 1 ++
        "'; it must be one character from [doxn]".toList) : Routine (Option (Nat × Nat)))
  let skip? ← dumpCount? name 'j' c
  let limit ← dumpCount? name 'N' c
  let isBig ← (match c.value? '\x01' with
    | some w => do
      return decide ((← readWord name 1 "--endian" [["little"], ["big"]] w) = "big")
    | none => return false)
  match Dump.formsOf c with
  | .error message => fail name 1 message
  | .ok forms =>
    let (operands, offset) := Dump.splitOffset c
    let skip := skip?.getD offset
    let size ← dumpBlock name forms c
    let style : Dump.Style := ⟨places, forms, size, isBig, c.has 'v'⟩
    let inputs := inputsOf operands
    let found ← inputs.mapM fun file ↦ do
      match ← openInput file with
      | .ok n =>
        closeInput n
        return true
      | .error _ => return false
    let (status, w, p?) ← dumpInputs name style inputs ⟨skip, limit⟩ ⟨skip, [], none, false⟩
    if found.any id then
      if 0 < w.skip then fail name 1 "cannot skip past end of combined input".toList
      if let some p := p? then emit name (style.finish p)
    leaveStandard name 1 "standard input" inputs status

/-- Names and escapes of characters, and a fraction that is not one of tenths. -/
example : Dump.name 10 = "nl".toList ∧ Dump.escape 255 = "377".toList ∧
    Dump.fraction 4 0x3dcccccd = "0.1".toList := by decide +kernel

end ContractBuild.Utility
