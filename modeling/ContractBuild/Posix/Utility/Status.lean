import ContractBuild.Posix.Text.Chars
import ContractBuild.Posix.Text.Layout
import ContractBuild.Posix.Utility.Link
import ContractBuild.Posix.Utility.Message
import ContractBuild.Posix.Utility.Times

/-!
# Facts about entries in formats

A format says which facts about an entry are written and how: directives behind percent signs stand
for them, with a layout in front of the letter.
-/

namespace ContractBuild.Utility

namespace Status

/-- A fact about an entry. -/
inductive Fact
  /-- A text. -/
  | text (cs : Chars)
  /-- A number that could be negative. -/
  | signed (n : Int)
  /-- A number. -/
  | unsigned (n : Nat)
  /-- A number in base eight. -/
  | octal (n : Nat)
  /-- A number in base sixteen. -/
  | hexadecimal (n : Nat)
  /-- A moment, in seconds. -/
  | moment (m : Moment)

/-- How facts are looked at. -/
structure Sight where
  /-- The files. -/
  host : Host
  /-- The path of the entry. -/
  path : Chars
  /-- Where it is. -/
  location : Location
  /-- What it is. -/
  node : Node
  /-- The zone for times. -/
  zone : Zone
  /-- How names are quoted. -/
  names : NameStyle
  /-- Whether text is UTF-8. -/
  isWide : Bool

/-- The name of an entry and what it leads to, each written in a way. -/
def Sight.withTarget (s : Sight) (write : Chars → Chars) : Chars :=
  write s.path ++ match s.node with
    | .link k => " -> ".toList ++ write (Chars.ofPath k.target)
    | _ => []

/-- The fact that a letter stands for. -/
def Sight.fact? (s : Sight) (letter : Char) : Option Fact :=
  let n := s.node
  let written := fun (m : Moment) ↦ Fact.text (stampOf s.zone m).full
  match letter with
  | 'n' => some (.text s.path)
  | 'N' => some (.text (s.withTarget (s.names.apply s.isWide false [])))
  | 's' => some (.signed (EntryFacts.sizeOf n))
  | 'a' => some (.octal (modeOf n))
  | 'A' => some (.text (EntryFacts.modeText n))
  | 'f' => some (.hexadecimal (EntryFacts.kindAndMode n))
  | 'F' => some (.text (EntryFacts.kindText n))
  | 'h' => some (.unsigned (EntryFacts.namesOf s.host.tree s.location n))
  | 'U' | 'G' => some (.text "root".toList)
  | 'u' | 'g' => some (.unsigned 0)
  | 'i' => some (.unsigned (EntryFacts.numberOf n))
  | 'b' => some (.unsigned (2 * EntryFacts.roomOf n))
  | 'B' => some (.unsigned 512)
  | 'o' => some (.unsigned 4096)
  | 'd' => some (.unsigned 1)
  | 'D' => some (.hexadecimal 1)
  | 'm' => some (.text ['/'])
  | 'C' => some (.text ['?'])
  | 't' => some (.hexadecimal (EntryFacts.deviceOf n).1)
  | 'T' => some (.hexadecimal (EntryFacts.deviceOf n).2)
  | 'x' => some (written n.accessed)
  | 'y' | 'z' | 'w' => some (written n.modified)
  | 'X' => some (.moment n.accessed)
  | 'Y' | 'Z' | 'W' => some (.moment n.modified)
  | _ => none

/-- The fact about a file system that a letter stands for. -/
def Sight.systemFact? (s : Sight) (letter : Char) : Option Fact :=
  match letter with
  | 'n' => some (.text s.path)
  | 'i' | 't' => some (.hexadecimal 0x1021994)
  | 'l' => some (.unsigned 255)
  | 'T' => some (.text "tmpfs".toList)
  | 'b' | 'f' | 'a' | 'c' | 'd' => some (.signed 1000000)
  | 's' | 'S' => some (.unsigned 4096)
  | _ => none

/-- The seconds of a moment with so many places. -/
def secondsText (l : Layout) (m : Moment) : Chars :=
  match l.precision with
  | none => { l with precision := none }.integer m.seconds
  | some k =>
    let units := Moment.perSecond / Nat.pow 10 (min k 9)
    let n := m.fdiv units
    let scale := Nat.pow 10 (min k 9)
    let places := if k = 0 then [] else
      '.' :: Chars.ofNatWide (min k 9) (n.natAbs % scale) ++ List.replicate (k - 9) '0'
    let plain := { l with precision := none }
    let whole := Chars.ofNat (n.natAbs / scale) ++ places
    plain.digits (plain.sign (n < 0)) whole

/-- A fact in a layout. -/
def Fact.inLayout (l : Layout) : Fact → Chars
  | .text cs => ({ Layout.plain with
      isLeft := l.isLeft, width := l.width, precision := l.precision } : Layout).text cs
  | .signed n => l.integer n
  | .unsigned n => { l with hasPlus := false, hasSpace := false }.integer n
  | .octal n => { l with hasPlus := false, hasSpace := false }.natural 8 false n
  | .hexadecimal n => { l with hasPlus := false, hasSpace := false }.natural 16 false n
  | .moment m => secondsText l m

/-- What a format makes: a text, what is to be said about it, and a directive that ends all. -/
structure Written where
  /-- The text, in pieces with the last one first. -/
  pieces : List Chars
  /-- What is to be said. -/
  remarks : List Chars
  /-- The directive that is wrong. -/
  wrong : Option Chars

/-- The layout of a directive, and what follows it.  The precision is the greatest one if only its
point stands there. -/
def readLayout (cs : Chars) : Layout × Chars :=
  let (layout, rest) := Layout.plain.readFlags (cs.dropWhile (· = '\''))
  let (ds, rest) := rest.span Char.isDigit
  let layout := layout.withWidth ((Chars.toNat? ds).getD 0)
  match rest with
  | '.' :: rest =>
    let (ds, rest) := rest.span Char.isDigit
    (layout.withPrecision ((Chars.toNat? ds).getD 9), rest)
  | rest => (layout, rest)

/-- Escapes of a format, behind a backslash: the characters, what is to be said, and what
follows. -/
def readEscape (cs : Chars) : Chars × List Chars × Chars :=
  match cs with
  | [] => (['\\'], ["warning: backslash at end of format".toList], [])
  | 'x' :: d :: rest =>
    if Numeral.digit d < 16 then
      match rest with
      | e :: more =>
        if Numeral.digit e < 16 then
          ([Escape.byte (Numeral.digit d * 16 + Numeral.digit e)], [], more)
        else ([Escape.byte (Numeral.digit d)], [], rest)
      | [] => ([Escape.byte (Numeral.digit d)], [], [])
    else (['x'], ["warning: unrecognized escape '\\x'".toList], d :: rest)
  | 'e' :: rest => (['\x1b'], [], rest)
  | '"' :: rest => (['"'], [], rest)
  | c :: rest =>
    match Escape.octalDigit? c, Escape.letters.lookup c with
    | some _, _ =>
      let (n, rest) := Escape.octal 0 3 cs
      ([Escape.byte n], [], rest)
    | none, some d => ([d], [], rest)
    | none, none => ([c], ["warning: unrecognized escape '\\".toList ++ [c, '\'']], rest)

/-- A format with facts.  Escapes count if `isEscaping` says so; every step takes a character. -/
def write (isEscaping : Bool) (fact : Char → Option Fact) : Nat → Chars → Written → Written
  | 0, _, w => w
  | _, [], w => w
  | n + 1, '%' :: cs, w =>
    let (layout, rest) := readLayout cs
    let isBare := rest.length = cs.length
    let put := fun (piece : Chars) (rest : Chars) ↦
      write isEscaping fact n rest { w with pieces := piece :: w.pieces }
    match rest with
    | [] | '%' :: _ =>
      if isBare then put ['%'] (rest.drop 1)
      else { w with wrong := some ('%' :: cs.take (cs.length - rest.length) ++ rest.take 1) }
    | 'H' :: 'd' :: rest | 'L' :: 'd' :: rest | 'H' :: 'r' :: rest | 'L' :: 'r' :: rest =>
      put (Fact.inLayout layout (.unsigned 0)) rest
    | letter :: rest =>
      put (match fact letter with
        | some f => f.inLayout layout
        | none => ['?']) rest
  | n + 1, '\\' :: cs, w =>
    if isEscaping then
      let (piece, remarks, rest) := readEscape cs
      write isEscaping fact n rest
        { w with pieces := piece :: w.pieces, remarks := w.remarks ++ remarks }
    else write isEscaping fact n cs { w with pieces := ['\\'] :: w.pieces }
  | n + 1, c :: cs, w => write isEscaping fact n cs { w with pieces := [c] :: w.pieces }

/-- A format with facts. -/
def format (isEscaping : Bool) (fact : Char → Option Fact) (cs : Chars) : Written :=
  write isEscaping fact (cs.length + 1) cs ⟨[], [], none⟩

/-- The text that a format makes. -/
def Written.text (w : Written) : Chars := w.pieces.reverse.flatten

/-- The format that is used if nothing else is said, behind the name. -/
def usualFormat : Chars :=
  ("  Size: %-10s\tBlocks: %-10b IO Block: %-6o %F\n" ++
    "Device: %Hd,%Ld\tInode: %-10i  Links: %h\n" ++
    "Access: (%04a/%10.10A)  Uid: (%5u/%8U)   Gid: (%5g/%8G)\n" ++
    "Access: %x\nModify: %y\nChange: %z\n Birth: %w").toList

/-- The short form of all facts. -/
def terseFormat : Chars := "%n %s %b %f %u %g %D %i %h %t %T %X %Y %Z %W %o".toList

/-- The format for file systems that is used if nothing else is said. -/
def usualSystemFormat : Chars :=
  ("  File: \"%n\"\n    ID: %-8i Namelen: %-7l Type: %T\n" ++
    "Block size: %-10s Fundamental block size: %S\n" ++
    "Blocks: Total: %-10b Free: %-10f Available: %a\nInodes: Total: %-10c Free: %d").toList

/-- A number in its layout, and an unknown letter. -/
example : (format false (fun c ↦ if c = 's' then some (.signed 6) else none)
    "%05s|%-3s|%q".toList).text = "00006|6  |?".toList := by decide +kernel

end Status

open Status in
/-- Shows facts about entries. -/
def stat : Program := fun args env ↦ do
  let name := args.headD []
  let c ← readCall name 1 (plainFlags [('L', "dereference"), ('f', "file-system"),
    ('t', "terse")] ++ valueFlags [('c', "format"), ('\x01', "printf"), ('\x02', "cached")])
    true args.tail
  if c.operands = [] then missingOperand name 1
  let isSystem := c.has 'f'
  let zone := zoneIn env
  let isWide := (← Routine.self).isWide
  let names := ((Image.valueIn? env "QUOTING_STYLE".toList).bind fun w ↦
    NameStyle.words.lookup (Chars.toString w)).getD .wordAlways
  let chosen := c.lastOf? ['c', '\x01']
  let isEscaping := chosen = some '\x01'
  forStatus (fun path ↦ do
    let p := Chars.toPath path
    match ← Routine.look fun h ↦ (if c.has 'L' || isSystem then h.entry p
        else h.linkEntry p).map fun (l, n) ↦ Sight.mk h path l n zone names isWide with
    | .ok s =>
      let fact := if isSystem then s.systemFact? else s.fact?
      let isUsual := chosen.isNone && !c.has 't' && !isSystem
      let shape := match chosen with
        | some letter => (c.value? letter).getD []
        | none => if isSystem then usualSystemFormat
          else if c.has 't' then terseFormat else usualFormat
      let front := if isUsual then "  File: ".toList ++ s.withTarget id ++ ['\n'] else []
      let w := format isEscaping fact shape
      Routine.forEach (warn name) w.remarks
      match w.wrong with
      | some directive =>
        emit name w.text
        fail name 1 (cited directive ++ ": invalid directive".toList)
      | none =>
        emit name (front ++ w.text ++ if isEscaping then [] else ['\n'])
        return 0
    | .error e =>
      warn name (because ((if isSystem then "cannot read file system information for "
        else "cannot statx ").toList ++ quoted path) e)
      return 1) c.operands

end ContractBuild.Utility
