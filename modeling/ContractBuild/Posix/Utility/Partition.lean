import ContractBuild.Posix.Utility.Amount
import ContractBuild.Posix.Utility.Launch

/-!
# Cutting an input into files

An input is cut into pieces of so many lines or bytes, or into so many pieces.  The pieces go to
files whose names count up, or to commands, or one of them goes to the output.
-/

namespace ContractBuild.Utility

/-- How an input is cut. -/
inductive Partition
  /-- Into pieces of so many lines. -/
  | lines (count : Nat)
  /-- Into pieces of so many bytes. -/
  | bytes (count : Nat)
  /-- Into pieces of whole lines with so many bytes at most; longer lines are cut. -/
  | lineBytes (count : Nat)
  /-- Into so many pieces. -/
  | chunks (count : Nat)
  /-- Into so many pieces of whole lines; a line belongs to the piece that its start lies in. -/
  | lineChunks (count : Nat)
  /-- Into so many pieces that get a line each in turn. -/
  | dealt (count : Nat)

namespace Partition

/-- The elements of a list in groups of one size; the last one can be smaller.  Every step takes an
element at least. -/
def groupsFrom {α : Type} (size : Nat) : Nat → List α → List (List α)
  | 0, _ => []
  | _, [] => []
  | n + 1, as => as.take (max 1 size) :: groupsFrom size n (as.drop (max 1 size))

/-- The elements of a list in groups of one size; the last one can be smaller. -/
def groups {α : Type} (size : Nat) (as : List α) : List (List α) := groupsFrom size as.length as

/-- The parts of a text up to the last end of a line and behind it. -/
def atLastEnd (last : Char) (cs : Chars) : Chars × Chars :=
  let (behind, before) := cs.reverse.span (· ≠ last)
  (before.reverse, behind.reverse)

/-- A text in pieces of whole lines with so many bytes at most, behind a part of a line that could
not be put into the piece before.  Every step takes a byte at least. -/
def lineGroups (last : Char) (size : Nat) : Nat → Chars → Chars → List Chars
  | 0, _, _ => []
  | n + 1, held, cs =>
    let room := size - held.length
    let part := cs.take room
    if part.length < room then (if held ++ part = [] then [] else [held ++ part])
    else match atLastEnd last part with
      | ([], _) => (held ++ part) :: lineGroups last size n [] (cs.drop room)
      | (whole, behind) => (held ++ whole) :: lineGroups last size n behind (cs.drop room)

/-- The lines of a text, each with the place where it starts. -/
def placed : Nat → List Chars → List (Nat × Chars)
  | _, [] => []
  | n, l :: ls => (n, l) :: placed (n + l.length) ls

/-- The lines that belong together by a number, for all numbers below `count`. -/
def gathered (count : Nat) (ls : List (Nat × Chars)) : List Chars :=
  (List.range count).map fun k ↦ (ls.filter (·.1 = k)).flatMap (·.2)

/-- The pieces of a text, in which lines end with `last`. -/
def pieces (last : Char) (cs : Chars) : Partition → List Chars
  | .lines count => (groups count (Chars.wholeRecords last cs)).map List.flatten
  | .bytes count => groups count cs
  | .lineBytes count => lineGroups last count (2 * cs.length + 2) [] cs
  | .chunks count =>
    let size := max cs.length count / count
    (List.range count).map fun k ↦
      let behind := cs.drop (k * size)
      if k + 1 = count then behind else behind.take size
  | .lineChunks count =>
    let size := max cs.length count / count
    gathered count ((placed 0 (Chars.wholeRecords last cs)).map fun (n, l) ↦
      (min (n / size) (count - 1), l))
  | .dealt count =>
    gathered count ((Chars.wholeRecords last cs).zipIdx.map fun (l, n) ↦ (n % count, l))

/-- How many pieces there are in any case. -/
def count? : Partition → Option Nat
  | .chunks count | .lineChunks count | .dealt count => some count
  | _ => none

/-- Lines that are too long, and a last line without an end. -/
example : pieces '\n' "abcdef\ng\nh".toList (.lineBytes 4) =
    ["abcd".toList, "ef\n".toList, "g\nh".toList] := by decide

/-- A line belongs to the piece that its start lies in. -/
example : pieces '\n' "abcd\ne\nf\n".toList (.lineChunks 3) =
    ["abcd\n".toList, "e\n".toList, "f\n".toList] := by decide

end Partition

/-! ## Names -/

/-- How the files of pieces are named. -/
structure PieceNames where
  /-- What all names start with. -/
  base : Chars
  /-- The digits by which they count. -/
  digits : List Char
  /-- How many digits there are at least. -/
  length : Nat
  /-- Whether there are more digits for more pieces. -/
  isGrowing : Bool
  /-- The number of the first piece. -/
  first : Nat
  /-- What all names end with. -/
  ending : Chars

namespace PieceNames

/-- So many digits of a number. -/
def numeral (digits : List Char) : Nat → Nat → Chars
  | 0, _ => []
  | k + 1, n => numeral digits k (n / digits.length) ++ (digits[n % digits.length]?).toList

/-- The digits for a piece, behind the last digit as often as there are more digits than at first.
A number does not start with the last digit, so that names keep their order.  Every step looks at
one length. -/
def growing (digits : List Char) (length : Nat) : Nat → Nat → Nat → Option Chars
  | 0, _, _ => none
  | n + 1, k, index =>
    let count := (digits.length - 1) * Nat.pow digits.length (length + k - 1)
    if index < count then
      some (List.replicate k (digits.getLastD '9') ++ numeral digits (length + k) index)
    else growing digits length n (k + 1) (index - count)

/-- The digits for a piece, if there are enough. -/
def suffix? (x : PieceNames) (index : Nat) : Option Chars :=
  if x.isGrowing then growing x.digits x.length (index + 1) 0 index
  else
    let n := x.first + index
    if n < Nat.pow x.digits.length x.length then some (numeral x.digits x.length n) else none

/-- The name of the file for a piece, if there is one. -/
def name? (x : PieceNames) (index : Nat) : Option Chars :=
  (x.suffix? index).map fun s ↦ x.base ++ s ++ x.ending

/-- After the names with two digits come names with four of them. -/
example : (suffix? ⟨[], "ab".toList, 2, true, 0, []⟩ 1, suffix? ⟨[], "ab".toList, 2, true, 0, []⟩ 2)
    = (some "ab".toList, some "baaa".toList) := by decide

end PieceNames

/-! ## Calls -/

/-- What is asked for. -/
structure PartitionRequest where
  /-- How the input is cut. -/
  partition : Option Partition
  /-- Whether that is said by a number alone. -/
  isNumber : Bool
  /-- Which piece goes to the output. -/
  chosen : Option Nat
  /-- How many digits names have; zero if that is not said. -/
  length : Nat
  /-- The digits of names. -/
  digits : List Char
  /-- The number of the first piece. -/
  first : Option Chars
  /-- What names end with. -/
  ending : Chars
  /-- What lines end with. -/
  last : Option Char
  /-- Whether empty pieces get no file. -/
  skipsEmpty : Bool
  /-- Whether files are announced. -/
  isVerbose : Bool
  /-- The command that gets the pieces. -/
  filter : Option Chars

namespace PartitionRequest

/-- What is asked for if nothing is said. -/
def usual : PartitionRequest where
  partition := none
  isNumber := false
  chosen := none
  length := 0
  digits := "abcdefghijklmnopqrstuvwxyz".toList
  first := none
  ending := []
  last := none
  skipsEmpty := false
  isVerbose := false
  filter := none

/-- The options. -/
def flags : List Flag :=
  plainFlags ([('e', "elide-empty-files"), ('u', "unbuffered"), ('\x02', "verbose"), ('d', ""),
    ('x', "")] ++ "0123456789".toList.map fun c ↦ (c, "")) ++
  valueFlags [('a', "suffix-length"), ('\x01', "additional-suffix"), ('b', "bytes"),
    ('C', "line-bytes"), ('l', "lines"), ('n', "number"), ('t', "separator"),
    ('\x03', "filter")] ++
  [⟨'\x04', "numeric-suffixes", .optional⟩, ⟨'\x05', "hex-suffixes", .optional⟩]

/-- The request with a way to cut the input, which must be the only one. -/
def withPartition (name : Chars) (q : PartitionRequest) (p : Partition) :
    Routine PartitionRequest :=
  if q.partition.isSome then refuse name 1 "cannot split in more than one way".toList
  else pure { q with partition := some p }

/-- The request with a number of pieces, and perhaps one of them. -/
def withCount (name : Chars) (q : PartitionRequest) (w : Chars) : Routine PartitionRequest := do
  let w := w.dropWhile Numeral.isBlank
  let (make, w) := match w with
    | 'r' :: '/' :: w => (Partition.dealt, w)
    | 'l' :: '/' :: w => (.lineChunks, w)
    | w => (.chunks, w)
  let number := readAmount name 1 "invalid number of chunks" [] 1
  match w.span (· ≠ '/') with
  | (w, []) => q.withPartition name (make (← number w))
  | (front, _ :: behind) =>
    let count ← number behind
    let q ← q.withPartition name (make count)
    if front = [] then return q
    let wrong := "invalid chunk number"
    let k ← readAmount name 1 wrong [] 1 front
    if count < k then
      fail name 1 (because (wrong.toList ++ ": ".toList ++ cited front) (.system 34))
    return { q with chosen := some k }

/-- The request with what lines end with. -/
def withLast (name : Chars) (q : PartitionRequest) (w : Chars) : Routine PartitionRequest := do
  let c ← match w with
    | [] => fail name 1 "empty record separator".toList
    | [c] => pure c
    | ['\\', '0'] => pure '\x00'
    | _ => fail name 1 ("multi-character separator ".toList ++ cited w)
  if q.last.any (· ≠ c) then fail name 1 "multiple separator characters specified".toList
  return { q with last := some c }

/-- The request with digits that are numbers, and perhaps the first one. -/
def withDigits (name : Chars) (q : PartitionRequest) (digits : String) (kind : String)
    (first : Chars) : Routine PartitionRequest := do
  let digits := digits.toList
  if !first.all digits.contains then
    refuse name 1 (cited first ++ ": invalid start value for ".toList ++ kind.toList ++
      " suffix".toList)
  let rest := first.dropWhile (· = '0')
  return { q with
    digits
    first := if first = [] then q.first else some (if rest = [] then ['0'] else rest) }

/-- The request with an option. -/
def withFlag (name : Chars) (q : PartitionRequest) (f : Char × Chars) :
    Routine PartitionRequest := do
  let size := fun (w : Chars) ↦
    readAmount name 1 "invalid number of bytes" Amount.sizeLetters 1 w
  match f with
  | ('a', w) => return { q with length := ← readAmount name 1 "invalid suffix length" [] 0 w }
  | ('\x01', w) =>
    if w.contains '/' then
      refuse name 1 ("invalid suffix ".toList ++ cited w ++
        ", contains directory separator".toList)
    return { q with ending := w }
  | ('b', w) => q.withPartition name (.bytes (← size w))
  | ('C', w) => q.withPartition name (.lineBytes (← size w))
  | ('l', w) => q.withPartition name (.lines (← readAmount name 1 "invalid number of lines" [] 1 w))
  | ('n', w) => q.withCount name w
  | ('t', w) => q.withLast name w
  | ('d', _) => q.withDigits name "0123456789" "numerical" []
  | ('\x04', w) => q.withDigits name "0123456789" "numerical" w
  | ('x', _) => q.withDigits name "0123456789abcdef" "hexadecimal" []
  | ('\x05', w) => q.withDigits name "0123456789abcdef" "hexadecimal" w
  | ('e', _) => return { q with skipsEmpty := true }
  | ('\x02', _) => return { q with isVerbose := true }
  | ('\x03', w) => return { q with filter := some w }
  | ('u', _) => return q
  | (c, _) =>
    let n := c.toNat - '0'.toNat
    match q.partition, q.isNumber with
    | some (.lines count), true => return { q with partition := some (.lines (10 * count + n)) }
    | none, _ => return { q with partition := some (.lines n), isNumber := true }
    | _, _ => refuse name 1 "cannot split in more than one way".toList

/-- The number that digits spell. -/
def numberOf (digits : List Char) (cs : Chars) : Nat :=
  cs.foldl (fun n c ↦ n * digits.length + digits.idxOf c) 0

/-- How many digits it takes to count so many pieces. -/
def neededLength (base : Nat) : Nat → Nat → Nat
  | 0, _ => 1
  | n + 1, last => if last < base then 1 else neededLength base n (last / base) + 1

/-- The names of the pieces, which start with a text. -/
def names (name : Chars) (q : PartitionRequest) (p : Partition) (base : Chars) :
    Routine PieceNames := do
  let first := (q.first.map (numberOf q.digits)).getD 0
  let needed := match p.count? with
    | none => 0
    | some count =>
      let from10 := (q.first.bind Chars.toNat?).getD count
      let last := if from10 < count then count - 1 + from10 else count - 1
      neededLength q.digits.length last last
  if q.length ≠ 0 && q.length < needed then
    fail name 1 ("the suffix length needs to be at least ".toList ++ Chars.ofNat needed)
  let length := if q.length ≠ 0 then q.length else max 2 needed
  let isGrowing := q.length = 0 && q.first.isNone && p.count?.isNone
  return ⟨base, q.digits, length, isGrowing, first, q.ending⟩

end PartitionRequest

/-! ## Writing -/

/-- Gives a piece to a command, which finds its name in the environment. -/
def feedCommand (programs : Chars → Option Program) (name : Chars) (env : List Chars)
    (command file piece : Chars) : Routine Unit := do
  let (reader, writer) ← Routine.pipe
  let shell := match Image.valueIn? env "SHELL".toList with
    | some path => baseName path
    | none => "sh".toList
  let child ← startCommand programs shell command (withEntry env ("FILE=".toList ++ file)) do
    let _ ← Routine.assign 0 reader true
    Routine.close reader
    Routine.close writer
  Routine.close reader
  Routine.onSelf fun p ↦ { p with ignored := p.ignored ++ [Machine.pipeSignal] }
  let _ ← Routine.print writer piece
  Routine.close writer
  let status := Signal.codeOf (← waitFor child)
  if status ≠ 0 then
    fail name status ("with FILE=".toList ++ shown file ++ ", exit ".toList ++
      Chars.ofNat status ++ " from command: ".toList ++ command)
where
  /-- What stands behind the last slash of a path. -/
  baseName (path : Chars) : Chars := (path.reverse.takeWhile (· ≠ '/')).reverse

/-- Puts a piece into a file that is not the input. -/
def putPiece (name : Chars) (input : Option Nat) (file piece : Chars) : Routine Unit := do
  let there ← Routine.look fun h ↦ match h.entry (Chars.toPath file) with
    | .ok (_, .file f) => some f.id
    | _ => none
  if there.isSome && there = input then
    fail name 1 (quoted file ++ " would overwrite input; aborting".toList)
  match ← Routine.openPath (Chars.toPath file) .forWriting Routine.usualMode with
  | .error e => fail name 1 (because (shown file) e)
  | .ok n =>
    let written ← Routine.print n piece
    Routine.close n
    if let .error e := written then fail name 1 (because (shown file) e)

/-- Puts pieces into files from a number on. -/
def putPieces (put : Chars → Chars → Routine Unit) (announce : Chars → Routine Unit) (name : Chars)
    (x : PieceNames) : Nat → List Chars → Routine Unit
  | _, [] => return
  | k, piece :: rest => do
    match x.name? k with
    | none => fail name 1 "output file suffixes exhausted".toList
    | some file =>
      announce file
      put file piece
      putPieces put announce name x (k + 1) rest

/-- Cuts an input into files. -/
def split (programs : Chars → Option Program) : Program := fun args env ↦ do
  let name := args.headD []
  let c ← readCall name 1 PartitionRequest.flags true args.tail
  let q ← c.flags.foldlM (PartitionRequest.withFlag name) PartitionRequest.usual
  if q.chosen.isSome && q.filter.isSome then
    refuse name 1 "--filter does not process a chunk extracted to stdout".toList
  let p := q.partition.getD (.lines 1000)
  if let .lines 0 := p then refuse name 1 ("invalid number of lines: ".toList ++ cited ['0'])
  let (file, base) ← (match c.operands with
    | [] => pure (['-'], ['x'])
    | [file] => pure (file, ['x'])
    | [file, base] => pure (file, base)
    | _ :: _ :: extra :: _ => extraOperand name 1 extra)
  let x ← q.names name p base
  if q.first.any (x.length < ·.length) then
    refuse name 1 "numerical suffix start value is too large for the suffix length".toList
  match ← openInput file with
  | .error e => fail name 1 (because ("cannot open ".toList ++ quoted file ++
      " for reading".toList) e)
  | .ok n =>
    let input ← Routine.act fun p m ↦ (match m.openFile? p n with
      | some (_, ⟨.file id, _, _, _, _⟩) => some id
      | _ => none, m)
    match ← Routine.readAll n with
    | .error e => fail name 1 (because (shown file) e)
    | .ok content =>
      let pieces := p.pieces (q.last.getD '\n') (Chars.ofBytes content)
      match q.chosen with
      | some k =>
        emit name (pieces[k - 1]?.getD [])
        return 0
      | none =>
        let pieces := if q.skipsEmpty then pieces.filter (· ≠ []) else pieces
        let announce := fun (file : Chars) ↦
          if q.isVerbose then tell name (match q.filter with
            | some _ => "executing with FILE=".toList ++ shown file
            | none => "creating file ".toList ++ quoted file)
          else pure ()
        let put := match q.filter with
          | some command => feedCommand programs name env command
          | none => putPiece name input
        putPieces put announce name x 0 pieces
        return 0

end ContractBuild.Utility
