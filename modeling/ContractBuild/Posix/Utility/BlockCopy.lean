import ContractBuild.Posix.Utility.Amount

/-!
# Copying blocks

A utility that copies blocks of one size from an input to an output, both from a place on, and
changes what it copies on demand.
-/

namespace ContractBuild.Utility

namespace BlockCopy

/-! ## Reading operands -/

/-- The kinds of changes, each with whether blocks of another size are put together for it. -/
def conversions : List (String × Bool) :=
  [("ascii", true), ("ebcdic", true), ("ibm", true), ("block", true), ("unblock", true),
    ("lcase", true), ("ucase", true), ("sparse", false), ("swab", true), ("noerror", false),
    ("nocreat", false), ("excl", false), ("notrunc", false), ("sync", false),
    ("fdatasync", false), ("fsync", false)]

/-- Conversions that do not go together, with the complaint about it. -/
def conflicts : List (List String × String) :=
  [(["ascii", "ebcdic", "ibm"], "cannot combine any two of \x7bascii,ebcdic,ibm\x7d"),
    (["block", "unblock"], "cannot combine block and unblock"),
    (["lcase", "ucase"], "cannot combine lcase and ucase"),
    (["excl", "nocreat"], "cannot combine excl and nocreat")]

/-- The words for how an input or an output is used. -/
def uses : List String :=
  ["append", "binary", "cio", "direct", "directory", "dsync", "noatime", "nocache", "noctty",
    "nofollow", "nolinks", "nonblock", "sync", "text", "fullblock", "count_bytes", "skip_bytes",
    "seek_bytes"]

/-- The operands that are numbers. -/
def numbers : List String :=
  ["ibs", "obs", "bs", "cbs", "skip", "iseek", "seek", "oseek", "count"]

/-- The number that a text spells, which can be a product. -/
def readNumber (w : Chars) : Except (Option IoError) Nat := do
  let factors := Chars.splitOn (· = 'x') w
  let values ← factors.mapM fun cs ↦
    let hasLetter := cs.getLast? = some 'B' && cs.dropLast.getLast?.any Char.isDigit
    let body := if hasLetter then cs.dropLast else cs
    if body.head? = some '-' then .error none else Amount.read "bcEGkKMPTwYZ0".toList body
  let n := values.foldl (· * ·) 1
  if n < Numeral.wordCount / 2 then return n else throw (some (.system 75))

/-- The operands of a call, each with its name. -/
structure Operands where
  /-- Names and values, the last one first. -/
  values : List (String × Chars)

namespace Operands

/-- The value of an operand. -/
def value? (o : Operands) (key : String) : Option Chars := o.values.lookup key

/-- The words in all values of an operand. -/
def words (o : Operands) (key : String) : List Chars :=
  (o.values.reverse.filter (·.1 = key)).flatMap fun e ↦ Chars.splitOn (· = ',') e.2

/-- Whether a word is among the values of an operand. -/
def has (o : Operands) (key word : String) : Bool := (o.words key).contains word.toList

/-- The number in an operand, which may have two names. -/
def number (o : Operands) (keys : List String) (usual : Nat) : Nat :=
  match o.values.find? fun e ↦ keys.contains e.1 with
  | some e => ((readNumber e.2).toOption).getD usual
  | none => usual

/-- Whether a number counts bytes, because it says so or because a word does. -/
def countsBytes (o : Operands) (keys : List String) (use word : String) : Bool :=
  o.has use word || (o.values.find? fun e ↦ keys.contains e.1).any fun e ↦ e.2.contains 'B'

end Operands

/-! ## Changing -/

/-- What follows the changes as they go on. -/
structure Conversion where
  /-- Pairs of bytes change places. -/
  swaps : Bool
  /-- What happens to letters. -/
  letters : Char → Char
  /-- Lines are filled up to records of a size. -/
  fills : Option Nat
  /-- Records of a size become lines. -/
  cuts : Option Nat

/-- Pairs of bytes in each other's places. -/
def swapped : Chars → Chars
  | a :: b :: cs => b :: a :: swapped cs
  | cs => cs

/-- Lines as records of a size; the second number counts the lines that are too long. -/
def filled (size : Nat) (cs : Chars) : Chars × Nat :=
  let ls := Chars.lines cs
  (ls.flatMap fun l ↦ l.take size ++ List.replicate (size - l.length) ' ',
    (ls.filter fun l ↦ size < l.length).length)

/-- Records of a size as lines.  Every step takes a character. -/
def cutFrom (size : Nat) : Nat → Chars → Chars
  | 0, _ => []
  | _, [] => []
  | n + 1, cs =>
    Chars.line ((cs.take size).reverse.dropWhile (· = ' ')).reverse ++
      cutFrom size n (cs.drop size)

/-- Everything that was read as it is to be written; the number counts what is cut off. -/
def Conversion.apply (v : Conversion) (cs : Chars) : Chars × Nat :=
  let cs := cs.map v.letters
  let cs := if v.swaps then swapped cs else cs
  match v.fills, v.cuts with
  | some size, _ => filled size cs
  | none, some size => (cutFrom (max 1 size) cs.length cs, 0)
  | none, none => (cs, 0)

/-- Whether nothing is changed. -/
def Conversion.isIdle (v : Conversion) : Bool := !v.swaps && v.fills.isNone && v.cuts.isNone

/-! ## Counting -/

/-- What has been copied: whole blocks and parts of blocks. -/
structure Tally where
  /-- Whole blocks that were read. -/
  wholeIn : Nat
  /-- Parts of blocks that were read. -/
  partIn : Nat
  /-- Whole blocks that were written. -/
  wholeOut : Nat
  /-- Parts of blocks that were written. -/
  partOut : Nat
  /-- Bytes that were written. -/
  bytes : Nat
  /-- Lines that were cut off. -/
  cut : Nat

/-- Nothing. -/
def Tally.zero : Tally := ⟨0, 0, 0, 0, 0, 0⟩

/-- A number of bytes with a prefix for the power of a base. -/
def scaled (base : Nat) (unit : String) (n : Nat) : Chars :=
  let step := fun (s : Nat × Nat × Chars) (c : Char) ↦
    if s.1 < base * s.2.1 then s else (s.1, s.2.1 * base, [c])
  let (_, size, letter) := (if base = 1000 then "kMGTPE" else "KMGTPE").toList.foldl step (n, 1, [])
  if size = 1 then Chars.ofNat n ++ ' ' :: unit.toList.drop (unit.length - 1)
  else
    let tenths := (n * 10 + size / 2) / size
    (if tenths < 100 then Chars.ofNat (tenths / 10) ++ '.' :: Chars.ofNat (tenths % 10)
      else Chars.ofNat ((n + size / 2) / size)) ++ ' ' :: letter ++ unit.toList

/-- The lines about what has been copied in so many milliseconds. -/
def Tally.lines (t : Tally) (hasSpeed : Bool) (duration : Nat) : Chars :=
  let counts := fun (whole part : Nat) (what : String) ↦
    Chars.line (Chars.ofNat whole ++ '+' :: Chars.ofNat part ++ ' ' :: what.toList)
  let cut := if t.cut = 0 then [] else Chars.line (Chars.ofNat t.cut ++
    (if t.cut = 1 then " truncated record" else " truncated records").toList)
  let sizes := if t.bytes < 1000 then []
    else if t.bytes < 1024 then " (".toList ++ scaled 1000 "B" t.bytes ++ [')']
    else " (".toList ++ scaled 1000 "B" t.bytes ++ ", ".toList ++ scaled 1024 "iB" t.bytes ++ [')']
  let seconds := (max 1 duration)
  let speed := Chars.ofNat t.bytes ++ (if t.bytes = 1 then " byte" else " bytes").toList ++ sizes ++
    " copied, 0.".toList ++ Chars.ofNatWide 3 (seconds % 1000) ++ " s, ".toList ++
    scaled 1000 "B" (t.bytes * 1000 / seconds) ++ "/s".toList
  counts t.wholeIn t.partIn "records in" ++ counts t.wholeOut t.partOut "records out" ++ cut ++
    if hasSpeed then Chars.line speed else []

/-! ## Places -/

/-- Makes a file that is open under a number as long as a place says. -/
def resize (n size : Nat) : Routine Unit := Routine.act fun p m ↦
  match m.openFile? p n with
  | some (_, ⟨.file id, _, _, _, _⟩) => ((), m.onFile id fun f ↦
      f.withContent (f.content.take size ++ List.replicate (size - f.content.length) 0) m.tree.now)
  | _ => ((), m)

/-! ## Copying -/

/-- How the standard input is copied to the standard output. -/
structure Job where
  /-- The name of the program. -/
  name : Chars
  /-- The name of the input. -/
  inputName : Chars
  /-- The name of the output. -/
  outputName : Chars
  /-- How many bytes are read at a time. -/
  inputSize : Nat
  /-- How many bytes are written at a time; nothing if that is what was read. -/
  outputSize : Option Nat
  /-- How many bytes are read at most. -/
  byteLimit : Option Nat
  /-- How many blocks are read at most. -/
  blockLimit : Option Nat
  /-- Blocks are read until they are full. -/
  fillsBlocks : Bool
  /-- Blocks that are not full are filled up. -/
  completes : Bool
  /-- The changes. -/
  conversion : Conversion

/-- The next block of the input. -/
def Job.readBlock (j : Job) (limit : Nat) : Routine (Except IoError Bytes) :=
  if !j.fillsBlocks then Routine.readAtMost 0 limit
  else Routine.loop ([] : Bytes) fun done ↦ do
    match ← Routine.readAtMost 0 (limit - done.length) with
    | .error e => return .inr (.error e)
    | .ok bs =>
      let done := done ++ bs
      return if bs = [] || limit ≤ done.length then .inr (.ok done) else .inl done

/-- Writes a block. -/
def Job.writeBlock (j : Job) (t : Tally) (whole : Nat) (bs : Bytes) :
    Routine (Except IoError Tally) :=
  do
  if bs = [] then return .ok t
  match ← Routine.write 1 bs with
  | .error e =>
    warn j.name (because ("error writing ".toList ++ quoted j.outputName) e)
    return .error e
  | .ok () =>
    let t := { t with bytes := t.bytes + bs.length }
    return .ok (if bs.length = whole then { t with wholeOut := t.wholeOut + 1 }
      else { t with partOut := t.partOut + 1 })

/-- Writes all whole blocks of what is held; the rest stays.  Every step writes a byte at least. -/
def Job.writeWhole (j : Job) (size : Nat) :
    Nat → Tally → Bytes → Routine (Except IoError (Tally × Bytes))
  | 0, t, held => return .ok (t, held)
  | n + 1, t, held => do
    if held.length < size || size = 0 then return .ok (t, held)
    match ← j.writeBlock t size (held.take size) with
    | .ok t => j.writeWhole size n t (held.drop size)
    | .error e => return .error e

/-- How far copying has come. -/
structure Progress where
  /-- What has been copied. -/
  tally : Tally
  /-- What is held back. -/
  held : Bytes
  /-- How many bytes have been read. -/
  taken : Nat

/-- Copies blocks until there are no more; the value is what has been copied and whether all went
well. -/
def Job.copy (j : Job) : Routine (Tally × Bool) := do
  let keepsAll := !j.conversion.isIdle
  let filler : UInt8 := if j.conversion.fills.isSome || j.conversion.cuts.isSome then 0x20 else 0
  let (s, isRight) ← Routine.loop (Progress.mk .zero [] 0) fun s ↦ do
    let left := match j.byteLimit with
      | some k => min j.inputSize (k - s.taken)
      | none => j.inputSize
    if left = 0 || j.blockLimit.any (· ≤ s.tally.wholeIn + s.tally.partIn) then
      return .inr (s, true)
    match ← j.readBlock left with
    | .error e =>
      warn j.name (because ("error reading ".toList ++ quoted j.inputName) e)
      return .inr (s, false)
    | .ok [] => return .inr (s, true)
    | .ok bs =>
      let isWhole := bs.length = j.inputSize
      let t := if isWhole then { s.tally with wholeIn := s.tally.wholeIn + 1 }
        else { s.tally with partIn := s.tally.partIn + 1 }
      let taken := s.taken + bs.length
      let bs := if j.completes then bs ++ List.replicate (j.inputSize - bs.length) filler else bs
      match j.outputSize with
      | none =>
        match ← j.writeBlock t j.inputSize bs with
        | .ok t => return .inl ⟨t, [], taken⟩
        | .error _ => return .inr (⟨t, [], taken⟩, false)
      | some size =>
        if keepsAll then return .inl ⟨t, s.held ++ bs, taken⟩
        let cs := (Chars.ofBytes bs).map j.conversion.letters
        let held := s.held ++ Chars.toBytes cs
        match ← j.writeWhole size held.length t held with
        | .ok (t, held) => return .inl ⟨t, held, taken⟩
        | .error _ => return .inr (⟨t, [], taken⟩, false)
  match j.outputSize with
  | none => return (s.tally, isRight)
  | some size =>
    let (cs, cut) := if keepsAll then j.conversion.apply (Chars.ofBytes s.held)
      else (Chars.ofBytes s.held, 0)
    let held := Chars.toBytes cs
    match ← j.writeWhole size held.length { s.tally with cut } held with
    | .error _ => return (s.tally, false)
    | .ok (t, rest) =>
      match ← j.writeBlock t size rest with
      | .ok t => return (t, isRight)
      | .error _ => return (t, false)

end BlockCopy

open BlockCopy

/-- The operands of a call, which must be right. -/
def readBlockOperands (name : Chars) (words : List Chars) : Routine BlockCopy.Operands := do
  let check := fun (what : String) (known : List String) (value : Chars) ↦
    Routine.forEach (fun w ↦ do
      if !known.contains (Chars.toString w) then
        refuse name 1 (what.toList ++ ": ".toList ++ cited w)) (Chars.splitOn (· = ',') value)
  let entries ← words.mapM fun w ↦ do
    let (key, value) := w.span (· ≠ '=')
    let key := Chars.toString key
    let isKnown := ["if", "of", "conv", "iflag", "oflag", "status"].contains key ||
      numbers.contains key
    if value = [] || !isKnown then refuse name 1 ("unrecognized operand ".toList ++ cited w)
    let value := value.tail
    match key with
    | "conv" => check "invalid conversion" (conversions.map (·.1)) value
    | "iflag" => check "invalid input flag" uses value
    | "oflag" => check "invalid output flag" uses value
    | "status" =>
      if !(["none", "noxfer", "progress"].contains (Chars.toString value)) then
        refuse name 1 ("invalid status level: ".toList ++ cited value)
    | key =>
      if numbers.contains key then
        match readNumber value with
        | .error e => fail name 1 (match e with
            | some e => because ("invalid number: ".toList ++ cited value) e
            | none => "invalid number: ".toList ++ cited value)
        | .ok 0 =>
          if ["ibs", "obs", "bs", "cbs"].contains key then
            fail name 1 ("invalid number: ".toList ++ cited value)
        | .ok _ => pure ()
    return (key, value)
  return ⟨entries.reverse⟩

/-- The changes that operands ask for. -/
def conversionOf (o : BlockCopy.Operands) : Conversion where
  swaps := o.has "conv" "swab"
  letters := if o.has "conv" "lcase" then Char.toLower
    else if o.has "conv" "ucase" then Char.toUpper
    else id
  fills := if o.has "conv" "block" && o.value? "cbs" ≠ none then some (o.number ["cbs"] 0) else none
  cuts := if o.has "conv" "unblock" && o.value? "cbs" ≠ none then some (o.number ["cbs"] 0)
    else none

/-- Skips bytes of the standard input. -/
def skipInput (name file : Chars) (isSilent : Bool) (blockSize count : Nat) (isBytes : Bool) :
    Routine Unit := do
  let bytes := if isBytes then count else count * blockSize
  if ← isRewindable 0 then
    match ← standing? 0 with
    | some (position, size) =>
      moveTo 0 (position + bytes)
      if size < position + bytes && !isSilent then
        warn name (shown file ++ ": cannot skip to specified offset".toList)
    | none => pure ()
  else
    let left ← Routine.loop (count, bytes) fun (count, bytes) ↦ do
      if (if isBytes then bytes else count) = 0 then return .inr 0
      match ← Routine.readAtMost 0 (min bytes blockSize) with
      | .ok (b :: bs) => return .inl (count - 1, bytes - (b :: bs).length)
      | _ => return .inr 1
    if left ≠ 0 && !isSilent then
      warn name (shown file ++ ": cannot skip to specified offset".toList)

/-- Copies blocks. -/
def dd : Program := fun args _ ↦ do
  let name := args.headD []
  let c ← readCall name 1 [] false args.tail
  let o ← readBlockOperands name c.operands
  Routine.forEach (fun (ws, message) ↦ do
    let isIdle := ws.contains "block" && o.value? "cbs" = none
    if 1 < (ws.filter fun w ↦ o.has "conv" w).length && !isIdle then
      fail name 1 message.toList) conflicts
  let isSilent := o.value? "status" = some "none".toList
  let start ← Routine.now
  let inputName := (o.value? "if").getD "standard input".toList
  let outputName := (o.value? "of").getD "standard output".toList
  let openAs := fun (n : Nat) (file : Chars) (mode : Machine.OpenMode) ↦ do
    match ← Routine.openPath (Chars.toPath file) mode Routine.usualMode with
    | .ok k =>
      if k ≠ n then
        let _ ← Routine.assign n k true
        Routine.close k
    | .error e => fail name 1 (because ("failed to open ".toList ++ quoted file) e)
  if let some file := o.value? "if" then openAs 0 file .forReading
  let sizes := fun (key : String) ↦ o.number [if o.value? "bs" ≠ none then "bs" else key] 512
  let (inputSize, outputSize) := (sizes "ibs", sizes "obs")
  let seek := o.number ["seek", "oseek"] 0
  let place := if o.countsBytes ["seek", "oseek"] "oflag" "seek_bytes" then seek
    else seek * outputSize
  let keeps := o.has "conv" "notrunc"
  if let some file := o.value? "of" then
    openAs 1 file ⟨false, true, !o.has "conv" "nocreat", !keeps && seek = 0, o.has "oflag" "append",
      o.has "conv" "excl"⟩
  if seek ≠ 0 then
    if let some (position, _) ← standing? 1 then
      if !keeps && o.value? "of" ≠ none then resize 1 (position + place)
      moveTo 1 (position + place)
  let skip := o.number ["skip", "iseek"] 0
  if skip ≠ 0 then
    skipInput name inputName isSilent inputSize skip
      (o.countsBytes ["skip", "iseek"] "iflag" "skip_bytes")
  let count? := (o.value? "count").map fun _ ↦ o.number ["count"] 0
  let isByteCount := o.countsBytes ["count"] "iflag" "count_bytes"
  let gathers := o.value? "bs" = none ||
    (o.words "conv").any fun w ↦ conversions.lookup (Chars.toString w) = some true
  let (tally, isRight) ← BlockCopy.Job.copy {
    name, inputName, outputName, inputSize
    outputSize := if gathers then some outputSize else none
    byteLimit := if isByteCount then count? else none
    blockLimit := if isByteCount then none else count?
    fillsBlocks := o.has "iflag" "fullblock"
    completes := o.has "conv" "sync"
    conversion := conversionOf o }
  if !(← Routine.isOpen 0) then
    fail name 1 (because ("closing input file ".toList ++ quoted inputName) .badDescriptor)
  if !(← Routine.isOpen 1) then
    fail name 1 (because ("closing output file ".toList ++ quoted outputName) .badDescriptor)
  if !isSilent then
    say (tally.lines (o.value? "status" ≠ some "noxfer".toList) ((← Routine.now) - start))
  return if isRight then 0 else 1

/-- A product, and sizes for people. -/
example : (readNumber "2x1k".toList).toOption = some 2048 ∧
    scaled 1000 "B" 2000000 = "2.0 MB".toList ∧ scaled 1024 "iB" 2000000 = "1.9 MiB".toList := by
  decide +kernel

end ContractBuild.Utility
