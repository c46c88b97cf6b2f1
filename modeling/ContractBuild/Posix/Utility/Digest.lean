import ContractBuild.Posix.Checksum
import ContractBuild.Posix.Utility.Amount

/-!
# Digests of files

Utilities that write the checksums of files, and compare files with checksums that were written
before.
-/

namespace ContractBuild.Utility

/-! ## Kinds of checksums -/

/-- A kind of digest. -/
structure Digest where
  /-- The name of the kind. -/
  title : String
  /-- How many bytes a digest has. -/
  size : Nat
  /-- Whether digests can have fewer bytes. -/
  isVariable : Bool
  /-- The digest of so many bytes for a content. -/
  compute : Nat → Bytes → Bytes

namespace Digest

/-- The digests of one size only. -/
def fixed (title : String) (size : Nat) (compute : Bytes → Bytes) : Digest :=
  ⟨title, size, false, fun _ ↦ compute⟩

/-- The kinds of digests, each with its word. -/
def all : List (String × Digest) :=
  [("md5", fixed "MD5" 16 Checksum.Md5.digest), ("sha1", fixed "SHA1" 20 Checksum.Sha1.digest),
    ("sha224", fixed "SHA224" 28 Checksum.sha224), ("sha256", fixed "SHA256" 32 Checksum.sha256),
    ("sha384", fixed "SHA384" 48 Checksum.sha384), ("sha512", fixed "SHA512" 64 Checksum.sha512),
    ("blake2b", ⟨"BLAKE2b", 64, true, Checksum.Blake.digest⟩)]

end Digest

/-- A kind of short checksum: how a line shows it for a content. -/
abbrev ShortSum := Bytes → Chars

/-- A number behind blanks. -/
def padLeft (width : Nat) (cs : Chars) : Chars := List.replicate (width - cs.length) ' ' ++ cs

/-- How many blocks of a size a content takes. -/
def blockCount (size : Nat) (bs : Bytes) : Chars := Chars.ofNat ((bs.length + size - 1) / size)

/-- The kinds of short checksums, each with its word. -/
def ShortSum.all : List (String × ShortSum) :=
  [("bsd", fun bs ↦ Chars.ofNatWide 5 (Checksum.rotatingSum bs) ++
      ' ' :: padLeft 5 (blockCount 1024 bs)),
    ("sysv", fun bs ↦ Chars.ofNat (Checksum.foldedSum bs) ++ ' ' :: blockCount 512 bs),
    ("crc", fun bs ↦ Chars.ofNat (Checksum.cyclic bs) ++ ' ' :: Chars.ofNat bs.length)]

/-! ## Names in lines -/

/-- Whether a name would break the form of a line. -/
def needsEscapes (file : Chars) : Bool := file.any fun c ↦ c = '\\' || c = '\n' || c = '\r'

/-- A name with escapes. -/
def escapedName (file : Chars) : Chars := file.flatMap fun c ↦
  match c with
  | '\\' => ['\\', '\\']
  | '\n' => ['\\', 'n']
  | '\r' => ['\\', 'r']
  | c => [c]

/-- The name that was written with escapes, if it is well written. -/
def unescapedName? : Chars → Option Chars
  | [] => some []
  | '\\' :: 'n' :: cs => (unescapedName? cs).map ('\n' :: ·)
  | '\\' :: 'r' :: cs => (unescapedName? cs).map ('\r' :: ·)
  | '\\' :: '\\' :: cs => (unescapedName? cs).map ('\\' :: ·)
  | '\\' :: _ => none
  | c :: cs => if c = '\x00' then none else (unescapedName? cs).map (c :: ·)

/-! ## Writing -/

/-- How lines with digests look. -/
structure DigestForm where
  /-- The digest. -/
  digest : Digest
  /-- How many bytes it has. -/
  size : Nat
  /-- The name of the digest stands in the line. -/
  isTagged : Bool
  /-- The file is marked as one of bytes. -/
  isBinary : Bool
  /-- Lines end with a null character. -/
  endsWithNull : Bool

/-- The name of a digest in lines. -/
def DigestForm.title (f : DigestForm) : Chars :=
  f.digest.title.toList ++
    if f.size = f.digest.size then [] else '-' :: Chars.ofNat (8 * f.size)

/-- The line for a file with a content. -/
def DigestForm.line (f : DigestForm) (file : Chars) (bs : Bytes) : Chars :=
  let hasEscapes := !f.endsWithNull && needsEscapes file
  let name := if hasEscapes then escapedName file else file
  let digits := Bytes.hexadecimal (f.digest.compute f.size bs)
  (if hasEscapes then ['\\'] else []) ++
    (if f.isTagged then f.title ++ " (".toList ++ name ++ ") = ".toList ++ digits
      else digits ++ [' ', if f.isBinary then '*' else ' '] ++ name) ++
    [if f.endsWithNull then '\x00' else '\n']

/-- Writes a line for every file. -/
def writeSums (name : Chars) (line : Chars → Bytes → Chars) (files : List Chars) : Routine Nat := do
  let status ← forStatus (fun file ↦ do
    match ← readInput file with
    | .error e =>
      warn name (because (shown file) e)
      return 1
    | .ok cs =>
      emit name (line file (Chars.toBytes cs))
      return 0) files
  leaveStandard name 1 "standard input" files status

/-- Writes a line with a short checksum for every operand, or for the standard input. -/
def writeShortSums (name : Chars) (s : ShortSum) (c : Call) : Routine Nat :=
  writeSums name (fun file bs ↦ s bs ++ (if c.operands = [] then [] else ' ' :: file) ++
    [lastOfLines c 'z']) (inputsOf c.operands)

/-! ## Reading -/

/-- What a line says about a file. -/
structure DigestEntry where
  /-- The digest. -/
  digest : Digest
  /-- The hexadecimal digits of its value. -/
  digits : Chars
  /-- The file. -/
  file : Chars

/-- Whether a character is a hexadecimal digit. -/
def isHexadecimal (c : Char) : Bool := Numeral.digit c < 16

/-- Whether so many characters can be the digits of a digest. -/
def Digest.fits (d : Digest) (ds : Chars) : Bool :=
  ds.all isHexadecimal && (ds.length = 2 * d.size ||
    (d.isVariable && ds ≠ [] && ds.length % 2 = 0 && ds.length < 2 * d.size))

/-- The file and the digits of a line with a title, behind its opening parenthesis. -/
def readTagged (hasEscapes : Bool) (cs : Chars) : Option (Chars × Chars) := do
  let (behind, front) := cs.reverse.span (· ≠ ')')
  let file := front.tail.reverse
  let file ← if front = [] then none else if hasEscapes then unescapedName? file else some file
  let isBlank := fun c ↦ c = ' ' || c = '\t'
  match behind.reverse.dropWhile isBlank with
  | '=' :: ds => some (file, ds.dropWhile isBlank)
  | _ => none

/-- What a line says whose title is one of some digests. -/
def readTaggedLine (ds : List Digest) (hasEscapes : Bool) (cs : Chars) : Option DigestEntry := do
  let d ← ds.find? fun d ↦ d.title.toList.isPrefixOf cs
  let rest := cs.drop d.title.length
  let (size, rest) ← (match d.isVariable, rest with
    | true, '-' :: rest =>
      let (k, rest) := rest.span Char.isDigit
      (Chars.toNat? k).map fun n ↦ (n / 8, rest)
    | _, rest => some (d.size, rest))
  let rest := if rest.head? = some ' ' then rest.tail else rest
  match rest with
  | '(' :: rest =>
    let (file, digits) ← readTagged hasEscapes rest
    if digits.length = 2 * size && d.fits digits then some ⟨d, digits, file⟩ else none
  | _ => none

/-- What a line says without a title.  The truth value says whether only blanks and no mark stand in
front of files, if a line has shown that. -/
def readPlainLine (d : Digest) (isBare : Option Bool) (hasEscapes : Bool) (cs : Chars) :
    Option (DigestEntry × Option Bool) := do
  let (digits, rest) := cs.span isHexadecimal
  let named := fun (isBare : Option Bool) (file : Chars) ↦
    (if hasEscapes then unescapedName? file else some file).map fun file ↦
      (DigestEntry.mk d digits file, isBare)
  if !d.fits digits || cs.length < 2 * d.size + 3 && !d.isVariable then none
  else match rest with
    | [_] => none
    | b :: m :: file =>
      if b ≠ ' ' && b ≠ '\t' then none
      else if file = [] || (m ≠ ' ' && m ≠ '*') then
        if isBare = some false then none else named (some true) (m :: file)
      else if isBare = some true then named isBare (m :: file)
      else named (some false) file
    | [] => none

/-- What a line says: with the title of one of some digests, or about one that needs no title. -/
def readLine (ds : List Digest) (usual : Option Digest) (isBare : Option Bool) (line : Chars) :
    Option (DigestEntry × Option Bool) :=
  let cs := line.dropWhile fun c ↦ c = ' ' || c = '\t'
  let (hasEscapes, cs) := match cs with
    | '\\' :: cs => (true, cs)
    | cs => (false, cs)
  if ds.any fun d ↦ d.title.toList.isPrefixOf cs then
    (readTaggedLine ds hasEscapes cs).map fun e ↦ (e, isBare)
  else usual.bind fun d ↦ readPlainLine d isBare hasEscapes cs

/-! ## Comparing -/

/-- How much is said about a comparison. -/
inductive Loudness
  /-- Everything but faults of single lines. -/
  | usual
  /-- Everything. -/
  | warning
  /-- Only what is wrong. -/
  | quiet
  /-- Nothing. -/
  | silent
  deriving DecidableEq

/-- How digests are compared. -/
structure DigestCheck where
  /-- The digests that lines can name. -/
  digests : List Digest
  /-- The digest of lines that name none. -/
  usual : Option Digest
  /-- How much is said. -/
  loudness : Loudness
  /-- Files that are not there are left out. -/
  ignoresMissing : Bool
  /-- Lines that say nothing are faults. -/
  isStrict : Bool

/-- What comparing has found. -/
structure Findings where
  /-- The number of the line. -/
  number : Nat
  /-- How the lines are written. -/
  isBare : Option Bool
  /-- Lines that say nothing. -/
  wrong : Nat
  /-- Lines that say something. -/
  right : Nat
  /-- Files that cannot be read. -/
  unread : Nat
  /-- Files that differ. -/
  different : Nat
  /-- Files that are the same. -/
  same : Nat

/-- Says something about a file on the output. -/
def DigestCheck.tell (o : DigestCheck) (name file : Chars) (message : String) : Routine Unit := do
  if o.loudness ≠ .silent then
    emit name ((if needsEscapes file then '\\' :: escapedName file else file) ++
      ": ".toList ++ Chars.line message.toList)

/-- Compares what a line says with its file. -/
def DigestCheck.entry (o : DigestCheck) (name : Chars) (f : Findings) (e : DigestEntry) :
    Routine Findings := do
  match ← readInput e.file with
  | .error reason =>
    if o.ignoresMissing && reason = .notFound then return f
    warn name (because (shown e.file) reason)
    o.tell name e.file "FAILED open or read"
    return { f with unread := f.unread + 1 }
  | .ok cs =>
    let value := Bytes.hexadecimal (e.digest.compute (e.digits.length / 2) (Chars.toBytes cs))
    if value = e.digits.map Char.toLower then
      if o.loudness ≠ .quiet then o.tell name e.file "OK"
      return { f with same := f.same + 1 }
    else
      o.tell name e.file "FAILED"
      return { f with different := f.different + 1 }

/-- Compares what a line says. -/
def DigestCheck.line (o : DigestCheck) (name list : Chars) (f : Findings) (line : Chars) :
    Routine Findings := do
  let f := { f with number := f.number + 1 }
  let line := withoutEnd line
  let line := if line.getLast? = some '\r' then line.dropLast else line
  if line = [] || line.head? = some '#' then return f
  match (readLine o.digests o.usual f.isBare line).filter fun e ↦
      !(isStandard list && isStandard e.1.file) with
  | some (e, isBare) => o.entry name { f with isBare := isBare, right := f.right + 1 } e
  | none =>
    if o.loudness = .warning then
      let title := (o.usual.map (·.title.toList)).getD "CRC".toList
      let list := if isStandard list then "standard input".toList else list
      warn name (shown list ++ ": ".toList ++ Chars.ofNat f.number ++
        ": improperly formatted ".toList ++ title ++ " checksum line".toList)
    return { f with wrong := f.wrong + 1 }

/-- Warns about a number of things unless there are none. -/
def warnOfMany (name : Chars) (n : Nat) (one many : String) : Routine Unit := do
  if n ≠ 0 then
    warn name ("WARNING: ".toList ++ Chars.ofNat n ++ ' ' :: (if n = 1 then one else many).toList)

/-- Compares files with what a list says. -/
def DigestCheck.list (o : DigestCheck) (name list : Chars) : Routine Nat := do
  let title := if isStandard list then "standard input".toList else list
  match ← openInput list with
  | .error e =>
    warn name (because (shown list) e)
    return 1
  | .ok n =>
    let (f, failure) ← foldLines n (Findings.mk 0 none 0 0 0 0 0) fun f line ↦ do
      return .inl (← o.line name list f line)
    closeInput n
    if let some e := failure then
      warn name (because (shown title) e)
      return 1
    if f.right = 0 then
      warn name (shown title ++ ": no properly formatted checksum lines found".toList)
      return 1
    if o.loudness ≠ .silent then
      warnOfMany name f.wrong "line is improperly formatted" "lines are improperly formatted"
      warnOfMany name f.unread "listed file could not be read" "listed files could not be read"
      warnOfMany name f.different "computed checksum did NOT match"
        "computed checksums did NOT match"
      if o.ignoresMissing && f.same = 0 then
        warn name (shown title ++ ": no file was verified".toList)
    return if f.same ≠ 0 && f.different = 0 && f.unread = 0 && (!o.isStrict || f.wrong = 0) then 0
      else 1

/-! ## Calls -/

/-- The options of all digests. -/
def digestFlags : List Flag :=
  plainFlags [('b', "binary"), ('c', "check"), ('t', "text"), ('w', "warn"), ('z', "zero"),
    ('\x01', "tag"), ('\x02', "ignore-missing"), ('\x03', "quiet"), ('\x04', "status"),
    ('\x05', "strict")]

/-- How loud a call wants a comparison. -/
def loudnessOf (c : Call) : Loudness :=
  match c.lastOf? ['w', '\x03', '\x04'] with
  | some 'w' => .warning
  | some '\x03' => .quiet
  | some '\x04' => .silent
  | _ => .usual

/-- Refuses options that do not go together. -/
def refuseDigestOptions (name : Chars) (c : Call) : Routine Unit := do
  let refuse := fun (message : String) ↦ (refuse name 1 message.toList : Routine Unit)
  let last := c.lastOf? ['b', 't', '\x01']
  let checks := c.has 'c'
  if c.has '\x01' && last = some 't' then refuse "--tag does not support --text mode"
  if c.has 'z' && checks then
    refuse "the --zero option is not supported when verifying checksums"
  if c.has '\x01' && checks then
    refuse "the --tag option is meaningless when verifying checksums"
  if last ≠ none && checks then
    refuse "the --binary and --text options are meaningless when verifying checksums"
  Routine.forEach (fun (isSet, option) ↦ do
    if isSet && !checks then
      refuse ("the --" ++ option ++ " option is meaningful only when verifying checksums"))
    [(c.has '\x02', "ignore-missing"), (decide (loudnessOf c = .silent), "status"),
      (decide (loudnessOf c = .warning), "warn"), (decide (loudnessOf c = .quiet), "quiet"),
      (c.has '\x05', "strict")]

/-- How a call wants files to be compared. -/
def digestCheckOf (c : Call) (digests : List Digest) (usual : Option Digest) : DigestCheck where
  digests := digests
  usual := usual
  loudness := loudnessOf c
  ignoresMissing := c.has '\x02'
  isStrict := c.has '\x05'

/-- How many bytes of a digest a call wants. -/
def digestSize (name : Chars) (c : Call) (d : Digest) : Routine Nat := do
  match c.value? 'l' with
  | none => return d.size
  | some w =>
    let n ← readAmount name 1 "invalid length" [] 0 w
    let wrong := fun (message : Chars) ↦ do
      warn name ("invalid length: ".toList ++ cited w)
      (fail name 1 message : Routine Nat)
    if n % 8 ≠ 0 then wrong "length is not a multiple of 8".toList
    else if 8 * d.size < n then
      wrong ("maximum digest length for ".toList ++ cited d.title.toList ++ " is ".toList ++
        Chars.ofNat (8 * d.size) ++ " bits".toList)
    else return if n = 0 then d.size else n / 8

/-- Writes or compares digests of one kind. -/
def digestSums (d : Digest) : Program := fun args _ ↦ do
  let name := args.headD []
  let c ← readCall name 1 (digestFlags ++ if d.isVariable then valueFlags [('l', "length")] else [])
    true args.tail
  let size ← digestSize name c d
  refuseDigestOptions name c
  let files := inputsOf c.operands
  if c.has 'c' then forStatus ((digestCheckOf c [d] (some d)).list name) files
  else
    let form : DigestForm :=
      ⟨d, size, c.has '\x01', decide (c.lastOf? ['b', 't', '\x01'] = some 'b'), c.has 'z'⟩
    writeSums name form.line files

/-- The digest of a word. -/
def namedDigest (word : String) : Program :=
  match Digest.all.lookup word with
  | some d => digestSums d
  | none => fun _ _ ↦ return 1

/-- Writes sums. -/
def sum : Program := fun args _ ↦ do
  let name := args.headD []
  let c ← readCall name 1 (plainFlags [('r', ""), ('s', "sysv")]) true args.tail
  let word := if c.lastOf? ['r', 's'] = some 's' then "sysv" else "bsd"
  match ShortSum.all.lookup word with
  | some s => writeShortSums name s c
  | none => return 1

/-- Writes or compares checksums of any kind. -/
def cksum : Program := fun args _ ↦ do
  let name := args.headD []
  let c ← readCall name 1 (digestFlags ++ plainFlags [('\x06', "untagged"), ('\x07', "debug")] ++
    valueFlags [('a', "algorithm"), ('l', "length")]) true args.tail
  let words := ShortSum.all.map (·.1) ++ Digest.all.map (·.1)
  let word? ← (match c.value? 'a' with
    | some w => do return some (← readWord name 1 "--algorithm" (words.map ([·])) w)
    | none => return none)
  let word := word?.getD "crc"
  if c.has 'l' && word ≠ "blake2b" then
    fail name 1 "--length is only supported with --algorithm=blake2b".toList
  if c.has 'c' && word?.any fun w ↦ (ShortSum.all.map (·.1)).contains w then
    fail name 1 "--check is not supported with --algorithm=\x7bbsd,sysv,crc\x7d".toList
  refuseDigestOptions name c
  let files := inputsOf c.operands
  if c.has 'c' then
    let usual := Digest.all.lookup word
    let digests := if usual.isSome then usual.toList else Digest.all.map (·.2)
    forStatus ((digestCheckOf c digests usual).list name) files
  else match ShortSum.all.lookup word, Digest.all.lookup word with
    | some s, _ => writeShortSums name s c
    | none, some d =>
      let size ← digestSize name c d
      let isTagged := decide (c.lastOf? ['\x01', '\x06'] ≠ some '\x06')
      writeSums name (DigestForm.mk d size isTagged
        (decide (c.lastOf? ['b', 't', '\x01'] ≠ some 't') && c.flags.any fun f ↦
          f.1 = 'b' || f.1 = '\x01') (c.has 'z')).line files
    | none, none => return 1

/-- A line with a title, and one without. -/
example : ((readLine [Digest.fixed "A" 1 fun _ ↦ []] none none "A (f) = 1b".toList).map
      fun e ↦ (e.1.file, e.1.digits)) = some (['f'], ['1', 'b']) ∧
    ((readLine [] (some (Digest.fixed "A" 1 fun _ ↦ [])) none "1b  f".toList).map
      fun e ↦ (e.1.file, e.1.digits)) = some (['f'], ['1', 'b']) := by decide +kernel

end ContractBuild.Utility
