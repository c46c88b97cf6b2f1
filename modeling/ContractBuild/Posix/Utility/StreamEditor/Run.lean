import ContractBuild.Posix.Utility.FileName
import ContractBuild.Posix.Utility.Launch
import ContractBuild.Posix.Utility.Basic
import ContractBuild.Posix.Utility.StreamEditor.Reader

/-!
# Running scripts of a stream editor

A script is run for every line of the inputs.  The line is written behind it, together with what
was put off until then; lines can also be kept for later.
-/

namespace ContractBuild.Utility.StreamEditor

/-- How a script is run. -/
structure Settings where
  /-- The name of the program. -/
  name : Chars
  /-- The commands. -/
  script : Array Command
  /-- Lines are written only on demand. -/
  isSilent : Bool
  /-- Every input has lines of its own. -/
  isSeparate : Bool
  /-- Inputs are replaced by what is written; the text says under what name they are kept. -/
  inPlace : Option Chars
  /-- What ends a line. -/
  lineEnd : Char
  /-- How wide lines are shown. -/
  width : Nat
  /-- Characters can have several bytes. -/
  isWide : Bool
  /-- Lines are written at once. -/
  isHasty : Bool
  /-- Runs a command; the value is its output. -/
  run : Chars → Routine Chars

/-- A line, and whether it has an end. -/
structure Buffer where
  /-- The text. -/
  text : Chars
  /-- Whether it has an end. -/
  isWhole : Bool

/-- What is written behind a line. -/
inductive Later
  /-- A text. -/
  | text (cs : Chars)
  /-- A file. -/
  | file (name : Chars)

/-- An input that has been opened. -/
structure Input where
  /-- Its name. -/
  name : Chars
  /-- Its descriptor. -/
  descriptor : Nat
  /-- Whether all of it has been read. -/
  isOver : Bool

/-- A file that lines are written to. -/
structure Sink where
  /-- Its name. -/
  name : Chars
  /-- Its descriptor. -/
  descriptor : Nat
  /-- Whether the last line lacks its end. -/
  isOpen : Bool

/-- How far a script has come. -/
structure State where
  /-- The place of the next command. -/
  place : Nat
  /-- The line at work. -/
  line : Buffer
  /-- What is kept. -/
  kept : Buffer
  /-- The number of the line. -/
  number : Nat
  /-- What is written behind the line. -/
  later : List Later
  /-- Whether something has been replaced. -/
  hasReplaced : Bool
  /-- The pattern that was used last. -/
  lastPattern : Option Regex
  /-- The commands that are for several lines and have met the first of them, each with the number
  of the last one if it is known. -/
  ranges : List (Nat × Option Nat)
  /-- The inputs that have not been opened. -/
  files : List Chars
  /-- The input at work. -/
  input : Option Input
  /-- The name of the input that the line comes from. -/
  fileName : Chars
  /-- The line that has been read ahead. -/
  ahead : Option Chars
  /-- The files that lines are written to. -/
  sinks : List Sink
  /-- The files that lines are read from. -/
  sources : List (Chars × Option Nat)
  /-- Whether the last line of the output lacks its end. -/
  isOpen : Bool
  /-- What was written in the place of an input, the last piece first. -/
  edited : List Chars
  /-- The output that has not been written. -/
  spool : Spool
  /-- The status. -/
  status : Nat

/-! ## Writing -/

/-- The complaint about output that cannot be written. -/
def refuseOutput (name : Chars) (e : IoError) : Routine Unit :=
  fail name 4 (because (if e = .badDescriptor then "couldn't close stdout" else
    "couldn't flush stdout").toList e)

/-- Writes what is left of the output. -/
def flush (x : Settings) (s : State) : Routine State := do
  return { s with spool := ← s.spool.flush (refuseOutput x.name) }

/-- Says what is wrong and ends everything. -/
def giveUp {α : Type} (x : Settings) (s : State) (code : Nat) (message : Chars) : Routine α := do
  warn x.name message
  let _ ← flush x s
  Routine.exit code

/-- Writes characters to the standard output. -/
def putOut (x : Settings) (s : State) (cs : Chars) : Routine State := do
  let s := { s with spool := ← s.spool.put (refuseOutput x.name) (Wide.write cs) }
  if x.isHasty then flush x s else return s

/-- Writes characters. -/
def put (x : Settings) (s : State) (cs : Chars) : Routine State := do
  if x.inPlace.isSome then return { s with edited := Wide.write cs :: s.edited }
  putOut x s cs

/-- Ends the last line of the output if it lacks its end. -/
def endLine (x : Settings) (s : State) : Routine State := do
  if !s.isOpen then return s
  let s ← put x s [x.lineEnd]
  return { s with isOpen := false }

/-- Writes whole lines. -/
def putText (x : Settings) (s : State) (cs : Chars) : Routine State := do
  let s ← endLine x s
  put x s cs

/-- A line as it is written. -/
def Buffer.shown (b : Buffer) (lineEnd : Char) : Chars :=
  if b.isWhole then b.text ++ [lineEnd] else b.text

/-- Writes a line. -/
def putLine (x : Settings) (s : State) (b : Buffer) : Routine State := do
  let s ← putText x s (b.shown x.lineEnd)
  return { s with isOpen := !b.isWhole }

/-- The descriptor of the standard output. -/
def outputNumber : Nat := 1

/-- Writes a line to a file. -/
def putTo (x : Settings) (s : State) (file : Chars) (b : Buffer) : Routine State := do
  match s.sinks.find? (·.name = file) with
  | none => return s
  | some k =>
    let text := (if k.isOpen then [x.lineEnd] else []) ++ b.shown x.lineEnd
    let s := { s with sinks := s.sinks.map fun j ↦
      if j.name = file then { j with isOpen := !b.isWhole } else j }
    if k.descriptor = outputNumber then return ← putOut x s text
    if let .error e ← Routine.print k.descriptor (Wide.write text) then
      giveUp x s 4 (because ("couldn't flush ".toList ++ Wide.write file) e)
    return s

/-- Writes what was put off. -/
def putLater (x : Settings) (s : State) : Routine State := do
  let s' ← go s s.later
  return { s' with later := [] }
where
  /-- Writes some of what was put off. -/
  go (s : State) : List Later → Routine State
    | [] => return s
    | .text cs :: rest => do go (← putText x s cs) rest
    | .file name :: rest => do
      let s ← endLine x s
      match ← readInput (Wide.write name) with
      | .ok cs => go (← put x s cs) rest
      | .error _ => go s rest

/-! ## Reading -/

/-- Replaces an input by what was written. -/
def finishFile (x : Settings) (s : State) : Routine State := do
  match x.inPlace, s.input with
  | some suffix, some i =>
    let path := Chars.toPath i.name
    let mode ← Routine.look fun h ↦ match h.entry path with
      | .ok (_, .file f) => f.mode
      | _ => fileMode
    let backup := if suffix.contains '*' then
        suffix.flatMap fun c ↦ if c = '*' then lastName i.name else [c]
      else lastName i.name ++ suffix
    let backup := inDirectory (directoryPart i.name) backup
    let moved ← Routine.change fun h ↦
      if suffix = [] then h.unlink path else h.rename path (Chars.toPath backup)
    if let .error e := moved then
      giveUp x s 4 (because ("cannot rename ".toList ++ i.name) e)
    if let .ok n ← Routine.openPath path .forWriting mode then
      let _ ← Routine.print n s.edited.reverse.flatten
      Routine.close n
      let _ ← Routine.change fun h ↦ do
        let (l, _) ← h.entry path
        return h.permit l mode
    return { s with edited := [], isOpen := false }
  | _, _ => return s

/-- Opens the next input, if there is one. -/
def openNext (x : Settings) (s : State) : Routine State := do
  match s.files with
  | [] => return s
  | file :: files =>
    let s := { s with files }
    let isRegular ← Routine.look (·.isFile (Chars.toPath file))
    let opened ← if x.inPlace.isSome then Routine.openPath (Chars.toPath file) .forReading 0
      else openInput file
    match opened with
    | .error e =>
      warn x.name ("can't read ".toList ++ because file e)
      return { s with status := max 2 s.status }
    | .ok n =>
      if x.inPlace.isSome && !isRegular then
        closeInput n
        warn x.name ("couldn't edit ".toList ++ file ++ ": not a regular file".toList)
        return { s with status := max 4 s.status }
      return { s with input := some ⟨file, n, false⟩ }

/-- Reads a line ahead, as far as the input at work has one. -/
def lookAhead (x : Settings) (s : State) : Routine State := do
  match s.ahead, s.input with
  | none, some i =>
    if i.isOver then return s
    match ← Routine.readUpTo i.descriptor (if x.lineEnd = '\n' then 0x0A else 0) with
    | .error e =>
      let name := if isStandard i.name then "stdin".toList else i.name
      giveUp x s 4 (because ("read error on ".toList ++ name) e)
    | .ok [] =>
      closeInput i.descriptor
      return { s with input := some { i with isOver := true } }
    | .ok bs =>
      let cs := Chars.ofBytes bs
      return { s with ahead := some (if x.isWide then Wide.read cs else cs) }
  | _, _ => return s

/-- Reads a line ahead, from a later input if need be. -/
def lookFar (x : Settings) (s : State) : Routine State :=
  Routine.loop s fun s ↦ do
    let s ← lookAhead x s
    if s.ahead.isSome || s.files = [] then return .inr s
    return .inl (← openNext x s)

/-- Whether the line is the last one. -/
def isLast (x : Settings) (s : State) : Routine (State × Bool) := do
  let s ← if x.isSeparate then lookAhead x s else lookFar x s
  return (s, s.ahead.isNone)

/-- The commands that are for lines from the start on. -/
def firstRanges (script : Array Command) : List (Nat × Option Nat) :=
  script.toList.zipIdx.filterMap fun (c, k) ↦ match c.selection.first with
    | some (.line 0) => some (k, none)
    | _ => none

/-- Goes to the next line; it stands behind the text that is left.  The truth value says whether
there is one. -/
def advance (x : Settings) (s : State) (left : Option Chars) : Routine (State × Bool) := do
  let s ← putLater x s
  Routine.loop s fun s ↦ do
    let s ← lookAhead x s
    match s.ahead, s.files with
    | some raw, _ =>
      let isWhole := raw.getLast? = some x.lineEnd
      let text := if isWhole then raw.dropLast else raw
      let text := match left with
        | some front => front ++ x.lineEnd :: text
        | none => text
      return .inr ({ s with
        ahead := none, number := s.number + 1, line := ⟨text, isWhole⟩, hasReplaced := false
        fileName := (s.input.map (·.name)).getD ['-'] }, true)
    | none, [] => return .inr (s, false)
    | none, _ :: _ =>
      if x.isSeparate && s.input.isSome then
        let s ← finishFile x s
        let s ← if x.inPlace.isSome then pure s else endLine x s
        let s ← openNext x { s with input := none }
        return .inl { s with number := 0, ranges := firstRanges x.script }
      return .inl (← openNext x s)

/-- Ends a run with a code, unless there is one already. -/
def finish (x : Settings) (s : State) (code : Nat) : Routine Nat := do
  let s ← finishFile x s
  let s ← flush x s
  if !(← Routine.isOpen outputNumber) then refuseOutput x.name .badDescriptor
  return if code = 0 then s.status else code

/-! ## Choosing commands -/

/-- The match of a pattern in the line. -/
def find (x : Settings) (s : State) (p : Pattern) : Routine (State × Regex × Bool) := do
  match p.regex.orElse fun _ ↦ s.lastPattern with
  | none => giveUp x s 1 "-e expression #1, char 0: no previous regular expression".toList
  | some r =>
    return ({ s with lastPattern := some r }, r,
      (Regex.search p.isFolded r s.line.text 0).isSome)

/-- Whether the line is meant by an address. -/
def isAt (x : Settings) (s : State) : Address → Routine (State × Bool)
  | .line n => return (s, s.number = n)
  | .step first distance =>
    return (s, first ≤ s.number && (s.number - first) % distance = 0)
  | .last => isLast x s
  | .pattern p => do
    let (s, _, isFound) ← find x s p
    return (s, isFound)

/-- The state in which a command has met the first of its lines. -/
def State.opened (s : State) (k : Nat) (last : Option Nat) : State :=
  { s with ranges := (k, last) :: s.ranges }

/-- The state in which a command has met the last of its lines. -/
def State.closed (s : State) (k : Nat) : State :=
  { s with ranges := s.ranges.filter (·.1 ≠ k) }

/-- Whether the line is among those from an address to a bound, for a command at a place. -/
def isWithin (x : Settings) (s : State) (k : Nat) (first : Address) (bound : Bound) :
    Routine (State × Bool) := do
  let upTo := fun (s : State) (n : Nat) ↦ if s.number < n then s.opened k (some n) else s
  match s.ranges.lookup k with
  | some (some n) => return (if n ≤ s.number then s.closed k else s, s.number ≤ n)
  | some none =>
    let (s, isOver) ← match bound with
      | .last => isLast x s
      | .pattern p => do
        let (s, _, isFound) ← find x s p
        pure (s, isFound)
      | _ => pure (s, true)
    return (if isOver then s.closed k else s, true)
  | none =>
    let (s, isFirst) ← isAt x s first
    if !isFirst then return (s, false)
    return (match bound with
      | .line n => upTo s n
      | .behind count => upTo s (s.number + count)
      | .multiple n => if n = 0 then s else upTo s (s.number + n - s.number % n)
      | .last | .pattern _ => s.opened k none, true)

/-- Whether a command at a place is for the line. -/
def isChosen (x : Settings) (s : State) (k : Nat) (c : Command) : Routine (State × Bool) := do
  let (s, isMeant) ← match c.selection.first, c.selection.bound with
    | none, _ => pure (s, true)
    | some a, none => isAt x s a
    | some a, some b => isWithin x s k a b
  return (s, isMeant != c.selection.isNegated)

/-! ## Doing commands -/

/-- The forms of characters that have a letter when they are shown. -/
def shownLetters : List (Char × Char) :=
  [('\\', '\\'), ('\x07', 'a'), ('\x08', 'b'), ('\x0c', 'f'), ('\n', 'n'), ('\r', 'r'),
    ('\t', 't'), ('\x0b', 'v')]

/-- A character as it is shown. -/
def shownChar (c : Char) : Chars :=
  match shownLetters.lookup c with
  | some d => ['\\', d]
  | none =>
    if !Wide.isPrintable c then
      let ds := Nat.toDigits 8 c.toNat
      '\\' :: List.replicate (3 - ds.length) '0' ++ ds
    else [c]

/-- A text in lines of a width; so many characters are in the line at work. -/
def shownLines (width : Nat) : Nat → Chars → Chars
  | _, [] => ['$', '\n']
  | used, c :: cs =>
    let piece := shownChar c
    if 0 < width && width - 1 < used + piece.length then
      '\\' :: '\n' :: piece ++ shownLines width piece.length cs
    else piece ++ shownLines width (used + piece.length) cs

/-- What comes behind a command: the next one, the end of the line, or the end of everything. -/
inductive Outcome
  /-- The command at the state's place. -/
  | goesOn (s : State)
  /-- The next line; the one at work may have to be written. -/
  | nextLine (s : State) (isWritten : Bool)
  /-- The end, with a code. -/
  | stops (s : State) (code : Nat)

/-- The first part of a line. -/
def firstPart (x : Settings) (b : Buffer) : Buffer :=
  if b.text.contains x.lineEnd then ⟨b.text.takeWhile (· ≠ x.lineEnd), true⟩ else ⟨b.text, true⟩

/-- Reads a line of a file that lines are read from. -/
def sourceLine (s : State) (file : Chars) : Routine (State × Option Chars) := do
  let (s, n) ← match s.sources.lookup file with
    | some n => pure (s, n)
    | none => do
      let n ← match ← openInput (Wide.write file) with
        | .ok n => pure (some n)
        | .error _ => pure none
      pure ({ s with sources := (file, n) :: s.sources }, n)
  match n with
  | none => return (s, none)
  | some n =>
    match ← Routine.readUpTo n 0x0A with
    | .ok (b :: bs) => return (s, some (Chars.ofBytes (b :: bs)))
    | _ => return (s, none)

/-- Does a command that leads to the next one, if nothing else is said. -/
def act (x : Settings) (s : State) (c : Command) : Routine Outcome := do
  let next := { s with place := s.place + 1 }
  let withLine := fun (cs : Chars) ↦
    Outcome.goesOn { next with line := { next.line with text := cs } }
  match c.verb with
  | .opening | .closing | .label _ | .nothing => return .goesOn next
  | .jump condition name =>
    let isDone := match condition with
      | .always => true
      | .replaced => s.hasReplaced
      | .notReplaced => !s.hasReplaced
    let target := if name = [] then x.script.size
      else (placeOf? x.script name).getD x.script.size
    let hasReplaced := if condition = .always then s.hasReplaced else false
    return .goesOn { s with place := if isDone then target else s.place + 1, hasReplaced }
  | .number => return .goesOn (← putText x next (Chars.line (Chars.ofNat s.number)))
  | .append text => return .goesOn { next with later := s.later ++ [.text text] }
  | .insert text => return .goesOn (← putText x next text)
  | .change text =>
    let isInside := c.selection.bound.isSome && !c.selection.isNegated &&
      (s.ranges.lookup s.place).isSome
    let s ← if isInside then pure s else putText x s text
    return .nextLine s false
  | .delete => return .nextLine s false
  | .deleteFirst =>
    if !s.line.text.contains x.lineEnd then return .nextLine s false
    let text := (s.line.text.dropWhile (· ≠ x.lineEnd)).drop 1
    let s ← putLater x s
    return .goesOn { s with place := 0, line := { s.line with text } }
  | .fileName => return .goesOn (← putText x next (Chars.line s.fileName))
  | .run [] =>
    let cs ← x.run (Wide.write s.line.text)
    let cs := if x.isWide then Wide.read cs else cs
    return withLine (withoutLast x.lineEnd cs)
  | .run command =>
    let s ← flush x next
    return .goesOn (← putText x s (← x.run (Wide.write command)))
  | .get isBehind =>
    return withLine (if isBehind then s.line.text ++ x.lineEnd :: s.kept.text else s.kept.text)
  | .hold isBehind =>
    let text := if isBehind then s.kept.text ++ x.lineEnd :: s.line.text else s.line.text
    return .goesOn { next with kept := { next.kept with text } }
  | .exchange => return .goesOn { next with line := s.kept, kept := s.line }
  | .list width => return .goesOn (← putText x next
      (shownLines (width.getD x.width) 0 (Wide.write s.line.text)))
  | .next =>
    let (s, isOver) ← isLast x s
    if isOver && (s.files = [] || !x.isSeparate) then return .nextLine s true
    let s ← if x.isSilent then pure s else putLine x s s.line
    let (s, isThere) ← advance x s none
    return if isThere then .goesOn { s with place := s.place + 1 } else .stops s 0
  | .join =>
    let (s, isOver) ← isLast x s
    if isOver && (s.files = [] || !x.isSeparate) then return .nextLine s true
    let (s, isThere) ← advance x s (some s.line.text)
    return if isThere then .goesOn { s with place := s.place + 1 } else .stops s 0
  | .print => return .goesOn (← putLine x next s.line)
  | .printFirst => return .goesOn (← putLine x next (firstPart x s.line))
  | .quit isSilent code =>
    if isSilent then return .stops s code
    let s ← if x.isSilent then pure s else putLine x s s.line
    return .stops (← putLater x s) code
  | .readFile file => return .goesOn { next with later := s.later ++ [.file file] }
  | .readLine file =>
    let (next, line) ← sourceLine next file
    return .goesOn { next with later := s.later ++ (line.map Later.text).toList }
  | .writeFile isFirst file =>
    return .goesOn (← putTo x next file (if isFirst then firstPart x s.line else s.line))
  | .substitute u =>
    let (s, r, _) ← find x s u.pattern
    let next := { s with place := s.place + 1 }
    let (text, isDone) := u.apply r u.pattern.isFolded s.line.text
    if !isDone then return .goesOn next
    let next := { next with line := { s.line with text }, hasReplaced := true }
    let next ← if u.prints.1 then putLine x next next.line else pure next
    let text ← (if !u.runs then return text else do
      let cs ← x.run (Wide.write text)
      return withoutLast x.lineEnd (if x.isWide then Wide.read cs else cs) : Routine Chars)
    let next := { next with line := { s.line with text } }
    let next ← if u.prints.2 then putLine x next next.line else pure next
    match u.file with
    | some file => return .goesOn (← putTo x next file next.line)
    | none => return .goesOn next
  | .translate pairs => return withLine (s.line.text.map fun c ↦ (pairs.lookup c).getD c)
  | .clear => return withLine []

/-- Does the command at the state's place, or ends the line if there is none. -/
def turn (x : Settings) (s : State) : Routine (State ⊕ Nat) := do
  let outcome ← match x.script[s.place]? with
    | none => pure (.nextLine s true)
    | some c => do
      let (s, isMeant) ← isChosen x s s.place c
      match isMeant, c.verb with
      | true, _ => act x s c
      | false, .opening =>
        let place := closingFrom (x.script.toList.drop (s.place + 1)) (s.place + 1) 0
        pure (.goesOn { s with place := place + 1 })
      | false, _ => pure (.goesOn { s with place := s.place + 1 })
  match outcome with
  | .goesOn s => return .inl s
  | .stops s code => return .inr (← finish x s code)
  | .nextLine s isWritten =>
    let s ← if isWritten && !x.isSilent then putLine x s s.line else pure s
    let (s, isThere) ← advance x { s with place := 0 } none
    if isThere then return .inl s
    return .inr (← finish x s 0)

/-! ## Calls -/

/-- A part of a script: its text and the file that it comes from, if it comes from one. -/
abbrev Source := Chars × Option Chars

/-- The parts of a script that options give. -/
def sources (name : Chars) : List (Char × Chars) → Routine (List Source)
  | [] => return []
  | (letter, w) :: rest => do
    if letter = 'e' then return (w, none) :: (← sources name rest)
    else if letter = 'f' then
      match ← readInput w with
      | .ok cs =>
        return (if cs.getLast? = some '\n' then cs.dropLast else cs, some w) ::
          (← sources name rest)
      | .error e => fail name 4 (because ("couldn't open file ".toList ++ w) e)
    else sources name rest

/-- Where a script has been read so far, in words; so many characters lie before it. -/
def placeText : Nat → List Source → Nat → Chars
  | k, [], _ => "-e expression #".toList ++ Chars.ofNat k ++ ", char 0".toList
  | k, (text, file) :: rest, count =>
    if text.length < count && rest ≠ [] then
      placeText (if file.isNone then k + 1 else k) rest (count - text.length - 1)
    else match file with
      | none =>
        "-e expression #".toList ++ Chars.ofNat k ++ ", char ".toList ++ Chars.ofNat count
      | some file =>
        "file ".toList ++ file ++ " line ".toList ++
          Chars.ofNat (((text.take (count - 1)).filter (· = '\n')).length + 1)

/-- What is wrong with a script, in words. -/
def Fault.text (f : Fault) (parts : List Source) (length : Nat) : Chars :=
  match f.site with
  | .untold => f.message
  | .whole =>
    "-e expression #".toList ++ Chars.ofNat (max 1 (parts.filter (·.2.isNone)).length) ++
      ", char 0: ".toList ++ f.message
  | .before rest =>
    placeText 1 parts (length - (Wide.write rest).length) ++ ": ".toList ++ f.message

/-- The status for a fault. -/
def Fault.status (f : Fault) : Nat :=
  match f.site with
  | .untold => 4
  | _ => 1

/-- Opens the files that a script writes to. -/
def openSinks (name : Chars) : List Chars → Routine (List Sink)
  | [] => return []
  | file :: files => do
    if file = "/dev/stdout".toList then
      return ⟨file, outputNumber, false⟩ :: (← openSinks name files)
    if file = "/dev/stderr".toList then return ⟨file, 2, false⟩ :: (← openSinks name files)
    match ← Routine.openPath (Chars.toPath (Wide.write file)) .forWriting Routine.usualMode with
    | .ok n => return ⟨file, n, false⟩ :: (← openSinks name files)
    | .error e => fail name 4 (because ("couldn't open file ".toList ++ Wide.write file) e)

/-- The options. -/
def flags : List Flag :=
  plainFlags [('n', "quiet"), ('\x01', "silent"), ('E', "regexp-extended"), ('r', ""),
    ('b', "binary"), ('s', "separate"), ('u', "unbuffered"), ('z', "null-data"),
    ('\x02', "zero-terminated"), ('\x03', "posix"), ('\x04', "debug"), ('\x05', "sandbox"),
    ('\x06', "follow-symlinks")] ++
  valueFlags [('e', "expression"), ('f', "file"), ('l', "line-length")] ++
  [⟨'i', "in-place", .optional⟩]

/-- How wide lines are shown if nothing else is said. -/
def usualWidth : Nat := 70

end ContractBuild.Utility.StreamEditor

namespace ContractBuild.Utility

open StreamEditor in
/-- Edits its inputs line by line. -/
def sed (programs : Chars → Option Program) : Program := fun args env ↦ do
  let name := args.headD []
  let c ← match Flag.read flags true args.tail with
    | .ok c => pure c
    | .error message => fail name 1 message
  let given ← sources name c.flags
  let (parts, files) ← match given, c.operands with
    | [], [] => do
      Routine.complain (Chars.line ("Usage: ".toList ++ name ++
        " [OPTION]... \x7bscript-only-if-no-other-script\x7d [input-file]...".toList))
      Routine.exit 1
    | [], w :: files => pure ([((w, none) : Source)], files)
    | parts, files => pure (parts, files)
  let text := Chars.join ['\n'] (parts.map (·.1))
  let isMarked := match text with
    | '#' :: 'n' :: rest => rest = [] || rest.head? = some '\n'
    | _ => false
  let isWide := (← Routine.self).isWide
  let hasLineFeeds := !(c.has 'z' || c.has '\x02')
  let dialect : Dialect := ⟨c.has 'E' || c.has 'r', c.has '\x05', hasLineFeeds⟩
  match StreamEditor.read dialect (if isWide then Wide.read text else text) with
  | .error f => fail name f.status (f.text parts text.length)
  | .ok commands =>
    let script := commands.toArray
    if let label :: _ := missingLabels script then
      fail name 4 ("can't find label for jump to \x60".toList ++ label ++ ['\''])
    let isEditing := c.has 'i'
    if isEditing && files = [] then fail name 4 "no input files".toList
    let x : Settings := {
      name, script, isWide
      isSilent := c.has 'n' || c.has '\x01' || isMarked
      isSeparate := c.has 's' || isEditing
      inPlace := c.value? 'i'
      lineEnd := if hasLineFeeds then '\n' else '\x00'
      width := ((c.value? 'l').map fun w ↦ ((digitsOf w).map (·.1)).getD 0).getD usualWidth
      isHasty := c.has 'u'
      run := fun command ↦ do return Chars.ofBytes (← outputOf programs command env).1 }
    let sinks ← openSinks name (writtenFiles script).eraseDups
    let s : State := ⟨0, ⟨[], true⟩, ⟨[], true⟩, 0, [], false, none, firstRanges script,
      inputsOf files, none, ['-'], none, sinks, [], false, [], .empty, 0⟩
    let (s, isThere) ← advance x s none
    if !isThere then return ← finish x s 0
    Routine.loop s (turn x)

end ContractBuild.Utility
