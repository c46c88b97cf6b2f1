import ContractBuild.Posix.Utility.Launch
import ContractBuild.Posix.Utility.RecordProgram.Reader
import ContractBuild.Posix.Utility.RecordProgram.Table
import ContractBuild.Posix.Utility.RecordProgram.Value
import ContractBuild.Posix.Utility.Basic

/-!
# The state of a record program

What a running program remembers: its variables and tables, the record with its fields, and the
files and commands that it reads and writes.  An action sees and changes the state, and can be
stopped.

A variable that has no value yet can become a table in a function that it is given to, so it then
stands for a table that may come to be used.
-/

namespace ContractBuild.Utility.RecordProgram

/-! ## States -/

/-- What a variable holds. -/
inductive Slot
  /-- A value. -/
  | value (v : Value)
  /-- The table of this number. -/
  | table (id : Nat)
  /-- No value, or the table of this number as soon as it is used as one. -/
  | undecided (id : Nat)

instance : Inhabited Slot := ⟨.value .unset⟩

/-- What separates records. -/
inductive RecordEnd
  /-- A character. -/
  | char (c : Char)
  /-- Empty lines. -/
  | emptyLines
  /-- What a pattern matches. -/
  | pattern (r : Regex)

/-- What separates fields. -/
inductive FieldEnd
  /-- Blanks and ends of lines. -/
  | blanks
  /-- Nothing: every character is a field. -/
  | nothing
  /-- A character. -/
  | char (c : Char)
  /-- What a pattern matches. -/
  | pattern (r : Regex)

/-- An input that is read. -/
structure Source where
  /-- Its name, or its command. -/
  name : Chars
  /-- The process of its command, if it has one that has not ended. -/
  child : Option Nat
  /-- Whether it is the output of a command. -/
  isCommand : Bool
  /-- The number under which it is open. -/
  number : Nat
  /-- What has been read and not been used. -/
  held : Chars
  /-- Whether all has been read. -/
  isOver : Bool
  /-- The wait status of its command, once that has ended. -/
  status : Nat

/-- An output that is written. -/
structure Sink where
  /-- Its name, or its command. -/
  name : Chars
  /-- The process of its command, if it has one. -/
  child : Option Nat
  /-- The number under which it is open. -/
  number : Nat
  /-- What has not been written. -/
  spool : Spool
  /-- Whether nothing is held back. -/
  isHasty : Bool
  /-- What went wrong. -/
  fault : Option IoError

/-- The state of a program. -/
structure State where
  /-- The variables of the program. -/
  shared : Array Slot
  /-- The variables of the function at work. -/
  own : Array Slot
  /-- The tables. -/
  tables : Array (Table Value)
  /-- The record. -/
  record : Value
  /-- Whether a field was changed after the record was put together. -/
  isStale : Bool
  /-- The fields, once the record has been split. -/
  fields : Option (Array Value)
  /-- What separates records. -/
  recordEnd : RecordEnd
  /-- What separates fields. -/
  fieldEnd : FieldEnd
  /-- The input whose records are gone through. -/
  main : Option Source
  /-- The number of the next argument. -/
  nextArgument : Nat
  /-- Whether any argument was an input. -/
  hasInput : Bool
  /-- Whether all inputs have been gone through. -/
  isOver : Bool
  /-- The other inputs, the latest first. -/
  sources : List Source
  /-- The outputs, the latest first. -/
  sinks : List Sink
  /-- The rules whose last record has not come yet. -/
  ranges : List Nat
  /-- The seed of random numbers, and the numbers that the next ones come from. -/
  random : Float × List Nat

/-- Why something ends before its end. -/
inductive Stop
  /-- A loop is left. -/
  | leave
  /-- The next turn of a loop is taken. -/
  | again
  /-- The next record is wanted. -/
  | next
  /-- The next input is wanted. -/
  | nextInput
  /-- A function gives a value. -/
  | giveBack (v : Value)
  /-- The program ends, with a code if one is given. -/
  | exit (code : Option Nat)
  /-- The program fails. -/
  | fail

/-- A part of what a program does. -/
def Action (α : Type) : Type := State → (Except Stop α → State → Thread) → Thread

namespace Action

instance : Monad Action where
  pure a := fun s next ↦ next (.ok a) s
  bind x f := fun s next ↦ x s fun r s ↦ match r with
    | .ok a => f a s next
    | .error i => next (.error i) s

/-- What the process does. -/
def ofRoutine {α : Type} (r : Routine α) : Action α := fun s next ↦ r fun a ↦ next (.ok a) s

instance : MonadLift Routine Action where
  monadLift := ofRoutine

/-- What is found in the state. -/
def look {α : Type} (f : State → α) : Action α := fun s next ↦ next (.ok (f s)) s

/-- Changes the state. -/
def modify (f : State → State) : Action Unit := fun s next ↦ next (.ok ()) (f s)

/-- Changes the state and gives what is found on the way. -/
def modifyGet {α : Type} (f : State → α × State) : Action α := fun s next ↦
  match f s with
  | (a, s) => next (.ok a) s

/-- Stops what is done. -/
def stop {α : Type} (i : Stop) : Action α := fun s next ↦ next (.error i) s

/-- Does something and gives what came of it, also if it was stopped. -/
def attempt {α : Type} (x : Action α) : Action (Except Stop α) := fun s next ↦
  x s fun r s ↦ next (.ok r) s

/-- Takes turns as long as a turn gives another state, so many times at most. -/
def repeatFor {σ α : Type} (turn : σ → Action (σ ⊕ α)) : Nat → σ → Action α
  | 0, _ => fun _ _ ↦ .ended Machine.killSignal
  | n + 1, a => do
    match ← turn a with
    | .inl a => repeatFor turn n a
    | .inr b => pure b

/-- Takes turns as long as a turn gives another state. -/
def loop {σ α : Type} (a : σ) (turn : σ → Action (σ ⊕ α)) : Action α :=
  repeatFor turn Routine.turnLimit a

/-- Does something for every element. -/
def forEach {α : Type} (f : α → Action Unit) : List α → Action Unit
  | [] => pure ()
  | a :: as => do
    f a
    forEach f as

/-- The values of something for every element. -/
def forAll {α β : Type} (f : α → Action β) : List α → Action (List β)
  | [] => pure []
  | a :: as => do
    let b ← f a
    return b :: (← forAll f as)

end Action

/-- What does not change while a program runs. -/
structure Setting where
  /-- The name of the program that runs it. -/
  name : Chars
  /-- The program. -/
  script : Script
  /-- The programs of the system. -/
  programs : Chars → Option Program
  /-- The environment. -/
  env : List Chars

/-! ## Variables -/

/-- What a variable holds. -/
def slotOf (v : Variable) : Action Slot := Action.look fun s ↦
  match v with
  | .shared i => s.shared.getD i default
  | .own i => s.own.getD i default

/-- Gives a variable something to hold. -/
def setSlot (v : Variable) (slot : Slot) : Action Unit := Action.modify fun s ↦
  match v with
  | .shared i => { s with shared := s.shared.setIfInBounds i slot }
  | .own i => { s with own := s.own.setIfInBounds i slot }

/-- The value of a variable of the program, as it is. -/
def sharedValue (i : Nat) : Action Value := Action.look fun s ↦
  match s.shared.getD i default with
  | .value v => v
  | _ => .unset

/-- How numbers become texts. -/
def textFormatOf (s : State) : Chars :=
  match s.shared.getD textFormat default with
  | .value (.text cs) | .value (.input cs) => cs
  | _ => usualFormat

/-- The text of a value. -/
def textOf (v : Value) : Action Chars :=
  match v with
  | .unset => pure []
  | .text cs | .input cs => pure cs
  | .number x => Action.look fun s ↦ textOfNumber (textFormatOf s) x

/-- The text of a variable of the program. -/
def sharedText (i : Nat) : Action Chars := do textOf (← sharedValue i)

/-- Sets a variable of the program, whatever it means. -/
def setShared (i : Nat) (v : Value) : Action Unit := setSlot (.shared i) (.value v)

/-! ## Failures -/

/-- Says what went wrong and ends the program. -/
def failWith {α : Type} (x : Setting) (message : Chars) : Action α := do
  Routine.complain (Chars.line (x.name ++ ": ".toList ++ message))
  Action.stop .fail

/-- Says what went wrong in the midst of the work and ends the program. -/
def fault {α : Type} (x : Setting) (message : Chars) : Action α := do
  let file ← sharedText inputName
  let ofInput ← sharedText inputRecordNumber
  let number ← sharedText recordNumber
  let shown := fun (cs : Chars) ↦ if cs = [] then ['0'] else cs
  failWith x ("run time error: ".toList ++ Chars.line message ++ "\tFILENAME=\"".toList ++ file ++
    "\" FNR=".toList ++ shown ofInput ++ " NR=".toList ++ shown number)

/-- The pattern that a text spells. -/
def patternOf (x : Setting) (cs : Chars) : Action Regex :=
  match Pattern.read cs with
  | .ok r => pure r
  | .error e => fault x ("regular expression compile failed (".toList ++ e.message.toList ++
      ")\n".toList ++ cs)

/-! ## Tables -/

/-- The number of the table that a variable is. -/
def tableOf (v : Variable) : Action Nat := do
  match ← slotOf v, v with
  | .table id, _ => return id
  | .undecided id, _ =>
    setSlot v (.table id)
    return id
  | .value _, .shared i =>
    setSlot v (.table i)
    return i
  | .value _, .own _ => do
    let id ← Action.modifyGet fun s ↦ (s.tables.size, { s with tables := s.tables.push .empty })
    setSlot v (.table id)
    return id

/-- Changes a table. -/
def onTable (id : Nat) (f : Table Value → Table Value) : Action Unit := Action.modify fun s ↦
  { s with tables := s.tables.modify id f }

/-- Changes a table and gives what is found on the way. -/
def fromTable {α : Type} (id : Nat) (f : Table Value → Table Value × α) : Action α :=
  Action.modifyGet fun s ↦
    let (t, a) := f (s.tables.getD id .empty)
    (a, { s with tables := s.tables.setIfInBounds id t })

/-- The key that a value is. -/
def keyOf (v : Value) : Action Key := do
  match v with
  | .number x =>
    if isExact x then return .number ((Floating.whole? x).getD 0)
    return .text (← textOf v)
  | v => return .text (← textOf v)

/-! ## The record and its fields -/

/-- The fields between blanks. -/
def fieldsBetweenBlanks (cs : Chars) : List Chars :=
  (Chars.splitOn (fun c ↦ c = ' ' || c = '\t' || c = '\n') cs).filter (· ≠ [])

/-- The parts of a text between the matches of a pattern.  Every step takes a character, and the
part at work comes with its last character first. -/
def partsBetween (r : Regex) : Nat → Nat → Chars → Chars → List Chars
  | 0, _, part, _ => [part.reverse]
  | n + 1, start, part, cs =>
    match cs with
    | [] => [part.reverse]
    | c :: rest =>
      let spot : Regex.Spot := ⟨start, if start = 0 then none else some ' ', cs, []⟩
      match Regex.matchAt? false r spot with
      | some m =>
        if m.stop ≤ start then partsBetween r n (start + 1) (c :: part) rest
        else part.reverse :: partsBetween r n m.stop [] m.rest
      | none => partsBetween r n (start + 1) (c :: part) rest

/-- The fields of a text. -/
def FieldEnd.fields (e : FieldEnd) (cs : Chars) : List Chars :=
  if cs = [] then []
  else match e with
    | .blanks => fieldsBetweenBlanks cs
    | .nothing => cs.map ([·])
    | .char c => Chars.splitOn (· = c) cs
    | .pattern r => partsBetween r (cs.length + 1) 0 [] cs

/-- What separates fields, as a text says it. -/
def fieldEndOf (x : Setting) (cs : Chars) : Action FieldEnd := do
  match cs with
  | [] => return .nothing
  | [' '] => return .blanks
  | [c] => return .char c
  | cs => return .pattern (← patternOf x cs)

/-- What separates records, as a text says it. -/
def recordEndOf (x : Setting) (cs : Chars) : Action RecordEnd := do
  match cs with
  | [] => return .emptyLines
  | [c] => return .char c
  | cs => return .pattern (← patternOf x cs)

/-- Makes sure that the record is split; the value is its fields. -/
def splitRecord : Action (Array Value) := do
  match ← Action.look (·.fields) with
  | some fields => return fields
  | none =>
    let cs ← textOf (← Action.look (·.record))
    let fields := ((← Action.look (·.fieldEnd)).fields cs).map Value.input |>.toArray
    Action.modify fun s ↦ { s with fields := some fields }
    setShared fieldCount (.ofNat fields.size)
    return fields

/-- The record, put together from its fields if one has changed. -/
def record : Action Value := do
  if ← Action.look (·.isStale) then
    let between ← sharedText valueSeparator
    let texts ← Action.forAll textOf (← splitRecord).toList
    let cs := Chars.join between texts
    Action.modify fun s ↦ { s with record := .input cs, isStale := false }
  Action.look (·.record)

/-- Gives the record a text. -/
def setRecord (cs : Chars) : Action Unit := Action.modify fun s ↦
  { s with record := .input cs, isStale := false, fields := none }

/-- The field of a number. -/
def field (x : Setting) (n : Int) : Action Value := do
  if n < 0 then fault x ("negative field index $".toList ++ Chars.ofInt n)
  else if n = 0 then record
  else return (← splitRecord).getD (n.toNat - 1) (.input [])

/-- The fields, so many of them. -/
def resized (fields : Array Value) (count : Nat) : Array Value :=
  if count ≤ fields.size then fields.extract 0 count
  else fields ++ Array.replicate (count - fields.size) (.input [])

/-- Gives the record other fields. -/
def setFields (fields : Array Value) : Action Unit := do
  Action.modify fun s ↦ { s with fields := some fields, isStale := true }
  setShared fieldCount (.ofNat fields.size)

/-- Gives a field a value. -/
def setField (x : Setting) (n : Int) (v : Value) : Action Unit := do
  if n < 0 then fault x ("negative field index $".toList ++ Chars.ofInt n)
  else if n = 0 then setRecord (← textOf v)
  else
    let fields ← splitRecord
    setFields ((resized fields (max fields.size n.toNat)).setIfInBounds (n.toNat - 1) v)

/-- The value of a variable. -/
def valueOf (v : Variable) : Action Value := do
  if v = .shared fieldCount then
    let _ ← splitRecord
  match ← slotOf v with
  | .value v => return v
  | _ => return .unset

/-- Gives a variable a value, with all that follows from its meaning. -/
def assign (x : Setting) (v : Variable) (new : Value) : Action Unit := do
  match v with
  | .own _ => setSlot v (.value new)
  | .shared i =>
    if i = fieldCount then
      let fields ← splitRecord
      let n := integerOf new.toNumber
      if n < 0 then fault x "negative value assigned to NF".toList
      setFields (resized fields n.toNat)
      setShared i new
    else if i = fieldSeparator then
      let _ ← splitRecord
      setShared i new
      let fieldEnd ← fieldEndOf x (← textOf new)
      Action.modify fun s ↦ { s with fieldEnd }
    else if i = recordSeparator then
      setShared i new
      let recordEnd ← recordEndOf x (← textOf new)
      Action.modify fun s ↦ { s with recordEnd }
    else
      if i = valueSeparator then
        let _ ← record
      setShared i new

/-- Adds one to the number of a variable of the program. -/
def countUp (i : Nat) : Action Unit := do
  setShared i (.number ((← sharedValue i).toNumber + 1))

/-! ## Reading records -/

/-- What comes before the first match of a pattern that does not reach the end of a text, and what
comes behind it; the end counts if nothing can follow it. -/
def cutAt (r : Regex) (isOver : Bool) (cs : Chars) : Option (Chars × Chars) :=
  go r isOver (cs.length + 1) [] 0 cs
where
  /-- The search from a character on, behind others. -/
  go (r : Regex) (isOver : Bool) : Nat → Chars → Nat → Chars → Option (Chars × Chars)
    | 0, _, _, _ => none
    | n + 1, done, k, cs =>
      let spot : Regex.Spot := ⟨k, done.head?, cs, []⟩
      match Regex.matchAt? false r spot with
      | some m =>
        if k < m.stop && (isOver || m.rest ≠ []) then some (done.reverse, m.rest)
        else if k < m.stop then none
        else next r isOver n done k cs
      | none => next r isOver n done k cs
  /-- The search from the next character on. -/
  next (r : Regex) (isOver : Bool) : Nat → Chars → Nat → Chars → Option (Chars × Chars)
    | 0, _, _, _ => none
    | _, _, _, [] => none
    | n + 1, done, k, c :: cs => go r isOver n (c :: done) (k + 1) cs

/-- What comes before an empty line, and what follows it. -/
def cutAtEmptyLine : Chars → Option (Chars × Chars)
  | '\n' :: '\n' :: cs => some ([], cs)
  | c :: cs => (cutAtEmptyLine cs).map fun e ↦ (c :: e.1, e.2)
  | [] => none

/-- The next record of what has been read, and what follows it. -/
def RecordEnd.cut (e : RecordEnd) (isOver : Bool) (cs : Chars) : Option (Chars × Chars) :=
  match e with
  | .char c =>
    match cs.span (· ≠ c) with
    | (start, _ :: rest) => some (start, rest)
    | (start, []) => if isOver && start ≠ [] then some (start, []) else none
  | .pattern r =>
    match cutAt r isOver cs with
    | some e => some e
    | none => if isOver && cs ≠ [] then some (cs, []) else none
  | .emptyLines =>
    let cs := cs.dropWhile (· = '\n')
    match cutAtEmptyLine cs with
    | some (start, rest) =>
      let rest := rest.dropWhile (· = '\n')
      if rest = [] && !isOver then none else some (start, rest)
    | none =>
      if !isOver || cs = [] then none
      else some (if cs.getLast? = some '\n' then cs.dropLast else cs, [])

/-- How much of an input is read at a time. -/
def blockSize : Nat := 4096

/-- The next record of an input. -/
def nextRecordOf (x : Setting) (e : RecordEnd) (source : Source) :
    Action (Option Chars × Source) :=
  Action.loop source fun source ↦ do
    match e.cut source.isOver source.held with
    | some (cs, held) => return .inr (some cs, { source with held })
    | none =>
      if source.isOver then return .inr (none, { source with held := [] })
      match ← Routine.readAtMost source.number blockSize with
      | .ok [] => return .inl { source with isOver := true }
      | .ok bs => return .inl { source with held := source.held ++ Chars.ofBytes bs }
      | .error e => failWith x ("read error (".toList ++ e.reason.toList ++ [')'])

/-! ## Writing -/

/-- The name of the output that every program has. -/
def outputName : Chars := "/dev/stdout".toList

/-- The name of the output for errors. -/
def errorName : Chars := "/dev/stderr".toList

/-- The outputs that every program has. -/
def firstSinks : List Sink :=
  [⟨outputName, none, 1, .empty, false, none⟩, ⟨errorName, none, 2, .empty, true, none⟩]

/-- Writes to an output what is not held back. -/
def Sink.put (sink : Sink) (cs : Chars) : Routine Sink := do
  if sink.isHasty then
    let _ ← Routine.print sink.number cs
    return sink
  let (now, spool) := sink.spool.add cs
  if now = [] then return { sink with spool }
  match ← Routine.print sink.number now with
  | .ok () => return { sink with spool }
  | .error e => return { sink with spool, fault := some e }

/-- Writes to an output all that was held back. -/
def Sink.flush (sink : Sink) : Routine Sink := do
  if sink.spool.size = 0 then return sink
  match ← Routine.print sink.number sink.spool.text with
  | .ok () => return { sink with spool := .empty }
  | .error e => return { sink with spool := .empty, fault := some e }

/-- Flushes outputs. -/
def flushSinks : List Sink → Routine (List Sink)
  | [] => return []
  | sink :: sinks => do
    let sink ← sink.flush
    return sink :: (← flushSinks sinks)

/-- Flushes all outputs. -/
def flushAll : Action Unit := do
  let sinks ← flushSinks (← Action.look (·.sinks))
  Action.modify fun s ↦ { s with sinks }

/-- Closes an output; the value is the code of its command. -/
def Sink.close (sink : Sink) : Routine (Sink × Int) := do
  let sink ← sink.flush
  if sink.number = 1 || sink.number = 2 then return (sink, 0)
  Routine.close sink.number
  match sink.child with
  | some child => return (sink, codeOfStatus (← waitFor child))
  | none => return (sink, if sink.fault.isSome then -1 else 0)
where
  /-- The code of a wait status. -/
  codeOfStatus (status : Nat) : Int :=
    match Signal.ending? status with
    | some number => 256 + (number : Int)
    | none => (status / 256 : Nat)

/-- Writes to an output; one that is not open is opened. -/
def write (x : Setting) (kind : SinkKind) (name cs : Chars) : Action Unit := do
  let isCommand := kind = .command
  let sinks ← Action.look (·.sinks)
  let isIt := fun (sink : Sink) ↦ sink.name = name && sink.child.isSome = isCommand
  let sink ← match sinks.find? isIt with
    | some sink => pure sink
    | none => do
      if isCommand then
        flushAll
        let (reader, writer) ← (Routine.pipe : Routine _)
        let child ← startCommand x.programs Image.shellPath name x.env do
          let _ ← Routine.assign 0 reader true
          Routine.close reader
          Routine.close writer
        Routine.close reader
        let _ ← Routine.assign writer writer false
        pure ⟨name, some child, writer, .empty, false, none⟩
      else
        let mode := if kind = .file then Machine.OpenMode.forWriting else .forAppending
        match ← Routine.openPath (Chars.toPath name) mode Routine.usualMode with
        | .ok n => pure ⟨name, none, n, .empty, false, none⟩
        | .error e => failWith x ("cannot open \"".toList ++ name ++ "\" for output (".toList ++
            e.reason.toList ++ [')'])
  let sink ← Sink.put sink cs
  Action.modify fun s ↦ { s with sinks := sink :: s.sinks.filter (!isIt ·) }

/-- Writes to outputs under a number what is not held back. -/
def putAt (number : Nat) (cs : Chars) : List Sink → Routine (List Sink)
  | [] => return []
  | sink :: sinks => do
    if sink.number = number then return (← sink.put cs) :: sinks
    return sink :: (← putAt number cs sinks)

/-- Writes to the output. -/
def writeOut (cs : Chars) : Action Unit := do
  let sinks ← putAt 1 cs (← Action.look (·.sinks))
  Action.modify fun s ↦ { s with sinks }

/-! ## Other inputs -/

/-- The input of a name. -/
def sourceOf (x : Setting) (isCommand : Bool) (name : Chars) : Action (Option Source) := do
  let sources ← Action.look (·.sources)
  match sources.find? fun source ↦ source.name = name && source.isCommand = isCommand with
  | some source => return some source
  | none =>
    if isCommand then
      flushAll
      let (reader, writer) ← (Routine.pipe : Routine _)
      let child ← startCommand x.programs Image.shellPath name x.env do
        let _ ← Routine.assign 1 writer true
        Routine.close reader
        Routine.close writer
      Routine.close writer
      let _ ← Routine.assign reader reader false
      return some ⟨name, some child, true, reader, [], false, 0⟩
    else if isStandard name || name = "/dev/stdin".toList then
      return some ⟨name, none, false, 0, [], false, 0⟩
    else
      match ← Routine.openPath (Chars.toPath name) .forReading 0 with
      | .ok n => return some ⟨name, none, false, n, [], false, 0⟩
      | .error _ => return none

/-- The next record of an input of a name; nothing if there is no such input. -/
def nextRecordFrom (x : Setting) (isCommand : Bool) (name : Chars) :
    Action (Option (Option Chars)) := do
  match ← sourceOf x isCommand name with
  | none => return none
  | some source =>
    let (cs, source) ← nextRecordOf x (← Action.look (·.recordEnd)) source
    let source ← match cs, source.child with
      | none, some child => do
        Routine.close source.number
        let status ← waitFor child
        pure { source with child := none, status }
      | _, _ => pure source
    Action.modify fun s ↦ { s with
      sources := source :: s.sources.filter fun other ↦
        !(other.name = name && other.isCommand = isCommand) }
    return some cs

/-- Closes an input; the value is the code of its command. -/
def Source.close (source : Source) : Routine Int := do
  match source.child, source.isCommand with
  | some child, _ =>
    Routine.close source.number
    return Sink.close.codeOfStatus (← waitFor child)
  | none, true => return Sink.close.codeOfStatus source.status
  | none, false =>
    closeInput source.number
    return 0

/-- Closes all inputs and outputs of a name; the value is the code of the last one. -/
def closeAll (name : Chars) : Action Int := do
  let sinks ← Action.look (·.sinks)
  let mine := sinks.filter (·.name = name)
  let fromSinks ← Action.forAll (fun sink ↦ do return (← Sink.close sink).2) mine
  let sources ← Action.look (·.sources)
  let codes ← Action.forAll (fun source ↦ do return (← Source.close source))
    (sources.filter (·.name = name))
  let flushed := fun (sink : Sink) ↦
    if sink.name ≠ name then some sink
    else if sink.number = 1 || sink.number = 2 then some { sink with spool := .empty }
    else none
  Action.modify fun s ↦ { s with
    sinks := s.sinks.filterMap flushed
    sources := s.sources.filter (·.name ≠ name) }
  return ((fromSinks ++ codes).getLast?).getD (-1)

/-! ## The main input -/

/-- The name of a variable and the value that an argument gives it. -/
def assignment? (cs : Chars) : Option (Chars × Chars) :=
  let name := cs.takeWhile fun c ↦ c.isAlphanum || c = '_'
  match name, cs.drop name.length with
  | c :: _, '=' :: value => if c.isDigit then none else some (name, value)
  | _, _ => none

/-- Gives a variable the value that an argument asks for. -/
def assignArgument (x : Setting) (name value : Chars) : Action Unit := do
  match x.script.names.findIdx? (· = name) with
  | some i => assign x (.shared i) (.input (Token.withoutEscapes value))
  | none => pure ()

/-- Opens the next main input, if there is one. -/
def openNext (x : Setting) : Action Bool :=
  Action.loop () fun () ↦ do
    let k ← Action.look (·.nextArgument)
    let count := (← sharedValue argumentCount).toNumber
    let use := fun (name : Chars) (number : Nat) ↦ (do
      Action.modify fun s ↦ { s with
        main := some ⟨name, none, false, number, [], false, 0⟩
        hasInput := true }
      setShared inputName (.text name)
      setShared inputRecordNumber (.number 0)
      return .inr true : Action (Unit ⊕ Bool))
    if count ≤ Float.ofNat k then
      if ← Action.look (·.hasInput) then
        Action.modify fun s ↦ { s with isOver := true }
        return .inr false
      use ['-'] 0
    else
      Action.modify fun s ↦ { s with nextArgument := k + 1 }
      let t ← tableOf (.shared arguments)
      if !(← fromTable t (·.contains (.number k))) then return .inl ()
      let name ← textOf (← fromTable t (·.get .unset (.number k)))
      if name = [] then return .inl ()
      if isStandard name || name = "/dev/stdin".toList then use name 0
      else match assignment? name with
        | some (name, value) =>
          assignArgument x name value
          return .inl ()
        | none =>
          match ← Routine.openPath (Chars.toPath name) .forReading 0 with
          | .ok n => use name n
          | .error e => failWith x ("cannot open \"".toList ++ name ++ "\" (".toList ++
              e.reason.toList ++ [')'])

/-- Leaves the main input. -/
def leaveMain : Action Unit := do
  match ← Action.look (·.main) with
  | some source =>
    closeInput source.number
    Action.modify fun s ↦ { s with main := none }
  | none => pure ()

/-- The next record of the main inputs. -/
def nextMain (x : Setting) : Action (Option Chars) :=
  Action.loop () fun () ↦ do
    if ← Action.look (·.isOver) then return .inr none
    match ← Action.look (·.main) with
    | none => if ← openNext x then return .inl () else return .inr none
    | some source =>
      Action.modify fun s ↦ { s with main := none }
      let (cs, source) ← nextRecordOf x (← Action.look (·.recordEnd)) source
      Action.modify fun s ↦ { s with main := some source }
      match cs with
      | some cs =>
        countUp recordNumber
        countUp inputRecordNumber
        return .inr (some cs)
      | none =>
        leaveMain
        return .inl ()

end ContractBuild.Utility.RecordProgram
