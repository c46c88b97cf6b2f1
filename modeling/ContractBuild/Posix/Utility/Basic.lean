import ContractBuild.Posix.Machine.Image
import ContractBuild.Posix.Utility.Flags
import ContractBuild.Posix.Utility.Message

/-!
# Utilities

What the small programs of a system have in common: how they complain, read their inputs and write
their outputs.
-/

namespace ContractBuild.Utility

/-! ## Complaints -/

/-- Says something on the error output. -/
def say (message : Chars) : Routine Unit := do
  Routine.complain (render (← Routine.self).isWide message)

/-- Says something in the name of a program. -/
def warn (name message : Chars) : Routine Unit :=
  say (Chars.line (name ++ ": ".toList ++ message))

/-- Says what went wrong and ends with a code. -/
def fail {α : Type} (name : Chars) (code : Nat) (message : Chars) : Routine α := do
  warn name message
  Routine.exit code

/-- Says where help can be found. -/
def pointToHelp (name : Chars) : Routine Unit :=
  Routine.complain (Chars.line ("Try '".toList ++ name ++ " --help' for more information.".toList))

/-- Says what is wrong with a call and ends with a code. -/
def refuse {α : Type} (name : Chars) (code : Nat) (message : Chars) : Routine α := do
  warn name message
  pointToHelp name
  Routine.exit code

/-- The options and the other arguments of a call, which must be right. -/
def readCall (name : Chars) (code : Nat) (flags : List Flag) (isMixed : Bool)
    (args : List Chars) : Routine Call :=
  match Flag.read flags isMixed args with
  | .ok c => pure c
  | .error message => refuse name code message

/-- The complaint about an operand that is missing. -/
def missingOperand {α : Type} (name : Chars) (code : Nat) : Routine α :=
  refuse name code "missing operand".toList

/-- The complaint about an operand that is missing behind others. -/
def missingBehind {α : Type} (name : Chars) (code : Nat) (a : Chars) : Routine α :=
  refuse name code ("missing operand after ".toList ++ cited a)

/-- The complaint about an operand that is too much. -/
def extraOperand {α : Type} (name : Chars) (code : Nat) (a : Chars) : Routine α :=
  refuse name code ("extra operand ".toList ++ cited a)

/-- A file and the reason why something failed with it. -/
def because (file : Chars) (e : IoError) : Chars := file ++ ": ".toList ++ e.reason.toList

/-! ## Outputs -/

/-- Writes to the output, which must be possible. -/
def emitBytes (name : Chars) (code : Nat) (bs : Bytes) : Routine Unit := do
  match ← Routine.write 1 bs with
  | .ok () => pure ()
  | .error e => fail name code (because "write error".toList e)

/-- Writes characters to the output, which must be possible. -/
def emit (name cs : Chars) : Routine Unit := emitBytes name 1 (Chars.toBytes cs)

/-- Says something on the output. -/
def tell (name message : Chars) : Routine Unit := do
  emit name (Chars.line (render (← Routine.self).isWide message))

/-- Writes lines to the output. -/
def emitLines (name : Chars) (ls : List Chars) : Routine Unit := emit name (ls.flatMap Chars.line)

/-! ## Words of options -/

/-- The complaint about a word that is none of those an option takes; words in one line mean the
same. -/
def refuseWord {α : Type} (name : Chars) (code : Nat) (w option : Chars) (isAmbiguous : Bool)
    (lines : List (List String)) : Routine α := do
  warn name ((if isAmbiguous then "ambiguous argument " else "invalid argument ").toList ++
    cited w ++ " for ".toList ++ cited option)
  say (Chars.line "Valid arguments are:".toList)
  Routine.forEach (fun ws ↦ say (Chars.line ("  - ".toList ++
    Chars.join [',', ' '] (ws.map fun v ↦ cited v.toList)))) lines
  pointToHelp name
  Routine.exit code

/-- The word among those that an option takes which an argument stands for; it can be shortened as
long as all words that it could be mean the same. -/
def readWord (name : Chars) (code : Nat) (option : String) (lines : List (List String))
    (w : Chars) : Routine String := do
  match lines.flatten.find? fun v ↦ v.toList = w with
  | some v => return v
  | none =>
    let fitting := lines.filter (·.any fun v ↦ w.isPrefixOf v.toList)
    match fitting with
    | [vs] => return (vs.headD "")
    | _ => refuseWord name code w option.toList (fitting ≠ []) lines

/-! ## Inputs -/

/-- Whether an operand stands for the standard input. -/
def isStandard (file : Chars) : Bool := file = ['-']

/-- Opens an input. -/
def openInput (file : Chars) : Routine (Except IoError Nat) :=
  if isStandard file then pure (.ok 0) else Routine.openPath (Chars.toPath file) .forReading 0

/-- Gives up an input. -/
def closeInput (n : Nat) : Routine Unit := if n = 0 then pure () else Routine.close n

/-- All that an input holds. -/
def readInput (file : Chars) : Routine (Except IoError Chars) := do
  match ← openInput file with
  | .error e => return .error e
  | .ok n =>
    let content ← Routine.readAll n
    closeInput n
    return content.map Chars.ofBytes

/-- The operands, or the standard input if there are none. -/
def inputsOf (operands : List Chars) : List Chars :=
  if operands = [] then [['-']] else operands

/-- All that some inputs hold, and the status; an input that cannot be read is left out. -/
def readInputs (name : Chars) (code : Nat) : List Chars → Routine (Chars × Nat)
  | [] => return ([], 0)
  | file :: files => do
    match ← readInput file with
    | .ok content =>
      let (rest, status) ← readInputs name code files
      return (content ++ rest, status)
    | .error e =>
      warn name (because (shown file) e)
      let (rest, status) ← readInputs name code files
      return (rest, max code status)

/-- Does something with every element; the value is the greatest status. -/
def forStatus {α : Type} (f : α → Routine Nat) : List α → Routine Nat
  | [] => return 0
  | a :: as => do
    let status ← f a
    return max status (← forStatus f as)

/-- Follows the blocks of an input with a state.  The value is the last state, with the error that
ended it. -/
def foldBlocks {σ : Type} (n : Nat) (s : σ) (f : σ → Bytes → Routine (σ ⊕ σ)) :
    Routine (σ × Option IoError) :=
  Routine.loop s fun s ↦ do
    match ← Routine.read n with
    | .error e => return .inr (s, some e)
    | .ok [] => return .inr (s, none)
    | .ok bs =>
      match ← f s bs with
      | .inl s => return .inl s
      | .inr s => return .inr (s, none)

/-- Whether an input gives back what has been read of it: all but pipes do. -/
def isRewindable (n : Nat) : Routine Bool := Routine.act fun p m ↦
  (match m.openFile? p n with
    | some (_, ⟨.reader _, _, _, _, _⟩) => false
    | _ => true, m)

/-- Goes on at a place of what is open under a number. -/
def moveTo (n position : Nat) : Routine Unit := Routine.act fun p m ↦
  match m.openFile? p n with
  | some (k, _) => ((), m.onOpenFile k fun o ↦ { o with position })
  | none => ((), m)

/-- The place that what is open under a number goes on at, and its size, if it is a file. -/
def standing? (n : Nat) : Routine (Option (Nat × Nat)) := Routine.act fun p m ↦
  (match m.openFile? p n with
    | some (_, ⟨.file id, position, _, _, _⟩) =>
      some (position, ((m.file? id).map (·.content.length)).getD 0)
    | _ => none, m)

/-- Whether what is open under a number is the file that the output goes to. -/
def isOutputFile (n : Nat) : Routine Bool := Routine.act fun p m ↦
  (match m.openFile? p n, m.openFile? p 1 with
    | some (_, ⟨.file input, _, _, _, _⟩), some (_, ⟨.file output, _, _, _, _⟩) => input = output
    | _, _ => false, m)

/-- The records of an input as they come, each with its end, which is a character of one kind.  What
a step leaves on the left goes on, what it leaves on the right ends all; nothing behind that has
been read then, except from a pipe. -/
def foldRecords {σ : Type} (last : Char) (n : Nat) (s : σ) (f : σ → Chars → Routine (σ ⊕ σ)) :
    Routine (σ × Option IoError) := do
  let last := last.toNat.toUInt8
  if ← isRewindable n then
    Routine.loop s fun s ↦ do
      match ← Routine.readUpTo n last with
      | .error e => return .inr (s, some e)
      | .ok [] => return .inr (s, none)
      | .ok bs =>
        match ← f s (Chars.ofBytes bs) with
        | .inl s => return .inl s
        | .inr s => return .inr (s, none)
  else
    Routine.loop (s, ([] : Bytes)) fun (s, rest) ↦ do
      match rest.span (· ≠ last) with
      | (start, b :: behind) =>
        match ← f s (Chars.ofBytes (start ++ [b])) with
        | .inl s => return .inl (s, behind)
        | .inr s => return .inr (s, none)
      | (_, []) =>
        match ← Routine.read n with
        | .error e => return .inr (s, some e)
        | .ok [] =>
          if rest = [] then return .inr (s, none)
          match ← f s (Chars.ofBytes rest) with
          | .inl s => return .inr (s, none)
          | .inr s => return .inr (s, none)
        | .ok bs => return .inl (s, rest ++ bs)

/-- The lines of an input as they come, each with its end. -/
def foldLines {σ : Type} (n : Nat) (s : σ) (f : σ → Chars → Routine (σ ⊕ σ)) :
    Routine (σ × Option IoError) := foldRecords '\n' n s f

/-- A record without its end. -/
def withoutLast (last : Char) (record : Chars) : Chars :=
  if record.getLast? = some last then record.dropLast else record

/-- A line without its end. -/
def withoutEnd (line : Chars) : Chars := withoutLast '\n' line

/-- The character that ends the lines of a call, where an option can make it a null character. -/
def lastOfLines (c : Call) (letter : Char) : Char := if c.has letter then '\x00' else '\n'

/-- Gives up the standard input behind the work on some inputs, which must be possible if it is
among them.  The value is the status. -/
def leaveStandard (name : Chars) (code : Nat) (title : String) (inputs : List Chars)
    (status : Nat) : Routine Nat := do
  if inputs.any isStandard && !(← Routine.isOpen 0) then
    warn name (because title.toList .badDescriptor)
    return max code status
  return status

/-!
## Output in blocks

A program can collect its output and write it in blocks of one size.  What is left is written at the
end, so complaints come in front of it.
-/

/-- Output that has not been written. -/
structure Spool where
  /-- Its pieces, the latest first. -/
  pieces : List Chars
  /-- How long it is. -/
  size : Nat

namespace Spool

/-- No output. -/
def empty : Spool := ⟨[], 0⟩

/-- The output as a text. -/
def text (s : Spool) : Chars := s.pieces.reverse.flatten

/-- The size of a block. -/
def blockSize : Nat := 4096

/-- Adds a text to what has not been written.  The first part of the value is what is to be written
now: whole blocks, and none as long as all fits into one. -/
def add (s : Spool) (cs : Chars) : Chars × Spool :=
  let size := s.size + cs.length
  if size ≤ blockSize then ([], ⟨cs :: s.pieces, size⟩)
  else
    let all := (⟨cs :: s.pieces, size⟩ : Spool).text
    let count := size / blockSize * blockSize
    (all.take count, ⟨[all.drop count], size - count⟩)

/-- Adds a text to the output; `refuse` is done if something cannot be written. -/
def put (refuse : IoError → Routine Unit) (s : Spool) (cs : Chars) : Routine Spool := do
  let (now, s) := s.add cs
  if let .error e ← Routine.print 1 now then refuse e
  return s

/-- Writes all that is left. -/
def flush (refuse : IoError → Routine Unit) (s : Spool) : Routine Spool := do
  if let .error e ← Routine.print 1 s.text then refuse e
  return empty

end Spool

end ContractBuild.Utility
