import ContractBuild.Posix.Shell.Builtin.Basic
import ContractBuild.Posix.Shell.Condition
import ContractBuild.Posix.Shell.Fields
import ContractBuild.Posix.Shell.Format

/-!
# Commands that write, compare and read text
-/

namespace ContractBuild.Shell.Builtin

/-- Words with blanks between them and their escapes replaced.  The truth value says whether an
escape ended the text. -/
def escapedWords : List Chars → Chars × Bool
  | [] => ([], false)
  | w :: ws =>
    let (cs, isStopped) := Escape.replace w
    if isStopped then (cs, true)
    else
      let (rest, isStopped) := escapedWords ws
      (if ws = [] then cs else cs ++ ' ' :: rest, isStopped)

/-- Writes its arguments. -/
def echo : Builtin := fun args ↦
  let (isOpen, args) := match args with
    | ['-', 'n'] :: args => (true, args)
    | args => (false, args)
  let (cs, isStopped) := escapedWords args
  finish (if isOpen || isStopped then cs else Chars.line cs) 0

/-- Writes its arguments by a format. -/
def printf : Builtin := fun args ↦ do
  match ← operands args with
  | [] => fail "usage: printf format [arg ...]".toList
  | format :: args =>
    let (output, complaints, e) := Format.output format args
    Action.forEach warn complaints
    match e with
    | .wrong message =>
      warn message
      let _ ← finish output 2
      Action.modify fun s ↦ { s with status := 2 }
      Action.interrupt .error
    | _ => finish output (if complaints = [] then 0 else 1)

/-- Decides a condition. -/
def test : Builtin := fun args ↦ do
  match ← (Routine.look fun h ↦ Condition.holds h args : Routine _) with
  | .ok true => return 0
  | .ok false => return 1
  | .error message => fail message

/-- Decides a condition between brackets. -/
def bracket : Builtin := fun args ↦
  if args.getLast? = some [']'] then test args.dropLast else fail "missing ]".toList

/-! ## Reading -/

/-- The cells of a line in which a backslash quotes the character behind it, the last one first. -/
def quotedCells : Chars → List Cell → List Cell
  | '\\' :: c :: cs, done => quotedCells cs (.char c true :: done)
  | ['\\'], done => done
  | c :: cs, done => quotedCells cs (.char c false :: done)
  | [], done => done

/-- Reads a line; the truth value says whether it has an end.  A backslash at the end joins it with
the next one, unless backslashes mean nothing. -/
def readCells (isRaw : Bool) : Routine (List Cell × Bool) :=
  Routine.loop ([] : List Cell) fun done ↦ do
    match ← Routine.readUpTo 0 0x0A with
    | .error _ => return .inr (done.reverse, false)
    | .ok bs =>
      let line := (Chars.ofBytes bs).filter (· ≠ '\x00')
      let isWhole := line.getLast? = some '\n'
      let line := if isWhole then line.dropLast else line
      let isJoined := isWhole && !isRaw && (line.reverse.takeWhile (· = '\\')).length % 2 = 1
      let done := if isRaw then (line.map (Cell.char · false)).reverse ++ done
        else quotedCells line done
      return if isJoined then .inl done else .inr (done.reverse, isWhole)

/-- Gives each of some variables its field; the ones for which there is none become empty. -/
def assignFields : List Chars → List Chars → Action Unit
  | [], _ => pure ()
  | name :: names, fields => do
    assign name (fields.headD [])
    assignFields names fields.tail

/-- Reads a line into variables. -/
def read : Builtin := fun args ↦ do
  let (options, names) ← options ⟨['r'], ['p']⟩ args
  if names = [] then fail "arg count".toList
  let (cells, isWhole) ← (readCells (options.any (·.1 = 'r')) : Routine _)
  let separators := (← Action.state).separators?.getD State.usualBlanks
  assignFields names (Fields.firstFields separators names.length cells)
  return if isWhole then 0 else 1

end ContractBuild.Shell.Builtin
