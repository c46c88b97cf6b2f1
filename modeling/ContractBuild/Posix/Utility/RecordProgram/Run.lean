import ContractBuild.Posix.Utility.RecordProgram.Evaluation

/-!
# Calls of record programs

A program is given as an argument or in files.  Its work before the first record is done, then that
for all records, and then that behind the last one; its outputs are closed in the end, whatever
happened.
-/

namespace ContractBuild.Utility.RecordProgram

/-! ## Calls -/

/-- How a program is called. -/
structure Invocation where
  /-- The separator of fields, if it is given. -/
  separator : Option Chars
  /-- The values that variables get. -/
  settings : List (Chars × Chars)
  /-- The files that hold the program. -/
  files : List Chars
  /-- The other arguments. -/
  operands : List Chars
  /-- Whether it is asked which program this is. -/
  isQuestion : Bool

/-- The options in front of the arguments.  Every step takes one. -/
def readOptions : Nat → Invocation → List Chars → Except Chars Invocation
  | 0, i, args => .ok { i with operands := args }
  | n + 1, i, args =>
    let withValue := fun (letter : Char) (value : Chars) (rest : List Chars) ↦
      if letter = 'F' then readOptions n { i with separator := some value } rest
      else if letter = 'f' then readOptions n { i with files := i.files ++ [value] } rest
      else if letter = 'W' then
        readOptions n { i with isQuestion := i.isQuestion || value.head? = some 'v' } rest
      else match assignment? value with
        | some s => readOptions n { i with settings := i.settings ++ [s] } rest
        | none => .error ("improper assignment: -v ".toList ++ value)
    match args with
    | ['-', '-'] :: rest => .ok { i with operands := rest }
    | ('-' :: '-' :: word) :: rest => withValue 'W' word rest
    | ('-' :: letter :: cs) :: rest =>
      if !("FfvW".toList.contains letter) then
        .error ("not an option: ".toList ++ ('-' :: letter :: cs))
      else match cs, rest with
        | [], [] => .error ("option -".toList ++ letter :: " lacks argument".toList)
        | [], value :: rest => withValue letter value rest
        | cs, rest => withValue letter cs rest
    | args => .ok { i with operands := args }

/-- The usage of the program, as it is told when it is called with nothing. -/
def usage (name : Chars) : Chars :=
  "Usage: ".toList ++ name ++ " [Options] [Program] [file ...]\n".toList

/-- The text of a program in files. -/
def textOfFiles (name : Chars) : List Chars → Routine Chars
  | [] => return []
  | file :: files => do
    match ← readInput file with
    | .ok cs =>
      let rest ← textOfFiles name files
      return if rest = [] || cs.getLast? = some '\n' then cs ++ rest else Chars.line cs ++ rest
    | .error e =>
      fail name 2 ("cannot open \"".toList ++ file ++ "\" (".toList ++ e.reason.toList ++ [')'])

/-! ## States -/

/-- The values that variables have in the beginning. -/
def firstValues : List (Nat × Value) :=
  [(recordNumber, .number 0), (inputRecordNumber, .number 0), (fieldCount, .number 0),
    (fieldSeparator, .text [' ']), (valueSeparator, .text [' ']), (lineSeparator, .text ['\n']),
    (recordSeparator, .text ['\n']), (matchStart, .number 0), (matchLength, .number (-1)),
    (keySeparator, .text ['\x1c']), (textFormat, .text usualFormat),
    (writtenFormat, .text usualFormat)]

/-- The table of the environment. -/
def environmentTable (env : List Chars) : Table Value :=
  env.foldl (fun t e ↦
    let name := e.takeWhile (· ≠ '=')
    t.set (.text name) (.input (e.drop (name.length + 1)))) .empty

/-- The table of the arguments. -/
def argumentTable (args : List Chars) : Table Value :=
  (args.zipIdx).foldl (fun t e ↦ t.set (.number e.2) (.input e.1)) .empty

/-- The state before a program is run. -/
def firstState (script : Script) (args env : List Chars) : State :=
  let count := script.names.size
  let slots := firstValues.foldl (fun a e ↦ a.setIfInBounds e.1 (Slot.value e.2))
    (Array.replicate count (default : Slot))
  let slots := slots.setIfInBounds argumentCount (.value (.ofNat args.length))
  let slots := slots.setIfInBounds environment (.table environment)
  let slots := slots.setIfInBounds arguments (.table arguments)
  let tables := Array.replicate count (Table.empty : Table Value)
  let tables := tables.setIfInBounds environment (environmentTable env)
  let tables := tables.setIfInBounds arguments (argumentTable args)
  ⟨slots, #[], tables, .input [], false, some #[], .char '\n', .blanks, none, 1, false, false, [],
    firstSinks, [], (0, [])⟩

/-! ## Running -/

/-- Closes the outputs; the value is whether something went wrong. -/
def closeSinks (name : Chars) (sinks : List Sink) : Routine Bool := do
  let status ← forStatus (fun sink ↦ do
    let (sink, _) ← Sink.close sink
    match sink.fault with
    | some e =>
      warn name ("close failed on file \"".toList ++ sink.name ++ "\" (".toList ++
        e.reason.toList ++ [')'])
      return 1
    | none => return 0) sinks
  return status ≠ 0

/-- What a program does before its outputs are closed.  The value is its code. -/
def work (x : Setting) (i : Invocation) : Action Nat := do
  let s := x.script
  let prepare : Action Unit := do
    match i.separator with
    | some cs => assign x (.shared fieldSeparator) (.text (Token.withoutEscapes cs))
    | none => pure ()
    Action.forEach (fun e ↦ assignArgument x e.1 e.2) i.settings
  let codeOf := fun (before : Nat) (r : Except Stop Unit) ↦
    match r with
    | .error (.exit code) => (code.getD before, true)
    | .error .fail => (2, false)
    | _ => (before, true)
  let main : Action Unit := do
    executeAll x depthLimit s.start
    if !(s.rules.isEmpty && s.finish.isEmpty) then applyToRecords x
  match codeOf 0 (← Action.attempt prepare) with
  | (code, false) => return code
  | _ => do
    let (code, isFine) := codeOf 0 (← Action.attempt main)
    if !isFine then return code
    return (codeOf code (← Action.attempt (executeAll x depthLimit s.finish))).1

end ContractBuild.Utility.RecordProgram

namespace ContractBuild.Utility

open RecordProgram in
/-- Works on the records of its inputs as a program says. -/
def awk (programs : Chars → Option Program) : Program := fun args env ↦ do
  let name := (args.headD []).reverse.takeWhile (· ≠ '/') |>.reverse
  if args.tail = [] then
    Routine.complain (usage name)
    return 0
  match readOptions args.length ⟨none, [], [], [], false⟩ args.tail with
  | .error message => fail name 2 message
  | .ok i => do
    if i.isQuestion then
      emitLines name ["mawk 1.3.4 20200120".toList]
      return 0
    let (text, operands) ← match i.files, i.operands with
      | [], text :: operands => pure (text, operands)
      | [], [] => do
        Routine.complain (usage name)
        Routine.exit 2
      | files, operands => do pure (← textOfFiles name files, operands)
    match RecordProgram.read text with
    | .error complaints =>
      let file := match i.files.getLast? with
        | some file => file ++ ": ".toList
        | none => []
      Routine.forEach (fun message ↦ warn name (file ++ message)) complaints
      return 2
    | .ok script =>
      let x : Setting := ⟨name, script, programs, env⟩
      let s := firstState script (name :: operands) env
      let (code, sinks) ← (fun next ↦ work x i s fun r s ↦
        next (r.toOption.getD 2, s.sinks) : Routine (Nat × List Sink))
      if ← closeSinks name sinks then return 2
      return code

end ContractBuild.Utility
