import ContractBuild.Posix.Shell.Evaluation.Compound

/-!
# The shell as a program

The shell takes its variables from the environment and its options from the arguments, and runs
the text, the file or the input that these name.
-/

namespace ContractBuild.Shell

/-- The limits of resources that have any on a usual machine. -/
def usualLimits : List (Char × Limit) :=
  [('s', ⟨some 8192, none⟩), ('c', ⟨some 0, none⟩), ('l', ⟨some 8192, some 8192⟩),
    ('n', ⟨some 1024, some 1048576⟩), ('r', ⟨some 0, some 0⟩)]

/-- The state of a shell before anything is known. -/
def State.initial (name : Chars) : State where
  bindings := []
  locals := []
  name := name
  args := []
  options := []
  functions := []
  aliases := []
  traps := []
  status := 0
  outputStatus := 0
  savedStatus := none
  skip := .nothing
  loopDepth := 0
  functionDepth := 0
  line := 0
  command := none
  jobs := []
  lastBackground := none
  saved := []
  optionPlace := (1, none)
  documents := []
  nextDocument := 0
  process := 0
  directory := none
  tracked := []
  limits := usualLimits
  isTracing := false

namespace Startup

/-- The variables that every shell has from the start. -/
def usualVariables : List (String × String) :=
  [("PATH", Chars.toString Lookup.usualSearchPath), ("PS1", "# "), ("PS2", "> "), ("PS4", "+ ")]

/-- Takes a variable from the environment. -/
def takeVariable (entry : Chars) : Action Unit := do
  match entry.span (· ≠ '=') with
  | (name, _ :: value) =>
    if isName name then Action.modify (·.withVariable ⟨name, some value, true, false⟩)
  | (_, []) => pure ()

/-- Sets a variable that programs do not see, unless they see it already. -/
def setUsual (name value : Chars) : Action Unit := setVariable name (some value) false

/-- The path by which the environment says where the shell is, if it is right. -/
def trustedPath? (h : Host) (path : Chars) : Option Chars :=
  if path.head? = some '/' && h.sameEntry (Chars.toPath path) (.ofString ".") then some path
  else none

/-- Notes where the shell is. -/
def takeDirectory : Action Unit := do
  let known := ((← Action.state).valueOf? "PWD".toList).getD []
  match ← (Routine.look fun h ↦ trustedPath? h known : Routine _) with
  | some path => Builtin.noteDirectory (some path)
  | none => Builtin.noteDirectory (← Builtin.physicalPath)

/-- Sets the variables of a shell. -/
def takeEnvironment (env : List Chars) : Action Unit := do
  for e in usualVariables do
    Action.modify (·.withVariable ⟨e.1.toList, some e.2.toList, false, false⟩)
  Action.forEach takeVariable env
  let q ← (Routine.self : Routine _)
  Action.modify fun s ↦ { s with process := q.id }
  setUsual "IFS".toList State.usualBlanks
  setUsual "OPTIND".toList ['1']
  setUsual "PPID".toList (Chars.ofNat q.parent)
  takeDirectory

/-- Runs what comes from the input. -/
def runInput (c : Context) : Action Nat := do
  let content ← (Routine.readAll 0 : Routine _)
  c.runFile ((Chars.ofBytes (content.toOption.getD [])).filter (· ≠ '\x00'))

/-- Runs the text that is an argument, and the input on demand. -/
def runArgument (c : Context) : List Chars → Action Nat
  | [] => fail "-c requires an argument".toList
  | text :: rest => do
    Action.modify fun s ↦ { s with name := rest.headD s.name, args := rest.tail }
    let readsInput := (← Action.state).has 's'
    let status ← c.runText ⟨false, !readsInput⟩ text
    if readsInput && !(← Context.isSkipping) then runInput c else return status

/-- Runs what the arguments ask for. -/
def run (c : Context) (args : List Chars) : Action Nat := do
  let r ← Builtin.setOptions (fun letter ↦ letter = 'c' || letter = 'l') args.length args
  if r.others.contains 'c' then runArgument c r.rest
  else
    match r.rest with
    | [] =>
      Action.modify (·.withOption 's' true)
      runInput c
    | path :: rest =>
      if (← Action.state).has 's' then
        Action.modify fun s ↦ { s with args := r.rest }
        runInput c
      else
        let text ← Context.scriptText path
        Action.modify fun s ↦ { s with name := path, args := rest }
        c.runFile text

end Startup

/-- The shell, on a machine with these programs. -/
def program (programs : Chars → Option Program) : Program := fun args env _ ↦
  let c := Context.standard programs
  (do
    Startup.takeEnvironment env
    Startup.run c args.tail : Action Nat) (.initial (args.headD "sh".toList)) (Context.ending c)

end ContractBuild.Shell
