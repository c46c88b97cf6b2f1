import ContractBuild.Posix.Shell.Builtin.Directory
import ContractBuild.Posix.Shell.Builtin.Job
import ContractBuild.Posix.Shell.Builtin.Name
import ContractBuild.Posix.Shell.Builtin.Text
import ContractBuild.Posix.Shell.Builtin.Variables
import ContractBuild.Posix.Shell.Evaluation.Basic

/-!
# Running what a name means

Programs, functions and commands of the shell.  An error in a command of the shell ends only that
command, unless it is a special one.
-/

namespace ContractBuild.Shell.Context

/-! ## Programs -/

/-- Goes on with the first of some files that can be run.  The value is the reason why none can. -/
def becomeAny (become : Chars → Routine IoError) : IoError → List Chars → Routine IoError
  | reason, [] => pure reason
  | reason, path :: paths => do
    let e ← become path
    becomeAny become (if e = .notFound || e = .notADirectory then reason else e) paths

/-- Goes on with a program in the place of the shell; the value is its status if that is not
possible. -/
def become (c : Context) (paths args : List Chars) : Action Nat := do
  let s ← Action.state
  let name := args.headD []
  let e ← (becomeAny (Routine.become c.programs args s.environment) .notFound paths : Routine _)
  warn (name ++ ": ".toList ++ Lookup.reason e)
  return Lookup.codeOf e

/-- Goes on with a program in the place of the shell, or leaves the shell. -/
def becomeOrLeave (c : Context) (paths args : List Chars) : Action Nat := do
  let status ← c.become paths args
  Action.modify fun s ↦ { s with status }
  Action.interrupt .done

/-- Whether a trap does something. -/
def hasTraps : Action Bool := (fun s ↦ s.traps.any (·.2 ≠ [])) <$> Action.state

/-- Runs a program, in the place of the shell if nothing is done afterwards. -/
def runProgram (c : Context) (how : How) (paths args : List Chars) : Action Nat := do
  if how.isLast && !(← hasTraps) then c.becomeOrLeave paths args
  else
    Jobs.makeRoom
    let child ← Action.fork fun s ↦ (do
      Action.ofRoutine (Jobs.prepare .foreground)
      c.become paths args : Action Nat) (Jobs.inChild s) fun r _ ↦
        .ended (Machine.exitStatus (r.toOption.getD 0))
    Jobs.await [child]

/-! ## Commands of the shell that run others -/

/-- Runs its arguments as a script. -/
def eval (c : Context) (how : How) : Builtin := fun args ↦
  if args = [] then return 0 else c.runText how.inside (Chars.join [' '] args)

/-- The path of a script that is to be run by this shell. -/
def scriptPath (name : Chars) : Action Chars := do
  if name.contains '/' then return name
  let paths := Lookup.pathsOf (Lookup.searchPath (← Action.state)) name
  match ← (Routine.look fun h ↦ paths.find? fun p ↦ h.isFile (Chars.toPath p) : Routine _) with
  | some path => return path
  | none => fail (name ++ ": not found".toList)

/-- The text of a file; a directory has none. -/
def scriptText (path : Chars) : Action Chars := do
  match ← (Routine.openPath (Chars.toPath path) .forReading 0 : Routine _) with
  | .error e =>
    fail ("cannot open ".toList ++ path ++ ": ".toList ++ Redirection.reason e false)
  | .ok n =>
    let content ← (Routine.readAll n : Routine _)
    (Routine.close n : Routine _)
    return (Chars.ofBytes (content.toOption.getD [])).filter (· ≠ '\x00')

/-- Runs a file as a script of this shell. -/
def source (c : Context) : Builtin := fun args ↦ do
  match ← Builtin.operands args with
  | [] => return 0
  | name :: _ =>
    let path ← scriptPath name
    let text ← scriptText path
    Action.modify fun s ↦ { s with command := some path }
    c.runFile text

/-- Goes on with a program in the place of the shell, if one is given. -/
def exec (c : Context) : Builtin := fun args ↦ do
  match args with
  | [] => return 0
  | name :: _ =>
    let search := Lookup.searchPath (← Action.state)
    c.becomeOrLeave (if name.contains '/' then [name] else Lookup.pathsOf search name) args

/-- Leaves the shell. -/
def exit : Builtin := fun args ↦ do
  match args with
  | [] => pure ()
  | w :: _ =>
    let code ← countOf w
    Action.modify fun s ↦ { s with savedStatus := some code }
  Action.interrupt .exit

/-- Leaves a function or a script. -/
def «return» : Builtin := fun args ↦ do
  match args with
  | [] =>
    Action.modify fun s ↦ { s with skip := .quietly }
    status
  | w :: _ =>
    let code ← countOf w
    Action.modify fun s ↦ { s with skip := .function }
    return code

/-- Skips loops, or turns of them. -/
def skipLoops (skip : Nat → Skip) : Builtin := fun args ↦ do
  let n ← match args with
    | [] => pure 1
    | w :: _ => do
      match ← countOf w with
      | 0 => fail ("Illegal number: ".toList ++ w)
      | n => pure n
  Action.modify fun s ↦
    let n := min n s.loopDepth
    if n = 0 then s else { s with skip := skip n }
  return 0

/-- Says what a name means, if that is asked for. -/
def command : Builtin := fun args ↦ do
  let (options, names) ← Builtin.options ⟨['p', 'v', 'V'], []⟩ args
  let search := if options.any (·.1 = 'p') then some Lookup.usualSearchPath else none
  match options.map (·.1) |>.filter (· ≠ 'p'), names with
  | [], _ | _, [] => return 0
  | letters, name :: _ => Builtin.describe search (letters.contains 'V') [name]

/-- What the command of the shell with this name does. -/
def builtin (c : Context) (how : How) (name : Chars) : Builtin :=
  match Chars.toString name with
  | "." => c.source
  | "[" => Builtin.bracket
  | "alias" => Builtin.aliasCommand
  | "bg" | "fg" => Builtin.resume
  | "break" => skipLoops .loops
  | "cd" | "chdir" => Builtin.cd
  | "command" => command
  | "continue" => skipLoops .turns
  | "echo" => Builtin.echo
  | "eval" => c.eval how
  | "exec" => c.exec
  | "exit" => exit
  | "export" => Builtin.exportNames
  | "false" => fun _ ↦ return 1
  | "getopts" => Builtin.getopts
  | "hash" => Builtin.hash
  | "jobs" => Builtin.jobs
  | "kill" => Builtin.kill
  | "local" => Builtin.localNames
  | "printf" => Builtin.printf
  | "pwd" => Builtin.pwd
  | "read" => Builtin.read
  | "readonly" => Builtin.fixNames
  | "return" => «return»
  | "set" => Builtin.set
  | "shift" => Builtin.shift
  | "test" => Builtin.test
  | "times" => Builtin.times
  | "trap" => Builtin.trap
  | "type" => Builtin.type
  | "ulimit" => Builtin.ulimit
  | "umask" => Builtin.umask
  | "unalias" => Builtin.unalias
  | "unset" => Builtin.unset
  | "wait" => Builtin.wait
  | _ => fun _ ↦ return 0

/-- Runs a command of the shell.  Its error is passed on only if that is fatal. -/
def runBuiltin (c : Context) (how : How) (isFatal : Bool) (args : List Chars) : Action Nat := do
  let name := args.headD []
  let outer := (← Action.state).command
  Action.modify fun s ↦ { s with command := some name }
  let done ← Action.attempt (c.builtin how name args.tail)
  Action.modify fun s ↦ { s with
    command := outer
    status := match done with
      | .ok status => status
      | .error _ => s.status }
  match done with
  | .ok _ => status
  | .error .error => if isFatal then Action.interrupt .error else status
  | .error i => Action.interrupt i

/-! ## Functions -/

/-- How deep functions can be entered. -/
def functionLimit : Nat := 1000

/-- Runs a function. -/
def runFunction (c : Context) (how : How) (body : Command) (args : List Chars) : Action Nat := do
  let outer ← Action.state
  if functionLimit ≤ outer.functionDepth then
    fail ("Maximum function recursion depth (".toList ++ Chars.ofNat functionLimit ++
      ") reached".toList)
  Action.modify fun s ↦ { s with
    args := args.tail, optionPlace := (1, none), loopDepth := 0
    functionDepth := s.functionDepth + 1 }
  let done ← Action.attempt (c.run ⟨how.isTested, false⟩ body)
  Action.modify fun s ↦ { s with
    args := outer.args
    optionPlace := outer.optionPlace
    loopDepth := outer.loopDepth
    functionDepth := outer.functionDepth
    skip := match s.skip with
      | .function | .quietly => .nothing
      | skip => skip }
  Action.ofExcept done

end ContractBuild.Shell.Context
