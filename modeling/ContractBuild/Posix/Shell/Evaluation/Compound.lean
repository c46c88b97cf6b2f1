import ContractBuild.Posix.Shell.Evaluation.Simple

/-!
# Compound commands

Commands made of commands: pipelines, shells in processes of their own, branches, loops and
functions.  A command is run with fuel for the parts in it, so that the definition is structural;
no script gets as deep as that.
-/

namespace ContractBuild.Shell.Context

/-! ## Processes -/

/-- Puts an open file of a process under another number. -/
def moveTo (n source : Nat) : Routine Unit := do
  if n ≠ source then
    let _ ← Routine.assign n source true
    Routine.close source

/-- Notes the program that a part of a pipeline names in plain letters. -/
def noteProgram : Command → Action Unit
  | .simple _ _ (w :: _) _ => do
    let name := (plain? w).getD []
    if !isName name then return
    match ← Lookup.meaning (Lookup.searchPath (← Action.state)) name true with
    | .program _ => Builtin.track name
    | _ => return
  | _ => return

/-- Starts the parts of a pipeline, each of which reads what the one before writes.  The numbers
of the processes come first to last. -/
def startParts (c : Context) (how : How) (isBackground : Bool) :
    Bool → Option Nat → List Command → Action (List Nat)
  | _, _, [] => return []
  | isFirst, input, part :: parts => do
    noteProgram part
    let pipe ← (if parts.isEmpty then pure none else some <$> Routine.pipe : Routine _)
    let child ← Jobs.start (ending c) (if isBackground then .background isFirst else .foreground) do
      (do
        match pipe with
        | some (r, _) => Routine.close r
        | none => pure ()
        match input with
        | some n => moveTo 0 n
        | none => pure ()
        match pipe with
        | some (_, w) => moveTo 1 w
        | none => pure () : Routine _)
      c.run { how with isLast := true } part
    match input with
    | some n => Routine.close n
    | none => pure ()
    match pipe with
    | some (_, w) => Routine.close w
    | none => pure ()
    return child :: (← startParts c how isBackground false (pipe.map (·.1)) parts)

/-- Runs a pipeline. -/
def runPipeline (c : Context) (how : How) (parts : List Command) (isBackground : Bool) :
    Action Nat := do
  Jobs.makeRoom
  let children ← c.startParts how isBackground true none parts
  if isBackground then
    Jobs.remember children
    return 0
  else Jobs.await children

/-- Runs a command as a shell of its own would do. -/
def runAlone (c : Context) (how : How) (body : Command) (ready : List Redirection.Ready) :
    Action Nat := do
  Redirection.carryOutAll ready
  c.run { how with isLast := true } body

/-- Runs a command in a process of its own, unless this one has nothing else to do. -/
def runSubshell (c : Context) (how : How) (body : Command) (rs : List Redirection) :
    Action Nat := do
  let ready ← Redirection.readyAll c.outputOf rs
  if how.isLast && !(← hasTraps) then
    Action.modify Jobs.inChild
    c.runAlone how body ready
  else
    Jobs.makeRoom
    let child ← Jobs.start (ending c) .foreground (c.runAlone how body ready)
    Jobs.await [child]

/-- Runs a command that is not waited for. -/
def runBackground (c : Context) (body : Command) (rs : List Redirection) : Action Nat := do
  let ready ← Redirection.readyAll c.outputOf rs
  Jobs.makeRoom
  let child ← Jobs.start (ending c) (.background true) (c.runAlone .plain body ready)
  Jobs.remember [child]
  return 0

/-! ## Redirections, branches and functions -/

/-- Runs a command with redirections. -/
def runRedirected (c : Context) (how : How) (body : Command) (rs : List Redirection) :
    Action Nat := do
  let ready ← Redirection.readyAll c.outputOf rs
  Redirection.enter
  let refused ← Redirection.tryAll ready
  let status ← if refused ≠ 0 then pure refused else c.run how.inside body
  Redirection.leave false
  return status

/-- Whether nothing stands in a place for commands. -/
def isNothing : Command → Bool
  | .nothing => true
  | _ => false

/-- Runs the second of two commands if the first one gives a reason for it. -/
def runSecond (c : Context) (how : How) (wantsSuccess : Bool) (first second : Command) :
    Action Nat := do
  let status ← c.run .tested first
  if (status = 0) != wantsSuccess || (← isSkipping) then return status
  c.run how second

/-- Runs one of two commands. -/
def runChoice (c : Context) (how : How) (test ifPart elsePart : Command) : Action Nat := do
  let status ← c.run .tested test
  if ← isSkipping then return status
  if status = 0 then c.run how ifPart
  else if isNothing elsePart then return 0
  else c.run how elsePart

/-- Runs the command of the first pattern that matches a word. -/
def runCases (c : Context) (how : How) (text : Chars) :
    List (List Word × Command) → Action Nat
  | [] => return 0
  | (patterns, body) :: rest => do
    let isMatch ← matchesAny patterns
    if ← isSkipping then return 0
    if isMatch then
      if isNothing body then return 0 else c.run how body
    else runCases c how text rest
where
  /-- Whether the word matches one of some patterns. -/
  matchesAny : List Word → Action Bool
    | [] => return false
    | p :: ps => do
      let pattern := Run.pattern (← Expansion.runs c.outputOf .single p)
      if Glob.matchesText pattern text then return true else matchesAny ps

/-- Defines a function. -/
def define (name : Chars) (body : Command) : Action Nat := do
  Action.modify fun s ↦ { s with
    functions := (name, body) :: s.functions.filter (·.1 ≠ name) }
  return 0

/-! ## Loops -/

/-- What is still to be skipped once the end of a loop's turn has been reached. -/
def skipAtTurn : Action Skip := do
  let skip := (← Action.state).skip
  let now := match skip with
    | .loops n => if n ≤ 1 then .nothing else .loops (n - 1)
    | .turns n => if n ≤ 1 then .nothing else .turns (n - 1)
    | skip => skip
  Action.modify fun s ↦ { s with skip := now }
  return match skip, now with
    | .turns _, .nothing => .nothing
    | .loops _, .nothing => .loops 1
    | skip, _ => skip

/-- Does something inside of one loop more. -/
def inLoop {α : Type} (x : Action α) : Action α := do
  Action.modify fun s ↦ { s with loopDepth := s.loopDepth + 1 }
  let a ← x
  Action.modify fun s ↦ { s with loopDepth := s.loopDepth - 1 }
  return a

/-- Whether a loop is left. -/
def leavesLoop (skip : Skip) : Bool := skip ≠ .nothing

/-- Runs a command as long as another one succeeds, or as long as it fails. -/
def runLoop (c : Context) (how : How) (isUntil : Bool) (test body : Command) : Action Nat :=
  inLoop <| Action.loop 0 fun status ↦ do
    let tested ← c.run .tested test
    let before := (← Action.state).skip
    let skip ← skipAtTurn
    let status := match skip with
      | .function => tested
      | _ => status
    if leavesLoop skip then return .inr status
    if before ≠ .nothing then return .inl status
    if (tested = 0) == isUntil then return .inr status
    let status ← c.run how.inside body
    return if leavesLoop (← skipAtTurn) then .inr status else .inl status

/-- Runs a command for every text. -/
def runEach (c : Context) (how : How) (name : Chars) (body : Command) :
    Nat → List Chars → Action Nat
  | status, [] => return status
  | _, t :: ts => do
    assign name t
    let status ← c.run how.inside body
    if leavesLoop (← skipAtTurn) then return status
    runEach c how name body status ts

/-- Runs a command for every field of some words. -/
def runForEach (c : Context) (how : How) (name : Chars) (words : List Word) (body : Command) :
    Action Nat := do
  let texts := (← Action.forAll (Expansion.fields c.outputOf) words).flatten
  inLoop (c.runEach how name body 0 texts)

/-! ## All commands -/

/-- Notes the line of a command. -/
def atLine (line : Nat) : Action Unit := Action.modify fun s ↦ { s with line }

/-- The status of a command, and whether its failure can be a reason to leave the shell. -/
def outcome (c : Context) (how : How) : Command → Action (Nat × Bool)
  | .nothing => return (← status, false)
  | .simple line assignments words rs => do
    atLine line
    return (← c.runSimple how assignments words rs, true)
  | .pipeline parts isBackground => return (← c.runPipeline how parts isBackground, true)
  | .redirected line body rs => do
    atLine line
    return (← c.runRedirected how body rs, false)
  | .background line body rs => do
    atLine line
    return (← c.runBackground body rs, true)
  | .subshell line body rs => do
    atLine line
    return (← c.runSubshell how body rs, true)
  | .both first second => return (← c.runSecond how true first second, false)
  | .either first second => return (← c.runSecond how false first second, false)
  | .sequence first second => do
    let status ← c.run how.inside first
    if ← isSkipping then return (status, false)
    return (← c.run how second, false)
  | .choice test ifPart elsePart => return (← c.runChoice how test ifPart elsePart, false)
  | .loop isUntil test body => return (← c.runLoop how isUntil test body, false)
  | .forEach line name words body => do
    atLine line
    return (← c.runForEach how name words body, false)
  | .select line word cases => do
    atLine line
    let text ← Expansion.text c.outputOf .single word
    return (← c.runCases how text cases, false)
  | .function _ name body => return (← define name body, false)
  | .negated body => do
    let status ← c.run .tested body
    return (if status = 0 then 1 else 0, false)

/-- Runs a command and leaves the shell if that is due. -/
def runCommand (c : Context) (how : How) (command : Command) : Action Nat := do
  if (← Action.state).has 'n' then
    if how.isLast then Action.interrupt .done
    return 0
  if !isNothing command then c.handleSignals
  let (code, isChecked) ← c.outcome how command
  Action.modify fun s ↦ { s with status := code }
  c.handleSignals
  let leaves := isChecked && !how.isTested && code ≠ 0 && (← Action.state).has 'e'
  if leaves || how.isLast then Action.interrupt .done
  status

/-- How deep commands can be nested in commands. -/
def depthLimit : Nat := 1000000

/-- The wait status of a shell that has no room for more commands in commands. -/
def overflow : Nat := 11

/-- Runs a command with so many levels of commands in commands. -/
def runWithin (programs : Chars → Option Program) : Nat → How → Command → Action Nat
  | 0 => fun _ _ _ _ ↦ .ended overflow
  | n + 1 => runCommand ⟨programs, runWithin programs n⟩

/-- What commands are run with on a machine with these programs. -/
def standard (programs : Chars → Option Program) : Context :=
  ⟨programs, runWithin programs depthLimit⟩

end ContractBuild.Shell.Context
