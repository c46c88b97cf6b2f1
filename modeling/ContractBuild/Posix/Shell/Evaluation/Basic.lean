import ContractBuild.Posix.Machine.Image
import ContractBuild.Posix.Shell.Jobs
import ContractBuild.Posix.Shell.Redirection

/-!
# Running scripts

The frame in which commands are run: texts are read and run line by line, signals are handled
between commands, and a shell ends in an orderly way whatever interrupts it.  How a command is run
is a parameter, since commands hold scripts and scripts hold commands.
-/

namespace ContractBuild.Shell

/-- How a command is run. -/
structure How where
  /-- Its status is looked at, so that a failure is no reason to leave the shell. -/
  isTested : Bool
  /-- Nothing is done after it, so that a program can take over the shell's process. -/
  isLast : Bool

namespace How

/-- Nothing special. -/
def plain : How := ⟨false, false⟩

/-- The status is looked at. -/
def tested : How := ⟨true, false⟩

/-- Nothing is done afterwards. -/
def last : How := ⟨false, true⟩

/-- Something is done afterwards. -/
def inside (how : How) : How := { how with isLast := false }

end How

/-- What commands are run with. -/
structure Context where
  /-- The programs of the machine. -/
  programs : Chars → Option Program
  /-- How a part of a command is run. -/
  run : How → Command → Action Nat

namespace Context

/-- The status of the last command. -/
def status : Action Nat := State.status <$> Action.state

/-- Whether something is to be skipped. -/
def isSkipping : Action Bool := (fun s ↦ s.skip ≠ .nothing) <$> Action.state

/-! ## Scripts -/

/-- What has been read between two moments. -/
def consumed (before after : Reader) : Chars :=
  before.text.take (before.text.length - after.text.length)

/-- Runs the next line of a script: its rest with the status, or only the status at the end. -/
def runLine (c : Context) (isFile : Bool) (how : Reader → How) (r : Reader) (status : Nat) :
    Action ((Reader × Nat) ⊕ Nat) := do
  let s ← Action.state
  let start := { r with aliases := s.aliases, documents := [], nextDocument := s.nextDocument }
  match Reader.nextCommand start with
  | .error e =>
    if isFile && s.has 'v' then Routine.complain r.text
    Action.modify fun s ↦ { s with nextDocument := e.nextDocument, line := e.line }
    fail e.text
  | .ok (command, r) =>
    if isFile && s.has 'v' then Routine.complain (consumed start r)
    Action.modify fun s ↦
      { s with documents := r.documents ++ s.documents, nextDocument := r.nextDocument }
    match command with
    | none => return .inr status
    | some command =>
      let now ← c.run (how r) command
      let status := match command with
        | .nothing => status
        | _ => now
      return if ← isSkipping then .inr status else .inl (r, status)

/-- Runs a script up to its end or until something is to be skipped. -/
def runScript (c : Context) (isFile : Bool) (how : Reader → How) (text : Chars) : Action Nat := do
  let s ← Action.state
  Action.loop (Reader.start text s.aliases s.nextDocument, 0) fun (r, status) ↦
    runLine c isFile how r status

/-- Runs a text. -/
def runText (c : Context) (how : How) (text : Chars) : Action Nat :=
  runScript c false (fun r ↦ { how with isLast := how.isLast && Reader.isAtEnd r }) text

/-- Runs a file. -/
def runFile (c : Context) (text : Chars) : Action Nat := do
  let status ← runScript c true (fun _ ↦ .plain) text
  Action.modify fun s ↦ match s.skip with
    | .function | .quietly => { s with skip := .nothing }
    | _ => s
  return status

/-! ## Signals -/

/-- Does what a trap says, and goes on with the status from before. -/
def runTrap (c : Context) (status number : Nat) : Action Unit := do
  match (← Action.state).traps.lookup number with
  | none => pure ()
  | some text =>
    let _ ← runText c .plain text
    Action.modify fun s ↦ if s.skip = .function then s else { s with status }

/-- Does what the traps say for the signals that have come. -/
def handleSignals (c : Context) : Action Unit := do
  match ← (Routine.takePending : Routine _) with
  | [] => pure ()
  | numbers =>
    if ← isSkipping then
      Routine.onSelf fun q ↦ { q with pending := numbers ++ q.pending }
    else
      let s ← Action.state
      let status := s.savedStatus.getD s.status
      Action.modify fun t ↦ { t with savedStatus := some status }
      Action.forEach (runTrap c status) (numbers.mergeSort (· ≤ ·))
      Action.modify fun t ↦ { t with savedStatus := s.savedStatus }

/-! ## The end of a shell -/

/-- The state after an interruption.  The status that was put aside counts if the shell is left on
demand. -/
def settled (isLeft : Bool) (s : State) : State :=
  let status := if isLeft || s.skip = .quietly then s.savedStatus.getD s.status else s.status
  { s with status, savedStatus := none, skip := .nothing, loopDepth := 0, isTracing := false }

/-- Whether something was interrupted because the shell is left on demand. -/
def isLeaving {α : Type} : Except Interrupt α → Bool
  | .error .exit => true
  | _ => false

/-- Ends a shell: does what the trap for that says and then ends the process with the status. -/
def ending (c : Context) : Ending := fun r s ↦
  let last : Action Nat := do
    Redirection.leaveTo 0
    let s ← Action.state
    match s.traps.lookup 0 with
    | none => return s.status
    | some text =>
      Action.modify fun s ↦
        { s with savedStatus := some s.status, traps := s.traps.filter (·.1 ≠ 0) }
      let done ← Action.attempt (runText c .plain text)
      Action.modify fun s ↦
        settled (isLeaving done) (if done.isOk then { s with skip := .quietly } else s)
      return (← Action.state).status
  last (settled (isLeaving r) s) fun r s ↦
    .ended (Machine.exitStatus (match r with
      | .ok code => code
      | .error _ => s.status))

/-! ## The output of commands -/

/-- The output of a command, which runs in a process of its own. -/
def outputOf (c : Context) (body : Command) : Action Chars := do
  match body with
  | .nothing => return []
  | body =>
    let (r, w) ← (Routine.pipe : Routine _)
    Jobs.makeRoom
    let child ← Jobs.start (ending c) .foreground do
      (Routine.close r : Routine _)
      if w ≠ 1 then
        let _ ← (Routine.assign 1 w true : Routine _)
        (Routine.close w : Routine _)
      c.run .last body
    (Routine.close w : Routine _)
    let output ← (Routine.readAll r : Routine _)
    (Routine.close r : Routine _)
    let code ← Jobs.await [child]
    Action.modify fun s ↦ { s with outputStatus := code }
    return Chars.ofBytes (output.toOption.getD [])

end Context

end ContractBuild.Shell
