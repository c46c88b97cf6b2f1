import ContractBuild.Posix.Machine.Signal
import ContractBuild.Posix.Shell.Variables

/-!
# Jobs

Shells in processes of their own, and waiting for processes.
-/

namespace ContractBuild.Shell

/-- How a shell in a process of its own ends once what it does has come to an end. -/
abbrev Ending := Except Interrupt Nat → State → Thread

namespace Jobs

/-- How a process is started. -/
inductive Mode
  /-- It is waited for. -/
  | foreground
  /-- It is not waited for; `isFirst` says that no process of the same job was started before. -/
  | background (isFirst : Bool)
  deriving DecidableEq, Repr

/-- The state of a shell that has just been started by another one, without the traps that do
something. -/
def inChild (s : State) : State :=
  { s with saved := [], jobs := [], traps := s.traps.filter (·.2 = []) }

/-- What a process does before anything else. -/
def prepare (mode : Mode) : Routine Unit := do
  Routine.onSelf fun q ↦ { q with caught := [] }
  match mode with
  | .foreground => pure ()
  | .background isFirst =>
    Routine.onSelf fun q ↦ { q with ignored := Signal.interrupt :: Signal.quit :: q.ignored }
    if isFirst then
      Routine.close 0
      let _ ← Routine.openPath (.ofString "/dev/null") .forReading Routine.usualMode

/-- Starts a process in which a shell does something. -/
def start (ending : Ending) (mode : Mode) (child : Action Nat) : Action Nat :=
  Action.fork fun s ↦ (do
    Action.ofRoutine (prepare mode)
    child : Action Nat) (inChild s) ending

/-- Says which signal ended a process, unless that is expected. -/
def tell (status : Nat) : Routine Unit :=
  match Signal.ending? status with
  | none => pure ()
  | some number =>
    if number = Signal.interrupt || number = Machine.pipeSignal then pure ()
    else Routine.complain (Chars.line (Signal.description number))

/-- Waits for processes, and gives the code of the last one. -/
def await (parts : List Nat) : Action Nat :=
  Action.loop (parts, 0) fun (left, code) ↦ do
    match ← (Routine.wait (left.contains ·) false : Routine _) with
    | .ended child status =>
      tell status
      let code := if some child = parts.getLast? then Signal.codeOf status else code
      match left.filter (· ≠ child) with
      | [] => return .inr code
      | left => return .inl (left, code)
    | _ => return .inr code

/-- The least number that no job has. -/
def freeNumber (jobs : List Job) : Nat :=
  ((List.range (jobs.length + 1)).map (· + 1)).find? (fun k ↦ !jobs.any (·.number = k)) |>.getD 1

/-- Remembers a job that is not waited for. -/
def remember (parts : List Nat) : Action Unit := Action.modify fun s ↦
  { s with
    jobs := ⟨freeNumber s.jobs, parts.map (·, none), false⟩ :: s.jobs
    lastBackground := parts.getLast? }

/-- The status of a job, once all its processes have ended. -/
def statusOf? (j : Job) : Option Nat :=
  if j.parts.all (·.2.isSome) then j.parts.getLast?.bind (·.2) else none

/-- Makes room for another job: the first number that is free or belongs to a job that has been
waited for is the one to be used. -/
def makeRoom : Action Unit := Action.modify fun s ↦
  let isFree := fun (k : Nat) ↦ match s.jobs.find? (·.number = k) with
    | some j => j.isWaited && (statusOf? j).isSome
    | none => true
  match ((List.range (s.jobs.length + 1)).map (· + 1)).find? isFree with
  | some k => { s with jobs := s.jobs.filter (·.number ≠ k) }
  | none => s

/-- The state in which a process is known to have ended. -/
def noted (child status : Nat) (s : State) : State :=
  { s with jobs := s.jobs.map fun j ↦ { j with
      parts := j.parts.map fun e ↦ if e.1 = child then (e.1, some status) else e } }

/-- Notes which processes have ended by now. -/
def update : Action Unit :=
  Action.loop () fun () ↦ do
    let waiting := (← Action.state).jobs.flatMap fun j ↦
      j.parts.filterMap fun e ↦ if e.2.isNone then some e.1 else none
    match ← (Routine.reapNow (waiting.contains ·) : Routine _) with
    | some (child, status) =>
      Action.modify (noted child status)
      return .inl ()
    | none => return .inr ()

/-- Waits until a job has ended, or until a signal is to be handled; the value says which. -/
def awaitJob (number : Nat) (isTold : Bool) : Action Bool :=
  Action.loop () fun () ↦ do
    match (← Action.state).jobs.find? (·.number = number) with
    | none => return .inr true
    | some j =>
      let left := j.parts.filterMap fun e ↦ if e.2.isNone then some e.1 else none
      if left = [] then return .inr true
      match ← (Routine.wait (left.contains ·) true : Routine _) with
      | .ended child status =>
        if isTold then tell status
        Action.modify (noted child status)
        return .inl ()
      | .interrupted => return .inr false
      | _ =>
        Action.modify fun s ↦ left.foldl (fun s child ↦ noted child 0 s) s
        return .inl ()

end Jobs

end ContractBuild.Shell
