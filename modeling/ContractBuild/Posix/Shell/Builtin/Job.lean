import ContractBuild.Posix.Shell.Builtin.Basic
import ContractBuild.Posix.Shell.Jobs

/-!
# Commands for processes and signals
-/

namespace ContractBuild.Shell.Builtin

/-! ## Jobs -/

/-- What became of a process, in words. -/
def stateText (status : Option Nat) : Chars :=
  match status with
  | none => "Running".toList
  | some status =>
    match Signal.ending? status, Signal.codeOf status with
    | some number, _ => Signal.description number
    | none, 0 => "Done".toList
    | none, code => "Done(".toList ++ Chars.ofNat code ++ [')']

/-- The mark of a job, given its place among all. -/
def jobMark (place : Nat) : Char := if place = 0 then '+' else if place = 1 then '-' else ' '

/-- How wide the description of a job is. -/
def jobWidth : Nat := 33

/-- A job as it is listed. -/
def jobLine (showsNumber : Bool) (place : Nat) (j : Job) : Chars :=
  let number := '[' :: Chars.ofNat j.number ++ [']', ' ', jobMark place, ' ']
  let first := if showsNumber then Chars.ofNat ((j.parts.head?.map (·.1)).getD 0) ++ [' '] else []
  let text := number ++ first ++ stateText (Jobs.statusOf? j)
  let rest := if showsNumber then j.parts.tail.flatMap fun e ↦
      let line := " |\n".toList ++ List.replicate number.length ' ' ++ Chars.ofNat e.1 ++ [' ']
      line ++ List.replicate (jobWidth - (line.length - 3)) ' '
    else j.parts.tail.flatMap fun _ ↦ " | ".toList
  text ++ List.replicate (jobWidth - text.length) ' ' ++ rest

/-- Lists the jobs; the ones that have come to an end are forgotten then. -/
def jobs : Builtin := fun args ↦ do
  let (options, _) ← options ⟨['l', 'p'], []⟩ args
  Jobs.update
  let js := (← Action.state).jobs
  let lines := match options.getLast? with
    | some ('p', _) => js.map fun j ↦ Chars.ofNat ((j.parts.head?.map (·.1)).getD 0)
    | some _ => js.zipIdx.map fun (j, k) ↦ jobLine true k j
    | none => js.zipIdx.map fun (j, k) ↦ jobLine false k j
  Action.modify fun s ↦ { s with jobs := s.jobs.filter fun j ↦ (Jobs.statusOf? j).isNone }
  finishLines lines 0

/-- The job that a word behind a percent sign names. -/
def jobOf (w : Chars) : Action Job := do
  let js := (← Action.state).jobs
  let found := match w with
    | ['%'] | ['%', '%'] | ['%', '+'] => js.head?
    | ['%', '-'] => js.tail.head?
    | w => (Chars.toNat? w.tail).bind fun n ↦ js.find? (·.number = n)
  match found with
  | some j => return j
  | none => fail ("No such job: ".toList ++ w)

/-- Waits for one job; the value is its status, or nothing if a signal came. -/
def waitForJob (j : Job) : Action (Option Nat) := do
  if !(← Jobs.awaitJob j.number true) then return none
  Action.modify fun s ↦ { s with
    jobs := s.jobs.map fun k ↦ if k.number = j.number then { k with isWaited := true } else k }
  match (← Action.state).jobs.find? (·.number = j.number) with
  | some j => return some (Signal.codeOf ((Jobs.statusOf? j).getD 0))
  | none => return some 0

/-- The status after a signal has interrupted a command. -/
def interruptedStatus : Action Nat := do
  let pending := (← (Routine.self : Routine _)).pending
  return 128 + pending.headD 0

/-- Waits for some jobs. -/
def waitForAll : List Job → Action Nat
  | [] => return 0
  | j :: js => do
    match ← waitForJob j with
    | some _ => waitForAll js
    | none => interruptedStatus

/-- Waits for the jobs that words name; the status comes before them. -/
def waitForNamed : Nat → List Chars → Action Nat
  | status, [] => return status
  | status, w :: ws => do
    let job ← (if w.head? = some '%' then some <$> jobOf w else do
      let n ← countOf w
      return (← Action.state).jobs.find? fun j ↦ (j.parts.getLast?.map (·.1)) = some n : Action _)
    match job with
    | none => waitForNamed status ws
    | some j =>
      match ← waitForJob j with
      | some status => waitForNamed status ws
      | none => interruptedStatus

/-- Waits for jobs. -/
def wait : Builtin := fun args ↦ do
  match ← operands args with
  | [] => waitForAll (← Action.state).jobs.reverse
  | ws => waitForNamed 127 ws

/-- Complains that there is no current job. -/
def resume : Builtin := fun args ↦ do
  match args with
  | [] => fail "No current job".toList
  | w :: _ =>
    let _ ← jobOf w
    fail "job not created under job control".toList

/-! ## Signals -/

/-- How to use the command that sends signals. -/
def killUsage : Chars :=
  ("Usage: kill [-s sigspec | -signum | -sigspec] [pid | job]... or\n" ++
    "kill -l [exitstatus]").toList

/-- The signal that a word names; no signal has a name, but only if names from zero on count. -/
def signalOf? (least : Nat) (w : Chars) : Option Nat :=
  if w.map Char.toUpper = "EXIT".toList then if least = 0 then some 0 else none
  else Signal.ofShellWord? w

/-- Lists the names of signals, or of the one that ended a process with this status. -/
def listSignals : List Chars → Action Nat
  | [] => finishLines (['0'] :: Signal.all.map Signal.shellName) 0
  | w :: _ => do
    let n ← countOf w
    let number := if 128 < n then n - 128 else n
    if Signal.all.contains number then finishLines [Signal.shellName number] 0
    else fail ("invalid signal number or exit status: ".toList ++ w)

/-- Sends a signal to the processes that words name; the status comes before them. -/
def sendSignal (number : Nat) : Nat → List Chars → Action Nat
  | status, [] => return status
  | status, w :: ws => do
    let target ← (match w with
      | '%' :: _ => do
        let _ ← jobOf w
        return none
      | '-' :: ds => do
        let _ ← countOf ds
        return none
      | ds => some <$> countOf ds : Action (Option Nat))
    let sent ← (match target with
      | some 0 => Routine.self >>= fun q ↦ Routine.signal q.id number
      | some n => Routine.signal n number
      | none => pure (.error .noProcess) : Routine _)
    match sent with
    | .ok () => sendSignal number status ws
    | .error e =>
      warn (Chars.line e.reason.toList)
      sendSignal number 1 ws

/-- Sends signals to processes, or lists their names. -/
def kill : Builtin := fun args ↦ do
  let usage : Action Nat := fail killUsage
  let direct := match args with
    | ('-' :: w) :: rest => (signalOf? 1 w).map (·, rest)
    | _ => none
  match direct with
  | some (number, ws) => if ws = [] then usage else sendSignal number 0 ws
  | none =>
    let (options, ws) ← (if (args.head?.bind (·.head?)) = some '-' then
      options ⟨['l'], ['s']⟩ args else pure ([], args) : Action _)
    let number ← (match options.reverse.lookup 's' with
      | none => pure none
      | some w => match signalOf? 1 w with
        | some n => pure (some n)
        | none => fail ("invalid signal number or name: ".toList ++ w) : Action (Option Nat))
    if options.any (·.1 = 'l') then if number.isSome then usage else listSignals ws
    else if ws = [] then usage else sendSignal (number.getD Signal.terminate) 0 ws

/-! ## Traps -/

/-- The name of what a trap is for. -/
def trapName (number : Nat) : Chars :=
  if number = 0 then "EXIT".toList else Signal.shellName number

/-- Has a process handle, ignore or suffer a signal as a trap says. -/
def arrange (number : Nat) (action : Option Chars) : Routine Unit :=
  Routine.onSelf fun q ↦
    let isCaught := action.any (· ≠ [])
    let isIgnored := action = some []
    let rest := fun (ns : List Nat) ↦ ns.filter (· ≠ number)
    { q with
      caught := if isCaught then number :: rest q.caught else rest q.caught
      ignored := if isIgnored then number :: rest q.ignored else rest q.ignored }

/-- Sets or removes the trap for a signal. -/
def setTrap (action : Option Chars) (number : Nat) : Action Unit := do
  Action.modify fun s ↦
    let rest := s.traps.filter (·.1 ≠ number)
    { s with traps := match action with
      | some a => (number, a) :: rest
      | none => rest }
  if number ≠ 0 then arrange number action

/-- Sets or removes the traps for the signals that words name. -/
def setTraps (action : Option Chars) : List Chars → Action Nat
  | [] => return 0
  | w :: ws => do
    match signalOf? 0 w with
    | none =>
      Routine.complain (Chars.line ("trap: ".toList ++ w ++ ": bad trap".toList))
      return 1
    | some number =>
      setTrap action number
      setTraps action ws

/-- Shows the traps, or sets and removes some. -/
def trap : Builtin := fun args ↦ do
  match ← operands args with
  | [] =>
    let s ← Action.state
    let lines := (List.range (Signal.greatest + 1)).filterMap fun n ↦
      (s.traps.lookup n).map fun a ↦
        "trap -- ".toList ++ quoted a ++ ' ' :: trapName n
    finishLines lines 0
  | w :: ws =>
    if ws = [] || (Chars.toNat? w).any (· ≤ Signal.greatest) then setTraps none (w :: ws)
    else setTraps (if w = ['-'] then none else some w) ws

/-! ## Limits and times -/

/-- What a process has so much of and no more, with its letter. -/
def resources : List (Char × String) :=
  [('t', "time(seconds)"), ('f', "file(blocks)"), ('d', "data(kbytes)"), ('s', "stack(kbytes)"),
    ('c', "coredump(blocks)"), ('m', "memory(kbytes)"), ('l', "locked memory(kbytes)"),
    ('p', "process"), ('n', "nofiles"), ('v', "vmemory(kbytes)"), ('w', "locks"), ('r', "rtprio")]

/-- Which of the two limits of a resource are meant. -/
inductive Bound
  /-- The one that holds. -/
  | held
  /-- The one up to which the other one can be raised. -/
  | greatest
  /-- Both, and for showing the one that holds. -/
  | both
  deriving DecidableEq

/-- The text of a limit. -/
def limitText (b : Bound) (l : Limit) : Chars :=
  ((if b = .greatest then l.greatest else l.held).map Chars.ofNat).getD "unlimited".toList

/-- The limit that a word says. -/
def readLimit (w : Chars) : Action (Option Nat) := do
  if w = "unlimited".toList then return none
  let some n := if w = [] then some 0 else Chars.toNat? w | fail "bad number".toList
  return some n

/-- Whether a limit is beyond another one. -/
def exceeds : Option Nat → Option Nat → Bool
  | _, none => false
  | none, some _ => true
  | some a, some b => b < a

/-- Shows the limits of a process, or sets one. -/
def ulimit : Builtin := fun args ↦ do
  let (options, args) ← options ⟨"HSatfdscmlpnvwr".toList, []⟩ args
  let letters := options.map (·.1)
  let bound := match (letters.filter "HS".toList.contains).getLast? with
    | some 'H' => Bound.greatest
    | some _ => .held
    | none => .both
  let what := ((letters.filter fun c ↦ !"HSa".toList.contains c).getLast?).getD 'f'
  let isWhole := letters.contains 'a'
  let limitOf := fun (s : State) (c : Char) ↦ (s.limits.lookup c).getD ⟨none, none⟩
  match args with
  | [] =>
    let s ← Action.state
    if isWhole then
      finishLines (resources.map fun (c, name) ↦
        name.toList ++ List.replicate (20 - name.length) ' ' ++
          ' ' :: limitText bound (limitOf s c)) 0
    else finishLines [limitText bound (limitOf s what)] 0
  | w :: ws =>
    if isWhole || ws ≠ [] then fail "too many arguments".toList
    let value ← readLimit w
    let before := limitOf (← Action.state) what
    let l : Limit := {
      held := if bound = .greatest then before.held else value
      greatest := if bound = .held then before.greatest else value }
    if exceeds l.held l.greatest then fail "error setting limit (Invalid argument)".toList
    if exceeds l.greatest before.greatest then
      fail "error setting limit (Operation not permitted)".toList
    Action.modify fun s ↦ { s with limits := (what, l) :: s.limits.filter (·.1 ≠ what) }
    return 0

/-- Shows the time that processes have used. -/
def times : Builtin := fun _ ↦
  finishLines (List.replicate 2 "0m0.000000s 0m0.000000s".toList) 0

end ContractBuild.Shell.Builtin
