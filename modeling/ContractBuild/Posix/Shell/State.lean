import ContractBuild.Posix.Machine.Call
import ContractBuild.Posix.Shell.Parser

/-!
# The state of a shell

What a running shell remembers, and the actions that work on it.  An action is a routine of the
process that also sees and changes the state, and that can be interrupted: by an error, or because
the shell is to be left.
-/

namespace ContractBuild.Shell

/-- A variable. -/
structure Variable where
  /-- Its name. -/
  name : Chars
  /-- Its value, if it has one. -/
  value : Option Chars
  /-- Whether programs see it. -/
  isExported : Bool
  /-- Whether its value is fixed. -/
  isReadOnly : Bool

/-- What is still to be skipped. -/
inductive Skip
  /-- Nothing. -/
  | nothing
  /-- So many loops. -/
  | loops (count : Nat)
  /-- So many loops except the last one, which takes its next turn. -/
  | turns (count : Nat)
  /-- The rest of a function or of a script, whose status is given. -/
  | function
  /-- The rest of a function or of a script. -/
  | quietly
  deriving DecidableEq, Repr

/-- Why an action was interrupted. -/
inductive Interrupt
  /-- Something went wrong, and it has been said. -/
  | error
  /-- The shell is left on demand. -/
  | exit
  /-- The shell is left because nothing more is to be done. -/
  | done
  deriving DecidableEq, Repr

/-- Processes that were started together. -/
structure Job where
  /-- Its number. -/
  number : Nat
  /-- The processes, each with its wait status once that is known. -/
  parts : List (Nat × Option Nat)
  /-- Whether a script has waited for it, so that its number can be used again. -/
  isWaited : Bool

/-- What a variable or the options were before a function changed them. -/
inductive Saved
  /-- A variable, if there was one. -/
  | variable (name : Chars) (before : Option Variable)
  /-- The options. -/
  | options (before : List Char)

/-- How much of a resource a process can have. -/
structure Limit where
  /-- The limit, unless there is none. -/
  held : Option Nat
  /-- The greatest limit that can be set, unless there is none. -/
  greatest : Option Nat

/-- The state of a shell. -/
structure State where
  /-- The variables, in the order in which they came to be. -/
  bindings : List Variable
  /-- What functions and commands have changed for themselves, the innermost first. -/
  locals : List (List Saved)
  /-- The name of the shell. -/
  name : Chars
  /-- The arguments. -/
  args : List Chars
  /-- The letters of the options that are set. -/
  options : List Char
  /-- The functions. -/
  functions : List (Chars × Command)
  /-- The aliases. -/
  aliases : List (Chars × Chars)
  /-- What is done on a signal, and on leaving the shell under the number zero. -/
  traps : List (Nat × Chars)
  /-- The status of the last command. -/
  status : Nat
  /-- The status of the last command whose output was taken. -/
  outputStatus : Nat
  /-- The status with which a trap was entered or the shell is left. -/
  savedStatus : Option Nat
  /-- What is still to be skipped. -/
  skip : Skip
  /-- How many loops are entered. -/
  loopDepth : Nat
  /-- How many functions are entered. -/
  functionDepth : Nat
  /-- The line of the command. -/
  line : Nat
  /-- The command of the shell that is at work. -/
  command : Option Chars
  /-- The jobs, the latest first. -/
  jobs : List Job
  /-- The last process that is not waited for. -/
  lastBackground : Option Nat
  /-- The numbers that redirections have put aside, innermost first, each with its copy. -/
  saved : List (List (Nat × Option Nat))
  /-- The number of the argument that is the next option, and the place in it. -/
  optionPlace : Nat × Option Nat
  /-- The documents of all that has been read. -/
  documents : List Document
  /-- The number of the next document. -/
  nextDocument : Nat
  /-- The process of the first shell. -/
  process : Nat
  /-- The path of the current directory. -/
  directory : Option Chars
  /-- The names of programs that have been found. -/
  tracked : List Chars
  /-- Whether the prompt of traced commands is at work. -/
  isTracing : Bool
  /-- The limits of resources that have any, each with the letter of the resource. -/
  limits : List (Char × Limit)

/-- A part of what a shell does. -/
def Action (α : Type) : Type := State → (Except Interrupt α → State → Thread) → Thread

namespace Action

instance : Monad Action where
  pure a := fun s next ↦ next (.ok a) s
  bind x f := fun s next ↦ x s fun r s ↦ match r with
    | .ok a => f a s next
    | .error i => next (.error i) s

/-- What the process does. -/
def ofRoutine {α : Type} (r : Routine α) : Action α := fun s next ↦ r fun a ↦ next (.ok a) s

instance : MonadLift Routine Action where
  monadLift := ofRoutine

/-- The state. -/
def state : Action State := fun s next ↦ next (.ok s) s

/-- Changes the state. -/
def modify (f : State → State) : Action Unit := fun s next ↦ next (.ok ()) (f s)

/-- Interrupts what is done. -/
def interrupt {α : Type} (i : Interrupt) : Action α := fun s next ↦ next (.error i) s

/-- Does something and gives what came of it, also if it was interrupted. -/
def attempt {α : Type} (x : Action α) : Action (Except Interrupt α) := fun s next ↦
  x s fun r s ↦ next (.ok r) s

/-- Goes on with what came of something. -/
def ofExcept {α : Type} : Except Interrupt α → Action α
  | .ok a => pure a
  | .error i => interrupt i

/-- Starts a process that goes on with a copy of the state; its number is the value. -/
def fork (child : State → Thread) : Action Nat := fun s next ↦
  .fork (child s) fun k ↦ next (.ok k) s

/-- Takes turns as long as a turn gives another state, so many times at most. -/
def repeatFor {σ α : Type} (turn : σ → Action (σ ⊕ α)) : Nat → σ → Action α
  | 0, _ => fun _ _ ↦ .ended Machine.killSignal
  | n + 1, a => do
    match ← turn a with
    | .inl a => repeatFor turn n a
    | .inr b => pure b

/-- Takes turns as long as a turn gives another state. -/
def loop {σ α : Type} (a : σ) (turn : σ → Action (σ ⊕ α)) : Action α :=
  repeatFor turn Routine.turnLimit a

/-- Does something for every element. -/
def forEach {α : Type} (f : α → Action Unit) : List α → Action Unit
  | [] => pure ()
  | a :: as => do
    f a
    forEach f as

/-- The values of something for every element. -/
def forAll {α β : Type} (f : α → Action β) : List α → Action (List β)
  | [] => pure []
  | a :: as => do
    let b ← f a
    return b :: (← forAll f as)

end Action

/-! ## Messages -/

namespace State

/-- The start of a message. -/
def label (s : State) : Chars :=
  s.name ++ ": ".toList ++ Chars.ofNat s.line ++ ": ".toList ++
    match s.command with
    | some c => c ++ ": ".toList
    | none => []

end State

/-- Says something to the error output. -/
def warn (message : Chars) : Action Unit := do
  let s ← Action.state
  Routine.complain (Chars.line (s.label ++ message))

/-- Says what went wrong and interrupts what is done, with a status. -/
def failWith {α : Type} (status : Nat) (message : Chars) : Action α := do
  warn message
  Action.modify fun s ↦ { s with status }
  Action.interrupt .error

/-- Says what went wrong and interrupts what is done. -/
def fail {α : Type} (message : Chars) : Action α := failWith 2 message

end ContractBuild.Shell
