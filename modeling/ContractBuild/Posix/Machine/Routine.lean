import ContractBuild.Posix.Machine.Basic

/-!
# Routines

What a process does is a thread: a step on the machine that may have to wait, the start of another
process, or the end.  A routine is a part of a thread that gives a value; what follows it decides
what is done with the value, so routines are composed like any effects, and the laws of that hold
by definition.
-/

namespace ContractBuild

/-- What a process does from a moment on. -/
inductive Thread
  /-- It ends with a wait status. -/
  | ended (status : Nat)
  /-- It acts on the machine under its number and goes on, or waits if it gets nothing. -/
  | step (act : Nat → Machine → Option (Machine × Thread))
  /-- It starts a process and goes on with that one's number. -/
  | fork (child : Thread) (next : Nat → Thread)

/-- A part of a thread that gives a value to what follows. -/
def Routine (α : Type) : Type := (α → Thread) → Thread

namespace Routine

instance : Monad Routine where
  pure a := fun next ↦ next a
  bind r f := fun next ↦ r fun a ↦ f a next

/-- The thread that does a routine and then ends with the code that it gives. -/
def toThread (r : Routine Nat) : Thread := r fun code ↦ .ended (Machine.exitStatus code)

/-- Acts on the machine as soon as that can be done. -/
def await {α : Type} (act : Nat → Machine → Option (α × Machine)) : Routine α := fun next ↦
  .step fun p m ↦ match act p m with
    | some (a, m) => some (m, next a)
    | none => none

/-- Acts on the machine at once. -/
def act {α : Type} (f : Nat → Machine → α × Machine) : Routine α :=
  await fun p m ↦ some (f p m)

/-- Ends the process with a code. -/
def exit {α : Type} (code : Nat) : Routine α := fun _ ↦ .ended (Machine.exitStatus code)

/-- Starts a process that does a routine; its number is the value. -/
def fork (child : Routine Nat) : Routine Nat := fun next ↦ .fork child.toThread next

/-- Lets other processes go on. -/
def rest : Routine Unit := act fun _ m ↦ ((), m)

/-- How many turns a loop can take. -/
def turnLimit : Nat := 1000000000000

/-- Takes turns as long as a turn gives another state, so many times at most. -/
def repeatFor {σ α : Type} (turn : σ → Routine (σ ⊕ α)) : Nat → σ → Routine α
  | 0, _ => fun _ ↦ .ended Machine.killSignal
  | n + 1, s => do
    match ← turn s with
    | .inl s => repeatFor turn n s
    | .inr a => pure a

/-- Takes turns as long as a turn gives another state. -/
def loop {σ α : Type} (s : σ) (turn : σ → Routine (σ ⊕ α)) : Routine α :=
  repeatFor turn turnLimit s

/-- Does something for every element. -/
def forEach {α : Type} (f : α → Routine Unit) : List α → Routine Unit
  | [] => pure ()
  | a :: as => do
    f a
    forEach f as

end Routine

end ContractBuild
