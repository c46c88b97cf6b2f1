import ContractBuild.Posix.Machine.Routine

/-!
# Running a machine

The processes of a machine take turns.  One goes on until it must wait, ends, or has had its share
of steps; then the next one goes on.  Where all wait, time passes until the first of them wakes up,
and where none ever will, the machine stands still.

The machine is run for one process.  It is done when that has ended and nobody can write to the
machine's first output any more; what other processes can do without time passing is still done.
-/

namespace ContractBuild

namespace Machine

/-- How many steps a process takes before it is another one's turn. -/
def share : Nat := 4000

/-- The time that a full share of steps takes. -/
def shareTime : Nat := 5

/-- How many steps all others can take together when the machine is done. -/
def aftermath : Nat := 400000

/-- Whether the machine is done with its first process. -/
def isDone (m : Machine) (main : Nat) : Bool :=
  !m.isRunning main && !m.hasOpen (.output 1)

/-- The time at which the first sleeping process wakes up. -/
def nextWaking? (m : Machine) : Option Nat :=
  (m.processes.filterMap fun q ↦ match q.wakeAt with
    | some t => if m.clock < t then some t else none
    | none => none).min?

/-- Whose turn it is, and how the turns go on. -/
structure Turns where
  /-- The threads, the next one first. -/
  threads : List (Nat × Thread)
  /-- How many steps are left of the share of the first one. -/
  left : Nat
  /-- How many threads wait, counted from the last one. -/
  waiting : Nat

/-- Goes on with the next thread; the first one waits. -/
def Turns.pass (t : Turns) : Turns :=
  match t.threads with
  | [] => t
  | first :: rest => ⟨rest ++ [first], share, t.waiting + 1⟩

/-- What a turn leaves: the machine and the turns after it, or the machine that stands still. -/
abbrev Turned := Except Machine (Machine × Turns)

/-- Lets time pass when all threads wait. -/
def turnIdle (main : Nat) (m : Machine) (t : Turns) : Turned :=
  if m.isDone main then .error m
  else match m.nextWaking? with
    | none => .error m
    | some time => .ok (m.atTime time, { t with waiting := 0 })

/-- One step of the first thread. -/
def turn (main : Nat) (m : Machine) (t : Turns) : Turned :=
  match t.threads with
  | [] => .error m
  | (p, thread) :: rest =>
    if !m.isRunning p then .ok (m, ⟨rest, share, 0⟩)
    else match thread with
      | .ended status => .ok (m.finish p status, ⟨rest, share, 0⟩)
      | .fork child next =>
        let (k, m) := m.fork p
        .ok (m, ⟨(p, next k) :: rest ++ [(k, child)], t.left - 1, 0⟩)
      | .step act =>
        match act p m with
        | some (m, thread) =>
          if t.left = 0 then
            .ok (m.atTime (m.clock + shareTime), ⟨rest ++ [(p, thread)], share, 0⟩)
          else .ok (m, ⟨(p, thread) :: rest, t.left - 1, 0⟩)
        | none =>
          if t.waiting < t.threads.length then .ok (m, t.pass) else turnIdle main m t

/-- Lets the processes take turns, so many steps at most; `late` of them may come after the
machine is done. -/
def turns (main : Nat) : Nat → Nat → Machine → Turns → Machine
  | 0, _, m, _ => m
  | n + 1, late, m, t =>
    match turn main m t with
    | .error m => m
    | .ok (m, t) =>
      if t.left = share && m.isDone main then
        if late ≤ share then m else turns main n (late - share) m t
      else turns main n late m t

/-- How many steps the processes can take together. -/
def stepLimit : Nat := 60000000

/-- Runs a machine whose first process does this, and gives the machine after it. -/
def run (m : Machine) (main : Nat) (thread : Thread) : Machine :=
  turns main stepLimit aftermath m ⟨[(main, thread)], share, 0⟩

end Machine

end ContractBuild
