import ContractBuild.Posix.Shell.Expansion

/-!
# Redirections

Opening files under the numbers that a command asks for.  What a number stood for before is put
aside under a high number, so that it can be put back when the command is over.
-/

namespace ContractBuild.Shell.Redirection

/-- A redirection whose words have been expanded. -/
inductive Ready
  /-- A number gets a file. -/
  | file (number : Nat) (opening : Opening) (path : Chars)
  /-- A number gets what is open under another one. -/
  | copy (number source : Nat)
  /-- A number is given up. -/
  | close (number : Nat)
  /-- A number gets a text to read. -/
  | document (number : Nat) (text : Chars)

/-- The number that a redirection is about. -/
def Ready.number : Ready → Nat
  | .file n .. | .copy n _ | .close n | .document n _ => n

/-- Expands the words of a redirection. -/
def ready (output : Expansion.OutputOf) : Redirection → Action (Option Ready)
  | ⟨n, .file opening name⟩ => return some (.file n opening (← Expansion.text output .single name))
  | ⟨n, .descriptor name⟩ => do
    match ← Expansion.text output .single name with
    | ['-'] => return some (.close n)
    | [c] =>
      if c.isDigit then return some (.copy n (c.toNat - '0'.toNat))
      else fail ("Bad fd number: ".toList ++ [c])
    | cs => fail ("Bad fd number: ".toList ++ cs)
  | ⟨n, .document id⟩ => do
    match (← Action.state).documents.find? (·.id = id) with
    | none => return some (.document n [])
    | some d =>
      if d.isExpanded then return some (.document n (← Expansion.text output .raw d.text))
      else return some (.document n (spelled d.text))

/-- Expands the words of redirections. -/
def readyAll (output : Expansion.OutputOf) (rs : List Redirection) : Action (List Ready) :=
  return (← Action.forAll (ready output) rs).filterMap id

/-- How a message says why a file cannot be opened. -/
def reason (e : IoError) (isNew : Bool) : Chars :=
  (if e = .notFound || e = .notADirectory then
    if isNew then "Directory nonexistent" else "No such file"
  else e.reason).toList

/-- Opens a file that must not take the place of another one. -/
def openCarefully (path : Path) : Routine (Except IoError Nat) := do
  match ← Routine.look fun h ↦ h.entry path with
  | .error _ => Routine.openPath path .forNew Routine.usualMode
  | .ok (_, .file _) => return .error .alreadyExists
  | .ok _ => Routine.openPath path ⟨false, true, false, false, false, false⟩ Routine.usualMode

/-- Opens the file of a redirection. -/
def openFile (opening : Opening) (path : Chars) : Action Nat := do
  let s ← Action.state
  let p := Chars.toPath path
  let usual := Routine.usualMode
  let opened ← (match opening with
    | .reading => Routine.openPath p .forReading usual
    | .both => Routine.openPath p .forBoth usual
    | .appending => Routine.openPath p .forAppending usual
    | .overwriting => Routine.openPath p .forWriting usual
    | .writing =>
      if s.has 'C' then openCarefully p else Routine.openPath p .forWriting usual : Routine _)
  match opened with
  | .ok n => return n
  | .error e =>
    let isNew := opening ≠ .reading
    fail ((if isNew then "cannot create " else "cannot open ").toList ++ path ++ ": ".toList ++
      reason e isNew)

/-- How much is written to a pipe without waiting for a reader. -/
def unitLength : Nat := 4096

/-- Opens a text for reading. -/
def openDocument (text : Chars) : Action Nat := do
  let bs := Chars.toBytes text
  let (r, w) ← (Routine.pipe : Routine _)
  if bs.length ≤ unitLength then
    let _ ← (Routine.write w bs : Routine _)
  else
    let _ ← Action.fork fun _ ↦ Routine.toThread do
      Routine.close r
      let _ ← Routine.write w bs
      return 0
  Routine.close w
  return r

/-- What a redirection opens: a number of its own, one that is copied, or none. -/
inductive Opened
  /-- A file that has just been opened. -/
  | own (n : Nat)
  /-- Something that is open already. -/
  | shared (n : Nat)
  /-- Nothing, the number is given up. -/
  | nothing
  /-- The number stands for itself. -/
  | same

/-- Opens what a redirection asks for. -/
def opened : Ready → Action Opened
  | .file _ opening path => return .own (← openFile opening path)
  | .copy n source => return if n = source then .same else .shared source
  | .close _ => return .nothing
  | .document _ text => return .own (← openDocument text)

/-- The least number under which something is put aside. -/
def leastAside : Nat := 10

/-- Puts aside what is open under a number, unless that has been done for this command. -/
def putAside (n : Nat) (isTaken : Bool) : Action Unit := do
  match (← Action.state).saved with
  | [] => pure ()
  | top :: rest =>
    if top.any (·.1 = n) then pure ()
    else
      let copy ← (if isTaken then pure none else do
        match ← Routine.duplicate n leastAside false with
        | .ok k =>
          Routine.close n
          return some k
        | .error _ => return none : Routine _)
      Action.modify fun s ↦ { s with saved := ((n, copy) :: top) :: rest }

/-- Gives a number what is open under another one. -/
def give (n source : Nat) : Action Unit := do
  match ← (Routine.assign n source true : Routine _) with
  | .ok () => pure ()
  | .error _ => fail (Chars.ofNat source ++ ": Bad file descriptor".toList)

/-- Carries out one redirection. -/
def carryOut (isTemporary : Bool) (r : Ready) : Action Unit := do
  let n := r.number
  let aside := fun (isTaken : Bool) ↦ if isTemporary then putAside n isTaken else pure ()
  match ← opened r with
  | .same => pure ()
  | .own k =>
    aside (k = n)
    if k ≠ n then
      give n k
      Routine.close k
  | .shared k =>
    aside false
    give n k
  | .nothing =>
    aside false
    Routine.close n

/-- Carries out redirections in a process that does not need its numbers any more. -/
def carryOutAll (rs : List Ready) : Action Unit := Action.forEach (carryOut false) rs

/-- Starts to put numbers aside. -/
def enter : Action Unit := Action.modify fun s ↦ { s with saved := [] :: s.saved }

/-- Puts a number back. -/
def putBack (e : Nat × Option Nat) : Action Unit := do
  match e.2 with
  | none => Routine.close e.1
  | some k =>
    let _ ← (Routine.assign e.1 k true : Routine _)
    Routine.close k

/-- Gives up what was put aside under a number. -/
def giveUp (e : Nat × Option Nat) : Action Unit := do
  match e.2 with
  | none => pure ()
  | some k => Routine.close k

/-- Puts back all numbers that were put aside last, or leaves them as they are. -/
def leave (isLasting : Bool) : Action Unit := do
  match (← Action.state).saved with
  | [] => pure ()
  | top :: rest =>
    Action.forEach (if isLasting then giveUp else putBack) top
    Action.modify fun s ↦ { s with saved := rest }

/-- Puts back all numbers that were put aside, down to so many groups of them. -/
def leaveTo (depth : Nat) : Action Unit := do
  let count := (← Action.state).saved.length - depth
  Action.forEach (fun _ ↦ leave false) (List.replicate count ())

/-- Carries out redirections for a command; the status says whether that was possible. -/
def tryAll (rs : List Ready) : Action Nat := do
  match ← Action.attempt (Action.forEach (carryOut true) rs) with
  | .ok () => return 0
  | .error .error => return 2
  | .error i => Action.interrupt i

end ContractBuild.Shell.Redirection
