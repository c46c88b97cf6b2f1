import ContractBuild.Posix.Machine.Routine
import ContractBuild.Posix.Text.Chars

/-!
# System calls

The routines by which a process reads and writes what it has open, changes files, and deals with
other processes.
-/

namespace ContractBuild

namespace Routine

/-! ## The process itself -/

/-- The process as it is now. -/
def self : Routine Process := act fun p m ↦
  ((m.process? p).getD ⟨p, 0, [], Tree.root.id, 0, [], [], [], none, none, false⟩, m)

/-- Changes the process. -/
def onSelf (f : Process → Process) : Routine Unit := act fun p m ↦ ((), m.onProcess p f)

/-- The time in milliseconds. -/
def now : Routine Nat := act fun _ m ↦ (m.clock, m)

/-- Waits for so many milliseconds. -/
def sleep (duration : Nat) : Routine Unit := do
  let time ← now
  onSelf fun q ↦ { q with wakeAt := some (time + duration) }
  await fun p m ↦
    if time + duration ≤ m.clock then some ((), m.onProcess p fun q ↦ { q with wakeAt := none })
    else none

/-! ## Files -/

/-- Looks at the files. -/
def look {α : Type} (f : Host → α) : Routine α := act fun p m ↦ (f (m.hostOf p), m)

/-- Changes the files, if that is possible. -/
def change (f : Host → Except IoError Host) : Routine (Except IoError Unit) := act fun p m ↦
  match f (m.hostOf p) with
  | .ok h => (.ok (), m.withTree h.tree)
  | .error e => (.error e, m)

/-- Goes to another directory. -/
def changeDirectory (path : Path) : Routine (Except IoError Unit) := act fun p m ↦
  match (m.hostOf p).entry path with
  | .ok (_, .directory d) =>
    if d.allows .run then (.ok (), m.onProcess p fun q ↦ { q with cwd := d.id })
    else (.error .notPermitted, m)
  | .ok _ => (.error .notADirectory, m)
  | .error e => (.error e, m)

/-- Opens a path. -/
def openPath (path : Path) (o : Machine.OpenMode) (mode : Nat) : Routine (Except IoError Nat) :=
  act fun p m ↦ match m.openPath p path o mode with
    | .ok (n, m) => (.ok n, m)
    | .error e => (.error e, m)

/-- The permissions that a program asks for when it makes a file. -/
def usualMode : Nat := 0o666

/-- Gives up a number. -/
def close (n : Nat) : Routine Unit := act fun p m ↦ ((), m.close p n)

/-- Whether something is open under a number. -/
def isOpen (n : Nat) : Routine Bool := act fun p m ↦ ((m.descriptor? p n).isSome, m)

/-- Gives what is open under a number another number as well, in the place of what is there. -/
def assign (n source : Nat) (isKept : Bool) : Routine (Except IoError Unit) := act fun p m ↦
  match m.descriptor? p source with
  | some d => (.ok (), m.assign p n d.file isKept)
  | none => (.error .badDescriptor, m)

/-- Gives what is open under a number the least free number from `least` on as well. -/
def duplicate (source least : Nat) (isKept : Bool) : Routine (Except IoError Nat) :=
  act fun p m ↦ match m.process? p, m.descriptor? p source with
    | some q, some d =>
      let n := Machine.freeNumber q least
      (.ok n, m.assign p n d.file isKept)
    | _, _ => (.error .badDescriptor, m)

/-- Makes a pipe: the number that it is read by, and the one that it is written by. -/
def pipe : Routine (Nat × Nat) := act fun p m ↦ m.makePipe p

/-! ## Reading and writing -/

/-- How much is read at a time. -/
def block : Nat := 65536

/-- Reads some bytes, none only at the end. -/
def read (n : Nat) : Routine (Except IoError Bytes) := await fun p m ↦ m.read p n block

/-- Reads so many bytes at most, none only at the end. -/
def readAtMost (n count : Nat) : Routine (Except IoError Bytes) := await fun p m ↦
  m.read p n count

/-- Reads up to the next byte of a kind, or to the end. -/
def readUpTo (n : Nat) (last : UInt8) : Routine (Except IoError Bytes) := await fun p m ↦
  m.readUpTo p n last

/-- Reads all that comes. -/
def readAll (n : Nat) : Routine (Except IoError Bytes) :=
  loop ([] : List Bytes) fun parts ↦ do
    match ← read n with
    | .error e => return .inr (.error e)
    | .ok [] => return .inr (.ok parts.reverse.flatten)
    | .ok bs => return .inl (bs :: parts)

/-- Writes all bytes.  A process that does not care about it ends when nobody reads them. -/
def write (n : Nat) (bs : Bytes) : Routine (Except IoError Unit) :=
  if bs = [] then pure (.ok ())
  else loop bs fun bs ↦ do
    let written ← await fun p m ↦ match m.write p n bs with
      | some (.unread, m) => some (.unread, m.signal p Machine.pipeSignal)
      | some (w, m) => some (w, m)
      | none => none
    match written with
    | .unread => return .inr (.error .brokenPipe)
    | .error e => return .inr (.error e)
    | .count k =>
      let left := bs.drop k
      return if left = [] then .inr (.ok ()) else .inl left

/-- Writes characters. -/
def print (n : Nat) (cs : Chars) : Routine (Except IoError Unit) := write n (Chars.toBytes cs)

/-- Writes characters to the error output, whatever becomes of it. -/
def complain (cs : Chars) : Routine Unit := do let _ ← print 2 cs

/-- The whole content of the file at a path. -/
def readPath (path : Path) : Routine (Except IoError Bytes) := do
  match ← openPath path .forReading 0 with
  | .error e => return .error e
  | .ok n =>
    let content ← readAll n
    close n
    return content

/-! ## Other processes -/

/-- Sends a signal, if the process with this number is known. -/
def signal (target number : Nat) : Routine (Except IoError Unit) := act fun _ m ↦
  match m.process? target with
  | some _ => (.ok (), m.signal target number)
  | none => (.error .noProcess, m)

/-- The numbers of the signals that have come and are to be handled now. -/
def takePending : Routine (List Nat) := act fun p m ↦
  match ((m.process? p).map (·.pending)).getD [] with
  | [] => ([], m)
  | numbers => (numbers, m.onProcess p fun q ↦ { q with pending := [] })

/-- Why waiting for a child came to an end. -/
inductive Waited
  /-- A child ended with this wait status. -/
  | ended (child status : Nat)
  /-- There is no such child. -/
  | noChild
  /-- A signal is to be handled. -/
  | interrupted
  /-- The time is over. -/
  | late

/-- Waits until a child of a kind has ended; a signal interrupts that on demand. -/
def wait (isAwaited : Nat → Bool) (isInterruptible : Bool) : Routine Waited := await fun p m ↦
  match m.reap p isAwaited with
  | some ((child, status), m) => some (.ended child status, m)
  | none =>
    if isInterruptible && (((m.process? p).map (·.pending)).getD []) ≠ [] then
      some (.interrupted, m)
    else if m.hasChild p isAwaited then none
    else some (.noChild, m)

/-- Waits until a child has ended, but no longer than to a time. -/
def waitUntil (child time : Nat) : Routine Waited := do
  onSelf fun q ↦ { q with wakeAt := some time }
  await fun p m ↦ match m.reap p (· = child) with
    | some ((child, status), m) =>
      some (.ended child status, m.onProcess p fun q ↦ { q with wakeAt := none })
    | none =>
      if time ≤ m.clock then some (.late, m.onProcess p fun q ↦ { q with wakeAt := none })
      else none

/-- The children that have ended, each with its status; they are forgotten then. -/
def reapNow (isAwaited : Nat → Bool) : Routine (Option (Nat × Nat)) := act fun p m ↦
  match m.reap p isAwaited with
  | some (e, m) => (some e, m)
  | none => (none, m)

end Routine

end ContractBuild
