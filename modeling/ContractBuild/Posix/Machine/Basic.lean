import ContractBuild.FileSystem.Host

/-!
# Machines

A machine runs processes on one file tree.  A process has open files, each under a number of its
own; two numbers, also of two processes, can stand for the same open file, and then share the
place up to which it has been read.  A file that has lost its last name lives on as long as it is
open.

This module says what the system does for one process at one moment; what a process wants next is
no part of the machine.
-/

namespace ContractBuild

/-- What an open file gives access to. -/
inductive Channel
  /-- The regular file of this identity. -/
  | file (id : Nat)
  /-- The directory of this identity. -/
  | directory (id : Nat)
  /-- A device. -/
  | device (d : Device)
  /-- The end of a pipe that is read. -/
  | reader (pipe : Nat)
  /-- The end of a pipe that is written. -/
  | writer (pipe : Nat)
  /-- An output of the machine. -/
  | output (number : Nat)
  deriving DecidableEq, Repr

/-- An open file. -/
structure OpenFile where
  /-- What it gives access to. -/
  channel : Channel
  /-- The place of the next byte. -/
  position : Nat
  /-- Whether it may be read. -/
  readable : Bool
  /-- Whether it may be written. -/
  writable : Bool
  /-- Whether all is written to the end. -/
  appends : Bool

/-- What a process calls an open file. -/
structure Descriptor where
  /-- The number that the process uses. -/
  number : Nat
  /-- The number of the open file in the machine. -/
  file : Nat
  /-- Whether it stays open when another program takes over the process. -/
  isKept : Bool

/-- A process. -/
structure Process where
  /-- Its number. -/
  id : Nat
  /-- The number of the process that started it. -/
  parent : Nat
  /-- What it has open. -/
  descriptors : List Descriptor
  /-- The identity of its current directory. -/
  cwd : Nat
  /-- The permissions that its new files do not get. -/
  mask : Nat
  /-- The signals that it ignores. -/
  ignored : List Nat
  /-- The signals that it handles. -/
  caught : List Nat
  /-- The signals that it has still to handle. -/
  pending : List Nat
  /-- The time until which it sleeps. -/
  wakeAt : Option Nat
  /-- The wait status with which it ended. -/
  ended : Option Nat
  /-- Whether it takes text as UTF-8. -/
  isWide : Bool

/-- A machine. -/
structure Machine where
  /-- The files. -/
  tree : Tree
  /-- The open files without a name. -/
  orphans : List File
  /-- The open files, each with its number. -/
  files : List (Nat × OpenFile)
  /-- What has been written to pipes and not been read. -/
  pipes : List (Nat × Bytes)
  /-- The processes that have not been waited for. -/
  processes : List Process
  /-- The next number for a process, an open file or a pipe. -/
  nextNumber : Nat
  /-- What was written to outputs, each piece with the output's number and the latest first. -/
  written : List (Nat × Bytes)

namespace Machine

/-! ## Time -/

/-- The time, in milliseconds. -/
def clock (m : Machine) : Nat := m.tree.clock

/-- The machine at another time. -/
def atTime (m : Machine) (time : Nat) : Machine := { m with tree := { m.tree with clock := time } }

/-! ## Processes -/

/-- The process with a number. -/
def process? (m : Machine) (p : Nat) : Option Process := m.processes.find? (·.id = p)

/-- The machine with `f` applied to a process. -/
def onProcess (m : Machine) (p : Nat) (f : Process → Process) : Machine :=
  { m with processes := m.processes.map fun q ↦ if q.id = p then f q else q }

/-- Whether a process runs. -/
def isRunning (m : Machine) (p : Nat) : Bool :=
  match m.process? p with
  | some q => q.ended.isNone
  | none => false

/-- The files as a process sees them. -/
def hostOf (m : Machine) (p : Nat) : Host where
  tree := m.tree
  cwd := ((m.process? p).map (·.cwd)).getD Tree.root.id
  tempDir := ⟨[]⟩

/-! ## Open files -/

/-- What a process has open under a number. -/
def descriptor? (m : Machine) (p n : Nat) : Option Descriptor :=
  (m.process? p).bind fun q ↦ q.descriptors.find? (·.number = n)

/-- The open file that a process has under a number, with its number in the machine. -/
def openFile? (m : Machine) (p n : Nat) : Option (Nat × OpenFile) :=
  (m.descriptor? p n).bind fun d ↦ (m.files.lookup d.file).map (d.file, ·)

/-- The machine with `f` applied to an open file. -/
def onOpenFile (m : Machine) (k : Nat) (f : OpenFile → OpenFile) : Machine :=
  { m with files := m.files.map fun e ↦ if e.1 = k then (k, f e.2) else e }

/-- Whether a process that runs has this open file. -/
def isHeld (m : Machine) (k : Nat) : Bool :=
  m.processes.any fun q ↦ q.descriptors.any (·.file = k)

/-- Whether a process that runs has this channel open. -/
def hasOpen (m : Machine) (c : Channel) : Bool :=
  m.files.any fun e ↦ e.2.channel = c && m.isHeld e.1

/-- Forgets the open files that no process has. -/
def forget (m : Machine) : Machine :=
  { m with files := m.files.filter fun e ↦ m.isHeld e.1 }

/-- The least number from `least` on that a process does not use. -/
def freeNumber (q : Process) (least : Nat) : Nat :=
  let used := q.descriptors.map (·.number)
  ((List.range (used.length + 1)).map (· + least)).find? (!used.contains ·) |>.getD least

/-- Gives a process an open file under a number, in the place of what it had there. -/
def assign (m : Machine) (p n k : Nat) (isKept : Bool) : Machine :=
  let m := m.onProcess p fun q ↦
    { q with descriptors := ⟨n, k, isKept⟩ :: q.descriptors.filter (·.number ≠ n) }
  m.forget

/-- Opens a file for a process, under the least free number. -/
def openAs (m : Machine) (p : Nat) (o : OpenFile) : Nat × Machine :=
  match m.process? p with
  | none => (0, m)
  | some q =>
    let n := freeNumber q 0
    let k := m.nextNumber
    let m := { m with files := (k, o) :: m.files, nextNumber := k + 1 }
    (n, m.assign p n k true)

/-- Gives up a number of a process. -/
def close (m : Machine) (p n : Nat) : Machine :=
  let m := m.onProcess p fun q ↦
    { q with descriptors := q.descriptors.filter (·.number ≠ n) }
  m.forget

/-! ## Files by their identity -/

/-- The file with an identity, if it has a name. -/
def named? (t : Tree) (id : Nat) : Option File :=
  t.entries.findSome? fun e ↦ match e.2 with
    | .file f => if f.id = id then some f else none
    | _ => none

/-- The file with an identity. -/
def file? (m : Machine) (id : Nat) : Option File :=
  match m.orphans.find? (·.id = id) with
  | some f => some f
  | none => named? m.tree id

/-- The machine with `f` applied to the file of an identity. -/
def onFile (m : Machine) (id : Nat) (f : File → File) : Machine :=
  { m with
    tree := m.tree.onFile id f
    orphans := m.orphans.map fun a ↦ if a.id = id then f a else a }

/-- The machine with another tree; open files that have lost their last name are kept. -/
def withTree (m : Machine) (t : Tree) : Machine :=
  let lost := m.files.filterMap fun e ↦ match e.2.channel with
    | .file id =>
      if (named? t id).isNone && !(m.orphans.any (·.id = id)) then named? m.tree id else none
    | _ => none
  { m with tree := t, orphans := lost ++ m.orphans }

/-! ## Opening paths -/

/-- How a path is opened. -/
structure OpenMode where
  /-- It is to be read. -/
  reads : Bool
  /-- It is to be written. -/
  writes : Bool
  /-- A free name gets a new file. -/
  creates : Bool
  /-- What is there is emptied. -/
  empties : Bool
  /-- All is written to the end. -/
  appends : Bool
  /-- Nothing may be there. -/
  isNew : Bool

/-- Reading. -/
def OpenMode.forReading : OpenMode := ⟨true, false, false, false, false, false⟩

/-- Writing in the place of what is there. -/
def OpenMode.forWriting : OpenMode := ⟨false, true, true, true, false, false⟩

/-- Writing behind what is there. -/
def OpenMode.forAppending : OpenMode := ⟨false, true, true, false, true, false⟩

/-- Reading and writing what is there. -/
def OpenMode.forBoth : OpenMode := ⟨true, true, true, false, false, false⟩

/-- Writing a new file. -/
def OpenMode.forNew : OpenMode := ⟨false, true, true, false, false, true⟩

/-- The open file on a channel in a mode. -/
def OpenMode.on (o : OpenMode) (c : Channel) : OpenFile := ⟨c, 0, o.reads, o.writes, o.appends⟩

/-- The permissions without those of a mask. -/
def unmasked (mode mask : Nat) : Nat := mode - (mode &&& mask)

/-- The directory in which a process finds what it has open. -/
def descriptorDirectory : Location :=
  ["proc", "self", "fd"].map Bytes.ofString

/-- The number that the name of an entry spells. -/
def numberOf? (l : Location) : Option Nat :=
  match l.getLast? with
  | some name =>
    if l.dropLast = descriptorDirectory && name ≠ [] && name.all fun b ↦ 0x30 ≤ b && b ≤ 0x39 then
      some (name.foldl (fun n b ↦ n * 10 + (b.toNat - 0x30)) 0)
    else none
  | none => none

/-- Opens again what a process has open under a number. -/
def reopen (m : Machine) (p n : Nat) (o : OpenMode) : Except IoError (Nat × Machine) :=
  match m.openFile? p n with
  | none => .error .notFound
  | some (_, f) =>
    let m := match f.channel with
      | .file id => if o.empties then m.onFile id (·.withContent [] m.tree.now) else m
      | _ => m
    .ok (m.openAs p (o.on f.channel))

/-- Opens a path for a process; a new file gets the permissions that are not masked. -/
def openPath (m : Machine) (p : Nat) (path : Path) (o : OpenMode) (mode : Nat) :
    Except IoError (Nat × Machine) := do
  let h := m.hostOf p
  match ← h.tree.locate h.here? ⟨!o.isNew, o.creates⟩ path with
  | .vacant l =>
    match numberOf? l with
    | some n => m.reopen p n o
    | none =>
      if !o.creates then .error .notFound
      else if !m.tree.allows l.dropLast .write then .error .notPermitted
      else
        let mask := ((m.process? p).map (·.mask)).getD 0
        let id := m.tree.nextId
        let m := { m with
          tree := (m.tree.addFile l [] (unmasked mode mask)).noteChange l.dropLast }
        .ok (m.openAs p (o.on (.file id)))
  | .entry _ n =>
    let isBlocked := (o.reads && !n.allows .read) || (o.writes && !n.allows .write)
    if o.isNew then .error .alreadyExists
    else match n with
      | .directory d =>
        if o.writes || o.creates then .error .isADirectory
        else if isBlocked then .error .notPermitted
        else .ok (m.openAs p (o.on (.directory d.id)))
      | .device .terminal => .error .noDevice
      | .device d => .ok (m.openAs p (o.on (.device d)))
      | .link _ => .error .tooManyLinks
      | .descriptor n _ => m.reopen p n o
      | .file f =>
        if isBlocked then .error .notPermitted
        else
          let m := if o.empties then m.onFile f.id (·.withContent [] m.tree.now) else m
          .ok (m.openAs p (o.on (.file f.id)))

/-! ## Pipes -/

/-- How much a pipe holds. -/
def pipeLimit : Nat := 65536

/-- How much is written to a pipe in one piece or not at all. -/
def pipeUnit : Nat := 4096

/-- What a pipe holds. -/
def held (m : Machine) (pipe : Nat) : Bytes := (m.pipes.lookup pipe).getD []

/-- The machine with other content in a pipe. -/
def withHeld (m : Machine) (pipe : Nat) (bs : Bytes) : Machine :=
  { m with pipes := (pipe, bs) :: m.pipes.filter (·.1 ≠ pipe) }

/-- Makes a pipe for a process: the number that it is read by and the one that it is written by. -/
def makePipe (m : Machine) (p : Nat) : (Nat × Nat) × Machine :=
  let k := m.nextNumber
  let m := { m with nextNumber := k + 1, pipes := (k, []) :: m.pipes }
  let (r, m) := m.openAs p ⟨.reader k, 0, true, false, false⟩
  let (w, m) := m.openAs p ⟨.writer k, 0, false, true, false⟩
  ((r, w), m)

/-! ## Reading -/

/-- Bytes of no meaning, from a place on. -/
def noise (position count : Nat) : Bytes :=
  (List.range count).map fun k ↦
    (((position + k) * 2654435761 + 40503) / 8192 + (position + k) * 7919).toUInt8

/-- What an open file gives at most; `none` as long as a pipe is empty and can still be
written. -/
def available (m : Machine) (o : OpenFile) (count : Nat) : Option (Except IoError Bytes) :=
  if !o.readable then some (.error .badDescriptor)
  else match o.channel with
    | .file id => some (.ok (((m.file? id).map (·.content)).getD [] |>.drop o.position))
    | .directory _ => some (.error .isADirectory)
    | .device .zero | .device .full => some (.ok (List.replicate count 0))
    | .device .random => some (.ok (noise o.position count))
    | .device _ => some (.ok [])
    | .reader k =>
      let bs := m.held k
      if bs = [] && m.hasOpen (.writer k) then none else some (.ok bs)
    | .writer _ | .output _ => some (.error .badDescriptor)

/-- Takes so many bytes, which are available, from an open file. -/
def take (m : Machine) (k : Nat) (o : OpenFile) (count : Nat) : Machine :=
  match o.channel with
  | .reader pipe => m.withHeld pipe ((m.held pipe).drop count)
  | _ => m.onOpenFile k fun o ↦ { o with position := o.position + count }

/-- Reads some bytes for a process, none only at the end. -/
def read (m : Machine) (p n count : Nat) : Option (Except IoError Bytes × Machine) :=
  match m.openFile? p n with
  | none => some (.error .badDescriptor, m)
  | some (k, o) =>
    match m.available o count with
    | none => none
    | some (.error e) => some (.error e, m)
    | some (.ok bs) =>
      let bs := bs.take count
      some (.ok bs, m.take k o bs.length)

/-- The bytes up to the first of a kind, that one included, if there is one. -/
def upTo? (end' : UInt8) (bs : Bytes) : Option Bytes :=
  match bs.span (· ≠ end') with
  | (line, b :: _) => some (line ++ [b])
  | (_, []) => none

/-- Reads up to the next byte of a kind for a process, or to the end if there is none. -/
def readUpTo (m : Machine) (p n : Nat) (end' : UInt8) :
    Option (Except IoError Bytes × Machine) :=
  match m.openFile? p n with
  | none => some (.error .badDescriptor, m)
  | some (k, o) =>
    match m.available o pipeUnit with
    | none => none
    | some (.error e) => some (.error e, m)
    | some (.ok bs) =>
      match upTo? end' bs, o.channel with
      | some line, _ => some (.ok line, m.take k o line.length)
      | none, .reader pipe =>
        if m.hasOpen (.writer pipe) && bs.length < pipeLimit then none
        else some (.ok bs, m.take k o bs.length)
      | none, _ => some (.ok bs, m.take k o bs.length)

/-! ## Writing -/

/-- Content with bytes written over it from a place on. -/
def overwritten (content : Bytes) (position : Nat) (bs : Bytes) : Bytes :=
  if content.length ≤ position then
    content ++ (List.replicate (position - content.length) 0 ++ bs)
  else content.take position ++ bs ++ content.drop (position + bs.length)

/-- Writes to a file and moves on behind what was written. -/
def writeFile (m : Machine) (k id : Nat) (o : OpenFile) (bs : Bytes) : Machine :=
  let size := ((m.file? id).map (·.content.length)).getD 0
  let start := if o.appends then size else o.position
  let m := m.onFile id fun f ↦ f.withContent (overwritten f.content start bs) m.tree.now
  m.onOpenFile k fun o ↦ { o with position := start + bs.length }

/-- What became of an attempt to write. -/
inductive Written
  /-- So many bytes were written. -/
  | count (n : Nat)
  /-- Nothing can be written any more. -/
  | error (e : IoError)
  /-- Nobody reads the pipe. -/
  | unread

/-- Writes some bytes for a process; `none` as long as a pipe has no room. -/
def write (m : Machine) (p n : Nat) (bs : Bytes) : Option (Written × Machine) :=
  match m.openFile? p n with
  | none => some (.error .badDescriptor, m)
  | some (k, o) =>
    if !o.writable then some (.error .badDescriptor, m)
    else match o.channel with
      | .file id => some (.count bs.length, m.writeFile k id o bs)
      | .output number =>
        some (.count bs.length, { m with written := (number, bs) :: m.written })
      | .device .full =>
        if bs = [] then some (.count 0, m) else some (.error .noSpace, m)
      | .device _ => some (.count bs.length, m)
      | .writer pipe =>
        if !m.hasOpen (.reader pipe) then some (.unread, m)
        else
          let held := m.held pipe
          let room := pipeLimit - held.length
          if bs.length ≤ room || (pipeUnit < bs.length && 0 < room) then
            let now := bs.take room
            some (.count now.length, m.withHeld pipe (held ++ now))
          else none
      | _ => some (.error .badDescriptor, m)

/-- What was written to an output. -/
def output (m : Machine) (number : Nat) : Bytes :=
  (m.written.reverse.filter (·.1 = number)).flatMap (·.2)

/-! ## The life of processes -/

/-- Starts a process that has all that another one has. -/
def fork (m : Machine) (p : Nat) : Nat × Machine :=
  match m.process? p with
  | none => (0, m)
  | some q =>
    let k := m.nextNumber
    let child := { q with id := k, parent := p, pending := [], wakeAt := none }
    (k, { m with processes := child :: m.processes, nextNumber := k + 1 })

/-- Ends a process with a wait status.  It stays known until its parent waits for it. -/
def finish (m : Machine) (p status : Nat) : Machine :=
  match m.process? p with
  | none => m
  | some q =>
    let m := m.onProcess p fun q ↦
      { q with ended := some (q.ended.getD status), descriptors := [], wakeAt := none }
    let isAwaited := fun (r : Process) ↦
      r.ended.isNone || (if r.id = p then q.parent = 0 || m.isRunning q.parent
        else r.parent ≠ p)
    { m with processes := m.processes.filter isAwaited }.forget

/-- The wait status of a process that ended with this code. -/
def exitStatus (code : Nat) : Nat := code % 256 * 256

/-- The signal of a pipe that nobody reads. -/
def pipeSignal : Nat := 13

/-- The signals that do nothing to a process that does not ask for them. -/
def harmlessSignals : List Nat := [17, 18, 19, 20, 21, 22, 23, 28]

/-- The signal that no process can handle or ignore. -/
def killSignal : Nat := 9

/-- Sends a signal to a process. -/
def signal (m : Machine) (p number : Nat) : Machine :=
  match m.process? p with
  | none => m
  | some q =>
    if number = 0 || q.ended.isSome then m
    else if number = killSignal then m.finish p number
    else if q.ignored.contains number then m
    else if q.caught.contains number then
      m.onProcess p fun q ↦
        { q with pending := q.pending.filter (· ≠ number) ++ [number] }
    else if harmlessSignals.contains number then m
    else m.finish p number

/-- The ended child of a process for which it waits, with its status; it is forgotten then. -/
def reap (m : Machine) (p : Nat) (isAwaited : Nat → Bool) : Option ((Nat × Nat) × Machine) :=
  match m.processes.reverse.find? fun q ↦ q.parent = p && isAwaited q.id && q.ended.isSome with
  | some q =>
    some ((q.id, q.ended.getD 0), { m with processes := m.processes.filter (·.id ≠ q.id) })
  | none => none

/-- Whether a process has a child for which it can wait. -/
def hasChild (m : Machine) (p : Nat) (isAwaited : Nat → Bool) : Bool :=
  m.processes.any fun q ↦ q.parent = p && isAwaited q.id

/-- Leaves a process to another program, which may take text as UTF-8: what is not kept is closed,
and no signal is handled. -/
def renew (m : Machine) (p : Nat) (isWide : Bool) : Machine :=
  let m := m.onProcess p fun q ↦
    { q with
      descriptors := q.descriptors.filter (·.isKept)
      caught := []
      pending := []
      isWide }
  m.forget

end Machine

end ContractBuild
