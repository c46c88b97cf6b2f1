import ContractBuild.ExitStatus
import ContractBuild.Options.ToolPaths
import ContractBuild.Tool.Invocation
import ContractBuild.Build.Session

/-!
# Tools as processes

The toolchain that lets a launcher run every tool in a process of its own.  Its state is what has
been written to the terminal: the command lines, if they are wanted, and the error output of the
tools.  What a tool prints is its answer.

A launcher starts the process of an invocation and lets it run to its end.  What it starts is left
open: a build only sees whether there was a process, how it ended, what it wrote and what became
of the files.
-/

/-! ## Launchers -/

namespace ContractBuild

/-- What a process leaves when it has ended. -/
structure EndedRun where
  /-- How it ended. -/
  status : ExitStatus
  /-- What it wrote to its output. -/
  stdout : Bytes
  /-- What it wrote to its error output. -/
  stderr : Bytes
  /-- The files after it. -/
  tree : Tree

/-- Whatever runs the process of an invocation in an environment, or gives the reason why it could
not be started. -/
abbrev Launcher := Environment → Invocation → Host → Except IoError EndedRun

/-! ## The terminal -/

/-- What has been written to the terminal.  Writing there never fails: an output that is closed or full,
at which the program would stop with status 101, is left out. -/
structure Console where
  /-- The standard output. -/
  stdout : Bytes
  /-- The error output. -/
  stderr : Bytes
  deriving DecidableEq, Repr

namespace Console

/-- Nothing has been written. -/
def empty : Console := ⟨[], []⟩

/-- Writes to the standard output. -/
def print (c : Console) (bs : Bytes) : Console := { c with stdout := c.stdout ++ bs }

/-- Writes to the error output. -/
def complain (c : Console) (bs : Bytes) : Console := { c with stderr := c.stderr ++ bs }

/-- Writes a line to the standard output. -/
def printLine (c : Console) (line : String) : Console := c.print (Bytes.ofString (line ++ "\n"))

/-- Writes a line to the error output. -/
def complainLine (c : Console) (line : String) : Console :=
  c.complain (Bytes.ofString (line ++ "\n"))

/-- Takes what was written under the names of the process's own outputs, and leaves nothing
there. -/
def collect (c : Console) (t : Tree) : Console × Tree :=
  let (out, t) := t.takeWritten 1
  let (err, t) := t.takeWritten 2
  ((c.print out).complain err, t)

end Console

namespace Execution

/-- Writes a command line, if that is wanted. -/
def note (verbose : Bool) (line : String) (c : Console) : Console :=
  if verbose then c.printLine line else c

/-- The outcome of an ended tool: what it printed, or its failure. -/
def outcomeOf (i : Invocation) (p : EndedRun) : Except BuildError String :=
  if p.status.isSuccess then .ok p.stdout.display
  else .error (.toolFailed i.toolName p.status p.stdout.display)

/-- Runs a tool in a process. -/
def reply (launch : Launcher) (verbose : Bool) (env : Environment) (i : Invocation) (c : Console)
    (h : Host) : Reply Console :=
  let (c, t) := c.collect h.tree
  let c := note verbose i.line c
  match launch env i (h.withTree t) with
  | .ok p => ⟨outcomeOf i p, c.complain p.stderr, p.tree⟩
  | .error cause => ⟨.error (.toolNotStarted i.program.display cause), c, t⟩

/-- The toolchain of processes. -/
def toolchain (launch : Launcher) (verbose : Bool) (env : Environment) : Toolchain Console where
  run := reply launch verbose env
  echo := note verbose

end Execution

end ContractBuild
