import ContractBuild.Execution.Toolchain
import ContractBuild.Posix.Machine.Scheduler
import ContractBuild.Posix.Program

/-!
# Running tools on a machine

The process of an invocation runs on a machine of its own, which has the files of the host.  It
reads nothing, and what it writes is kept.

This is one launcher.  What is told of builds and of the command line holds for every launcher, so
that neither rests on this module or on those of `Posix`, the system in which scripts run as tools.
-/

namespace ContractBuild

namespace Program

/-- The directories that are searched for programs where nothing else is said. -/
def usualSearchPath : String := Chars.toString Shell.Lookup.usualSearchPath

end Program

namespace Execution

/-- What is wrong with a text that holds a zero byte, which would end it. -/
def zeroByte : IoError := .refused "nul byte found in provided data"

/-- The number of the first process. -/
def firstProcess : Nat := 4000

/-- The time that passes until a process has started. -/
def startTime : Nat := 10

/-- The machine before a process starts in a directory, which may take text as UTF-8. -/
def machine (t : Tree) (cwd : Nat) (isWide : Bool) : Machine where
  tree := { t with clock := t.clock + startTime }
  orphans := []
  files := [(0, ⟨.device .null, 0, true, false, false⟩),
    (1, ⟨.output 1, 0, false, true, false⟩), (2, ⟨.output 2, 0, false, true, false⟩)]
  pipes := []
  processes := [⟨firstProcess, 0, [0, 1, 2].map fun n ↦ ⟨n, n, true⟩, cwd, 0o22, [], [], [], none,
    none, isWide⟩]
  nextNumber := firstProcess + 1
  written := []

/-- An environment as a process gets it. -/
def entries (env : Environment) : List Chars :=
  env.map fun (name, value) ↦ Chars.ofString name ++ '=' :: Chars.ofString value

/-- The texts of an invocation. -/
def texts (i : Invocation) : List Bytes :=
  i.program.raw :: i.args ++ (i.dir.toList.map (·.raw))

/-- The identity of the directory in which a process starts. -/
def startDirectory (h : Host) : Option Path → Except IoError Nat
  | none => .ok h.cwd
  | some p => do
    match ← h.entry p with
    | (_, .directory d) =>
      if d.allows .run then .ok d.id else .error .notPermitted
    | _ => .error .notADirectory

/-- Runs the process of an invocation to its end. -/
def run : Launcher := fun env i h ↦ do
  if (texts i).any (0 ∈ ·) then throw zeroByte
  let h := { h with cwd := ← startDirectory h i.dir }
  let args := (i.program.raw :: i.args).map Chars.ofBytes
  let env := entries env
  let (program, args) ←
    Image.find (Image.start Program.named? h · args) env (Chars.ofPath i.program)
  let m := (machine h.tree h.cwd (Image.isWideIn env)).run firstProcess (program args env).toThread
  let status := ((m.process? firstProcess).bind (·.ended)).getD Machine.killSignal
  return ⟨.ofWait status, m.output 1, m.output 2, m.tree⟩

end Execution

end ContractBuild
