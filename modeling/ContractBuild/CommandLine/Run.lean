import ContractBuild.Build.Run
import ContractBuild.CommandLine.Parser
import ContractBuild.Execution.Toolchain

/-!
# The command-line program

What the program does from its arguments to its exit code: it builds what the arguments describe
and prints how that went, or answers a question, or says what is wrong with the arguments.
-/

namespace ContractBuild.CommandLine

/-- What a build from a command line leaves. -/
structure Built where
  /-- What was made, or why nothing was. -/
  result : Except BuildError BuildOutcome
  /-- What was written to the terminal. -/
  console : Console
  /-- The host afterwards. -/
  host : Host

/-- A build that failed before it did anything. -/
def Built.failed (e : BuildError) (h : Host) : Built := ⟨.error e, .empty, h⟩

/-- Builds what the arguments describe, with the toolchain that they, the environment and the
installation give. -/
def Arguments.build (launch : Launcher) (a : Arguments) (env : Environment)
    (installBin : Option Path) (h : Host) : Built :=
  match ToolPaths.resolve a.tools env h installBin with
  | .error e => .failed e h
  | .ok tools =>
    match h.currentDir with
    | .error cause => .failed (.io .readingCurrentDirectory cause) h
    | .ok dir =>
      let o := a.toOptions tools dir
      match Session.start o Console.empty h with
      | .error e => .failed e h
      | .ok s =>
        let (result, s) :=
          (Build.run (Execution.toolchain launch o.verbose env) o a.inputs).runIn s
        let (console, tree) := s.tools.collect s.host.tree
        ⟨result, console, s.host.withTree tree⟩

/-- How the program ended. -/
structure Ended where
  /-- Its exit code. -/
  exitCode : Nat
  /-- What it wrote to the terminal. -/
  console : Console
  /-- The host afterwards. -/
  host : Host

/-- The line that tells of success. -/
def successLine : String := "Build succeeded."

/-- Ends the program after a build.  What a failed tool had printed comes before the error. -/
def Built.ended (b : Built) : Ended :=
  match b.result with
  | .ok _ => ⟨0, b.console.printLine successLine, b.host⟩
  | .error e =>
    let printed := b.console.print (Bytes.ofString (e.toolOutput?.getD ""))
    ⟨1, printed.complainLine e.message, b.host⟩

/-- Ends the program, which was called by a name, on a command line that describes no build. -/
def UsageError.ended (e : UsageError) (called : String) (h : Host) : Ended :=
  let text := e.message called
  let console :=
    if e.isAnswer then Console.empty.print (Bytes.ofString text)
    else Console.empty.complainLine text
  ⟨e.exitCode, console, h⟩

/-- The whole program, which lies at a path and gets these arguments. -/
def run (launch : Launcher) (program : Path) (env : Environment) (args : List Bytes) (h : Host) :
    Ended :=
  match parse args with
  | .ok a => (a.build launch env (ToolPaths.installBin? h program) h).ended
  | .error e => e.ended (calledName program) h

end ContractBuild.CommandLine
