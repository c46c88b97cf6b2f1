import ContractBuild.Path.FileName

/-!
# Tool invocations

A tool invocation is a program with its arguments and, if it is not to run in the current
directory, the directory to run in.
-/

namespace ContractBuild

/-- One run of a tool, before it is made. -/
structure Invocation where
  /-- The program. -/
  program : Path
  /-- The arguments. -/
  args : List Bytes
  /-- The directory to run in. -/
  dir : Option Path
  deriving DecidableEq, Repr

namespace Invocation

/-- The invocation of a program with these arguments. -/
def ofProgram (program : Path) (args : List Bytes) : Invocation := ⟨program, args, none⟩

/-- The invocation with one more argument. -/
def arg (i : Invocation) (a : Bytes) : Invocation := { i with args := i.args ++ [a] }

/-- The invocation with more arguments. -/
def extend (i : Invocation) (as : List Bytes) : Invocation := { i with args := i.args ++ as }

/-- The invocation in another directory. -/
def inDir (i : Invocation) (dir : Path) : Invocation := { i with dir := some dir }

/-- The name of the tool: the file name of the program, or the program where it has none. -/
def toolName (i : Invocation) : String := (i.program.fileName?.getD i.program.raw).display

/-- The arguments as text. -/
def argTexts (i : Invocation) : List String := i.args.map Bytes.display

/-- The command line as text. -/
def line (i : Invocation) : String := " ".intercalate (i.program.display :: i.argTexts)

/-- What follows the first occurrence of a value. -/
def after? (a : Bytes) : List Bytes → Option Bytes
  | [] => none
  | b :: bs => if b = a then bs.head? else after? a bs

/-- The output that the tool is told to write: what follows the first `-o`. -/
def output? (i : Invocation) : Option Path := (after? (Bytes.ofString "-o") i.args).map Path.mk

end Invocation

end ContractBuild
