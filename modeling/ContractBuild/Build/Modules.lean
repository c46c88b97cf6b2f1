import ContractBuild.Build.Session
import ContractBuild.Input.Classified

/-!
# From inputs to one module

Sources are compiled and textual IR is assembled, each input to a module of its own; bitcode is a
module as it is.  All modules are then linked in the order of their inputs, made internal and
optimized.
-/

namespace ContractBuild

namespace IrModule

/-- Puts a module among modules in ascending order of position, in front of those at its own. -/
def insert (m : IrModule) : List IrModule → List IrModule
  | [] => [m]
  | n :: ns => if m.position ≤ n.position then m :: n :: ns else n :: insert m ns

/-- Modules in ascending order of position; modules at the same position keep their order. -/
def inOrder : List IrModule → List IrModule
  | [] => []
  | m :: ms => insert m (inOrder ms)

/-- The module that an input is as it is. -/
def ofInput (f : InputFile) : IrModule := ⟨f.position, f.path⟩

end IrModule

namespace Build

variable {σ : Type} (tc : Toolchain σ) (o : BuildOptions)

/-- Reserves a file of a kind and runs the tool that writes it, in the working directory. -/
def produce (kind : ArtifactKind) (command : Path → Invocation) : Build σ Path := do
  let out ← reserve kind
  let _ ← tool tc ((command out).inDir o.workingDir)
  return out

/-- The module that a command makes of an input. -/
def moduleOf (kind : ArtifactKind) (command : BuildOptions → Path → Path → Invocation)
    (f : InputFile) : Build σ IrModule := do
  return ⟨f.position, ← produce tc o kind (command o f.path)⟩

/-- The modules that a command makes of some inputs, in their order. -/
def modulesOf (kind : ArtifactKind) (command : BuildOptions → Path → Path → Invocation) :
    List InputFile → Build σ (List IrModule)
  | [] => return []
  | f :: fs => do
    let m ← moduleOf tc o kind command f
    return m :: (← modulesOf kind command fs)

/-- Compiles the C++ inputs and then the C inputs. -/
def compileSources (inputs : ClassifiedInputs) : Build σ (List IrModule) := do
  let cxx ← modulesOf tc o .frontend Command.cxx inputs.cxx
  let c ← modulesOf tc o .frontend Command.c inputs.c
  return cxx ++ c

/-- Assembles the inputs that are textual IR. -/
def assembleIr (inputs : ClassifiedInputs) : Build σ (List IrModule) :=
  modulesOf tc o .assembler Command.assemble inputs.irText

/-- Links modules into one, in the order of their positions. -/
def linkModules (modules : List IrModule) : Build σ Path :=
  produce tc o .link (Command.linkModules o (IrModule.inOrder modules))

/-- Makes all symbols of a module internal but the entry points. -/
def internalize (p : Path) : Build σ Path := produce tc o .internalize (Command.internalize o p)

/-- Optimizes a module. -/
def optimize (p : Path) : Build σ Path := produce tc o .optimize (Command.optimize o p)

end Build

end ContractBuild
