import ContractBuild.Options.BuildOptions
import ContractBuild.Build.Modules

/-!
# Assembly

The optimized module is lowered to TVM assembly, and the assembly inputs are appended to it as
they are.  A build that ends with the assembly copies it to its destination, unless it is there
already.  The output of a build is a file if one is given, and else the working directory takes
whatever the linker produces.
-/

/-! ## Where results go -/

namespace ContractBuild

/-- Where the results of the final link go. -/
inductive OutputTarget
  /-- To this file. -/
  | file (p : Path)
  /-- Into this directory. -/
  | directory (p : Path)
  deriving DecidableEq, Repr

namespace OutputTarget

/-- The target of an output as given, seen from the working directory. -/
def resolve (output : Option Path) (workingDir : Path) : OutputTarget :=
  match output with
  | none => .directory workingDir
  | some p => .file (workingDir.join p)

/-- The destination of a file that the linker produced.  The file that it was told to write goes
to the target itself, every other one beside it. -/
def destination (t : OutputTarget) (name : Name) (linked : Option Name) : Path :=
  match t with
  | .directory p => p.join (.ofName name)
  | .file p => if linked = some name then p else (p.parent?.getD .here).join (.ofName name)

end OutputTarget

namespace BuildOptions

/-- Where the assembly goes if the build ends with it: to the output, or beside the interface
description with extension `s`. -/
def assemblyOutput (o : BuildOptions) : Path :=
  match o.output with
  | some p => p
  | none => o.abi.withExtension (Bytes.ofString "s")

end BuildOptions

/-- The file beside a contract that takes its code. -/
def sidecar (contract : Path) : Path := ⟨contract.raw ++ Bytes.ofString ".code"⟩

/-! ## Making the assembly -/

namespace Build

variable {σ : Type} (tc : Toolchain σ) (o : BuildOptions)

/-- Lowers a module to assembly. -/
def generate (p : Path) : Build σ Path := produce tc o .codegen (Command.generate o p)

/-- Appends inputs to the assembly, which lies at a location, one after the other. -/
def appendInputs (asm : Path) (l : Location) : List InputFile → Build σ Unit
  | [] => return
  | f :: fs => do
    let p := o.absolute f.path
    let content ← value (.reading p) ((← host).read p)
    change (.appending asm) ((← host).append l content)
    appendInputs asm l fs

/-- Appends the assembly inputs to the generated assembly. -/
def mergeAssembly (asm : Path) (inputs : ClassifiedInputs) : Build σ Unit := do
  match inputs.assembly with
  | [] => return
  | files =>
    let names := " ".intercalate (files.map (·.path.display))
    echo tc s!"cat {names} >>{asm.display}"
    let l ← value (.opening asm) ((← host).appendTarget asm)
    appendInputs o asm l files

/-- Notes and makes a copy. -/
def copy (source : Path) (shown : String) (dest : Path) : Build σ Unit := do
  echo tc s!"cp {shown} {dest.display}"
  settle (.copyingTo dest) ((← host).copy source dest)

/-- Puts the assembly to its destination. -/
def emitAssembly (asm : Path) : Build σ Path := do
  let dest := o.absolute o.assemblyOutput
  if (← host).sameEntry asm dest then
    return dest
  copy tc asm asm.display dest
  return dest

end Build

end ContractBuild
