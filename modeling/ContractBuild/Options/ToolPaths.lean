import ContractBuild.BuildError
import ContractBuild.FileSystem.Host

/-!
# The places of the toolchain

Each part of the toolchain is looked for in three places: the option of the command line, the
environment variable if it is not empty, and the default beside an installed program if that
exists.  The first of them wins, and a part that is in none is an error.
-/

namespace ContractBuild

/-- The variables of an environment with their values. -/
abbrev Environment := List (String × String)

/-- The places that the command line gives. -/
structure ToolOverrides where
  /-- The directory of the LLVM tools. -/
  llvmBin : Option Path
  /-- The linker. -/
  linker : Option Path
  /-- The directory of the standard library. -/
  stdlib : Option Path
  /-- The directory of the standard headers. -/
  includeDir : Option Path
  deriving DecidableEq, Repr

/-- Where the toolchain is. -/
structure ToolPaths where
  /-- The directory of the LLVM tools. -/
  llvmBin : Path
  /-- The linker. -/
  linker : Path
  /-- The directory of the standard library. -/
  stdlib : Path
  /-- The directory of the standard headers. -/
  includeDir : Path
  /-- The root that the C++ compiler searches for its headers. -/
  sysroot : Path
  deriving DecidableEq, Repr

/-- A part of the toolchain that has to be found. -/
inductive ToolPart
  /-- The directory of the LLVM tools. -/
  | llvmBin
  /-- The linker. -/
  | linker
  /-- The directory of the standard library. -/
  | stdlib
  /-- The directory of the standard headers. -/
  | includeDir
  deriving DecidableEq, Repr

namespace ToolPart

/-- The command-line option for a part. -/
def option : ToolPart → String
  | .llvmBin => "--llvm-bin"
  | .linker => "--linker"
  | .stdlib => "--stdlib"
  | .includeDir => "--include"

/-- The environment variable for a part. -/
def variableName : ToolPart → String
  | .llvmBin => "TVM_LLVM_BINARY_DIR"
  | .linker => "TVM_LINKER"
  | .stdlib => "TVM_LIBRARY_PATH"
  | .includeDir => "TVM_INCLUDE_PATH"

/-- The place of a part in an installation, seen from the directory of its programs. -/
def installed (bin : Path) : ToolPart → Path
  | .llvmBin => bin
  | .linker => bin.join (.ofString "tvm_linker")
  | .stdlib => bin.join (.ofString "../lib")
  | .includeDir => bin.join (.ofString "../include")

end ToolPart

/-- The place that the command line gives for a part. -/
def ToolOverrides.get (o : ToolOverrides) : ToolPart → Option Path
  | .llvmBin => o.llvmBin
  | .linker => o.linker
  | .stdlib => o.stdlib
  | .includeDir => o.includeDir

namespace ToolPaths

/-- The file name of the standard library. -/
def stdlibName : String := "stdlib_cpp.tvm"

/-- The path of an LLVM tool. -/
def llvmTool (t : ToolPaths) (name : String) : Path := t.llvmBin.join (.ofString name)

/-- The path of the standard library. -/
def stdlibArtifact (t : ToolPaths) : Path := t.stdlib.join (.ofString stdlibName)

/-! ## Resolution -/

/-- The value of a variable, unless it is empty or not set. -/
def nonEmptyVariable? (env : Environment) (name : String) : Option String :=
  match env.lookup name with
  | some "" => none
  | value => value

/-- The default of a part, if there is an installation and it holds the part. -/
def installed? (h : Host) (installBin : Option Path) (part : ToolPart) : Option Path :=
  match installBin.map (part.installed ·) with
  | some p => if h.pathExists p then some p else none
  | none => none

/-- The place of a part by precedence: option, variable, default. -/
def find? (o : ToolOverrides) (env : Environment) (h : Host) (installBin : Option Path)
    (part : ToolPart) : Option Path :=
  match o.get part with
  | some p => some p
  | none =>
    match nonEmptyVariable? env part.variableName with
    | some value => some (.ofString value)
    | none => installed? h installBin part

/-- The place of a part, or the error that names what to set. -/
def findPart (o : ToolOverrides) (env : Environment) (h : Host) (installBin : Option Path)
    (part : ToolPart) : Except BuildError Path :=
  match find? o env h installBin part with
  | some p => .ok p
  | none => .error (.unresolvedTool part.option part.variableName)

/-- The places of the whole toolchain.  The first part that cannot be found is the error. -/
def resolve (o : ToolOverrides) (env : Environment) (h : Host) (installBin : Option Path) :
    Except BuildError ToolPaths := do
  let llvmBin ← findPart o env h installBin .llvmBin
  let linker ← findPart o env h installBin .linker
  let stdlib ← findPart o env h installBin .stdlib
  let includeDir ← findPart o env h installBin .includeDir
  let sysroot := (installBin.getD llvmBin).join (.ofString "..")
  return { llvmBin, linker, stdlib, includeDir, sysroot }

/-- The directory of a program, if the LLVM tools are installed beside it. -/
def installBin? (h : Host) (program : Path) : Option Path :=
  match h.canonical? program with
  | none => none
  | some l =>
    match l with
    | [] => none
    | _ :: _ =>
      let bin := Path.ofLocation l.dropLast
      if h.pathExists (bin.join (.ofString "llvm-link")) then some bin else none

end ToolPaths

end ContractBuild
