import ContractBuild.Options.BuildOptions
import ContractBuild.Tool.Invocation

/-!
# The commands of a build

The invocation of each tool, as a function of the options and of the files it reads and writes.
-/

namespace ContractBuild

/-- A module of LLVM IR on its way to the linker. -/
structure IrModule where
  /-- The position of the input that it comes from. -/
  position : Nat
  /-- Its path. -/
  path : Path
  deriving DecidableEq, Repr

namespace Command

/-- The target that the compilers and the code generator are told. -/
def target : String := "tvm"

/-- The symbols that stay visible from outside. -/
def entryPoints : List String :=
  ["main_external", "main_internal", "main_ticktock", "main_split", "main_merge", "get_method"]

/-- Arguments that are written as text. -/
def texts (as : List String) : List Bytes := as.map Bytes.ofString

/-- Compiles C++ to LLVM IR. -/
def cxx (o : BuildOptions) (input out : Path) : Invocation :=
  .ofProgram (o.tools.llvmTool "clang++")
    (texts ["-target", target] ++ texts o.cxxflags ++ texts ["-S", "-emit-llvm"] ++ [input.raw] ++
      texts ["-o"] ++ [out.raw, Bytes.ofString "--sysroot=" ++ o.tools.sysroot.raw])

/-- Compiles C to LLVM IR. -/
def c (o : BuildOptions) (input out : Path) : Invocation :=
  .ofProgram (o.tools.llvmTool "clang")
    (texts ["-target", target, "-isystem"] ++ [o.tools.includeDir.raw] ++ texts o.cflags ++
      texts ["-S", "-emit-llvm"] ++ [input.raw] ++ texts ["-o"] ++ [out.raw])

/-- Assembles LLVM IR to bitcode. -/
def assemble (o : BuildOptions) (input out : Path) : Invocation :=
  .ofProgram (o.tools.llvmTool "llvm-as") ([input.raw] ++ texts ["-o"] ++ [out.raw])

/-- Links modules into one. -/
def linkModules (o : BuildOptions) (modules : List IrModule) (out : Path) : Invocation :=
  .ofProgram (o.tools.llvmTool "llvm-link")
    (modules.map (·.path.raw) ++ texts ["-S", "-o"] ++ [out.raw])

/-- Makes all symbols internal but the entry points. -/
def internalize (o : BuildOptions) (input out : Path) : Invocation :=
  .ofProgram (o.tools.llvmTool "opt")
    ([input.raw] ++ texts ["-S", "-o"] ++ [out.raw] ++
      texts (if o.inlineLoadsStores then ["-tvm-load-store-replace"] else []) ++
      texts ["-internalize",
        "-internalize-public-api-list=" ++ ",".intercalate entryPoints])

/-- Optimizes a module. -/
def optimize (o : BuildOptions) (input out : Path) : Invocation :=
  .ofProgram (o.tools.llvmTool "opt")
    (texts o.optFlags ++ texts ["-S"] ++ [input.raw] ++ texts ["-o"] ++ [out.raw])

/-- Generates TVM assembly. -/
def generate (o : BuildOptions) (input out : Path) : Invocation :=
  .ofProgram (o.tools.llvmTool "llc")
    (texts ["-march", target] ++ [input.raw] ++ texts ["-o"] ++ [out.raw])

/-- Links TVM assembly into a contract. -/
def compile (o : BuildOptions) (asm abi : Path) (out : Option Path) : Invocation :=
  .ofProgram o.tools.linker
    (texts ["compile"] ++ [asm.raw] ++ texts ["--lib"] ++ [o.tools.stdlibArtifact.raw] ++
      texts ["--abi-json"] ++ [abi.raw] ++ texts o.linkerFlags ++
      match out with
      | some p => texts ["-o"] ++ [p.raw]
      | none => [])

/-- Reports on a contract. -/
def decode (o : BuildOptions) (contract : Path) : Invocation :=
  .ofProgram o.tools.linker (texts ["decode"] ++ [contract.raw] ++ texts ["--tvc"])

end Command

end ContractBuild
