import ContractBuild.CommandLine.Option
import ContractBuild.Options.BuildOptions

/-!
# What a command line says

The arguments of a build as the command line gives them, and the options that they stand for once
the toolchain has been found.
-/

namespace ContractBuild.CommandLine

/-- What a command line says. -/
structure Arguments where
  /-- The interface description. -/
  abi : Path
  /-- The input files. -/
  inputs : List Path
  /-- Command lines are printed. -/
  verbose : Bool
  /-- Intermediate files are kept. -/
  saveTemps : Bool
  /-- The output file. -/
  output : Option Path
  /-- The flags of the C compiler. -/
  cflags : Option String
  /-- The flags of the C++ compiler. -/
  cxxflags : Option String
  /-- The flags of the linker. -/
  linkerFlags : Option String
  /-- The flags of the optimizer. -/
  optFlags : Option String
  /-- The build ends with the assembly. -/
  asmOnly : Bool
  /-- Loads and stores are replaced. -/
  inlineLoadsStores : Bool
  /-- The places of the toolchain that are given. -/
  tools : ToolOverrides
  deriving DecidableEq, Repr

namespace Arguments

/-- The options of the build in a working directory. -/
def toOptions (a : Arguments) (tools : ToolPaths) (workingDir : Path) : BuildOptions where
  tools := tools
  abi := a.abi
  output := a.output
  workingDir := workingDir
  cflags := Flags.forC a.cflags
  cxxflags := Flags.forCxx a.cxxflags
  linkerFlags := Flags.forLinker a.linkerFlags
  optFlags := Flags.forOptimizer a.optFlags
  asmOnly := a.asmOnly
  saveTemps := a.saveTemps
  verbose := a.verbose
  inlineLoadsStores := a.inlineLoadsStores

end Arguments

end ContractBuild.CommandLine
