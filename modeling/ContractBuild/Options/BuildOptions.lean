import ContractBuild.Text.Blank
import ContractBuild.Options.ToolPaths

/-!
# Build options

Everything that a build is told besides its inputs.  The user gives the flags of a tool as one text;
its words are the arguments.  The compilers get the user's flags after a default level, the optimizer
gets them in its place.
-/

/-! ## Flag strings -/

namespace ContractBuild.Flags

/-- The words of a flag string; none if it is not given. -/
def split : Option String → List String
  | none => []
  | some text => (Text.words text.toList).map String.ofList

/-- The flags of the C compiler. -/
def forC (user : Option String) : List String := "-O1" :: split user

/-- The flags of the C++ compiler. -/
def forCxx (user : Option String) : List String := "-O3" :: split user

/-- The flags of the optimizer. -/
def forOptimizer (user : Option String) : List String :=
  match split user with
  | [] => ["-O3"]
  | flags => flags

/-- The flags of the linker. -/
def forLinker (user : Option String) : List String := split user

/-- The optimizer always gets a flag. -/
theorem forOptimizer_ne_nil (user : Option String) : forOptimizer user ≠ [] := by
  unfold forOptimizer
  split <;> simp_all

end ContractBuild.Flags

/-! ## What a build is told -/

namespace ContractBuild

/-- What a build is told. -/
structure BuildOptions where
  /-- Where the toolchain is. -/
  tools : ToolPaths
  /-- The description of the contract's interface, as given. -/
  abi : Path
  /-- The output, as given. -/
  output : Option Path
  /-- The directory that relative paths start from. -/
  workingDir : Path
  /-- The flags of the C compiler. -/
  cflags : List String
  /-- The flags of the C++ compiler. -/
  cxxflags : List String
  /-- The flags of the linker. -/
  linkerFlags : List String
  /-- The flags of the optimizer. -/
  optFlags : List String
  /-- The build ends with the assembly. -/
  asmOnly : Bool
  /-- Intermediate files stay in the working directory. -/
  saveTemps : Bool
  /-- Command lines are printed. -/
  verbose : Bool
  /-- Loads and stores are replaced before symbols are made internal. -/
  inlineLoadsStores : Bool
  deriving DecidableEq, Repr

namespace BuildOptions

/-- Options with the default flags and every switch off. -/
def ofTools (tools : ToolPaths) (abi workingDir : Path) : BuildOptions where
  tools := tools
  abi := abi
  output := none
  workingDir := workingDir
  cflags := Flags.forC none
  cxxflags := Flags.forCxx none
  linkerFlags := Flags.forLinker none
  optFlags := Flags.forOptimizer none
  asmOnly := false
  saveTemps := false
  verbose := false
  inlineLoadsStores := false

/-- A path seen from the working directory. -/
def absolute (o : BuildOptions) (p : Path) : Path := o.workingDir.join p

end BuildOptions

end ContractBuild
