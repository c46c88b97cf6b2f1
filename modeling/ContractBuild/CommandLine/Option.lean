import ContractBuild.Text.Utf8

/-!
# The options of the command line

Switches stand alone, options take a value; each has a long name and some a letter.  A value is a
path, which must not be empty, or a text of flags, which may be anything.
-/

namespace ContractBuild.CommandLine

/-- An option without a value. -/
inductive Switch
  /-- Command lines are printed. -/
  | verbose
  /-- Intermediate files are kept. -/
  | saveTemps
  /-- The build ends with the assembly. -/
  | asmOnly
  /-- Loads and stores are replaced. -/
  | inlineLoadsStores
  /-- The help is asked for. -/
  | help
  /-- The version is asked for. -/
  | version
  deriving DecidableEq, Repr

/-- An option with a value. -/
inductive Setting
  /-- The interface description. -/
  | abi
  /-- The output file. -/
  | output
  /-- The flags of the C compiler. -/
  | cflags
  /-- The flags of the C++ compiler. -/
  | cxxflags
  /-- The flags of the linker. -/
  | linkerFlags
  /-- The flags of the optimizer. -/
  | optFlags
  /-- The directory of the LLVM tools. -/
  | llvmBin
  /-- The linker. -/
  | linker
  /-- The directory of the standard library. -/
  | stdlib
  /-- The directory of the standard headers. -/
  | includeDir
  deriving DecidableEq, Repr

/-- Anything with a name on the command line. -/
inductive Named
  /-- A switch. -/
  | switch (s : Switch)
  /-- An option with a value. -/
  | setting (s : Setting)
  deriving DecidableEq, Repr

/-- What the value of a setting is. -/
inductive ValueForm
  /-- The path of a file. -/
  | file
  /-- The path of a directory. -/
  | directory
  /-- A text of flags. -/
  | flags
  deriving DecidableEq, Repr

namespace ValueForm

/-- What stands for the value in messages. -/
def placeholder : ValueForm → String
  | .file => "<FILE>"
  | .directory => "<DIR>"
  | .flags => "<FLAGS>"

end ValueForm

namespace Setting

/-- What the value of a setting is. -/
def form : Setting → ValueForm
  | .abi | .output | .linker => .file
  | .llvmBin | .stdlib | .includeDir => .directory
  | .cflags | .cxxflags | .linkerFlags | .optFlags => .flags

/-- Whether the value is a text of flags. -/
def takesFlags (s : Setting) : Bool := s.form = .flags

end Setting

namespace Named

/-- The long name, without its dashes. -/
def long : Named → String
  | .switch .verbose => "verbose"
  | .switch .saveTemps => "save-temps"
  | .switch .asmOnly => "asm-only"
  | .switch .inlineLoadsStores => "inline-loads-stores"
  | .switch .help => "help"
  | .switch .version => "version"
  | .setting .abi => "abi"
  | .setting .output => "output"
  | .setting .cflags => "cflags"
  | .setting .cxxflags => "cxxflags"
  | .setting .linkerFlags => "linkerflags"
  | .setting .optFlags => "opt-flags"
  | .setting .llvmBin => "llvm-bin"
  | .setting .linker => "linker"
  | .setting .stdlib => "stdlib"
  | .setting .includeDir => "include"

/-- The letter, if there is one. -/
def letter? : Named → Option Char
  | .switch .verbose => some 'v'
  | .switch .asmOnly => some 'S'
  | .switch .help => some 'h'
  | .switch .version => some 'V'
  | .setting .abi => some 'A'
  | .setting .output => some 'o'
  | _ => none

/-- What the help says. -/
def summary : Named → String
  | .setting .abi => "ABI description file"
  | .switch .verbose => "Print command lines of child processes"
  | .switch .saveTemps =>
    "Store intermediate files in the working directory and don't delete them"
  | .setting .output => "Bag-of-cells output file name"
  | .setting .cflags => "Flags and options for C frontend"
  | .setting .cxxflags => "Flags and options for C++ frontend"
  | .setting .linkerFlags => "Flags for tvm_linker"
  | .setting .optFlags => "Flags and options for LLVM optimizer"
  | .switch .asmOnly => "Produce assembler output"
  | .switch .inlineLoadsStores => "Experimental inlining of loads/stores"
  | .setting .llvmBin => "Path to LLVM binaries directory"
  | .setting .linker => "Path to TVM linker executable"
  | .setting .stdlib => "Path to standard library directory"
  | .setting .includeDir => "Path to standard include directory"
  | .switch .help => "Print help"
  | .switch .version => "Print version"

/-- Everything with a name, in the order of the help. -/
def all : List Named :=
  [.setting .abi, .switch .verbose, .switch .saveTemps, .setting .output, .setting .cflags,
    .setting .cxxflags, .setting .linkerFlags, .setting .optFlags, .switch .asmOnly,
    .switch .inlineLoadsStores, .setting .llvmBin, .setting .linker, .setting .stdlib,
    .setting .includeDir, .switch .help, .switch .version]

/-- How messages write it: the long name, with a placeholder for a value. -/
def shown (n : Named) : String :=
  match n with
  | .switch _ => "--" ++ n.long
  | .setting s => s!"--{n.long} {s.form.placeholder}"

/-- What has this long name. -/
def ofLong? (name : Bytes) : Option Named := all.find? fun n ↦ Bytes.ofString n.long = name

/-- What has the letter of this byte. -/
def ofLetter? (b : UInt8) : Option Named :=
  all.find? fun n ↦ n.letter?.map (·.toNat) = some b.toNat

/-- A long name stands for one thing only. -/
theorem ofLong?_long (n : Named) : ofLong? (Bytes.ofString n.long) = some n := by
  cases n with
  | switch s => cases s <;> decide +kernel
  | setting s => cases s <;> decide +kernel

end Named

end ContractBuild.CommandLine
