import ContractBuild.Path.FileName

/-!
# Kinds of input files

The extension of an input file says what it holds.
-/

namespace ContractBuild

/-- What an input file holds. -/
inductive InputKind
  /-- C++ source. -/
  | cxx
  /-- C source. -/
  | c
  /-- LLVM IR as text. -/
  | irText
  /-- LLVM IR as bitcode. -/
  | irBinary
  /-- TVM assembly. -/
  | assembly
  deriving DecidableEq, Repr

namespace InputKind

/-- The kind that an extension stands for. -/
def ofExtension? : String → Option InputKind
  | "c" => some .c
  | "cc" | "cpp" | "cxx" => some .cxx
  | "ll" => some .irText
  | "bc" => some .irBinary
  | "s" | "S" => some .assembly
  | _ => none

/-- The kind of the file at a path, if it has an accepted extension.  Bytes that are no text are none. -/
def ofPath? (p : Path) : Option InputKind := do
  ofExtension? (← Bytes.toString? (← p.extension?))

end InputKind

end ContractBuild
