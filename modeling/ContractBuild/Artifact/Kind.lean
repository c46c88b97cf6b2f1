import ContractBuild.Text.Utf8

/-!
# Kinds of intermediate files

Every stage of a build leaves intermediate files of one kind.  The name of such a file shows the
stage, and from the second of a kind on also its number.
-/

namespace ContractBuild

/-- The stage that an intermediate file comes from. -/
inductive ArtifactKind
  /-- A source file compiled to LLVM IR. -/
  | frontend
  /-- LLVM IR as text assembled to bitcode. -/
  | assembler
  /-- All modules linked into one. -/
  | link
  /-- The linked module with all but the entry points made internal. -/
  | internalize
  /-- The optimized module. -/
  | optimize
  /-- The generated TVM assembly. -/
  | codegen
  deriving DecidableEq, Repr

namespace ArtifactKind

/-- The number of the stage. -/
def number : ArtifactKind → Nat
  | .frontend | .assembler => 1
  | .link => 2
  | .internalize => 3
  | .optimize => 4
  | .codegen => 5

/-- The name of the stage. -/
def label : ArtifactKind → String
  | .frontend => "clang"
  | .assembler => "llvm-as"
  | .link => "llvm-link"
  | .internalize => "opt"
  | .optimize => "opt_O3"
  | .codegen => "llc"

/-- The extension of the stage's files, without its dot. -/
def extension : ArtifactKind → String
  | .assembler => "bc"
  | .codegen => "asm"
  | .frontend | .link | .internalize | .optimize => "ll"

/-- The name of the file of this kind that `nth` others came before. -/
def fileName (kind : ArtifactKind) (nth : Nat) : String :=
  let stem := s!"{kind.number}-{kind.label}"
  let numbered := if nth = 0 then stem else s!"{stem}-{nth + 1}"
  s!"{numbered}.{kind.extension}"

end ArtifactKind

end ContractBuild
