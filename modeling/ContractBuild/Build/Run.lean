import ContractBuild.Build.Contract

/-!
# Whole builds

A build checks its inputs before it does anything else, takes them through all stages and removes
what is temporary, whether it succeeded or not.
-/

namespace ContractBuild

/-- What a build made. -/
inductive BuildOutcome
  /-- The merged assembly. -/
  | assembly (p : Path)
  /-- The contract and, if an output file was given, the file with its code. -/
  | linked (target : OutputTarget) (codeFile : Option Path)
  deriving DecidableEq, Repr

/-- The first input that does not exist, or else the interface description if a contract is to be
linked and that does not exist. -/
def firstMissing? (o : BuildOptions) (h : Host) (inputs : ClassifiedInputs) : Option Path :=
  let needed := inputs.all.map (·.path) ++ if o.asmOnly then [] else [o.abi]
  needed.find? fun p ↦ !h.pathExists (o.absolute p)

namespace Build

variable {σ : Type} (tc : Toolchain σ) (o : BuildOptions)

/-- Fails if something that the build needs does not exist. -/
def checkInputs (inputs : ClassifiedInputs) : Build σ Unit := do
  match firstMissing? o (← host) inputs with
  | some p => throw (.missingInput p)
  | none => return

/-- The inputs by kind, or the error of the first that is not accepted. -/
def classified (paths : List Path) : Build σ ClassifiedInputs :=
  match classify paths with
  | .ok inputs => return inputs
  | .error e => throw e

/-- The merged assembly of all inputs. -/
def assembleAll (inputs : ClassifiedInputs) : Build σ Path := do
  let compiled ← compileSources tc o inputs
  let assembled ← assembleIr tc o inputs
  let given := inputs.irBinary.map IrModule.ofInput
  let linked ← linkModules tc o (compiled ++ assembled ++ given)
  let internalized ← internalize tc o linked
  let optimized ← optimize tc o internalized
  let asm ← generate tc o optimized
  mergeAssembly tc o asm inputs
  return asm

/-- The contract of a merged assembly, with its code where an output file was given. -/
def linkAll (asm : Path) : Build σ BuildOutcome := do
  let target ← finalLink tc o asm
  match target with
  | .file p => return .linked target (some (← extractCode tc o p))
  | .directory _ => return .linked target none

/-- All stages of a build. -/
def stages (paths : List Path) : Build σ BuildOutcome := do
  let inputs ← classified paths
  checkInputs o inputs
  let asm ← assembleAll tc o inputs
  if o.asmOnly then
    return .assembly (← emitAssembly tc o asm)
  else
    linkAll tc o asm

/-- A whole build. -/
def run (paths : List Path) : Build σ BuildOutcome :=
  (stages tc o paths).andFinally Session.cleanup

end Build

end ContractBuild
