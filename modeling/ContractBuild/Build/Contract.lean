import ContractBuild.Text.Blank
import ContractBuild.Build.Assembly

/-!
# The contract

The linker turns the assembly into a contract.  It runs in a directory of its own, from which the
files that it produced are copied to their destinations, or in the working directory if the build
keeps its intermediate files.  If an output file was given, the code of the contract is then put
beside it.  The report that holds the code is free text: the code is on the first line that starts
with `code: `, white space before it apart.
-/

/-! ## The code line of a report -/

namespace ContractBuild.CodeLine

/-- What a code line starts with. -/
def label : List Char := "code: ".toList

/-- The rest of a text behind a start, if the text starts so. -/
def dropStart? : List Char → List Char → Option (List Char)
  | [], s => some s
  | _ :: _, [] => none
  | c :: p, d :: s => if c = d then dropStart? p s else none

/-- The code on a line, if it is a code line. -/
def ofLine? (line : List Char) : Option (List Char) :=
  (dropStart? label (Text.trimStart line)).map Text.trimEnd

/-- The code in a report. -/
def find? (report : String) : Option String :=
  ((Text.lines report.toList).findSome? ofLine?).map String.ofList

end ContractBuild.CodeLine

/-! ## The final link -/

namespace ContractBuild.Build

variable {σ : Type} (tc : Toolchain σ) (o : BuildOptions)

/-- The output that the linker is told to write in a link directory.  In a directory of its own
that is the bare file name. -/
def linkedOutput (dir : LinkDir) : Option Path :=
  match o.output, dir with
  | none, _ => none
  | some p, .scoped _ => p.fileName?.map Path.ofName
  | some p, .working _ => some p

/-- Copies files of a directory to their destinations, one after the other. -/
def copyEach (dir : Path) (target : OutputTarget) (linked : Option Name) :
    List Name → Build σ Unit
  | [] => return
  | n :: ns => do
    copy tc (dir.join (.ofName n)) n.display (target.destination n linked)
    copyEach dir target linked ns

/-- Copies what the linker produced in its own directory, the regular files in ascending order of
their names. -/
def copyOut (dir : Path) (target : OutputTarget) (linked : Option Name) : Build σ Unit := do
  let h ← host
  let names ← value (.reading dir) (h.list dir)
  copyEach tc dir target linked (names.filter fun n ↦ h.isFile (dir.join (.ofName n)))

/-- Opens the directory of the final link. -/
def openLinkDir : Build σ LinkDir :=
  ofResult fun s ↦
    match s.store.openLinkDir s.host with
    | .ok (dir, host) => (.ok dir, { s with host })
    | .error e => (.error e, s)

/-- Links the assembly in a link directory. -/
def linkIn (dir : LinkDir) (asm : Path) : Build σ OutputTarget := do
  let target := OutputTarget.resolve o.output o.workingDir
  if dir.isScoped then
    echo tc s!"cd {dir.path.display}"
  let linked := linkedOutput o dir
  let _ ← tool tc ((Command.compile o asm (o.absolute o.abi) linked).inDir dir.path)
  if dir.isScoped then
    copyOut tc dir.path target (linked.map (·.raw))
  return target

/-- Links the assembly into a contract. -/
def finalLink (asm : Path) : Build σ OutputTarget := do
  let dir ← openLinkDir
  (linkIn tc o dir asm).andFinally fun s ↦ { s with host := dir.close s.host }

/-- Puts the code of a contract beside it. -/
def extractCode (contract : Path) : Build σ Path := do
  let report ← tool tc ((Command.decode o contract).inDir o.workingDir)
  match CodeLine.find? report with
  | none => throw (.noCodeLine contract)
  | some code =>
    let p := sidecar contract
    change (.writing p) ((← host).write p (Bytes.ofString code))
    return p

end ContractBuild.Build
