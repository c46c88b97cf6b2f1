import ContractBuild.CommandLine.Run
import ContractBuild.Execution.Run
import ContractBuild.FileSystem.Standard

/-!
# The executable

The program works on a tree that holds the standard system and, of the files around it, those that
a build can need.  What it changed in that tree is carried back to the files.  Tools that are
scripts run on the tree's own machine; a tool that is anything else cannot be started.
-/

namespace ContractBuild.Executable

/-- The permissions of a file with this content, of which scripts can be run. -/
def modeOf (content : Bytes) : Nat :=
  if (Bytes.ofString "#!").isPrefixOf content then programMode else fileMode

/-- The tree with all directories down to `l`. -/
def withDirectories (t : Tree) (l : Location) : Tree :=
  (List.range l.length).foldl (fun t k ↦
    let above := l.take (k + 1)
    if (t.node? above).isSome then t else t.addDirectory above programMode) t

/-- Adds a directory entry, with all that lies below it, to a tree that does not have it. -/
partial def load (t : Tree) (e : IO.FS.DirEntry) : IO Tree := do
  let l := Location.ofText e.path.toString
  if (t.node? l).isSome then return t
  try
    match (← e.path.symlinkMetadata).type with
    | .dir => (← e.path.readDir).foldlM load (t.addDirectory l programMode)
    | .file =>
      let content := (← IO.FS.readBinFile e.path).toList
      return t.addFile l content (modeOf content)
    | .symlink => return t.addLink l (.ofString (← IO.FS.realPath e.path).toString)
    | .other => return t
  catch _ => return t

/-- Adds the directory at a path, if there is one, to a tree. -/
def loadDirectory (t : Tree) (path : String) : IO Tree := do
  try
    let dir ← IO.FS.realPath path
    (← dir.readDir).foldlM load (withDirectories t (.ofText dir.toString))
  catch _ => return t

/-- The variables that a build looks at. -/
def variableNames : List String :=
  ["PATH", "TMPDIR"] ++ [ToolPart.llvmBin, .linker, .stdlib, .includeDir].map (·.variableName)

/-- The environment, as far as a build looks at it. -/
def environment : IO Environment :=
  variableNames.filterMapM fun name ↦ do
    return (← IO.getEnv name).map fun value ↦ (name, value)

/-- The directory above a path. -/
def directoryOf (path : String) : String := ((Path.ofString path).parent?.getD .here).display

/-- The directories that can hold a toolchain: variables and values of options name them, or a
file in them. -/
def toolDirectories (env : Environment) (args : List String) : List String :=
  let named := (env.filter fun v ↦ v.1 ≠ "PATH").map (·.2) ++ args.filter (·.startsWith "/")
  named ++ named.map directoryOf

/-- The host that a build sees.  Of the directory for temporary files it sees nothing but what it
makes there. -/
def host (env : Environment) (cwd program : String) (args : List String) : IO Host := do
  let tempDir := (env.lookup "TMPDIR").getD "/tmp"
  let dirs := toolDirectories env args ++ [directoryOf program, cwd]
  let t ← dirs.foldlM loadDirectory
    (withDirectories (Tree.standard Program.files) (.ofText tempDir))
  let here := match t.node? (.ofText cwd) with
    | some (.directory d) => d.id
    | _ => 0
  return { tree := t, cwd := here, tempDir := .ofString tempDir }

/-- Whether a file or directory is left as it was by what a program did to its node. -/
def isKept : Option Node → Node → Bool
  | some (.file f), .file g => f.content = g.content && f.mode = g.mode
  | some (.directory _), .directory _ => true
  | _, _ => false

/-- Removes what a node says from a path. -/
def remove (path : String) : Node → IO Unit
  | .file _ | .link _ => IO.FS.removeFile path
  | .directory _ => IO.FS.removeDir path
  | .device _ | .descriptor .. => pure ()

/-- Puts what a node says at a path. -/
def put (path : String) : Node → IO Unit
  | .file f => do
    IO.FS.writeBinFile path ⟨f.content.toArray⟩
    if permitsRunning f.mode then
      IO.setAccessRights path ⟨⟨true, true, true⟩, ⟨true, false, true⟩, ⟨true, false, true⟩⟩
  | .directory _ => IO.FS.createDirAll path
  | .link _ | .device _ | .descriptor .. => pure ()

/-- Carries the difference between two trees into the file system: what is gone goes from the
bottom up, and what has come comes from the top down. -/
def store (before after : Tree) : IO Unit := do
  let byDepth := fun (a b : Location × Node) ↦ decide (a.1.length ≤ b.1.length)
  for (l, n) in (before.entries.mergeSort byDepth).reverse do
    if (after.node? l).isNone then remove (Path.ofLocation l).display n
  for (l, n) in after.entries.mergeSort byDepth do
    if !(isKept (before.node? l) n) then put (Path.ofLocation l).display n

/-- Runs the program on the files of the system and gives its exit code. -/
def run (args : List String) : IO UInt32 := do
  let env ← environment
  let program := (← IO.appPath).toString
  let cwd := (← IO.currentDir).toString
  let before ← host env cwd program args
  let e := CommandLine.run Execution.run (.ofString program) env (args.map Bytes.ofString) before
  store before.tree e.host.tree
  (← IO.getStdout).write ⟨e.console.stdout.toArray⟩
  (← IO.getStderr).write ⟨e.console.stderr.toArray⟩
  return e.exitCode.toUInt32

end ContractBuild.Executable

/-- The program. -/
def main (args : List String) : IO UInt32 := ContractBuild.Executable.run args
