import ContractBuild.Build.Session

/-!
# Scripted toolchains

A toolchain that runs nothing: rules say what each call does to the files and what it answers.  A
build can be rehearsed with it, up to any failure of any tool.
-/

namespace ContractBuild

/-- A change to the files of a host. -/
inductive FileEffect
  /-- Writes a file, and the directories above it that are missing. -/
  | write (p : Path) (content : Bytes) (executable : Bool)
  /-- Makes a directory, and those above it that are missing. -/
  | makeDirectory (p : Path)
  /-- Removes a file, a link or a whole directory. -/
  | remove (p : Path)
  /-- Makes a symbolic link. -/
  | link (p target : Path)
  deriving DecidableEq, Repr

namespace FileEffect

/-- Whether a path names a directory and not a link to one. -/
def isDirectory (h : Host) (p : Path) : Bool :=
  match h.locateLink p with
  | .ok (.entry _ (.directory _)) => true
  | _ => false

/-- Makes a change as far as possible; relative paths start from `base`. -/
def perform (base : Path) (h : Host) : FileEffect → Host
  | .write p content executable =>
    let p := base.join p
    let h := match p.parent? with
      | some dir => h.makeDirectories dir
      | none => h
    match h.write p content with
    | .ok h => if executable then h.permitRunning p else h
    | .error _ => h
  | .makeDirectory p => h.makeDirectories (base.join p)
  | .remove p =>
    let p := base.join p
    if isDirectory h p then h.removeDirectory p else h.removeFile p
  | .link p target =>
    match h.makeLink (base.join p) target with
    | .ok h => h
    | .error _ => h

end FileEffect

namespace Scripted

/-- What a call answers. -/
inductive Answer
  /-- It succeeds and prints this. -/
  | prints (text : String)
  /-- It fails with this code after it has printed this. -/
  | fails (code : Nat) (text : String)
  /-- It cannot be started. -/
  | notStarted (cause : IoError)
  deriving DecidableEq, Repr

/-- What some calls of a tool do. -/
structure Rule where
  /-- The calls that the rule is for, as `key` names them. -/
  key : String
  /-- The number of earlier calls with this key, if the rule is for one call only. -/
  nth : Option Nat
  /-- Whether the call writes the output that a tool is expected to write. -/
  writesOutput : Bool
  /-- What else it changes, each change seen from the files before it. -/
  effects : List (Host → FileEffect)
  /-- What it answers. -/
  answer : Answer

/-- What is called: the tool, and for a tool with two duties the duty. -/
def key (i : Invocation) : String :=
  match i.argTexts.head? with
  | some "compile" => i.toolName ++ " compile"
  | some "decode" => i.toolName ++ " decode"
  | _ => i.toolName

/-- Whether a rule is for a call that comes after these. -/
def Rule.appliesTo (r : Rule) (k : String) (earlier : List String) : Bool :=
  r.key = k && (r.nth.isNone || r.nth = some (earlier.count k))

/-- The rule for a call that no other is for: it writes its output and prints nothing. -/
def Rule.fallback (k : String) : Rule := ⟨k, none, true, [], .prints ""⟩

/-- The file that a tool is expected to write: its output, or the linker's default. -/
def expectedOutput? (i : Invocation) : Option Path :=
  match i.output? with
  | some p => some p
  | none =>
    if i.argTexts.head? = some "compile" then some (.ofString "contract.tvc") else none

/-- The host after a tool wrote its expected output, which names the tool. -/
def writeOutput (i : Invocation) (dir : Path) (h : Host) : Host :=
  match expectedOutput? i with
  | none => h
  | some p =>
    match h.write (dir.join p) (Bytes.ofString s!"; {i.toolName}\n") with
    | .ok h => h
    | .error _ => h

/-- The answer to a call. -/
def Answer.outcome (i : Invocation) : Answer → Except BuildError String
  | .prints text => .ok text
  | .fails code text => .error (.toolFailed i.toolName (.ofCode code) text)
  | .notStarted cause => .error (.toolNotStarted i.program.display cause)

/-- The toolchain that follows the first rule for each call.  Its state is the list of the calls
made so far. -/
def toolchain (rules : List Rule) : Toolchain (List String) where
  run i earlier h :=
    let k := key i
    let rule := (rules.find? (·.appliesTo k earlier)).getD (.fallback k)
    let dir := i.dir.getD .here
    let h := if rule.writesOutput then writeOutput i dir h else h
    let h := rule.effects.foldl (fun h effect ↦ (effect h).perform dir h) h
    { outcome := rule.answer.outcome i, state := earlier ++ [k], tree := h.tree }
  echo _ earlier := earlier

end Scripted

end ContractBuild
