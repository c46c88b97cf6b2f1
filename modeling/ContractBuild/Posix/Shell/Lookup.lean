import ContractBuild.Posix.Shell.Variables

/-!
# What the name of a command means

A name can be a function, a command of the shell itself, or a program in one of the directories of
the search path.  Functions come first, except where a command is one of those that no function can
stand for.
-/

namespace ContractBuild.Shell

/-- The commands of the shell whose errors end the shell and whose assignments stay. -/
def specialCommands : List String := Reader.reservedNames

/-- The other commands of the shell that are known before its words are complete. -/
def earlyCommands : List String :=
  ["alias", "bg", "cd", "chdir", "command", "false", "fg", "getopts", "jobs", "kill", "read",
    "true", "umask", "unalias", "wait"]

/-- The remaining commands of the shell. -/
def lateCommands : List String :=
  ["[", "echo", "hash", "printf", "pwd", "test", "type", "ulimit"]

/-- The commands of the shell whose words can be assignments. -/
def assigningCommands : List String := ["export", "local", "readonly"]

/-- Whether a name is among some. -/
def isAmong (name : Chars) (names : List String) : Bool := names.contains (Chars.toString name)

/-- Whether a name is one of a special command. -/
def isSpecial (name : Chars) : Bool := isAmong name specialCommands

/-- Whether a name is one of a command of the shell. -/
def isBuiltin (name : Chars) : Bool :=
  isAmong name specialCommands || isAmong name earlyCommands || isAmong name lateCommands

/-- What a name means. -/
inductive Meaning
  /-- A function. -/
  | function (body : Command)
  /-- A command of the shell. -/
  | builtin
  /-- A program, with the paths to try for it. -/
  | program (paths : List Chars)
  /-- Nothing, for this reason. -/
  | nothing (reason : IoError)

namespace Lookup

/-- The search path. -/
def searchPath (s : State) : Chars := (s.valueOf? "PATH".toList).getD []

/-- The search path that finds all usual programs. -/
def usualSearchPath : Chars :=
  "/usr/local/sbin:/usr/local/bin:/usr/sbin:/usr/bin:/sbin:/bin".toList

/-- The paths that a search path gives for a name. -/
def pathsOf (search name : Chars) : List Chars :=
  (Chars.splitOn (· = ':') search).map fun dir ↦ if dir = [] then name else dir ++ '/' :: name

/-- The first path that leads to a file and those behind it, or the reason why there is none. -/
def firstFile (h : Host) : IoError → List Chars → Except IoError (List Chars)
  | reason, [] => .error reason
  | reason, p :: ps =>
    match h.entry (Chars.toPath p) with
    | .ok (_, .file f) =>
      if f.allows .run then .ok (p :: ps) else firstFile h .notPermitted ps
    | .ok _ => firstFile h .notPermitted ps
    | .error e =>
      firstFile h (if e = .notFound || e = .notADirectory then reason else e) ps

/-- The program that a name stands for. -/
def program (search name : Chars) : Action Meaning := do
  if name.contains '/' then return .program [name]
  match ← (Routine.look fun h ↦ firstFile h .notFound (pathsOf search name) : Routine _) with
  | .ok paths => return .program paths
  | .error e => return .nothing e

/-- What a name means. -/
def meaning (search name : Chars) (allowsFunctions : Bool) : Action Meaning := do
  let s ← Action.state
  match if allowsFunctions then s.functions.lookup name else none with
  | some f => return .function f
  | none => if isBuiltin name then return .builtin else program search name

/-- How a message says why a command cannot be run. -/
def reason (e : IoError) : Chars :=
  (if e = .notFound || e = .notADirectory then "not found" else e.reason).toList

/-- The status of a command that cannot be run. -/
def codeOf (e : IoError) : Nat :=
  if e = .notFound || e = .notADirectory || e = .tooManyLinks || e = .nameTooLong then 127 else 126

end Lookup

end ContractBuild.Shell
