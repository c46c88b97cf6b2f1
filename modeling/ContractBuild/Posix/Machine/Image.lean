import ContractBuild.Posix.Machine.Call

/-!
# Programs and scripts

A file can be run if its permissions say so and its content is either a program that the machine
knows or a script.  The first line of a script names its interpreter, which is run in its place
with the path of the script as an argument; the interpreter may be a script itself, up to a depth.

A program is found by its path, or by its name in the directories of a search path.
-/

namespace ContractBuild

/-- What a program does with its arguments, the first of which is its name, and its
environment. -/
abbrev Program := List Chars → List Chars → Routine Nat

/-- The content of a file that can be run. -/
inductive Image
  /-- A program of the machine. -/
  | program (name : Chars)
  /-- A script with its interpreter and what that gets besides. -/
  | script (interpreter : Chars) (argument : Option Chars)
  deriving DecidableEq, Repr

namespace Image

/-- The start of a file that holds a program of the machine. -/
def mark : Bytes := 0x7F :: Bytes.ofString "ELF"

/-- The content of the file of a program. -/
def ofProgram (name : String) : Bytes := mark ++ Bytes.ofString name

/-- The start of a script. -/
def scriptMark : Chars := ['#', '!']

/-- How much of a script is looked at. -/
def headLength : Nat := 256

/-- Whether a character is a blank within the first line. -/
def isBlank (c : Char) : Bool := c = ' ' || c = '\t'

/-- Whether a character ends the name of an interpreter. -/
def endsName (c : Char) : Bool := isBlank c || c = '\x00'

/-- The rest of the first line behind the mark of a script; a line that is not whole must show the
end of the interpreter's name. -/
def headLine? (head : Chars) : Option Chars :=
  if head.contains '\n' then some (head.takeWhile (· ≠ '\n'))
  else
    let name := head.dropWhile isBlank
    let isWhole := head.length + scriptMark.length < headLength
    if isWhole then some head
    else if name.any endsName then some head.dropLast else none

/-- The interpreter that a script names. -/
def ofHeadLine (line : Chars) : Option Image :=
  let line := (line.reverse.dropWhile isBlank).reverse.dropWhile isBlank
  let name := line.takeWhile (!endsName ·)
  let rest := line.drop name.length
  if line = [] then none
  else if rest.head? = some '\x00' then some (.script name none)
  else
    match (rest.dropWhile isBlank).takeWhile (· ≠ '\x00') with
    | [] => some (.script name none)
    | argument => some (.script name (some argument))

/-- What the content of a file is, if it can be run. -/
def ofContent (content : Bytes) : Option Image :=
  if mark.isPrefixOf content then some (.program (Chars.ofBytes (content.drop mark.length)))
  else
    let head := Chars.ofBytes (content.take headLength)
    if scriptMark.isPrefixOf head then (headLine? (head.drop scriptMark.length)).bind ofHeadLine
    else none

/-- How many interpreters can be scripts. -/
def scriptDepth : Nat := 6

/-- The program that a path stands for, with the arguments that it gets. -/
def load (h : Host) : Nat → Chars → List Chars → Except IoError (Chars × List Chars)
  | 0, _, _ => .error .tooManyLinks
  | depth + 1, path, args => do
    match ← h.entry (Chars.toPath path) with
    | (_, .file f) =>
      if !f.allows .run then .error .notPermitted
      else match ofContent f.content with
        | none => .error .notAProgram
        | some (.program name) => .ok (name, args)
        | some (.script interpreter argument) =>
          load h depth interpreter ([interpreter] ++ argument.toList ++ [path] ++ args.tail)
    | _ => .error .notPermitted

/-! ## Finding programs -/

/-- The program that a path stands for among those of a machine, with the arguments that it gets. -/
def start (programs : Chars → Option Program) (h : Host) (path : Chars) (args : List Chars) :
    Except IoError (Program × List Chars) := do
  let (name, args) ← load h scriptDepth path args
  match programs name with
  | some p => .ok (p, args)
  | none => .error .notAProgram

/-- The value of a variable in an environment. -/
def valueIn? (env : List Chars) (name : Chars) : Option Chars :=
  env.findSome? fun e ↦
    if (name ++ ['=']).isPrefixOf e then some (e.drop (name.length + 1)) else none

/-- The variables that say what characters are, the first one that is set before the others. -/
def localeNames : List String := ["LC_ALL", "LC_CTYPE", "LANG"]

/-- Whether text is UTF-8 in an environment. -/
def isWideIn (env : List Chars) : Bool :=
  let values := (localeNames.filterMap fun n ↦ valueIn? env n.toList).filter (· ≠ [])
  match (values.headD []).span (· ≠ '.') with
  | (['C'], '.' :: code) =>
    (code.filter Char.isAlphanum).map Char.toLower = "utf8".toList
  | _ => false

/-- The directories that are searched where the environment does not say. -/
def defaultSearchPath : Chars := "/bin:/usr/bin".toList

/-- The paths under which the directories of a search path can hold a program. -/
def candidates (search file : Chars) : List Chars :=
  if file = [] then []
  else (Chars.splitOn (· = ':') search).map fun dir ↦
    if dir = [] then file else dir ++ '/' :: file

/-- The errors after which the search for a program goes on. -/
def isPassed (e : IoError) : Bool :=
  e = .notPermitted || e = .notFound || e = .notADirectory

/-- The first of some files that can be run.  A file that may not be run is the reason why none can
if it is met. -/
def firstOf {α : Type} (start : Chars → Except IoError α) (denied : Bool) (last : IoError) :
    List Chars → Except IoError α
  | [] => .error (if denied then .notPermitted else last)
  | path :: paths =>
    match start path with
    | .ok a => .ok a
    | .error e =>
      if isPassed e then firstOf start (denied || e = .notPermitted) e paths else .error e

/-- The program that is found by its name in an environment. -/
def find {α : Type} (start : Chars → Except IoError α) (env : List Chars) (file : Chars) :
    Except IoError α :=
  if file.contains '/' then start file
  else if nameLimit < file.length then .error .nameTooLong
  else firstOf start false .notFound
    (candidates ((valueIn? env "PATH".toList).getD defaultSearchPath) file)

/-- The shell, which runs files that are no programs. -/
def shellPath : Chars := "/bin/sh".toList

/-- The same as `start`, where a file that is no program is a script of the shell. -/
def startScript (programs : Chars → Option Program) (h : Host) (args : List Chars)
    (path : Chars) : Except IoError (Program × List Chars) :=
  match start programs h path args with
  | .error e =>
    if e = .notAProgram && path ≠ shellPath then
      start programs h shellPath (shellPath :: path :: args.tail)
    else .error e
  | started => started

/-! ## Room for arguments -/

/-- How long an argument can be. -/
def argumentLimit : Nat := 131071

/-- How much room the arguments and the environment of a program have together. -/
def argumentRoom : Nat := 2097152

/-- The room that a text among the arguments takes. -/
def roomOf (a : Chars) : Nat := a.length + 9

/-- Whether the arguments and the environment of a program are more than it can get. -/
def isTooMuch (args env : List Chars) : Bool :=
  let all := args ++ env
  all.any (argumentLimit < ·.length) || argumentRoom < (all.map roomOf).foldl (· + ·) 0

end Image

namespace Routine

/-- Goes on with a program that is found in the files, in the place of the routine.  A value is the
reason why there is none. -/
def becomeFound (find : Host → Except IoError (Program × List Chars)) (env : List Chars) :
    Routine IoError := fun next ↦
  .step fun p m ↦ match find (m.hostOf p) with
    | .error e => some (m, next e)
    | .ok (program, args) =>
      if Image.isTooMuch args env then some (m, next .tooManyArguments)
      else some (m.renew p (Image.isWideIn env), (program args env).toThread)

/-- Goes on with the file at a path, which is a script of the shell if it is no program. -/
def become (programs : Chars → Option Program) (args env : List Chars) (path : Chars) :
    Routine IoError := becomeFound (Image.startScript programs · args path) env

/-- Goes on with a program that is found by its name in the environment. -/
def becomeByName (programs : Chars → Option Program) (args env : List Chars) : Routine IoError :=
  becomeFound (fun h ↦ Image.find (Image.startScript programs h args) env (args.headD [])) env

end Routine

end ContractBuild
