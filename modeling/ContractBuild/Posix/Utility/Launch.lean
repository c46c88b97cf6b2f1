import ContractBuild.Posix.Machine.Signal
import ContractBuild.Posix.Utility.Plain

/-!
# Running other programs

Utilities that run a program with something changed: its environment, its time, or its arguments,
which come from an input.
-/

namespace ContractBuild.Utility

/-- Runs a program that is found by its name in a process of its own, behind a preparation.  The
value is the number of the process. -/
def start (programs : Chars → Option Program) (args env : List Chars) (prepare : Routine Unit) :
    Routine (Except IoError Nat) := do
  let found ← Routine.look fun h ↦
    (Image.find (Image.startScript programs h args) env (args.headD [])).map fun _ ↦ ()
  match found with
  | .error e => return .error e
  | .ok () =>
    let child ← Routine.fork do
      prepare
      let _ ← Routine.becomeByName programs args env
      return 127
    return .ok child

/-- Waits for a process; the value is its wait status. -/
def waitFor (child : Nat) : Routine Nat := do
  match ← Routine.wait (· = child) false with
  | .ended _ status => return status
  | _ => return 0

/-- Runs a program to its end; the value is its wait status. -/
def runToEnd (programs : Chars → Option Program) (args env : List Chars)
    (prepare : Routine Unit) : Routine (Except IoError Nat) := do
  match ← start programs args env prepare with
  | .error e => return .error e
  | .ok child => return .ok (← waitFor child)

/-- The words by which the shell runs a command; the first one is the name that it gets. -/
def commandWords (shell command : Chars) : List Chars := [shell, "-c".toList, command]

/-- Starts a command of the shell, behind a preparation.  The value is the number of its process. -/
def startCommand (programs : Chars → Option Program) (shell command : Chars) (env : List Chars)
    (prepare : Routine Unit) : Routine Nat :=
  Routine.fork do
    prepare
    let _ ← Routine.become programs (commandWords shell command) env Image.shellPath
    return 127

/-- The output of a command of the shell, and its wait status. -/
def outputOf (programs : Chars → Option Program) (command : Chars) (env : List Chars) :
    Routine (Bytes × Nat) := do
  let (reader, writer) ← Routine.pipe
  let child ← startCommand programs "sh".toList command env do
    let _ ← Routine.assign 1 writer true
    Routine.close reader
    Routine.close writer
  Routine.close writer
  let content ← Routine.readAll reader
  Routine.close reader
  return (content.toOption.getD [], ← waitFor child)

/-- The code for a program that cannot be run. -/
def codeOfFailure (e : IoError) : Nat := if e = .notFound then 127 else 126

/-- Goes on as another program. -/
def goOnAs (programs : Chars → Option Program) (name : Chars) (words env : List Chars)
    (complaint : Chars) : Routine Nat := do
  let e ← Routine.becomeByName programs words env
  warn name (because complaint e)
  return codeOfFailure e

/-! ## Environments -/

/-- The environment without a variable. -/
def withoutVariable (name : Chars) (env : List Chars) : List Chars :=
  env.filter fun e ↦ !(name ++ ['=']).isPrefixOf e

/-- The environment with an entry, in the place of one of the same name. -/
def withEntry (env : List Chars) (entry : Chars) : List Chars :=
  let start := entry.takeWhile (· ≠ '=') ++ ['=']
  if env.any (start.isPrefixOf ·) then
    env.map fun e ↦ if start.isPrefixOf e then entry else e
  else env ++ [entry]

/-- The words of a text between blanks; quotes and backslashes keep characters together.  The word
at work comes with its last character first. -/
def wordsOf : Option Char → Option Chars → Chars → List Chars
  | _, none, [] => []
  | _, some w, [] => [w.reverse]
  | none, w, '\\' :: c :: cs => wordsOf none (some (c :: w.getD [])) cs
  | some '"', w, '\\' :: c :: cs => wordsOf (some '"') (some (c :: w.getD [])) cs
  | some q, w, c :: cs =>
    if c = q then wordsOf none (some (w.getD [])) cs
    else wordsOf (some q) (some (c :: w.getD [])) cs
  | none, w, c :: cs =>
    if c = '"' || c = '\'' then wordsOf (some c) (some (w.getD [])) cs
    else if c = ' ' || c = '\t' || c = '\n' then
      match w with
      | some v => v.reverse :: wordsOf none none cs
      | none => wordsOf none none cs
    else wordsOf none (some (c :: w.getD [])) cs

/-- The arguments with the words of an option in its place. -/
def withSplitWords : List Chars → List Chars
  | ('-' :: 'S' :: cs) :: rest =>
    if cs = [] then match rest with
      | w :: rest => wordsOf none none w ++ rest
      | [] => [['-', 'S']]
    else wordsOf none none cs ++ rest
  | ('-' :: 'i' :: 'S' :: cs) :: rest => ['-', 'i'] :: wordsOf none none cs ++ rest
  | a :: rest => a :: rest
  | [] => []

/-- Runs a program in a changed environment, or writes the environment. -/
def env (programs : Chars → Option Program) : Program := fun args environment ↦ do
  let name := args.headD []
  let c ← readCall name 125 (plainFlags [('i', "ignore-environment"), ('0', "null"),
    ('v', "debug")] ++ valueFlags [('u', "unset"), ('C', "chdir"), ('S', "split-string")]) false
    (withSplitWords args.tail)
  let (isBare, operands) := match c.operands with
    | ['-'] :: rest => (true, rest)
    | rest => (false, rest)
  let environment := if c.has 'i' || isBare then [] else environment
  let unset := (c.flags.filter fun f ↦ f.1 = 'u').map (·.2)
  let environment := unset.foldl (fun env n ↦ withoutVariable n env) environment
  let entries := operands.takeWhile (·.contains '=')
  let environment := entries.foldl withEntry environment
  if let some dir := c.value? 'C' then
    if let .error e ← Routine.changeDirectory (Chars.toPath dir) then
      fail name 125 (because ("cannot change directory to ".toList ++ quoted dir) e)
  match operands.drop entries.length with
  | [] =>
    emit name (environment.flatMap fun e ↦ e ++ lineEnd c '0')
    return 0
  | words@(command :: _) =>
    let code ← goOnAs programs name words environment (cited command)
    if code = 127 && command.any (fun c ↦ c = ' ' || c = '\t') then
      warn name "use -[v]S to pass options in shebang lines".toList
    return code
where
  /-- How the end of a line is marked. -/
  lineEnd (c : Call) (letter : Char) : Chars := if c.has letter then ['\x00'] else ['\n']

/-- Writes variables of the environment. -/
def printenv : Program := fun args environment ↦ do
  let name := args.headD []
  let c ← readCall name 2 (plainFlags [('0', "null")]) false args.tail
  let last := if c.has '0' then ['\x00'] else ['\n']
  if c.operands = [] then
    emit name (environment.flatMap (· ++ last))
    return 0
  forStatus (fun w ↦ match Image.valueIn? environment w with
    | some v => do
      emit name (v ++ last)
      return 0
    | none => return 1) c.operands

/-! ## Changed circumstances -/

/-- Runs a program with nothing changed that it could notice. -/
def running (flags : List Flag) (code : Nat) (complaint : Chars → Chars)
    (programs : Chars → Option Program) : Program := fun args environment ↦ do
  let name := args.headD []
  let c ← readCall name code flags false args.tail
  match c.operands with
  | [] => missingOperand name code
  | words@(command :: _) => goOnAs programs name words environment (complaint command)

/-- A complaint about a command that cannot be run. -/
def failedToRun (command : Chars) : Chars := "failed to run command ".toList ++ cited command

/-- Runs a program that goes on when its terminal is given up. -/
def nohup (programs : Chars → Option Program) : Program := running [] 125 failedToRun programs

/-- Runs a program with its outputs written at once. -/
def stdbuf (programs : Chars → Option Program) : Program :=
  running (valueFlags [('i', "input"), ('o', "output"), ('e', "error")]) 125 failedToRun programs

/-- Runs a program in a session of its own. -/
def setsid (programs : Chars → Option Program) : Program :=
  running (plainFlags [('c', "ctty"), ('f', "fork"), ('w', "wait")]) 1
    (fun command ↦ "failed to execute ".toList ++ command) programs

/-- Runs a program with less weight. -/
def nice (programs : Chars → Option Program) : Program := fun args environment ↦ do
  let name := args.headD []
  let c ← readCall name 125 (valueFlags [('n', "adjustment")]) false args.tail
  match c.operands with
  | [] =>
    emit name (Chars.line ['0'])
    return 0
  | words@(command :: _) => goOnAs programs name words environment (cited command)

/-! ## Limited time -/

/-- The processes that come from one of these, that one included.  Every step goes one generation
further. -/
def descendants (m : Machine) : Nat → List Nat → List Nat
  | 0, ps => ps
  | n + 1, ps =>
    let isNew := fun (q : Process) ↦ ps.contains q.parent && !ps.contains q.id
    let children := (m.processes.filter isNew).map (·.id)
    if children = [] then ps else descendants m n (ps ++ children)

/-- Sends a signal to a process and to all that come from it. -/
def signalAll (child number : Nat) : Routine Unit := Routine.act fun _ m ↦
  ((), (descendants m m.processes.length [child]).foldl (fun m p ↦ m.signal p number) m)

/-- Waits for a process, but no longer than so many milliseconds. -/
def waitBriefly (child duration : Nat) : Routine (Option Nat) := do
  match ← Routine.waitUntil child ((← Routine.now) + duration) with
  | .ended _ status => return some status
  | .late => return none
  | _ => return some 0

/-- The code of a program that was stopped because its time was over. -/
def lateCode : Nat := 124

/-- Runs a program for a limited time. -/
def timeout (programs : Chars → Option Program) : Program := fun args environment ↦ do
  let name := args.headD []
  let c ← readCall name 125 (plainFlags [('\x01', "foreground"), ('\x02', "preserve-status"),
    ('v', "verbose")] ++ valueFlags [('k', "kill-after"), ('s', "signal")]) false args.tail
  let time := fun (w : Chars) ↦ match duration? w with
    | some t => (pure t : Routine Nat)
    | none => refuse name 125 ("invalid time interval ".toList ++ cited w)
  let number ← match c.value? 's' with
    | none => pure Signal.terminate
    | some w =>
      let short := if "SIG".toList.isPrefixOf (w.map Char.toUpper) then w.drop 3 else w
      match Signal.ofWord? true short with
      | some n => pure n
      | none => refuse name 125 (cited w ++ ": invalid signal".toList)
  let grace ← match c.value? 'k' with
    | none => pure none
    | some w => do pure (some (← time w))
  match c.operands with
  | [] | [_] =>
    pointToHelp name
    return 125
  | limit :: words =>
    let limit ← time limit
    let command := words.headD []
    match ← start programs words environment (pure ()) with
    | .error e =>
      warn name (because (failedToRun command) e)
      return codeOfFailure e
    | .ok child =>
      let first ← if limit = 0 then do pure (some (← waitFor child)) else waitBriefly child limit
      match first with
      | some status => return Signal.codeOf status
      | none =>
        let send := fun (number : Nat) ↦ do
          if c.has 'v' then
            let signal := (Signal.name? number).getD (Chars.ofNat number)
            warn name ("sending signal ".toList ++ signal ++ " to command ".toList ++
              quoted command)
          signalAll child number
        send number
        let status ← match grace with
          | none => waitFor child
          | some t => do
            match ← waitBriefly child t with
            | some status => pure status
            | none => do
              send Machine.killSignal
              waitFor child
        if status % 128 = Machine.killSignal then return 128 + Machine.killSignal
        return if c.has '\x02' then Signal.codeOf status else lateCode

/-! ## Finding programs -/

/-- Writes where programs are. -/
def which : Program := fun args environment ↦ do
  let name := args.headD []
  let c ← readCall name 2 (plainFlags [('a', ""), ('s', "")]) false args.tail
  let search := (Image.valueIn? environment "PATH".toList).getD Image.defaultSearchPath
  if c.operands = [] then Routine.exit 1
  forStatus (fun file ↦ do
    let paths := if file.contains '/' then [file] else Image.candidates search file
    let found ← Routine.look fun h ↦ paths.filter fun p ↦ match h.entry (Chars.toPath p) with
      | .ok (_, .file f) => f.allows .run
      | _ => false
    emitLines name (if c.has 'a' then found else found.take 1)
    return if found = [] then 1 else 0) c.operands

end ContractBuild.Utility
