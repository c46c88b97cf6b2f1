import ContractBuild.Posix.Shell.Evaluation.Command

/-!
# Simple commands

The words of a simple command are expanded first, as far as it takes to know what its name means
and then the others.  Redirections and assignments follow, in this order, and are undone when the
command is over, unless it is one for which they last.
-/

namespace ContractBuild.Shell.Context

/-! ## Words -/

/-- The fields of the first of some words that becomes any, and the words behind it. -/
def firstFields (c : Context) : List Word → Action (List Chars × List Word)
  | [] => return ([], [])
  | w :: ws => do
    match ← Expansion.fields c.outputOf w with
    | [] => firstFields c ws
    | fields => return (fields, ws)

/-- What is known of a command while its words are expanded. -/
structure Known where
  /-- All fields so far. -/
  fields : List Chars
  /-- The name of the command and its arguments. -/
  args : List Chars
  /-- The words that are left. -/
  words : List Word
  /-- What the name means, if there is one. -/
  meaning : Option Meaning
  /-- Whether the first name is one of a special command of the shell; nothing if it is no command
  of the shell. -/
  isSpecial : Option Bool
  /-- Whether functions count. -/
  allowsFunctions : Bool
  /-- The search path, if it is not the usual one. -/
  search : Option Chars

namespace Known

/-- The name of the command. -/
def name (k : Known) : Chars := k.args.headD []

/-- Whether the command is this one of the shell. -/
def isCommand (k : Known) (names : List String) : Bool :=
  match k.meaning with
  | some .builtin => isAmong k.name names
  | _ => false

/-- Whether errors of the command are fatal. -/
def isFatal (k : Known) : Bool := k.isSpecial = some true

/-- Whether assignments are undone when the command is over. -/
def hasLocals (k : Known) : Bool := !k.args.isEmpty && !k.isFatal

end Known

/-- The same with a field more at the front of what is left, if there is one. -/
def Known.fill (c : Context) (k : Known) : Action (Option Known) := do
  match k.args with
  | _ :: _ => return some k
  | [] =>
    match ← firstFields c k.words with
    | ([], _) => return none
    | (fields, words) => return some { k with fields := k.fields ++ fields, args := fields, words }

/-- Goes behind the options of the command that looks for another one without functions; nothing
if there is no such command.  Every step takes a field. -/
def Known.behindOptions (c : Context) : Nat → Known → Action (Option Known)
  | 0, _ => return none
  | n + 1, k => do
    match ← k.fill c with
    | none => return none
    | some k =>
      match k.args with
      | ['-', '-'] :: rest => Known.fill c { k with args := rest }
      | ('-' :: l :: ls) :: rest =>
        if (l :: ls).all (· = 'p') then
          behindOptions c n { k with args := rest, search := some Lookup.usualSearchPath }
        else return none
      | _ => return some k

/-- How many names of commands are looked up at most. -/
def nameLimit : Nat := 1000

/-- Finds out what the name of a command means. -/
def Known.resolve (c : Context) : Nat → Known → Action Known
  | 0, k => return k
  | n + 1, k => do
    let s ← Action.state
    let meaning ← Lookup.meaning (k.search.getD (Lookup.searchPath s)) k.name k.allowsFunctions
    let k := { k with meaning := some meaning }
    match meaning with
    | .builtin =>
      let k := { k with isSpecial := some (k.isSpecial.getD (Shell.isSpecial k.name)) }
      if k.name ≠ "command".toList then return k
      let next := { k with args := k.args.tail, allowsFunctions := false }
      match ← Known.behindOptions c nameLimit next with
      | some next => resolve c n next
      | none => return k
    | _ => return { k with isSpecial := some (k.isSpecial.getD false) }

/-- The fields of a word that is an argument of the command. -/
def Known.fieldsOf (c : Context) (k : Known) (w : Word) : Action (List Chars) :=
  if k.isCommand assigningCommands && (assignment? w).isSome then
    (fun cs ↦ [cs]) <$> Expansion.text c.outputOf .assignment w
  else Expansion.fields c.outputOf w

/-- Expands the words of a command. -/
def expand (c : Context) (words : List Word) : Action Known := do
  let (fields, words) ← firstFields c words
  let k : Known := ⟨fields, fields, words, none, none, true, none⟩
  if fields = [] then return k
  let k ← k.resolve c nameLimit
  let rest := (← Action.forAll (k.fieldsOf c) k.words).flatten
  return { k with fields := k.fields ++ rest, args := k.args ++ rest, words := [] }

/-! ## Assignments -/

/-- Carries out an assignment and gives it back as a text. -/
def assignFor (c : Context) (hasLocals isExported : Bool) (w : Word) : Action Chars := do
  match assignment? w with
  | none => return []
  | some (name, _) =>
    let text ← Expansion.text c.outputOf .assignment w
    if hasLocals then saveVariable name
    setVariable name (some (text.drop (name.length + 1))) (hasLocals || isExported)
    return text

/-! ## Tracing -/

/-- The text in front of a traced command. -/
def tracePrompt (c : Context) : Action Chars := do
  let s ← Action.state
  let text := (s.valueOf? "PS4".toList).getD []
  let reading := (Reader.grammar Reader.nestingLimit).inner
  match Reader.documentWord reading text (Reader.start text s.aliases s.nextDocument) with
  | .error _ => return text
  | .ok (w, r) =>
    Action.modify fun s ↦ { s with
      isTracing := true
      documents := r.documents ++ s.documents
      nextDocument := r.nextDocument }
    let prompt ← Expansion.text c.outputOf .raw w
    Action.modify fun s ↦ { s with isTracing := false }
    return prompt

/-- Says which command is run, if that is wanted.  It is said where errors went before the
redirections of the command. -/
def trace (c : Context) (words : List Chars) : Action Unit := do
  let s ← Action.state
  if s.has 'x' && !s.isTracing then
    let prompt ← tracePrompt c
    let number := match (s.saved.headD []).lookup 2 with
      | some (some k) => k
      | _ => 2
    let _ ← (Routine.print number (Chars.line (prompt ++ Chars.join [' '] words)) : Routine _)

/-! ## Running -/

/-- Runs a command whose words are known, once everything is arranged for it. -/
def runKnown (c : Context) (how : How) (k : Known) : Action Nat := do
  let s ← Action.state
  match k.meaning with
  | none => return s.outputStatus
  | some .builtin => c.runBuiltin how k.isFatal k.args
  | some _ =>
    match ← Lookup.meaning (k.search.getD (Lookup.searchPath s)) k.name k.allowsFunctions with
    | .function body => c.runFunction how body k.args
    | .builtin => c.runBuiltin how k.isFatal k.args
    | .program paths =>
      if k.search.isNone then Builtin.track k.name
      c.runProgram how paths k.args
    | .nothing e =>
      warn (k.name ++ ": ".toList ++ Lookup.reason e)
      return 127

/-- Runs a simple command. -/
def runSimple (c : Context) (how : How) (assignments words : List Word)
    (redirections : List Redirection) : Action Nat := do
  Action.modify fun s ↦ { s with outputStatus := 0 }
  let k ← c.expand words
  let isExec := k.isCommand ["exec"]
  let locals ← enterLocals k.hasLocals
  let ready ← Redirection.readyAll c.outputOf redirections
  let aside := (← Action.state).saved.length
  Redirection.enter
  let refused ← Redirection.tryAll ready
  let status ← (if refused ≠ 0 then do
      Action.modify fun s ↦ { s with status := refused }
      if k.isFatal then Action.interrupt .error
      return refused
    else do
      let assigned ← Action.forAll (c.assignFor k.hasLocals (isExec && 1 < k.args.length))
        assignments
      c.trace (assigned ++ k.fields)
      c.runKnown how k : Action Nat)
  Redirection.leaveTo (aside + 1)
  Redirection.leave isExec
  leaveLocals locals
  return status

end ContractBuild.Shell.Context
