import ContractBuild.Posix.Shell.Builtin.Basic
import ContractBuild.Posix.Shell.Lookup

/-!
# Commands about the meaning of names
-/

namespace ContractBuild.Shell.Builtin

/-! ## Aliases -/

/-- An alias as the command that makes it. -/
def shownAlias (e : Chars × Chars) : Chars := e.1 ++ '=' :: quoted e.2

/-- The aliases in the order in which they are shown. -/
def allAliases (s : State) : List (Chars × Chars) :=
  (List.range 39).flatMap fun k ↦ s.aliases.filter fun e ↦ groupOf e.1 = k

/-- The name and the value of a word that defines an alias. -/
def aliasOf? (w : Chars) : Option (Chars × Chars) :=
  match w with
  | [] => none
  | c :: cs =>
    match cs.span (· ≠ '=') with
    | (name, _ :: value) => some (c :: name, value)
    | (_, []) => none

/-- The state with an alias in the place of the one of that name, or behind all others. -/
def withAlias (s : State) (name value : Chars) : State :=
  if s.aliases.any (·.1 = name) then
    { s with aliases := s.aliases.map fun e ↦ if e.1 = name then (name, value) else e }
  else { s with aliases := s.aliases ++ [(name, value)] }

/-- Says that an alias does not exist. -/
def complainAlias (command : String) (name : Chars) : Action Unit :=
  Routine.complain (Chars.line (command.toList ++ ": ".toList ++ name ++ " not found".toList))

/-- Defines aliases or shows them.  The lines to be shown and the status come before the
arguments. -/
def aliasFrom : List Chars → Nat → List Chars → Action Nat
  | shown, status, [] => finishLines shown.reverse status
  | shown, status, w :: ws => do
    match aliasOf? w with
    | some (name, value) =>
      Action.modify (withAlias · name value)
      aliasFrom shown status ws
    | none =>
      match (← Action.state).aliases.find? (·.1 = w) with
      | some e => aliasFrom (shownAlias e :: shown) status ws
      | none =>
        complainAlias "alias" w
        aliasFrom shown 1 ws

/-- Defines aliases or shows them. -/
def aliasCommand : Builtin := fun args ↦ do
  if args = [] then finishLines ((allAliases (← Action.state)).map shownAlias) 0
  else aliasFrom [] 0 args

/-- Forgets some aliases; the status comes before the arguments. -/
def unaliasFrom : Nat → List Chars → Action Nat
  | status, [] => return status
  | status, w :: ws => do
    if (← Action.state).aliases.any (·.1 = w) then
      Action.modify fun s ↦ { s with aliases := s.aliases.filter (·.1 ≠ w) }
      unaliasFrom status ws
    else
      complainAlias "unalias" w
      unaliasFrom 1 ws

/-- Forgets aliases. -/
def unalias : Builtin := fun args ↦ do
  let (options, names) ← options ⟨['a'], []⟩ args
  if options.isEmpty then unaliasFrom 0 names
  else
    Action.modify fun s ↦ { s with aliases := [] }
    return 0

/-! ## Descriptions -/

/-- Notes that a program has been found by its name. -/
def track (name : Chars) : Action Unit := Action.modify fun s ↦
  if name.contains '/' || s.tracked.contains name then s
  else { s with tracked := s.tracked ++ [name] }

/-- What a name means, in words or as a word of a command; nothing if it has no meaning. -/
def description? (search : Option Chars) (isVerbose : Bool) (name : Chars) :
    Action (Option Chars) := do
  let s ← Action.state
  let say := fun (what : String) ↦
    some (if isVerbose then name ++ what.toList else name)
  if Token.keywords.contains (Chars.toString name) then return say " is a shell keyword"
  match s.aliases.find? (·.1 = name) with
  | some e => return some (if isVerbose then name ++ " is an alias for ".toList ++ e.2
      else "alias ".toList ++ shownAlias e)
  | none =>
    match ← Lookup.meaning (search.getD (Lookup.searchPath s)) name true with
    | .function _ => return say " is a shell function"
    | .builtin => return say (if isSpecial name then " is a special shell builtin"
        else " is a shell builtin")
    | .nothing _ => return none
    | .program [] => return none
    | .program (path :: _) =>
      if name.contains '/' && !(← (Routine.look (·.pathExists (Chars.toPath path)) : Routine _))
      then return none
      else
        let how := if search.isNone && s.tracked.contains name then " is a tracked alias for "
          else " is "
        if search.isNone then track name
        return some (if isVerbose then name ++ how.toList ++ path else path)

/-- Describes names. -/
def describe (search : Option Chars) (isVerbose : Bool) (names : List Chars) : Action Nat := do
  let described ← Action.forAll (description? search isVerbose) names
  let lines := (names.zip described).flatMap fun (name, d) ↦
    match d with
    | some d => [d]
    | none => if isVerbose then [name ++ ": not found".toList] else []
  finishLines lines (if described.all (·.isSome) then 0 else 127)

/-- Says what names mean. -/
def type : Builtin := describe none true

/-- Looks for programs; the status comes before their names. -/
def hashFrom : Nat → List Chars → Action Nat
  | status, [] => return status
  | status, w :: ws => do
    match ← Lookup.meaning (Lookup.searchPath (← Action.state)) w true with
    | .nothing e =>
      warn (w ++ ": ".toList ++ Lookup.reason e)
      hashFrom 1 ws
    | .program _ =>
      track w
      hashFrom status ws
    | _ => hashFrom status ws

/-- Looks for programs, forgets the ones that were found, or shows them. -/
def hash : Builtin := fun args ↦ do
  let (options, names) ← options ⟨['r'], []⟩ args
  let s ← Action.state
  if !options.isEmpty then
    Action.modify fun s ↦ { s with tracked := [] }
    return 0
  else if names = [] then
    let shown := (List.range 31).flatMap fun k ↦ s.tracked.filter fun w ↦ placeOf w = k
    finishLines ((← Action.forAll (description? none false) shown).filterMap id) 0
  else hashFrom 0 names
where
  /-- The place of a name among those that are shown. -/
  placeOf (w : Chars) : Nat :=
    (w.foldl (fun n c ↦ n + c.toNat) ((w.headD '\x00').toNat * 16)) % 31

end ContractBuild.Shell.Builtin
