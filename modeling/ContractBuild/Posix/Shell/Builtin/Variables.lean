import ContractBuild.Posix.Shell.Builtin.Basic

/-!
# Commands for variables, options and arguments
-/

namespace ContractBuild.Shell.Builtin

/-- The name and the value of a word that can be an assignment. -/
def assignmentOf (w : Chars) : Chars × Option Chars :=
  match w.span (· ≠ '=') with
  | (name, _ :: value) => (name, some value)
  | (name, []) => (name, none)

/-! ## Marks of variables -/

/-- Variables in the order of their names. -/
def sorted (vs : List Variable) : List Variable :=
  vs.mergeSort fun v w ↦ !Chars.isBefore w.name v.name

/-- A variable as a command that makes it again. -/
def shown (command : Chars) (v : Variable) : Chars :=
  let value := match v.value with
    | some cs => '=' :: quoted cs
    | none => []
  (if command = [] then [] else command ++ [' ']) ++ v.name ++ value

/-- Marks a variable, which gets a value if one is given. -/
def mark (change : Option Chars → Change) (marked : Variable → Variable) (w : Chars) :
    Action Unit := do
  let (name, value) := assignmentOf w
  match value, (← Action.state).variableOf? name with
  | none, some v => Action.modify (·.withVariable (marked v))
  | value, _ => withName name (changeVariable name (change value))

/-- Marks variables, or shows the ones that are marked. -/
def markAll (command : String) (isMarked : Variable → Bool) (change : Option Chars → Change)
    (marked : Variable → Variable) : Builtin := fun args ↦ do
  let (options, names) ← options ⟨['p'], []⟩ args
  if options.isEmpty && !names.isEmpty then
    Action.forEach (mark change marked) names
    return 0
  else
    let vs := sorted ((← Action.state).bindings.filter isMarked)
    finishLines (vs.map (shown command.toList)) 0

/-- Lets programs see variables. -/
def exportNames : Builtin := markAll "export" (·.isExported) (⟨·, true, false⟩)
  fun v ↦ { v with isExported := true }

/-- Fixes the values of variables. -/
def fixNames : Builtin := markAll "readonly" (·.isReadOnly) (⟨·, false, true⟩)
  fun v ↦ { v with isReadOnly := true }

/-- Has a variable put back after a function, or the options. -/
def keepForFunction (w : Chars) : Action Unit := do
  if w = ['-'] then Action.modify fun s ↦
    match s.locals with
    | [] => s
    | top :: rest => { s with locals := (.options s.options :: top) :: rest }
  else
    let (name, value) := assignmentOf w
    saveVariable name
    match value with
    | some _ => setVariable name value false
    | none => if ((← Action.state).variableOf? name).isNone then withName name (pure ())

/-- Has variables put back after a function. -/
def localNames : Builtin := fun args ↦ do
  if (← Action.state).locals = [] then fail "not in a function".toList
  Action.forEach keepForFunction args
  return 0

/-- Takes variables or functions away. -/
def unset : Builtin := fun args ↦ do
  let (options, names) ← options ⟨['v', 'f'], []⟩ args
  if (options.getLast?.map (·.1)) = some 'f' then
    Action.modify fun s ↦ { s with functions := s.functions.filter (!names.contains ·.1) }
  else Action.forEach unsetVariable names
  return 0

/-! ## Options of the shell -/

/-- The names of the options that have one, each with its letter. -/
def optionNames : List (String × Char) :=
  [("errexit", 'e'), ("noglob", 'f'), ("ignoreeof", 'I'), ("interactive", 'i'), ("monitor", 'm'),
    ("noexec", 'n'), ("stdin", 's'), ("xtrace", 'x'), ("verbose", 'v'), ("vi", 'V'),
    ("emacs", 'E'), ("noclobber", 'C'), ("allexport", 'a'), ("notify", 'b'), ("nounset", 'u'),
    ("privileged", 'p')]

/-- The names of options that mean nothing here. -/
def idleNames : List String := ["nolog", "debug"]

/-- Shows all options. -/
def showOptions (s : State) (asCommands : Bool) : Chars :=
  let all := optionNames.map (fun e ↦ (e.1, s.has e.2)) ++ idleNames.map (·, false)
  if asCommands then
    all.flatMap fun (name, isSet) ↦
      Chars.line ((if isSet then "set -o " else "set +o ").toList ++ name.toList)
  else
    "Current option settings\n".toList ++ all.flatMap fun (name, isSet) ↦
      Chars.line (name.toList ++ List.replicate (16 - name.length) ' ' ++
        (if isSet then "on" else "off").toList)

/-- Sets an option by its name, or shows all of them. -/
def setNamed (isSet : Bool) : Option Chars → Action Unit
  | none => do
    let _ ← finish (showOptions (← Action.state) !isSet) 0
  | some name =>
    match optionNames.lookup (Chars.toString name) with
    | some letter => Action.modify (·.withOption letter isSet)
    | none =>
      if isAmong name then pure () else fail ("Illegal option -o ".toList ++ name)
where
  /-- Whether a name is one of an option that means nothing. -/
  isAmong (name : Chars) : Bool := idleNames.contains (Chars.toString name)

/-- Sets an option by its letter. -/
def setLetter (letter : Char) (isSet : Bool) : Action Unit :=
  if State.optionLetters.contains letter then Action.modify (·.withOption letter isSet)
  else fail ("Illegal option -".toList ++ [letter])

/-- What is left once options have been set. -/
structure Set where
  /-- The arguments behind them. -/
  rest : List Chars
  /-- Whether a word ended them. -/
  isEnded : Bool
  /-- The letters that were no options of a running shell. -/
  others : List Char

/-- Sets what the letters of one word say; they can use the names behind it. -/
def setLetters (isSet : Bool) (isOther : Char → Bool) : Chars → List Chars → Action Set
  | [], args => return ⟨args, false, []⟩
  | c :: cs, args => do
    if isOther c then
      let r ← setLetters isSet isOther cs args
      return { r with others := c :: r.others }
    else if c = 'o' then
      setNamed isSet args.head?
      setLetters isSet isOther cs args.tail
    else
      setLetter c isSet
      setLetters isSet isOther cs args

/-- Sets options.  Every step takes an argument. -/
def setOptions (isOther : Char → Bool) : Nat → List Chars → Action Set
  | 0, args => return ⟨args, false, []⟩
  | n + 1, args => do
    let goOn := fun (isSet : Bool) (cs : Chars) (rest : List Chars) ↦ do
      let first ← setLetters isSet isOther cs rest
      let r ← setOptions isOther n first.rest
      return { r with others := first.others ++ r.others }
    match args with
    | ['-'] :: rest =>
      Action.modify fun s ↦ (s.withOption 'x' false).withOption 'v' false
      return ⟨rest, false, []⟩
    | ['-', '-'] :: rest => return ⟨rest, true, []⟩
    | ('-' :: cs) :: rest => goOn true cs rest
    | ('+' :: cs) :: rest => goOn false cs rest
    | args => return ⟨args, false, []⟩

/-- The state with other arguments, from which options are read anew. -/
def withArgs (s : State) (args : List Chars) : State := { s with args, optionPlace := (1, none) }

/-- Sets options and arguments, or shows all variables. -/
def set : Builtin := fun args ↦ do
  let s ← Action.state
  if args = [] then
    finishLines ((sorted (s.bindings.filter (·.value.isSome))).map (shown [])) 0
  else
    let r ← setOptions (fun _ ↦ false) args.length args
    if r.isEnded || r.rest ≠ [] then Action.modify (withArgs · r.rest)
    return 0

/-! ## Arguments -/

/-- Drops arguments. -/
def shift : Builtin := fun args ↦ do
  let n ← match args with
    | [] => pure 1
    | a :: _ => countOf a
  let s ← Action.state
  if s.args.length < n then fail "can't shift that many".toList
  Action.modify (withArgs · (s.args.drop n))
  return 0

/-- A letter of an option with what is left of its word, and the number of the argument behind
that. -/
def nextLetter (args : List Chars) (place : Nat × Option Nat) : Nat × Option (Char × Chars) :=
  let fresh : Nat × Option (Char × Chars) :=
    match args[place.1 - 1]? with
    | some ['-', '-'] => (place.1 + 1, none)
    | some ('-' :: c :: cs) => (place.1 + 1, some (c, cs))
    | _ => (place.1, none)
  match place with
  | (n + 2, some k) =>
    match (args[n]?.getD []).drop k with
    | c :: cs => (n + 2, some (c, cs))
    | [] => fresh
  | _ => fresh

/-- How the letters of a script's options say whether one has an argument; nothing if it is not
among them. -/
def takesArgument? (c : Char) : List Char → Option Bool
  | [] => none
  | d :: ':' :: ds => if d = c then some true else takesArgument? c ds
  | d :: ds => if d = c then some false else takesArgument? c ds

/-- Sets what a script gets to know of an option. -/
def tellOption (name : Chars) (letter : Char) (argument : Option Chars) (next : Nat)
    (left : Option Chars) (args : List Chars) (status : Nat) : Action Nat := do
  match argument with
  | some a => setVariable "OPTARG".toList (some a) false
  | none => unsetVariable "OPTARG".toList
  setVariable "OPTIND".toList (some (Chars.ofNat next)) false
  withName name (setVariable name (some [letter]) false)
  let offset := left.map fun cs ↦ (args[next - 2]?.getD []).length - cs.length
  Action.modify fun s ↦ { s with optionPlace := (next, offset) }
  return status

/-- Finds the next option of a script among some arguments. -/
def nextOption (letters name : Chars) (args : List Chars) : Action Nat := do
  let isQuiet := letters.head? = some ':'
  let place := (← Action.state).optionPlace
  let place := if args.length + 1 < place.1 then (1, none) else place
  match nextLetter args place with
  | (next, none) =>
    setVariable "OPTIND".toList (some (Chars.ofNat next)) false
    withName name (setVariable name (some ['?']) false)
    Action.modify fun s ↦ { s with optionPlace := (next, none) }
    return 1
  | (next, some (c, cs)) =>
    let tell := fun (letter : Char) (a : Option Chars) (next : Nat) (left : Option Chars) ↦
      tellOption name letter a next left args 0
    match takesArgument? c letters with
    | none =>
      if isQuiet then tell '?' (some [c]) next (some cs)
      else
        Routine.complain (Chars.line ("Illegal option -".toList ++ [c]))
        tell '?' none next (some cs)
    | some false => tell c (some []) next (some cs)
    | some true =>
      if cs ≠ [] then tell c (some cs) next none
      else match args[next - 1]? with
        | some a => tell c (some a) (next + 1) none
        | none =>
          if isQuiet then tell ':' (some [c]) next none
          else
            Routine.complain (Chars.line ("No arg for -".toList ++ c :: " option".toList))
            tell '?' none next none

/-- Finds the next option of a script. -/
def getopts : Builtin
  | [letters, name] => do nextOption letters name (← Action.state).args
  | letters :: name :: args => nextOption letters name args
  | _ => fail "Usage: getopts optstring var [arg...]".toList

end ContractBuild.Shell.Builtin
