import ContractBuild.Posix.Shell.State

/-!
# Variables

The values of variables and of the other parameters, and how they change.  A variable whose value
is fixed cannot be changed; a function or a command can change variables for itself and has them
put back afterwards.
-/

namespace ContractBuild.Shell

namespace State

/-- The variable of a name. -/
def variableOf? (s : State) (name : Chars) : Option Variable :=
  s.bindings.find? (·.name = name)

/-- The value of a variable. -/
def valueOf? (s : State) (name : Chars) : Option Chars := (s.variableOf? name).bind (·.value)

/-- Whether an option is set. -/
def has (s : State) (letter : Char) : Bool := s.options.contains letter

/-- The letters of all options, in the order in which they are shown. -/
def optionLetters : List Char := "pubaCEVvxsnmiIfe".toList

/-- The state with an option set or not.  The two ways of editing exclude each other. -/
def withOption (s : State) (letter : Char) (isSet : Bool) : State :=
  let excluded := fun (c : Char) ↦
    isSet && ((letter = 'V' && c = 'E') || (letter = 'E' && c = 'V'))
  { s with options := optionLetters.filter fun c ↦
      if c = letter then isSet else s.options.contains c && !excluded c }

/-- The state with a variable in the place of the one of that name, or behind all others. -/
def withVariable (s : State) (v : Variable) : State :=
  if s.bindings.any (·.name = v.name) then
    { s with bindings := s.bindings.map fun w ↦ if w.name = v.name then v else w }
  else { s with bindings := s.bindings ++ [v] }

/-- The state without a variable. -/
def withoutVariable (s : State) (name : Chars) : State :=
  { s with bindings := s.bindings.filter (·.name ≠ name) }

/-- The blanks between fields where no variable says otherwise. -/
def usualBlanks : Chars := " \t\n".toList

/-- The characters between fields, if a variable says which. -/
def separators? (s : State) : Option Chars := s.valueOf? "IFS".toList

end State

/-- The next option is looked for from an argument on. -/
def restartOptions (number : Nat) : Action Unit :=
  Action.modify fun s ↦ { s with optionPlace := (if number = 0 then 1 else number, none) }

/-- The number that a text spells, if it is one that can be counted with. -/
def countOf? (cs : Chars) : Option Nat :=
  let isBlank := fun (c : Char) ↦ c = ' ' || ('\t' ≤ c && c ≤ '\r')
  let digits := ((cs.dropWhile isBlank).reverse.dropWhile isBlank).reverse
  let digits := match digits with
    | '+' :: ds => ds
    | '-' :: ds => if ds.all (· = '0') then ds else digits
    | ds => ds
  (Chars.toNat? digits).bind fun n ↦ if n < 0x80000000 then some n else none

/-- The number that a text spells. -/
def countOf (cs : Chars) : Action Nat :=
  match countOf? cs with
  | some n => pure n
  | none => fail ("Illegal number: ".toList ++ cs)

/-- What a variable becomes that gets a value or loses it. -/
structure Change where
  /-- The value. -/
  value : Option Chars
  /-- Whether programs are to see it. -/
  isExported : Bool
  /-- Whether the value is to be fixed. -/
  isReadOnly : Bool

/-- What else changes with a variable: the place of the next option, or the programs that have been
found. -/
def afterChange (name : Chars) (value : Option Chars) : Action Unit := do
  if name = "PATH".toList then Action.modify fun s ↦ { s with tracked := [] }
  if name = "OPTIND".toList then
    match value with
    | some v => restartOptions (← countOf v)
    | none => restartOptions 1

/-- Changes a variable.  One without a value is forgotten unless something else is known of it. -/
def changeVariable (name : Chars) (c : Change) : Action Unit := do
  let s ← Action.state
  let before := s.variableOf? name
  if before.any (·.isReadOnly) then fail (name ++ ": is read only".toList)
  let exported := c.isExported || before.any (·.isExported) || s.has 'a'
  if c.value.isNone && !c.isExported && !c.isReadOnly then Action.modify (·.withoutVariable name)
  else Action.modify (·.withVariable ⟨name, c.value, exported, c.isReadOnly⟩)
  afterChange name c.value

/-- Sets a variable, which is exported on demand, or leaves it without a value. -/
def setVariable (name : Chars) (value : Option Chars) (isExported : Bool) : Action Unit :=
  changeVariable name ⟨value, isExported, false⟩

/-- Does something with a name, if it is one. -/
def withName {α : Type} (name : Chars) (f : Action α) : Action α :=
  if isName name then f else fail (name ++ ": bad variable name".toList)

/-- Sets a variable of any name. -/
def assign (name value : Chars) : Action Unit :=
  withName name (setVariable name (some value) false)

/-- The variables that stay known without a value. -/
def lastingNames : List String := ["IFS", "MAIL", "MAILPATH", "OPTIND", "PATH", "PS1", "PS2", "PS4"]

/-- Takes a variable away. -/
def unsetVariable (name : Chars) : Action Unit := withName name do
  let isExported := lastingNames.contains (Chars.toString name) &&
    ((← Action.state).variableOf? name).any (·.isExported)
  changeVariable name ⟨none, isExported, false⟩

/-- Remembers a variable, to put it back later. -/
def saveVariable (name : Chars) : Action Unit := Action.modify fun s ↦
  match s.locals with
  | [] => s
  | top :: rest => { s with locals := (.variable name (s.variableOf? name) :: top) :: rest }

/-- Puts back what was saved. -/
def Saved.restore (s : State) : Saved → State
  | .variable name none => s.withoutVariable name
  | .variable _ (some v) => s.withVariable v
  | .options before => { s with options := before }

/-- Starts to remember what is changed, if that is wanted; the value says how much was remembered
before. -/
def enterLocals (isWanted : Bool) : Action Nat := do
  let depth := (← Action.state).locals.length
  if isWanted then Action.modify fun s ↦ { s with locals := [] :: s.locals }
  return depth

/-- Puts back what has been changed since so much was remembered. -/
def leaveLocals (depth : Nat) : Action Unit := Action.modify fun s ↦
  let count := s.locals.length - depth
  (s.locals.take count).foldl (fun s top ↦ top.foldl Saved.restore s)
    { s with locals := s.locals.drop count }

/-! ## The environment of programs -/

/-- The group in which a variable is handed to programs. -/
def groupOf (name : Chars) : Nat :=
  match name with
  | [] => 0
  | c :: _ => (name.foldl (fun n c ↦ n + c.toNat) (c.toNat * 16)) % 39

/-- What programs see of the variables. -/
def State.environment (s : State) : List Chars :=
  let visible := s.bindings.filter (·.isExported)
  (List.range 39).flatMap fun k ↦
    (visible.filter fun v ↦ groupOf v.name = k).filterMap fun v ↦
      v.value.map fun value ↦ v.name ++ '=' :: value

end ContractBuild.Shell
