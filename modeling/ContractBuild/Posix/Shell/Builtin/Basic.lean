import ContractBuild.Posix.Shell.Variables

/-!
# Commands of the shell

What the commands have in common that a shell carries out itself: their options, their output, and
the form in which they show values.
-/

namespace ContractBuild.Shell

/-- What a command of the shell does with its arguments; the value is its status. -/
abbrev Builtin := List Chars → Action Nat

namespace Builtin

/-! ## Options -/

/-- The letters that are options, with the ones that have an argument. -/
structure Letters where
  /-- The options without an argument. -/
  plain : List Char
  /-- The options with an argument. -/
  withArgument : List Char

/-- No options at all. -/
def Letters.none : Letters := ⟨[], []⟩

/-- The options in front of some arguments, each with its own argument, and the arguments behind
them.  The word is what is left of a group of options.  Every step takes a character or an
argument. -/
def optionsFrom (ls : Letters) :
    Nat → Chars → List Chars → Except Chars (List (Char × Chars) × List Chars)
  | 0, _, args => .ok ([], args)
  | n + 1, [], args =>
    match args with
    | ('-' :: c :: cs) :: rest =>
      if c = '-' && cs = [] then .ok ([], rest) else optionsFrom ls n (c :: cs) rest
    | args => .ok ([], args)
  | n + 1, c :: cs, args =>
    if ls.plain.contains c then do
      let (options, rest) ← optionsFrom ls n cs args
      return ((c, []) :: options, rest)
    else if !ls.withArgument.contains c then .error ("Illegal option -".toList ++ [c])
    else match cs, args with
      | [], [] => .error ("No arg for -".toList ++ c :: " option".toList)
      | [], a :: args => do
        let (options, rest) ← optionsFrom ls n [] args
        return ((c, a) :: options, rest)
      | cs, args => do
        let (options, rest) ← optionsFrom ls n [] args
        return ((c, cs) :: options, rest)

/-- The options in front of some arguments, and the arguments behind them. -/
def options (ls : Letters) (args : List Chars) : Action (List (Char × Chars) × List Chars) :=
  match optionsFrom ls ((args.map (·.length + 1)).foldl (· + ·) 0 + 1) [] args with
  | .ok r => pure r
  | .error message => fail message

/-- The arguments behind the end of the options, where there are none. -/
def operands (args : List Chars) : Action (List Chars) := return (← options .none args).2

/-! ## Output -/

/-- Writes the output of a command and gives its status, which says too whether that was
possible. -/
def finish (output : Chars) (status : Nat) : Action Nat := do
  match ← (Routine.print 1 output : Routine _) with
  | .ok () => return status
  | .error _ =>
    warn (((← Action.state).command.getD []) ++ ": I/O error".toList)
    return status ||| 1

/-- Writes the lines of a command. -/
def finishLines (lines : List Chars) (status : Nat) : Action Nat :=
  finish (lines.flatMap Chars.line) status

/-- A text in quotes, so that it can be read again. -/
def quoted (cs : Chars) : Chars :=
  go cs.length cs
where
  /-- The same for a part of the text, which gets shorter in every step. -/
  go : Nat → Chars → Chars
    | 0, _ => ['\'', '\'']
    | n + 1, cs =>
      let plain := cs.takeWhile (· ≠ '\'')
      let quotes := (cs.drop plain.length).takeWhile (· = '\'')
      let rest := cs.drop (plain.length + quotes.length)
      let shown := '\'' :: plain ++ ['\'']
      if quotes = [] then shown
      else shown ++ '"' :: quotes ++ '"' :: if rest = [] then [] else go n rest

/-- A quote is shown in quotes of the other kind. -/
example : quoted "a'b".toList = "'a'\"'\"'b'".toList := by decide +kernel

/-- Options end before the first argument that is none. -/
example : (optionsFrom ⟨['r'], ['p']⟩ 20 [] ["-rp".toList, ['x'], ['y']]).toOption =
    some ([('r', []), ('p', ['x'])], [['y']]) := by decide +kernel

end Builtin

end ContractBuild.Shell
