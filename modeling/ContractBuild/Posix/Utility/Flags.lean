import ContractBuild.Posix.Text.Chars

/-!
# Options of utilities

Options are single letters behind a dash, which can be grouped, or names behind two dashes, which
can be shortened as long as they stay unambiguous.  Two dashes alone end them.
-/

namespace ContractBuild.Utility

/-- Whether an option has an argument. -/
inductive Arity
  /-- It has none. -/
  | none
  /-- It has one. -/
  | required
  /-- It can have one, which must be written together with it. -/
  | optional
  deriving DecidableEq, Repr

/-- An option. -/
structure Flag where
  /-- The letter by which it is known. -/
  letter : Char
  /-- Its name; empty if it has none. -/
  name : String
  /-- Whether it has an argument. -/
  arity : Arity

/-- The options and the other arguments of a call. -/
structure Call where
  /-- The letters of the options, each with its argument, in their order. -/
  flags : List (Char × Chars)
  /-- The other arguments. -/
  operands : List Chars

namespace Call

/-- Whether an option is set. -/
def has (c : Call) (letter : Char) : Bool := c.flags.any (·.1 = letter)

/-- The last argument of an option, if it is set. -/
def value? (c : Call) (letter : Char) : Option Chars := c.flags.reverse.lookup letter

/-- The last of some options that is set. -/
def lastOf? (c : Call) (letters : List Char) : Option Char :=
  (c.flags.filter fun f ↦ letters.contains f.1).getLast?.map (·.1)

/-- The call with one option more in front. -/
def withFlag (letter : Char) (argument : Chars) (c : Call) : Call :=
  { c with flags := (letter, argument) :: c.flags }

/-- The call with one other argument more in front. -/
def withOperand (a : Chars) (c : Call) : Call := { c with operands := a :: c.operands }

end Call

/-- Options without arguments, each a letter with a name. -/
def plainFlags (es : List (Char × String)) : List Flag := es.map fun e ↦ ⟨e.1, e.2, .none⟩

/-- Options with arguments, each a letter with a name. -/
def valueFlags (es : List (Char × String)) : List Flag := es.map fun e ↦ ⟨e.1, e.2, .required⟩

namespace Flag

/-- The least letter that can be written; options below it have only a name. -/
def leastLetter : Char := '!'

/-- The options that a name behind two dashes stands for. -/
def named (flags : List Flag) (name : Chars) : List Flag :=
  match flags.filter fun f ↦ f.name ≠ "" && f.name.toList = name with
  | [] => flags.filter fun f ↦ f.name ≠ "" && name.isPrefixOf f.name.toList
  | found => found.take 1

/-- What is wrong with a name. -/
def wrongName (flags : List Flag) (written name : Chars) : Chars :=
  match named flags name with
  | [] => "unrecognized option '".toList ++ written ++ ['\'']
  | found => "option '--".toList ++ name ++ "' is ambiguous; possibilities:".toList ++
      found.flatMap fun f ↦ " '--".toList ++ f.name.toList ++ ['\'']

/-- An option that is written with its name, and the arguments behind it. -/
def readName (flags : List Flag) (written : Chars) (args : List Chars) :
    Except Chars ((Char × Chars) × List Chars) :=
  let (name, value) := written.span (· ≠ '=')
  let full := "--".toList ++ written
  match named flags name with
  | [f] =>
    let shown := "option '--".toList ++ f.name.toList ++ ['\'']
    match f.arity, value, args with
    | .none, [], args => .ok ((f.letter, []), args)
    | .none, _ :: _, _ => .error (shown ++ " doesn't allow an argument".toList)
    | _, _ :: value, args => .ok ((f.letter, value), args)
    | .optional, [], args => .ok ((f.letter, []), args)
    | .required, [], a :: args => .ok ((f.letter, a), args)
    | .required, [], [] => .error (shown ++ " requires an argument".toList)
  | _ => .error (wrongName flags full name)

/-- The options in a group of letters, and the arguments behind them. -/
def readLetters (flags : List Flag) :
    Chars → List Chars → Except Chars (List (Char × Chars) × List Chars)
  | [], args => .ok ([], args)
  | c :: cs, args =>
    match flags.find? fun f ↦ f.letter = c && leastLetter ≤ c with
    | none => .error ("invalid option -- '".toList ++ c :: ['\''])
    | some f =>
      match f.arity, cs, args with
      | .none, cs, args => do
        let (rest, args) ← readLetters flags cs args
        return ((c, []) :: rest, args)
      | .optional, cs, args => .ok ([(c, cs)], args)
      | .required, [], [] => .error ("option requires an argument -- '".toList ++ c :: ['\''])
      | .required, [], a :: args => .ok ([(c, a)], args)
      | .required, cs, args => .ok ([(c, cs)], args)

/-- The options and the other arguments of a call; options behind another argument count only if
`isMixed` says so.  Every step takes an argument. -/
def readFrom (flags : List Flag) (isMixed : Bool) : Nat → List Chars → Except Chars Call
  | 0, args => .ok ⟨[], args⟩
  | n + 1, args =>
    match args with
    | [] => .ok ⟨[], []⟩
    | ['-', '-'] :: rest => .ok ⟨[], rest⟩
    | ('-' :: '-' :: name) :: rest => do
      let (flag, rest) ← readName flags name rest
      return (← readFrom flags isMixed n rest).withFlag flag.1 flag.2
    | ('-' :: c :: cs) :: rest => do
      let (found, rest) ← readLetters flags (c :: cs) rest
      let call ← readFrom flags isMixed n rest
      return { call with flags := found ++ call.flags }
    | a :: rest =>
      if isMixed then do return (← readFrom flags isMixed n rest).withOperand a
      else .ok ⟨[], a :: rest⟩

/-- The options and the other arguments of a call. -/
def read (flags : List Flag) (isMixed : Bool) (args : List Chars) : Except Chars Call :=
  readFrom flags isMixed (args.length + 1) args

/-- Letters in a group, an argument, and an option behind another argument. -/
example : (read [⟨'a', "all", .none⟩, ⟨'n', "lines", .required⟩] true
    ["-an3".toList, ['x'], "--li".toList, ['4']]).toOption.map (·.flags) =
    some [('a', []), ('n', ['3']), ('n', ['4'])] := by decide +kernel

end Flag

end ContractBuild.Utility
