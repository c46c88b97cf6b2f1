import ContractBuild.Posix.Text.Chars

/-!
# The syntax of shell scripts

Words, redirections and commands as a script writes them.  A word is a list of pieces: characters,
and what is replaced when the command runs.  Every piece remembers whether it stands in quotes.
-/

namespace ContractBuild.Shell

/-- What is done with the value of a parameter. -/
inductive Use
  /-- The value itself. -/
  | value
  /-- Its length. -/
  | length
  /-- The operand where there is no value or, on demand, an empty one. -/
  | fallback (orEmpty : Bool)
  /-- The same, and the parameter gets the operand as its value. -/
  | assign (orEmpty : Bool)
  /-- The operand where there is a value. -/
  | alternative (orEmpty : Bool)
  /-- The value, and a complaint with the operand where there is none. -/
  | require (orEmpty : Bool)
  /-- The value without a start that matches the operand. -/
  | dropStart (isLongest : Bool)
  /-- The value without an end that matches the operand. -/
  | dropEnd (isLongest : Bool)
  /-- Something that has no meaning. -/
  | meaningless
  deriving DecidableEq, Repr

/-- How a redirection opens a file. -/
inductive Opening
  /-- For reading. -/
  | reading
  /-- For writing, where a file in the way is emptied unless that is forbidden. -/
  | writing
  /-- For writing, where a file in the way is emptied. -/
  | overwriting
  /-- For writing at its end. -/
  | appending
  /-- For reading and writing. -/
  | both
  deriving DecidableEq, Repr

mutual

/-- A piece of a word. -/
inductive Piece
  /-- A character. -/
  | char (c : Char) (isQuoted : Bool)
  /-- The place of a quotation mark; a word that holds one is there even if it is empty. -/
  | mark
  /-- The value of a parameter. -/
  | parameter (name : Chars) (use : Use) (operand : List Piece) (isQuoted : Bool)
  /-- The output of a command. -/
  | output (body : Command) (isQuoted : Bool)
  /-- The value of an arithmetic expression. -/
  | arithmetic (expression : List Piece) (isQuoted : Bool)

/-- Where a redirection leads. -/
inductive Target
  /-- To a file. -/
  | file (opening : Opening) (name : List Piece)
  /-- To what is open under another number, or to nothing. -/
  | descriptor (name : List Piece)
  /-- To the text of the document with this number. -/
  | document (id : Nat)

/-- A redirection of a descriptor. -/
inductive Redirection
  /-- The number of the descriptor and where it leads. -/
  | mk (number : Nat) (target : Target)

/-- A command. -/
inductive Command
  /-- No command at all. -/
  | nothing
  /-- Assignments and words. -/
  | simple (line : Nat) (assignments words : List (List Piece)) (redirections : List Redirection)
  /-- Commands each of which reads what the one before writes. -/
  | pipeline (parts : List Command) (isBackground : Bool)
  /-- A command with redirections. -/
  | redirected (line : Nat) (body : Command) (redirections : List Redirection)
  /-- A command that is not waited for. -/
  | background (line : Nat) (body : Command) (redirections : List Redirection)
  /-- A command in a process of its own. -/
  | subshell (line : Nat) (body : Command) (redirections : List Redirection)
  /-- The second command if the first one succeeds. -/
  | both (first second : Command)
  /-- The second command if the first one fails. -/
  | either (first second : Command)
  /-- One command after the other. -/
  | sequence (first second : Command)
  /-- One of two commands. -/
  | choice (test ifPart elsePart : Command)
  /-- A command as long as another one succeeds, or as long as it fails. -/
  | loop (isUntil : Bool) (test body : Command)
  /-- A command for every word. -/
  | forEach (line : Nat) (name : Chars) (words : List (List Piece)) (body : Command)
  /-- The command of the first pattern that matches a word. -/
  | select (line : Nat) (word : List Piece) (cases : List (List (List Piece) × Command))
  /-- The definition of a function. -/
  | function (line : Nat) (name : Chars) (body : Command)
  /-- A command whose success is a failure. -/
  | negated (body : Command)

end

/-- A word. -/
abbrev Word := List Piece

/-- A document that is part of a script. -/
structure Document where
  /-- The number by which redirections know it. -/
  id : Nat
  /-- Its text. -/
  text : Word
  /-- Whether the pieces of its text are replaced. -/
  isExpanded : Bool

/-! ## Names -/

/-- Whether a character can start a name. -/
def startsName (c : Char) : Bool := c = '_' || c.isAlpha

/-- Whether a character can stand in a name. -/
def inName (c : Char) : Bool := c = '_' || c.isAlphanum

/-- Whether a text is a name. -/
def isName : Chars → Bool
  | [] => false
  | c :: cs => startsName c && cs.all inName

/-- Whether a character is a parameter of its own. -/
def isSpecialParameter (c : Char) : Bool := "!#$*-?@".toList.contains c || c.isDigit

/-- The name that a word assigns to, with the value behind it, if it is an assignment. -/
def assignment? (w : Word) : Option (Chars × Word) :=
  go [] w
where
  /-- The same behind some characters of the name, the last one first. -/
  go (name : Chars) : Word → Option (Chars × Word)
    | .char c false :: w =>
      if c = '=' then (if name = [] then none else some (name.reverse, w))
      else if startsName c || (name ≠ [] && inName c) then go (c :: name) w
      else none
    | _ => none

/-- The characters of a word of which nothing is quoted and nothing is replaced. -/
def plain? : Word → Option Chars
  | [] => some []
  | .char c false :: w => (plain? w).map (c :: ·)
  | _ => none

/-- The characters that a word spells, quoted or not. -/
def spelled (w : Word) : Chars :=
  w.filterMap fun
    | .char c _ => some c
    | _ => none

/-- The word of some characters. -/
def wordOf (cs : Chars) (isQuoted : Bool) : Word := cs.map (.char · isQuoted)

end ContractBuild.Shell
