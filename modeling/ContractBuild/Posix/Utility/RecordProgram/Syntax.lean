import ContractBuild.Posix.Text.Floating
import ContractBuild.Posix.Text.Regex

/-!
# Record programs

A record program has rules for the records of its inputs: a condition, and statements that are done
for the records that meet it.  Variables need no declaration; they are numbered, and those that the
program shares with its surroundings come first.
-/

namespace ContractBuild.Utility.RecordProgram

/-! ## Variables -/

/-- A variable of a program. -/
inductive Variable
  /-- The one of this number that the whole program has. -/
  | shared (number : Nat)
  /-- The one of this number that the function at work has. -/
  | own (number : Nat)
  deriving DecidableEq, Repr

/-- The variables with a meaning of their own, in the order of their numbers. -/
def specialNames : List String :=
  ["NR", "FNR", "NF", "FS", "OFS", "ORS", "RS", "RSTART", "RLENGTH", "SUBSEP", "FILENAME",
    "ENVIRON", "ARGC", "ARGV", "CONVFMT", "OFMT"]

/-- The number of a variable with a meaning of its own. -/
def special (name : String) : Nat := specialNames.idxOf name

/-- The number of all records so far. -/
def recordNumber : Nat := special "NR"
/-- The number of the records of the input so far. -/
def inputRecordNumber : Nat := special "FNR"
/-- The number of fields. -/
def fieldCount : Nat := special "NF"
/-- What separates fields. -/
def fieldSeparator : Nat := special "FS"
/-- What is written between values. -/
def valueSeparator : Nat := special "OFS"
/-- What is written behind values. -/
def lineSeparator : Nat := special "ORS"
/-- What separates records. -/
def recordSeparator : Nat := special "RS"
/-- Where a match starts. -/
def matchStart : Nat := special "RSTART"
/-- How long a match is. -/
def matchLength : Nat := special "RLENGTH"
/-- What joins the parts of a key. -/
def keySeparator : Nat := special "SUBSEP"
/-- The name of the input. -/
def inputName : Nat := special "FILENAME"
/-- The table of the environment. -/
def environment : Nat := special "ENVIRON"
/-- The number of arguments. -/
def argumentCount : Nat := special "ARGC"
/-- The table of arguments. -/
def arguments : Nat := special "ARGV"
/-- How numbers become texts. -/
def textFormat : Nat := special "CONVFMT"
/-- How numbers are written. -/
def writtenFormat : Nat := special "OFMT"

/-! ## Expressions -/

/-- A calculation with two numbers. -/
inductive Calculation
  | sum
  | difference
  | product
  | quotient
  | remainder
  | power
  deriving DecidableEq, Repr

/-- A comparison of two values. -/
inductive Relation
  | less
  | atMost
  | equal
  | unequal
  | atLeast
  | greater
  deriving DecidableEq, Repr

/-- A function that every program has. -/
inductive Builtin
  | length
  | substring
  | index
  | split
  | substitute
  | substituteAll
  | search
  | format
  | sine
  | cosine
  | arctangent
  | exponential
  | logarithm
  | root
  | whole
  | random
  | seed
  | run
  | close
  | flush
  | lower
  | upper
  | time
  | timeOf
  | timeText
  deriving DecidableEq, Repr

mutual

/-- What can get a value. -/
inductive Place
  /-- A variable. -/
  | whole (v : Variable)
  /-- An element of a table. -/
  | element (t : Variable) (keys : List Expression)
  /-- A field of the record, or the record itself. -/
  | field (number : Expression)

/-- What has a value. -/
inductive Expression
  /-- A number. -/
  | number (x : Float)
  /-- A text. -/
  | text (cs : Chars)
  /-- Whether a pattern is found in the record; or the pattern, where one is asked for. -/
  | pattern (r : Regex)
  /-- The value of a place. -/
  | value (p : Place)
  /-- Gives a value to a place. -/
  | assign (p : Place) (e : Expression)
  /-- Gives a place its value calculated with another one. -/
  | update (c : Calculation) (p : Place) (e : Expression)
  /-- Adds one to the value of a place or takes one away; the value is the one before it on demand.
  -/
  | step (isUp isBefore : Bool) (p : Place)
  /-- One of two values. -/
  | choice (condition first second : Expression)
  /-- Whether one of two values is true. -/
  | disjunction (first second : Expression)
  /-- Whether two values are true. -/
  | conjunction (first second : Expression)
  /-- Whether a table has a key. -/
  | contains (keys : List Expression) (t : Variable)
  /-- Whether a pattern is found in a text, or is not. -/
  | found (isNegated : Bool) (text pattern : Expression)
  /-- How two values compare. -/
  | compared (r : Relation) (first second : Expression)
  /-- One text behind another. -/
  | joined (first second : Expression)
  /-- What is calculated from two numbers. -/
  | calculated (c : Calculation) (first second : Expression)
  /-- The number with the other sign. -/
  | negative (e : Expression)
  /-- The number. -/
  | positive (e : Expression)
  /-- Whether a value is not true. -/
  | negation (e : Expression)
  /-- Whether there is a next record of the input; it becomes the value of a place, or the record.
  -/
  | nextRecord (p : Option Place)
  /-- Whether there is a next record of a file. -/
  | nextOfFile (file : Expression) (p : Option Place)
  /-- Whether there is a next record in the output of a command. -/
  | nextOfCommand (command : Expression) (p : Option Place)
  /-- The value of a function of the program. -/
  | call (function : Nat) (args : List Expression)
  /-- The value of a function that every program has. -/
  | builtin (f : Builtin) (args : List Expression)

end

instance : Inhabited Expression := ⟨.text []⟩

/-! ## Statements -/

/-- What an output is. -/
inductive SinkKind
  /-- A file that is written anew. -/
  | file
  /-- A file that is written behind what it holds. -/
  | extended
  /-- The input of a command. -/
  | command
  deriving DecidableEq, Repr

/-- Where something is written, if not to the output. -/
abbrev Destination := Option (SinkKind × Expression)

/-- What is done. -/
inductive Statement
  /-- Nothing. -/
  | nothing
  /-- Several statements. -/
  | block (body : List Statement)
  /-- An expression for what it does. -/
  | effect (e : Expression)
  /-- Writes values, or the record if there are none. -/
  | print (values : List Expression) (target : Destination)
  /-- Writes values in a format, which is the first one. -/
  | printf (values : List Expression) (target : Destination)
  /-- One of two statements. -/
  | branch (condition : Expression) (first second : Statement)
  /-- A statement as long as a condition is met; it is done first on demand. -/
  | loop (isDoneFirst : Bool) (condition : Option Expression) (step : Option Expression)
    (body : Statement)
  /-- A statement for every key of a table. -/
  | each (v : Variable) (t : Variable) (body : Statement)
  /-- Leaves a loop. -/
  | leave
  /-- Goes on with the next turn of a loop. -/
  | again
  /-- Goes on with the next record. -/
  | next
  /-- Goes on with the next input. -/
  | nextInput
  /-- Ends the program with a code. -/
  | exit (code : Option Expression)
  /-- Ends a function with a value. -/
  | giveBack (value : Option Expression)
  /-- Takes an element out of a table. -/
  | delete (t : Variable) (keys : List Expression)
  /-- Takes everything out of a table. -/
  | deleteAll (t : Variable)

instance : Inhabited Statement := ⟨.nothing⟩

/-! ## Programs -/

/-- The records that a rule is for. -/
inductive Condition
  /-- All of them. -/
  | always
  /-- Those for which an expression is true. -/
  | when (e : Expression)
  /-- Those from one for which an expression is true to one for which another is. -/
  | between (first last : Expression)

/-- A rule. -/
structure Rule where
  /-- The records that it is for. -/
  condition : Condition
  /-- What is done for them. -/
  body : Statement

/-- A function. -/
structure Function where
  /-- Its name. -/
  name : Chars
  /-- The number of its parameters. -/
  parameters : Nat
  /-- What it does. -/
  body : Statement

/-- A program. -/
structure Script where
  /-- The names of the variables. -/
  names : Array Chars
  /-- The functions. -/
  functions : Array Function
  /-- What is done before the first record. -/
  start : List Statement
  /-- The rules. -/
  rules : Array Rule
  /-- What is done after the last record. -/
  finish : List Statement

end ContractBuild.Utility.RecordProgram
