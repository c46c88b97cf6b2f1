import ContractBuild.Text.Utf8

/-!
# Text without terminal control

A message may quote words that hold control characters or whole control sequences of a terminal.
It is printed without them: `plain` follows the sequences like a terminal does and keeps what the
terminal would show, and of the control characters only those that are white space.
-/

namespace ContractBuild.Terminal

/-- Where a text stands between two characters. -/
inductive Position
  /-- In text that is shown. -/
  | shown
  /-- Behind the character that starts a sequence. -/
  | escape
  /-- In a sequence whose first characters say that more follow. -/
  | escapeRest
  /-- In the parameters of a control sequence. -/
  | parameters
  /-- In a command to the system, which a bell ends. -/
  | command
  /-- At the start of a string for a device. -/
  | deviceStart
  /-- In the parameters of a string for a device. -/
  | deviceParameters
  /-- Behind the parameters of a string for a device. -/
  | deviceRest
  /-- In a string, which a byte of its own ends. -/
  | string
  deriving DecidableEq, Repr

/-- Whether a control character is white space. -/
def isSpacing (c : Char) : Bool := c = '\t' || c = '\n' || c = '\x0c' || c = '\r'

/-- The position behind the first character of a sequence. -/
def afterEscape (c : Char) : Position :=
  if c = '[' then .parameters
  else if c = ']' then .command
  else if c = 'P' then .deviceStart
  else if c = 'X' || c = '^' || c = '_' then .string
  else if ' ' ≤ c && c ≤ '/' then .escapeRest
  else if '0' ≤ c && c ≤ '~' then .shown
  else .escape

/-- The byte that ends a string. -/
def stringEnd : UInt8 := 0x9C

/-- Whether a character is between two others. -/
def isWithin (low high c : Char) : Bool := low ≤ c && c ≤ high

/-- The position behind a character that is no control character. -/
def Position.next (p : Position) (c : Char) : Position :=
  match p with
  | .escape => afterEscape c
  | .escapeRest => if '0' ≤ c && c ≤ '~' then .shown else .escapeRest
  | .parameters => if '@' ≤ c && c ≤ '~' then .shown else .parameters
  | .deviceStart =>
    if isWithin ' ' '/' c then .deviceRest
    else if isWithin '0' '?' c then .deviceParameters
    else if isWithin '@' '~' c then .string
    else .deviceStart
  | .deviceParameters =>
    if isWithin ' ' '/' c then .deviceRest
    else if isWithin '<' '~' c then .string
    else .deviceParameters
  | .deviceRest => if isWithin '0' '~' c then .string else .deviceRest
  | .string => if stringEnd ∈ Utf8.encodeChar c then .shown else .string
  | p => p

/-- Whether a string goes on over control characters. -/
def Position.isString : Position → Bool
  | .command | .deviceStart | .deviceParameters | .deviceRest | .string => true
  | _ => false

/-- The shown part of a text from a position on.  Three control characters end every sequence, one
of them by starting the next. -/
def plainFrom : Position → List Char → List Char
  | _, [] => []
  | p, c :: s =>
    if c = '\x1b' then plainFrom .escape s
    else if c = '\x18' || c = '\x1a' then plainFrom .shown s
    else if c < ' ' then
      if isSpacing c && !p.isString then c :: plainFrom .shown s
      else if c = '\x07' && p = .command then plainFrom .shown s
      else plainFrom p s
    else if c = '\x7f' then plainFrom p s
    else if p = .shown then c :: plainFrom .shown s
    else plainFrom (p.next c) s

/-- The part of a text that a terminal shows. -/
def plain (s : String) : String := String.ofList (plainFrom .shown s.toList)

/-- A sequence is left out to its end, and what follows it is shown. -/
example : plain "a\x1b[38;5;1mX\x1b[mY\x07" = "aXY" := by decide

/-- A string for a device ends at a byte, which can be part of a character. -/
example : plain "a\x1bP1$rÜz" = "az" := by decide

end ContractBuild.Terminal
