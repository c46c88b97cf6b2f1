import ContractBuild.Posix.Shell.Syntax

/-!
# Reading a script

The state of reading: the text that is left, the line, the token that was read last, and the
documents that were announced and have not been read.  An alias puts its text in front of what is
left; the layers below remember where that came from.
-/

/-!
## Tokens

The units from which a script is read, and how messages name them.
-/

namespace ContractBuild.Shell

/-- The operators of redirections. -/
inductive Arrow
  /-- A file is opened. -/
  | opening (opening : Opening)
  /-- Something that is open is used. -/
  | duplicate
  /-- A document follows, whose lines lose the tabs at their starts on demand. -/
  | document (stripsTabs : Bool)
  deriving DecidableEq, Repr

/-- A token. -/
inductive Token
  /-- A word. -/
  | word (w : Word)
  /-- A word with a meaning of its own. -/
  | keyword (k : Chars)
  /-- The end of a line. -/
  | newline
  /-- The end of the script. -/
  | endOfFile
  /-- A semicolon. -/
  | semicolon
  /-- The sign behind a command that is not waited for. -/
  | background
  /-- The sign between commands of which the second needs the first. -/
  | and
  /-- The sign between commands of which the second replaces the first. -/
  | or
  /-- A pipe. -/
  | pipe
  /-- An opening parenthesis. -/
  | opens
  /-- A closing parenthesis. -/
  | closes
  /-- The end of a case. -/
  | endOfCase
  /-- The start of a redirection of a descriptor. -/
  | redirection (number : Nat) (arrow : Arrow)

namespace Token

/-- The words with a meaning of their own. -/
def keywords : List String :=
  ["!", "case", "do", "done", "elif", "else", "esac", "fi", "for", "if", "in", "then", "until",
    "while", "\x7b", "\x7d"]

/-- The keyword that a word is, if it is one. -/
def keyword? (w : Word) : Option Chars :=
  match plain? w with
  | some cs => if keywords.contains (Chars.toString cs) then some cs else none
  | none => none

/-- Whether a token is this keyword. -/
def isKeyword (t : Token) (k : String) : Bool :=
  match t with
  | .keyword cs => Chars.toString cs = k
  | _ => false

/-- Whether a token ends a list of commands. -/
def endsList : Token → Bool
  | .endOfFile | .closes | .endOfCase => true
  | .keyword k => ["do", "done", "elif", "else", "esac", "fi", "then", "\x7d"].contains
      (Chars.toString k)
  | _ => false

/-- How a message names a sign. -/
def quoted (s : Chars) : Chars := '"' :: s ++ ['"']

/-- How a message names a token. -/
def name : Token → Chars
  | .word _ => "word".toList
  | .keyword k => quoted k
  | .newline => "newline".toList
  | .endOfFile => "end of file".toList
  | .semicolon => quoted [';']
  | .background => quoted ['&']
  | .and => quoted ['&', '&']
  | .or => quoted ['|', '|']
  | .pipe => quoted ['|']
  | .opens => quoted ['(']
  | .closes => quoted [')']
  | .endOfCase => quoted [';', ';']
  | .redirection .. => "redirection".toList

end Token

end ContractBuild.Shell

namespace ContractBuild.Shell

/-- Text that is read when all in front of it has been read. -/
structure Layer where
  /-- The text. -/
  text : Chars
  /-- The alias whose text ends where this one starts. -/
  aliasName : Chars
  /-- Whether the text of the alias ends in a blank. -/
  endsBlank : Bool

/-- A document that was announced. -/
structure Announced where
  /-- Its number. -/
  id : Nat
  /-- The line that ends it. -/
  lastLine : Chars
  /-- Whether its lines lose the tabs at their starts. -/
  stripsTabs : Bool
  /-- Whether the pieces of its text are replaced. -/
  isExpanded : Bool

/-- What is looked for in the next token. -/
structure Expected where
  /-- Ends of lines are skipped. -/
  skipsNewlines : Bool
  /-- A word can be a keyword. -/
  keywords : Bool
  /-- A word can be an alias. -/
  aliases : Bool

/-- Nothing special is looked for. -/
def Expected.nothing : Expected := ⟨false, false, false⟩

/-- The state of reading. -/
structure Reader where
  /-- The text that is left of the layer in front. -/
  text : Chars
  /-- The layers below. -/
  layers : List Layer
  /-- The number of the line. -/
  line : Nat
  /-- The token that was read last. -/
  token : Token
  /-- Whether that token is to be read again. -/
  isPushedBack : Bool
  /-- What is looked for in the next token. -/
  expected : Expected
  /-- The documents that were announced. -/
  announced : List Announced
  /-- The documents that have been read. -/
  documents : List Document
  /-- The number of the next document. -/
  nextDocument : Nat
  /-- The aliases. -/
  aliases : List (Chars × Chars)

/-- Why a script cannot be read. -/
structure Unreadable where
  /-- The line in which that shows. -/
  line : Nat
  /-- What is wrong. -/
  text : Chars
  /-- The documents that had been read, so that their numbers are not given again. -/
  nextDocument : Nat

/-- A part of reading. -/
abbrev Read (α : Type) := StateT Reader (Except Unreadable) α

namespace Reader

/-- The state in which a text is read from a line on. -/
def start (text : Chars) (aliases : List (Chars × Chars)) (nextDocument : Nat) : Reader :=
  ⟨text, [], 1, .newline, false, .nothing, [], [], nextDocument, aliases⟩

/-- Fails with a message. -/
def fail {α : Type} (message : Chars) : Read α := fun r ↦
  .error ⟨r.line, "Syntax error: ".toList ++ message, r.nextDocument⟩

/-! ## Characters -/

/-- The next character, from the first layer that has one. -/
def nextFrom (r : Reader) : List Layer → Option Char × Reader
  | [] => (none, { r with layers := [] })
  | l :: ls =>
    let expected := { r.expected with aliases := r.expected.aliases || l.endsBlank }
    match l.text with
    | c :: cs => (some c, { r with text := cs, layers := ls, expected })
    | [] => nextFrom { r with expected } ls

/-- The next character, if there is one. -/
def next (r : Reader) : Option Char × Reader :=
  match r.text with
  | c :: cs => (some c, { r with text := cs })
  | [] => r.nextFrom r.layers

/-- Puts a character back. -/
def unread (r : Reader) : Option Char → Reader
  | some c => { r with text := c :: r.text }
  | none => r

/-- The reader in the next line. -/
def nextLine (r : Reader) : Reader := { r with line := r.line + 1 }

/-- Skips the ends of lines that a backslash joins to the next one, so many at most. -/
def skipJoined : Nat → Reader → Reader
  | 0, r => r
  | n + 1, r =>
    match r.text with
    | '\\' :: '\n' :: cs => skipJoined n { r with text := cs, line := r.line + 1 }
    | _ => r

/-- The next character behind the joints of lines. -/
def nextJoined (r : Reader) : Option Char × Reader :=
  match r.text with
  | '\\' :: '\n' :: _ => (skipJoined r.text.length r).next
  | _ => r.next

/-- Whether an alias is being replaced. -/
def isInUse (r : Reader) (name : Chars) : Bool := r.layers.any (·.aliasName = name)

/-- Reads the text of an alias before all that is left. -/
def enterAlias (r : Reader) (name text : Chars) : Reader :=
  { r with
    text := text
    layers := ⟨r.text, name, text.getLast?.any fun c ↦ c = ' ' || c = '\t'⟩ :: r.layers }

/-! ## Lines of documents -/

/-- Whether a line goes on in the next one: it ends in a backslash that nothing quotes. -/
def goesOn (line : Chars) : Bool := (line.reverse.takeWhile (· = '\\')).length % 2 = 1

/-- The rest of the line, and whether it has an end. -/
def restOfLine : Nat → Chars → Reader → Chars × Bool × Reader
  | 0, done, r => (done.reverse, false, r)
  | n + 1, done, r =>
    match r.next with
    | (none, r) => (done.reverse, false, r)
    | (some '\n', r) => (done.reverse, true, r.nextLine)
    | (some c, r) => restOfLine n (c :: done) r

/-- The number of characters that are left. -/
def size (r : Reader) : Nat := r.text.length + (r.layers.map (·.text.length)).foldl (· + ·) 0

/-- The lines of a document up to its last line, in the reverse order.  Every step takes a line. -/
def documentLines (a : Announced) : Nat → Bool → List Chars → Reader → List Chars × Reader
  | 0, _, done, r => (done, r)
  | n + 1, isJoined, done, r =>
    let (raw, isEnded, r') := restOfLine (r.size + 1) [] r
    let line := if a.stripsTabs && !isJoined then raw.dropWhile (· = '\t') else raw
    if !isEnded && raw = [] then (done, r')
    else if line = a.lastLine && !isJoined then (done, r')
    else
      let done := (if isEnded then line ++ ['\n'] else line) :: done
      if isEnded then documentLines a n (a.isExpanded && goesOn line) done r' else (done, r')

/-- The text of a document. -/
def documentText (a : Announced) (r : Reader) : Chars × Reader :=
  let (lines, r) := documentLines a (r.size + 1) false [] r
  (lines.reverse.flatten, r)

end Reader

end ContractBuild.Shell
