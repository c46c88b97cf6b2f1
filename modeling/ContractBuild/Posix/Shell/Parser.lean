import ContractBuild.Posix.Shell.Word

/-!
# Reading commands

The grammar of commands, read from the front to the back with one token to look at.  Commands hold
words, which can hold commands: `Grammar` is what one level of nesting needs of the next one, and
`grammar` ties the levels together, up to a depth.
-/

namespace ContractBuild.Shell.Reader

/-! ## Tokens -/

/-- Reads the documents that were announced, at the end of a line. -/
def readDocuments (commands : Inner) : List Announced → Read Unit
  | [] => pure ()
  | a :: as => do
    let text ← modifyGet fun r ↦ r.documentText a
    let w ← if a.isExpanded then documentWord commands text else pure (wordOf text true)
    modify fun r ↦ { r with documents := ⟨a.id, w, a.isExpanded⟩ :: r.documents }
    readDocuments commands as

/-- Reads all documents that were announced. -/
def endLine (commands : Inner) : Read Unit := do
  let announced := (← get).announced
  modify fun r ↦ { r with announced := [] }
  readDocuments commands announced

/-- Skips the rest of a line, but not its end. -/
def skipComment : Nat → Reader → Reader
  | 0, r => r
  | n + 1, r =>
    match r.next with
    | (none, r) => r
    | (some '\n', r) => r.unread '\n'
    | (some _, r) => skipComment n r

/-- An operator of one character or two. -/
def operator (c : Char) (single double : Token) (r : Reader) : Token × Reader :=
  match r.nextJoined with
  | (some d, r') => if d = c then (double, r') else (single, r'.unread d)
  | (none, r') => (single, r')

/-- The next token without regard to what is looked for.  Every step takes a character. -/
def rawToken (commands : Inner) (isLiteral : Bool) : Nat → Read Token
  | 0, r => .ok (.endOfFile, r)
  | n + 1, r =>
    match r.nextJoined with
    | (none, r) => .ok (.endOfFile, r)
    | (some ' ', r) => rawToken commands isLiteral n r
    | (some '\t', r) => rawToken commands isLiteral n r
    | (some '#', r) => rawToken commands isLiteral n (skipComment (r.size + 1) r)
    | (some '\n', r) => .ok (.newline, r.nextLine)
    | (some '&', r) => .ok (operator '&' .background .and r)
    | (some '|', r) => .ok (operator '|' .pipe .or r)
    | (some ';', r) => .ok (operator ';' .semicolon .endOfCase r)
    | (some '(', r) => .ok (.opens, r)
    | (some ')', r) => .ok (.closes, r)
    | (some c, r) => readWord commands isLiteral (r.unread c)

/-- The next token, or the last one if it is to be read again. -/
def freshToken (commands : Inner) (isLiteral : Bool) : Read Token := do
  let r ← get
  if r.isPushedBack then
    set { r with isPushedBack := false }
    return r.token
  else
    let t ← rawToken commands isLiteral (r.size + 2)
    modify fun r ↦ { r with token := t }
    return t

/-- The next token that is no end of a line.  Every step takes a line. -/
def skipNewlines (commands : Inner) (isLiteral : Bool) : Nat → Token → Read Token
  | 0, t => pure t
  | n + 1, t => do
    match t with
    | .newline =>
      endLine commands
      modify fun r ↦ { r with expected := .nothing }
      skipNewlines commands isLiteral n (← freshToken commands isLiteral)
    | t => pure t

/-- How many aliases can be replaced one after the other. -/
def aliasLimit : Nat := 10000

/-- The next token with regard to what is looked for.  Every turn replaces an alias. -/
def expectedToken (commands : Inner) (isLiteral : Bool) : Nat → Expected → Read Token
  | 0, _ => return .endOfFile
  | n + 1, e => do
    let t ← freshToken commands isLiteral
    let t ← if e.skipsNewlines then skipNewlines commands isLiteral ((← get).size + 2) t else pure t
    let late := (← get).expected
    let keywords := e.keywords || late.keywords
    let aliases := e.aliases || late.aliases
    modify fun r ↦ { r with expected := .nothing }
    match t with
    | .word w =>
      let r ← get
      match if keywords then Token.keyword? w else none with
      | some k =>
        set { r with token := .keyword k }
        return .keyword k
      | none =>
        match if aliases then (plain? w).bind fun name ↦
            if r.isInUse name then none else (r.aliases.lookup name).map (name, ·) else none with
        | some (name, text) =>
          if text ≠ [] then set (r.enterAlias name text)
          expectedToken commands isLiteral n { e with keywords, aliases }
        | none => return t
    | t => return t

/-- The next token. -/
def nextToken (commands : Inner) : Read Token := do
  expectedToken commands false aliasLimit (← get).expected

/-- Looks for something in the next token. -/
def expect (skipsNewlines keywords aliases : Bool) : Read Unit :=
  modify fun r ↦ { r with expected := ⟨skipsNewlines, keywords, aliases⟩ }

/-- Has the last token read again, or not. -/
def pushBack (isAgain : Bool := true) : Read Unit :=
  modify fun r ↦ { r with isPushedBack := isAgain }

/-- The longest message about a token. -/
def messageLimit : Nat := 63

/-- Fails because of the last token. -/
def unexpected {α : Type} (wanted : Option Chars) : Read α := do
  let name := (← get).token.name
  let message := match wanted with
    | some w => name ++ " unexpected (expecting ".toList ++ w ++ [')']
    | none => name ++ " unexpected".toList
  fail (message.take messageLimit)

/-- Fails unless a token is this keyword. -/
def needKeyword (t : Token) (k : String) : Read Unit :=
  if t.isKeyword k then pure () else unexpected (some (Token.quoted k.toList))

/-! ## Levels of nesting -/

/-- Where a list of commands stands. -/
inductive Setting
  /-- In a command, where it is not empty. -/
  | inside
  /-- In a line of the script. -/
  | line
  /-- In a command or a word, where it can be empty. -/
  | possiblyEmpty
  deriving DecidableEq, Repr

/-- What a level of nesting needs of the next one. -/
structure Grammar where
  /-- Reads a list of commands; nothing at all is the end of the script. -/
  list : Setting → Read (Option Command)
  /-- Reads one command. -/
  command : Read Command

namespace Grammar

/-- Reads a list that is not the whole script. -/
def body (g : Grammar) (s : Setting) : Read Command := do return (← g.list s).getD .nothing

/-- The level of nesting in words. -/
def inner (g : Grammar) : Inner where
  untilClosed := do
    let announced := (← get).announced
    modify fun r ↦ { r with announced := [], isPushedBack := false }
    let c ← g.body .possiblyEmpty
    let t := (← get).token
    if (← get).isPushedBack && t matches .closes then pushBack false
    else unexpected (some (Token.quoted [')']))
    modify fun r ↦ { r with announced }
    return c
  untilEnd := g.body .possiblyEmpty

end Grammar

/-! ## Redirections and words -/

/-- Reads what a redirection leads to. -/
def readTarget (commands : Inner) (number : Nat) (arrow : Arrow) : Read Redirection := do
  let isLiteral := arrow matches .document _
  let expected := (← get).expected
  let t ← expectedToken commands isLiteral aliasLimit (if isLiteral then .nothing else expected)
  match t with
  | .word w =>
    match arrow with
    | .opening o => return ⟨number, .file o w⟩
    | .duplicate => return ⟨number, .descriptor w⟩
    | .document stripsTabs =>
      let isQuoted := w.any fun
        | .char _ isQuoted => isQuoted
        | .mark => true
        | _ => false
      modifyGet fun r ↦
        let id := r.nextDocument
        (⟨number, .document id⟩, { r with
          nextDocument := id + 1
          announced := r.announced ++ [⟨id, spelled w, stripsTabs, !isQuoted⟩] })
  | _ => unexpected none

/-- Reads the redirections behind a command. -/
def redirections (commands : Inner) : Nat → List Redirection → Read (List Redirection)
  | 0, done => return done.reverse
  | n + 1, done => do
    match ← nextToken commands with
    | .redirection number arrow =>
      redirections commands n ((← readTarget commands number arrow) :: done)
    | _ =>
      pushBack
      return done.reverse

/-- Reads words up to another token, the last one first. -/
def words (commands : Inner) : Nat → List Word → Read (List Word)
  | 0, done => return done
  | n + 1, done => do
    match ← nextToken commands with
    | .word w => words commands n (w :: done)
    | _ => return done

/-! ## Commands -/

/-- Reads the branches of a choice behind its first word. -/
def branches (g : Grammar) : Nat → Read Command
  | 0 => unexpected none
  | n + 1 => do
    let test ← g.body .inside
    needKeyword (← nextToken g.inner) "then"
    let ifPart ← g.body .inside
    let t ← nextToken g.inner
    if t.isKeyword "elif" then return .choice test ifPart (← branches g n)
    else if t.isKeyword "else" then return .choice test ifPart (← g.body .inside)
    else
      pushBack
      return .choice test ifPart .nothing

/-- All arguments, each as a word of its own. -/
def allArguments : Word := [.mark, .parameter ['@'] .value [] true, .mark]

/-- Reads a command for every word. -/
def forEach (g : Grammar) (line : Nat) : Read Command := do
  let t ← nextToken g.inner
  let name := match t with
    | .word w => (plain? w).getD []
    | .keyword _ => []
    | _ => []
  if !isName name then fail "Bad for loop variable".toList
  expect true true true
  let t ← nextToken g.inner
  let ws ← if t.isKeyword "in" then do
      let ws ← words g.inner ((← get).size + 2) []
      match (← get).token with
      | .newline | .semicolon => pure ws.reverse
      | _ => unexpected none
    else do
      match t with
      | .semicolon => pure ()
      | _ => pushBack
      pure [allArguments]
  expect true true true
  needKeyword (← nextToken g.inner) "do"
  let body ← g.body .inside
  return .forEach line name ws body

/-- The word that a token is, also if that is a keyword.  Any other token stands for no text. -/
def wordOfToken : Token → Word
  | .word w => w
  | .keyword k => wordOf k false
  | _ => []

/-- Reads the patterns of a case, from a token on. -/
def patterns (g : Grammar) : Nat → Token → Read (List Word)
  | 0, _ => unexpected none
  | n + 1, t => do
    let w := wordOfToken t
    match ← nextToken g.inner with
    | .pipe => return w :: (← patterns g n (← nextToken g.inner))
    | .closes => return [w]
    | _ => unexpected (some (Token.quoted [')']))

/-- Reads the cases up to the word that ends them. -/
def cases (g : Grammar) : Nat → Read (List (List Word × Command))
  | 0 => unexpected none
  | n + 1 => do
    expect true true false
    let t ← nextToken g.inner
    if t.isKeyword "esac" then return []
    else
      let t ← match t with
        | .opens => nextToken g.inner
        | t => pure t
      let ps ← patterns g ((← get).size + 2) t
      let body ← g.body .possiblyEmpty
      expect true true false
      let t ← nextToken g.inner
      if t.isKeyword "esac" then return [(ps, body)]
      else match t with
        | .endOfCase => return (ps, body) :: (← cases g n)
        | _ => unexpected (some (Token.quoted [';', ';']))

/-- Reads a command that a word selects. -/
def select (g : Grammar) (line : Nat) : Read Command := do
  let w ← match ← nextToken g.inner with
    | .word w => pure w
    | _ => unexpected (some "word".toList)
  expect true true true
  needKeyword (← nextToken g.inner) "in"
  return .select line w (← cases g ((← get).size + 2))

/-- The names of commands that no function can have. -/
def reservedNames : List String :=
  [".", ":", "break", "continue", "eval", "exec", "exit", "export", "local", "readonly", "return",
    "set", "shift", "times", "trap", "unset"]

/-- What has been read of a simple command, the last parts first. -/
structure Simple where
  /-- The assignments. -/
  assignments : List Word
  /-- The words. -/
  words : List Word
  /-- The redirections. -/
  redirections : List Redirection

/-- Reads a simple command, or the definition of a function. -/
def simple (g : Grammar) (line : Nat) : Nat → Simple → Read Command
  | 0, _ => unexpected none
  | n + 1, s => do
    expect false false s.words.isEmpty
    let finish := do
      pushBack
      return .simple line s.assignments.reverse s.words.reverse s.redirections.reverse
    match ← nextToken g.inner with
    | .word w =>
      if s.words.isEmpty && (assignment? w).isSome then
        simple g line n { s with assignments := w :: s.assignments }
      else simple g line n { s with words := w :: s.words }
    | .redirection number arrow =>
      let redirection ← readTarget g.inner number arrow
      simple g line n { s with redirections := redirection :: s.redirections }
    | .opens =>
      match s.words with
      | [w] =>
        if s.assignments.isEmpty && s.redirections.isEmpty then
          match ← nextToken g.inner with
          | .closes => pure ()
          | _ => unexpected (some (Token.quoted [')']))
          let name := (plain? w).getD []
          if !isName name || reservedNames.contains (Chars.toString name) then
            fail "Bad function name".toList
          expect true true true
          let start := (← get).line
          return .function start name (← g.command)
        else finish
      | _ => finish
    | _ => finish

/-- Reads one command. -/
def commandWith (g : Grammar) : Read Command := do
  let line := (← get).line
  let t ← nextToken g.inner
  let closed := fun (c : Command) (isEnd : Token → Bool) (wanted : Chars) ↦ do
    if !isEnd (← nextToken g.inner) then unexpected (some (Token.quoted wanted))
    return c
  let keyword := fun (c : Command) (k : String) ↦ closed c (·.isKeyword k) k.toList
  let compound : Option (Read Command) := match t with
    | .opens => some do
      let body ← g.body .inside
      closed (.subshell line body []) (· matches .closes) [')']
    | .keyword k => match Chars.toString k with
      | "if" => some do keyword (← branches g ((← get).size + 2)) "fi"
      | "while" | "until" => some do
        let test ← g.body .inside
        needKeyword (← nextToken g.inner) "do"
        let body ← g.body .inside
        keyword (.loop (t.isKeyword "until") test body) "done"
      | "for" => some do keyword (← forEach g line) "done"
      | "case" => some (select g line)
      | "\x7b" => some do keyword (← g.body .inside) "\x7d"
      | _ => none
    | _ => none
  match compound, t with
  | some read, _ =>
    let c ← read
    expect false true true
    let rs ← redirections g.inner ((← get).size + 2) []
    match c, rs with
    | c, [] => return c
    | .subshell line body _, rs => return .subshell line body rs
    | c, rs => return .redirected line c rs
  | none, .word _ | none, .redirection .. =>
    pushBack
    simple g line ((← get).size + 2) ⟨[], [], []⟩
  | none, _ => unexpected none

/-- Reads the further commands of a pipeline. -/
def pipeline (g : Grammar) : Nat → List Command → Read (List Command)
  | 0, done => return done.reverse
  | n + 1, done => do
    match ← nextToken g.inner with
    | .pipe =>
      expect true true true
      pipeline g n ((← commandWith g) :: done)
    | _ =>
      pushBack
      return done.reverse

/-- Reads a pipeline, which may be negated. -/
def negatable (g : Grammar) : Read Command := do
  let isNegated := (← nextToken g.inner).isKeyword "!"
  if isNegated then expect false true true else pushBack
  let c ← match ← pipeline g ((← get).size + 2) [← commandWith g] with
    | [c] => pure c
    | cs => pure (.pipeline cs false)
  return if isNegated then .negated c else c

/-- Reads further pipelines that depend on what came before. -/
def dependent (g : Grammar) : Nat → Command → Read Command
  | 0, c => return c
  | n + 1, c => do
    match ← nextToken g.inner with
    | .and =>
      expect true true true
      dependent g n (.both c (← negatable g))
    | .or =>
      expect true true true
      dependent g n (.either c (← negatable g))
    | _ =>
      pushBack
      return c

/-- A command that is not waited for. -/
def inBackground : Command → Command
  | .pipeline parts _ => .pipeline parts true
  | .redirected line body rs => .background line body rs
  | c => .background 0 c []

/-- Reads a list of commands of which a part has been read; `isFirst` says that nothing has. -/
def listFrom (g : Grammar) (s : Setting) : Nat → Option Command → Read (Option Command)
  | 0, done => return done
  | n + 1, done => do
    let isLine := s = .line
    expect (!isLine) true true
    let t ← nextToken g.inner
    match t with
    | .newline =>
      endLine g.inner
      return some (done.getD .nothing)
    | .endOfFile =>
      endLine g.inner
      pushBack
      return if isLine then done else some (done.getD .nothing)
    | _ =>
      pushBack
      if (s = .possiblyEmpty || (s = .inside && done.isSome)) && t.endsList then
        return some (done.getD .nothing)
      else
        let c ← dependent g ((← get).size + 2) (← negatable g)
        let t ← nextToken g.inner
        let c := if t matches .background then inBackground c else c
        let all := match done with
          | some first => Command.sequence first c
          | none => c
        match t with
        | .newline | .endOfFile =>
          pushBack
          listFrom g s n (some all)
        | .background | .semicolon => listFrom g s n (some all)
        | _ =>
          if isLine then unexpected none
          else
            pushBack
            return some all

/-- How deep commands can be nested. -/
def nestingLimit : Nat := 10000

/-- The grammar with so many levels of nesting. -/
def grammar : Nat → Grammar
  | 0 => ⟨fun _ r ↦ fail "nesting".toList r, fun r ↦ fail "nesting".toList r⟩
  | n + 1 =>
    { list := fun s r ↦ listFrom (grammar n) s (r.size + 2) none r
      command := fun r ↦ commandWith (grammar n) r }

/-- Reads the next line of commands; nothing is the end of the script. -/
def nextCommand : Read (Option Command) := do
  modify fun r ↦ { r with isPushedBack := false, expected := .nothing, announced := [] }
  (grammar nestingLimit).list .line

/-- Whether nothing but the end is left to read. -/
def isAtEnd (r : Reader) : Bool :=
  (r.isPushedBack && r.token matches .endOfFile) || (r.text = [] && r.layers.isEmpty)

end ContractBuild.Shell.Reader
