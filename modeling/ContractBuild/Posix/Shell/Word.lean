import ContractBuild.Posix.Shell.Reader

/-!
# Reading words

A word is read character by character.  What a character means depends on the place: outside of
quotes, between them, in the operand of a parameter, in an arithmetic expression or in a document.
A place inside another one ends with its own sign, so reading goes in and out of places.

Commands inside words are read by whoever reads commands; that is a parameter here.
-/

namespace ContractBuild.Shell.Reader

/-- A place in a word. -/
inductive Place
  /-- Outside of all quotes; the word ends at a blank or an operator. -/
  | bare
  /-- An operand outside of all quotes, up to its brace. -/
  | operand
  /-- Between double quotes, which may be part of an operand. -/
  | string (inOperand : Bool)
  /-- An operand between quotes, up to its brace; quotes inside of it only hide braces. -/
  | quotedOperand (isInner : Bool) (inDocument : Bool)
  /-- An arithmetic expression with so many open parentheses. -/
  | arithmetic (depth : Nat)
  /-- A document. -/
  | document
  deriving DecidableEq, Repr

namespace Place

/-- Whether characters at a place are quoted. -/
def isQuoted : Place → Bool
  | .bare | .operand => false
  | _ => true

/-- The place of an operand of a parameter that is met at a place. -/
def operandOf : Place → Place
  | .bare | .operand => .operand
  | .document => .quotedOperand false true
  | .quotedOperand _ inDocument => .quotedOperand false inDocument
  | _ => .quotedOperand false false

/-- Whether a brace can end an operand here or further out. -/
def isInOperand : Place → Bool
  | .operand | .quotedOperand .. => true
  | .string inOperand => inOperand
  | _ => false

/-- Whether a backslash quotes a character between quotes at this place. -/
def escapes (p : Place) (c : Char) : Bool :=
  c = '\\' || c = '\x60' || c = '$' || (c = '"' && p ≠ .document) || (c = '\x7d' && p.isInOperand)

/-- What is missing at the end of the script. -/
def missing : Place → Chars
  | .operand => "Missing '\x7d'".toList
  | .arithmetic _ => "Missing '))'".toList
  | _ => "Unterminated quoted string".toList

end Place

/-- Whether a character ends a word. -/
def endsWord (c : Char) : Bool := "\n<>();&| \t".toList.contains c

/-- Whether the text of an alias ends here, and with it a word. -/
def isAtEndOfAlias (r : Reader) : Bool :=
  r.text = [] && match r.layers with
    | l :: _ => !l.endsBlank
    | [] => false

/-! ## Pieces that start with a dollar sign -/

/-- Reads the characters of a kind. -/
def takeWhile (p : Char → Bool) : Nat → Chars → Reader → Chars × Reader
  | 0, done, r => (done.reverse, r)
  | n + 1, done, r =>
    match r.nextJoined with
    | (some c, r') => if p c then takeWhile p n (c :: done) r' else (done.reverse, r'.unread c)
    | (none, r') => (done.reverse, r')

/-- What is done with a parameter whose name has been read, according to what follows. -/
def readUse (r : Reader) : Use × Reader :=
  let plainUse := fun (orEmpty : Bool) (c : Option Char) ↦ match c with
    | some '-' => some (Use.fallback orEmpty)
    | some '+' => some (.alternative orEmpty)
    | some '?' => some (.require orEmpty)
    | some '=' => some (.assign orEmpty)
    | some '\x7d' => if orEmpty then none else some .value
    | _ => none
  let trim := fun (c : Char) (use : Bool → Use) (r : Reader) ↦
    match r.nextJoined with
    | (some d, r') => if d = c then (use true, r') else (use false, r'.unread d)
    | (none, r') => (use false, r')
  match r.nextJoined with
  | (some '#', r) => trim '#' .dropStart r
  | (some '%', r) => trim '%' .dropEnd r
  | (some ':', r) =>
    let (c, r) := r.nextJoined
    match plainUse true c with
    | some use => (use, r)
    | none => (.meaningless, r.unread c)
  | (c, r) =>
    match plainUse false c with
    | some use => (use, r)
    | none => (.meaningless, r.unread c)

/-- The name of a parameter between braces and what is done with it. -/
def readParameter (r : Reader) : Chars × Use × Reader :=
  let named := fun (r : Reader) ↦
    match r.nextJoined with
    | (some c, r') =>
      if startsName c then
        let (name, r') := takeWhile inName (r'.size + 1) [c] r'
        some (name, r')
      else if c.isDigit then
        let (name, r') := takeWhile Char.isDigit (r'.size + 1) [c] r'
        some (name, r')
      else none
    | _ => none
  let ofName := fun (e : Chars × Reader) ↦
    let (use, r) := readUse e.2
    (e.1, use, r)
  match named r with
  | some e => ofName e
  | none =>
    match r.nextJoined with
    | (some '#', r) =>
      match named r with
      | some (name, r) =>
        match r.nextJoined with
        | (some '\x7d', r) => (name, .length, r)
        | (c, r) => (name, .meaningless, r.unread c)
      | none =>
        match r.nextJoined with
        | (some '\x7d', r) => (['#'], .value, r)
        | (some c, r') =>
          match r'.nextJoined with
          | (some '\x7d', r'') =>
            if isSpecialParameter c then ([c], .length, r'') else ofName (['#'], r)
          | _ => ofName (['#'], r)
        | (none, r) => (['#'], .meaningless, r)
    | (some c, r) =>
      if c = '\x7d' then ([], .meaningless, r.unread c)
      else if isSpecialParameter c then ofName ([c], r)
      else ([], .meaningless, r)
    | (none, r) => ([], .meaningless, r)

/-- The commands between backquotes, as they are read a second time. -/
def backquoted (isQuoted : Bool) : Nat → Chars → Read Chars
  | 0, _, r => fail "EOF in backquote substitution".toList r
  | n + 1, done, r =>
    match r.nextJoined with
    | (none, r) => fail "EOF in backquote substitution".toList r
    | (some '\x60', r) => .ok (done.reverse, r)
    | (some '\n', r) => backquoted isQuoted n ('\n' :: done) r.nextLine
    | (some '\\', r) =>
      match r.next with
      | (none, r) => backquoted isQuoted n ('\\' :: done) r
      | (some c, r) =>
        if c = '\\' || c = '\x60' || c = '$' || (isQuoted && c = '"') then
          backquoted isQuoted n (c :: done) r
        else
          backquoted isQuoted n (c :: '\\' :: done) (if c = '\n' then r.nextLine else r)
    | (some c, r) => backquoted isQuoted n (c :: done) r

/-- Reads commands up to the end of a text of its own. -/
def inside (commands : Read Command) (text : Chars) : Read Command := fun r ↦
  let inner := start text r.aliases r.nextDocument
  match commands { inner with documents := r.documents } with
  | .error e => .error e
  | .ok (c, inner) =>
    .ok (c, { r with
      documents := inner.documents, nextDocument := inner.nextDocument, isPushedBack := false })

/-- How commands inside words are read. -/
structure Inner where
  /-- Up to the closing parenthesis. -/
  untilClosed : Read Command
  /-- Up to the end of the text. -/
  untilEnd : Read Command

/-! ## Words -/

/-- The pieces between single quotes, the last one first. -/
def singleQuoted : Nat → List Piece → Read (List Piece)
  | 0, _, r => fail "Unterminated quoted string".toList r
  | n + 1, done, r =>
    match r.next with
    | (none, r) => fail "Unterminated quoted string".toList r
    | (some '\'', r) => .ok (.mark :: done, r)
    | (some c, r) =>
      singleQuoted n (.char c true :: done) (if c = '\n' then r.nextLine else r)

/-- The pieces that a backslash and what follows it spell, the last one first. -/
def escaped (p : Place) (done : List Piece) (r : Reader) : List Piece × Reader :=
  match r.next with
  | (none, r) => (.char '\\' true :: done, r)
  | (some c, r) =>
    let r := if c = '\n' then r.nextLine else r
    if p.isQuoted && !p.escapes c then (.char c true :: .char '\\' true :: done, r)
    else (.char c true :: done, r)

/-- Reads what a dollar sign starts; `operand` reads the pieces of a place. -/
def dollar (commands : Inner) (operand : Place → Read (List Piece)) (p : Place) : Read Piece :=
  fun r ↦
  match r.nextJoined with
  | (some '(', r) =>
    match r.nextJoined with
    | (some '(', r) =>
      match operand (.arithmetic 0) r with
      | .error e => .error e
      | .ok (inner, r) => .ok (.arithmetic inner.reverse p.isQuoted, r)
    | (c, r) =>
      match commands.untilClosed (r.unread c) with
      | .error e => .error e
      | .ok (body, r) => .ok (.output body p.isQuoted, r)
  | (some '\x7b', r) =>
    match readParameter r with
    | (name, .value, r) => .ok (.parameter name .value [] p.isQuoted, r)
    | (name, .length, r) => .ok (.parameter name .length [] p.isQuoted, r)
    | (name, use, r) =>
      let place := match use with
        | .dropStart _ | .dropEnd _ => Place.operand
        | _ => p.operandOf
      match operand place r with
      | .error e => .error e
      | .ok (inner, r) => .ok (.parameter name use inner.reverse p.isQuoted, r)
  | (some c, r) =>
    if startsName c then
      let (name, r) := takeWhile inName (r.size + 1) [c] r
      .ok (.parameter name .value [] p.isQuoted, r)
    else if isSpecialParameter c then .ok (.parameter [c] .value [] p.isQuoted, r)
    else .ok (.char '$' p.isQuoted, r.unread c)
  | (none, r) => .ok (.char '$' p.isQuoted, r)

/-- Reads the pieces up to the end of a place, the last one first; the first ones have been read.
Every step takes a character. -/
def pieces (commands : Inner) : Nat → Place → List Piece → Read (List Piece)
  | 0, p, _, r => fail p.missing r
  | n + 1, p, done, r =>
    if p = .bare && r.isAtEndOfAlias then .ok (done, r)
    else match r.nextJoined with
      | (none, r) =>
        if p = .bare || p = .document then .ok (done, r) else fail p.missing r
      | (some '\n', r) =>
        if p = .bare then .ok (done, r.unread '\n')
        else pieces commands n p (.char '\n' p.isQuoted :: done) r.nextLine
      | (some '\\', r) =>
        let (done, r) := escaped p done r
        pieces commands n p done r
      | (some '\'', r) =>
        if p.isQuoted then pieces commands n p (.char '\'' true :: done) r
        else match singleQuoted (r.size + 1) (.mark :: done) r with
          | .error e => .error e
          | .ok (done, r) => pieces commands n p done r
      | (some '"', r) =>
        match p with
        | .bare | .operand =>
          match pieces commands n (.string (p = .operand)) (.mark :: done) r with
          | .error e => .error e
          | .ok (done, r) => pieces commands n p (.mark :: done) r
        | .string _ => .ok (done, r)
        | .quotedOperand isInner inDocument =>
          pieces commands n (.quotedOperand (!isInner) inDocument)
            (if inDocument then done else .mark :: done) r
        | _ => pieces commands n p (.char '"' true :: done) r
      | (some '\x7d', r) =>
        if p = .operand || p matches .quotedOperand false _ then .ok (done, r)
        else pieces commands n p (.char '\x7d' p.isQuoted :: done) r
      | (some '\x60', r) =>
        match backquoted p.isQuoted (r.size + 1) [] r with
        | .error e => .error e
        | .ok (text, r) =>
          match inside commands.untilEnd text r with
          | .error e => .error e
          | .ok (c, r) => pieces commands n p (.output c p.isQuoted :: done) r
      | (some '$', r) =>
        match dollar commands (fun p ↦ pieces commands n p []) p r with
        | .error e => .error e
        | .ok (piece, r) => pieces commands n p (piece :: done) r
      | (some c, r) =>
        match p with
        | .bare =>
          if endsWord c then .ok (done, r.unread c)
          else pieces commands n p (.char c false :: done) r
        | .arithmetic depth =>
          if c = '(' then
            pieces commands n (.arithmetic (depth + 1)) (.char c true :: done) r
          else if c = ')' then
            if depth ≠ 0 then
              pieces commands n (.arithmetic (depth - 1)) (.char c true :: done) r
            else match r.nextJoined with
              | (some ')', r) => .ok (done, r)
              | (d, r) => pieces commands n p (.char c true :: done) (r.unread d)
          else pieces commands n p (.char c true :: done) r
        | _ => pieces commands n p (.char c p.isQuoted :: done) r

/-- The pieces of a word in which neither parameters nor commands are replaced. -/
def literalPieces : Nat → Bool → List Piece → Read (List Piece)
  | 0, _, _, r => fail "Unterminated quoted string".toList r
  | n + 1, inString, done, r =>
    if !inString && r.isAtEndOfAlias then .ok (done, r)
    else match r.nextJoined with
      | (none, r) => if inString then fail "Unterminated quoted string".toList r else .ok (done, r)
      | (some '\\', r) =>
        let (done, r) := escaped (if inString then .string false else .bare) done r
        literalPieces n inString done r
      | (some '"', r) => literalPieces n (!inString) (.mark :: done) r
      | (some c, r) =>
        if inString then
          literalPieces n inString (.char c true :: done) (if c = '\n' then r.nextLine else r)
        else if c = '\'' then
          match singleQuoted (r.size + 1) (.mark :: done) r with
          | .error e => .error e
          | .ok (done, r) => literalPieces n inString done r
        else if endsWord c then .ok (done, r.unread c)
        else literalPieces n inString (.char c false :: done) r

/-- Reads the arrow of a redirection behind its first character. -/
def readArrow (first : Char) (r : Reader) : Arrow × Reader :=
  match first, r.nextJoined with
  | '>', (some '>', r) => (.opening .appending, r)
  | '>', (some '|', r) => (.opening .overwriting, r)
  | '>', (some '&', r) => (.duplicate, r)
  | '>', (c, r) => (.opening .writing, r.unread c)
  | _, (some '<', r) =>
    match r.nextJoined with
    | (some '-', r) => (.document true, r)
    | (c, r) => (.document false, r.unread c)
  | _, (some '&', r) => (.duplicate, r)
  | _, (some '>', r) => (.opening .both, r)
  | _, (c, r) => (.opening .reading, r.unread c)

/-- The token that some pieces are, which is a redirection if an arrow follows a number or
nothing. -/
def tokenOf (w : Word) (r : Reader) : Token × Reader :=
  let arrowAfter := fun (number : Option Nat) ↦
    match r.text with
    | '<' :: cs =>
      let (a, r) := readArrow '<' { r with text := cs }
      (Token.redirection (number.getD 0) a, r)
    | '>' :: cs =>
      let (a, r) := readArrow '>' { r with text := cs }
      (.redirection (number.getD 1) a, r)
    | _ => (.word w, r)
  match w with
  | [] => arrowAfter none
  | [.char c false] => if c.isDigit then arrowAfter (some (c.toNat - '0'.toNat)) else (.word w, r)
  | _ => (.word w, r)

/-- Reads a word or the redirection that stands there. -/
def readWord (commands : Inner) (isLiteral : Bool) : Read Token := fun r ↦
  match if isLiteral then literalPieces (r.size + 1) false [] r
    else pieces commands (r.size + 1) .bare [] r with
  | .error e => .error e
  | .ok (done, r) => .ok (tokenOf done.reverse r)

/-- Reads the text of a document. -/
def documentWord (commands : Inner) (text : Chars) : Read Word := fun r ↦
  let inner := start text r.aliases r.nextDocument
  match pieces commands (inner.size + 1) .document []
      { inner with line := r.line, documents := r.documents } with
  | .error e => .error e
  | .ok (done, inner) =>
    .ok (done.reverse, { r with
      documents := inner.documents, nextDocument := inner.nextDocument })

end ContractBuild.Shell.Reader
