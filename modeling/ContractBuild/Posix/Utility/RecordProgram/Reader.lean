import ContractBuild.Posix.Utility.RecordProgram.Syntax
import ContractBuild.Posix.Utility.RecordProgram.Token

/-!
# Reading record programs

Programs are read from their tokens by levels of operators.  A value can be given to a place
wherever an operand of a comparison can stand, and a regular expression that stands alone asks for
the record.
-/

namespace ContractBuild.Utility.RecordProgram

/-! ## What is known while a program is read -/

/-- How a variable is used. -/
inductive Use
  /-- In no way that would tell. -/
  | unknown
  /-- It has a value. -/
  | value
  /-- It is a table. -/
  | table
  deriving DecidableEq, Repr

/-- A function that is called or defined. -/
structure Header where
  /-- Its name. -/
  name : Chars
  /-- The number of its parameters, once it is defined. -/
  parameters : Option Nat
  /-- What it does. -/
  body : Statement

/-- What is wrong with a program at one place. -/
structure Fault where
  /-- What is wrong, in words, the latest first. -/
  complaints : List Chars
  /-- The tokens that are left, if reading can go on. -/
  tokens : Option (List Placed)

/-- Where reading has got to. -/
structure Reading where
  /-- The tokens that are left. -/
  tokens : List Placed
  /-- What has been found wrong, the latest first. -/
  complaints : List Chars
  /-- The variables of the program, with their use. -/
  shared : Array (Chars × Use)
  /-- The parameters of the function at work, with their use. -/
  own : Array (Chars × Use)
  /-- Whether a function is at work. -/
  isInFunction : Bool
  /-- Whether a rule is at work. -/
  isInRule : Bool
  /-- How many loops are entered. -/
  loops : Nat
  /-- The functions. -/
  functions : Array Header
  /-- The calls of functions that had no definition yet: the number of each, the number of arguments
  and the line. -/
  calls : List (Nat × Nat × Nat)

/-- The state before a program is read. -/
def Reading.ofProgram (cs : Chars) : Reading :=
  let use := fun (s : String) ↦ if s = "ENVIRON" || s = "ARGV" then Use.table else .value
  let specials := (specialNames.map fun s ↦ (s.toList, use s)).toArray
  ⟨Token.readAll cs, [], specials, #[], false, false, 0, #[], []⟩

/-- Reads a part of a program. -/
abbrev Parser := StateT Reading (Except Fault)

namespace Parser

/-! ## Tokens -/

/-- The token at hand. -/
def here : Parser Placed := do
  match (← get).tokens with
  | t :: _ => return t
  | [] => return ⟨.last, 0, [], 0, 0⟩

/-- The token behind the one at hand. -/
def ahead (n : Nat) : Parser Token := do
  return (((← get).tokens[n]?).map (·.token)).getD .last

/-- The words for something that is wrong on a line. -/
def onLine (line : Nat) (message : Chars) : Chars :=
  "line ".toList ++ Chars.ofNat line ++ ": ".toList ++ message

/-- The state without the tokens at hand that are too much. -/
def withoutSurplus (r : Reading) : List Placed → Reading
  | ⟨.surplus message, line, _, _, _⟩ :: ts =>
    withoutSurplus { r with complaints := onLine line message :: r.complaints } ts
  | ts => { r with tokens := ts }

/-- Goes on to the next token. -/
def skip : Parser Unit := modify fun r ↦ withoutSurplus r (r.tokens.drop 1)

/-- Refuses a program. -/
def refuse {α : Type} (message : Chars) : Parser α := do
  let r ← get
  throw ⟨onLine (← here).line message :: r.complaints, some r.tokens⟩

/-- Notes that something is wrong with a program and goes on. -/
def complain (message : Chars) : Parser Unit := do
  let line := (← here).line
  modify fun r ↦ { r with complaints := onLine line message :: r.complaints }

/-- Refuses a program of which nothing more can be read. -/
def refuseAll {α : Type} (message : Chars) : Parser α := do
  throw ⟨message :: (← get).complaints, none⟩

/-- Refuses the token at hand. -/
def unexpected {α : Type} : Parser α := do
  let t ← here
  match t.token with
  | .wrong true message => refuseAll message
  | .wrong false message => refuseAll (onLine t.line message)
  | .last => do
    if t.braces = 0 then refuse "syntax error at or near end of file".toList
    else refuse "missing \x7d near end of file".toList
  | token => do
    if token.isEnd && t.parentheses ≠ 0 then refuse ("missing ) near ".toList ++ t.shown)
    else refuse ("syntax error at or near ".toList ++ t.shown)

/-- Whether a sign is at hand. -/
def atSign (s : String) : Parser Bool := do
  match (← here).token with
  | .sign t => return s = t
  | _ => return false

/-- Whether a word is at hand. -/
def atWord (w : String) : Parser Bool := do
  match (← here).token with
  | .word t => return w = t
  | _ => return false

/-- Skips a sign, which must be at hand. -/
def expect (s : String) : Parser Unit := do
  if ← atSign s then skip else unexpected

/-- Skips an end of a line, if it is at hand. -/
def skipLineEnd : Parser Unit := do
  match (← here).token with
  | .lineEnd => skip
  | _ => pure ()

/-- Skips the end of a statement, which must be at hand. -/
def endStatement : Parser Unit := do
  match (← here).token with
  | .lineEnd => skip
  | .sign ";" => skip
  | _ => unexpected

/-- Whether the end of a statement is at hand. -/
def atEnd : Parser Bool := do
  match (← here).token with
  | .lineEnd => return true
  | .sign s => return s = ";"
  | _ => return false

/-- The name at hand. -/
def name : Parser Chars := do
  match (← here).token with
  | .name cs => skip; return cs
  | _ => unexpected

/-! ## Variables and functions -/

/-- The complaint about a variable that is used in two ways. -/
def misuse (v : Variable) (use : Use) (cs : Chars) : Parser Unit :=
  let scope := match v with
    | .own _ => "local ".toList
    | .shared _ => []
  complain ("illegal reference to ".toList ++ scope ++
    (if use = .table then "array " else "variable ").toList ++ cs)

/-- The variable of a name that is used in some way. -/
def variableOf (cs : Chars) (use : Use) : Parser Variable := do
  let r ← get
  let joined := fun (before : Use) ↦ if use = .unknown then before else use
  let isWrong := fun (before : Use) ↦ use ≠ .unknown && before ≠ .unknown && before ≠ use
  match r.own.findIdx? (·.1 = cs) with
  | some i =>
    let before := ((r.own[i]?).map (·.2)).getD .unknown
    if isWrong before then misuse (.own i) before cs
    modify fun r ↦ { r with own := r.own.setIfInBounds i (cs, joined before) }
    return .own i
  | none =>
    match r.shared.findIdx? (·.1 = cs) with
    | some i =>
      let before := ((r.shared[i]?).map (·.2)).getD .unknown
      if isWrong before then misuse (.shared i) before cs
      modify fun r ↦ { r with shared := r.shared.setIfInBounds i (cs, joined before) }
      return .shared i
    | none =>
      set { r with shared := r.shared.push (cs, use) }
      return .shared r.shared.size

/-- The number of a function. -/
def functionOf (cs : Chars) : Parser Nat := do
  let r ← get
  match r.functions.findIdx? (·.name = cs) with
  | some i => return i
  | none =>
    set { r with functions := r.functions.push ⟨cs, none, .nothing⟩ }
    return r.functions.size

/-- Whether a name is that of a function that has been defined or called. -/
def isFunction (cs : Chars) : Parser Bool := do
  return (← get).functions.any (·.name = cs)

/-- The complaint about too many arguments. -/
def tooMany (cs : Chars) : Chars := "too many arguments in call to ".toList ++ cs

/-- Notes the call of a function with so many arguments. -/
def noteCall (k count : Nat) : Parser Unit := do
  let r ← get
  match r.functions[k]? with
  | some ⟨cs, some parameters, _⟩ => if parameters < count then complain (tooMany cs)
  | _ => set { r with calls := (k, count, (← here).line) :: r.calls }

/-- The expression of a pattern. -/
def patternOf (cs : Chars) : Parser Regex := do
  match Pattern.read cs with
  | .ok r => return r
  | .error e => do
    refuseAll (onLine (← here).line ("regular expression compile failed (".toList ++
      e.message.toList ++ ")\n".toList ++ cs))

/-! ## Operators -/

/-- The calculations, each with its sign and its level. -/
def calculations : List (String × Calculation × Nat) :=
  [("+", .sum, 10), ("-", .difference, 10), ("*", .product, 11), ("/", .quotient, 11),
    ("%", .remainder, 11), ("^", .power, 14)]

/-- The calculations with which a place gets a new value. -/
def updates : List (String × Calculation) :=
  [("+=", .sum), ("-=", .difference), ("*=", .product), ("/=", .quotient), ("%=", .remainder),
    ("^=", .power)]

/-- The comparisons. -/
def relations : List (String × Relation) :=
  [("<", .less), ("<=", .atMost), ("==", .equal), ("!=", .unequal), (">=", .atLeast),
    (">", .greater)]

/-- The level of a choice. -/
def choiceLevel : Nat := 2
/-- The level of a disjunction. -/
def disjunctionLevel : Nat := 3
/-- The level of a conjunction. -/
def conjunctionLevel : Nat := 4
/-- The level of looking for a key. -/
def keyLevel : Nat := 5
/-- The level of looking for a pattern. -/
def patternLevel : Nat := 6
/-- The level of comparisons. -/
def relationLevel : Nat := 7
/-- The level of texts behind each other. -/
def joiningLevel : Nat := 8
/-- The level of the signs in front of an operand. -/
def signLevel : Nat := 12
/-- The level of the output of commands. -/
def commandLevel : Nat := 13

/-- The functions that every program has, each with the least and the greatest number of its
arguments. -/
def builtins : List (String × Builtin × Nat × Nat) :=
  [("substr", .substring, 2, 3), ("index", .index, 2, 2), ("sprintf", .format, 1, 255),
    ("sin", .sine, 1, 1), ("cos", .cosine, 1, 1), ("atan2", .arctangent, 2, 2),
    ("exp", .exponential, 1, 1), ("log", .logarithm, 1, 1), ("sqrt", .root, 1, 1),
    ("int", .whole, 1, 1), ("rand", .random, 0, 0), ("srand", .seed, 0, 1), ("system", .run, 1, 1),
    ("close", .close, 1, 1), ("fflush", .flush, 0, 1), ("tolower", .lower, 1, 1),
    ("toupper", .upper, 1, 1), ("systime", .time, 0, 0), ("mktime", .timeOf, 1, 1),
    ("strftime", .timeText, 0, 3)]

/-- The functions with arguments of their own kinds. -/
def specialFunctions : List String := ["length", "split", "sub", "gsub", "match", "getline"]

/-- Whether a token can start the second one of two texts. -/
def startsText : Token → Bool
  | .number _ | .text _ | .pattern _ | .name _ | .function _ => true
  | .sign s => ["(", "!", "$", "++", "--"].contains s
  | .word w => specialFunctions.contains w || builtins.any (·.1 = w)
  | _ => false

/-! ## Expressions -/

/-- An expression as it has been read. -/
structure Operand where
  /-- The expression. -/
  expression : Expression
  /-- The place that it is, if it can get a value. -/
  place : Option Place
  /-- Whether it is too wide for calculations. -/
  isWide : Bool

/-- An operand that is a place. -/
def ofPlace (p : Place) : Operand := ⟨.value p, some p, false⟩

/-- An operand that is no place. -/
def ofValue (e : Expression) : Operand := ⟨e, none, false⟩

/-- A comparison or something that binds even less. -/
def ofWide (e : Expression) : Operand := ⟨e, none, true⟩

/-- The names that mean something for the record or for texts; what belongs to one of them does so
also behind the sign of a field. -/
def recordNames : List String := ["NF", "RS", "FS", "CONVFMT", "OFMT"]

/-- Whether the tokens at hand start the place for a record. -/
def atPlace : Parser Bool := do
  match (← here).token with
  | .name cs => return !(← isFunction cs)
  | .sign s => return s = "$"
  | _ => return false

mutual

/-- The expression of a level at least.  Every step goes one part further in. -/
def expression : Nat → Nat → Bool → Parser Expression
  | 0, _, _ => unexpected
  | n + 1, level, canAssign => do
    let first ← operand n
    return (← climb n level canAssign first).expression

/-- A whole expression. -/
def whole : Nat → Parser Expression
  | 0 => unexpected
  | n + 1 => expression n 1 true

/-- The expression with the operators behind its first operand. -/
def climb : Nat → Nat → Bool → Operand → Parser Operand
  | 0, _, _, _ => unexpected
  | n + 1, level, canAssign, first => do
    let goOn := climb n level canAssign
    let e := first.expression
    let join : Parser Operand := do
      if level ≤ joiningLevel && !first.isWide && startsText (← here).token then
        goOn (ofValue (.joined e (← expression n (joiningLevel + 1) false)))
      else return first
    match (← here).token with
    | .sign s =>
      match first.place, canAssign, updates.lookup s with
      | some p, true, some c =>
        skip
        return ofWide (.update c p (← expression n 1 true))
      | some p, true, none =>
        if s = "=" then
          skip
          return ofWide (.assign p (← expression n 1 true))
        else operators n level canAssign first s join
      | _, _, _ => operators n level canAssign first s join
    | .word "in" =>
      if keyLevel < level then return first
      skip
      goOn (ofWide (.contains [e] (← variableOf (← name) .table)))
    | _ => join

/-- The expression with the operators behind its first operand, the first one of which is a sign. -/
def operators : Nat → Nat → Bool → Operand → String → Parser Operand → Parser Operand
  | 0, _, _, _, _, _ => unexpected
  | n + 1, level, canAssign, first, s, join => do
    let goOn := climb n level canAssign
    let e := first.expression
    match calculations.lookup s, relations.lookup s with
    | some (c, own), _ =>
      if own < level || first.isWide then return first
      skip
      let inner := if c = .power then own else own + 1
      goOn (ofValue (.calculated c e (← expression n inner false)))
    | none, some r =>
      if relationLevel < level then return first
      skip
      goOn (ofWide (.compared r e (← expression n (relationLevel + 1) true)))
    | none, none =>
      match s with
      | "?" =>
        if choiceLevel < level then return first
        skip
        let second ← expression n 1 true
        expect ":"
        return ofWide (.choice e second (← expression n choiceLevel true))
      | "||" =>
        if disjunctionLevel < level then return first
        skip
        goOn (ofWide (.disjunction e (← expression n (disjunctionLevel + 1) true)))
      | "&&" =>
        if conjunctionLevel < level then return first
        skip
        goOn (ofWide (.conjunction e (← expression n (conjunctionLevel + 1) true)))
      | "~" | "!~" =>
        if patternLevel < level then return first
        skip
        let second ← match ← expression n (patternLevel + 1) true with
          | .text cs => pure (.pattern (← patternOf cs))
          | e => pure e
        goOn (ofWide (.found (s = "!~") e second))
      | "|" =>
        if commandLevel < level || first.isWide then return first
        skip
        if !(← atWord "getline") then unexpected
        skip
        goOn (ofValue (.nextOfCommand e (← recordPlace n)))
      | _ => join

/-- The place for a record, if there is one. -/
def recordPlace : Nat → Parser (Option Place)
  | 0 => return none
  | n + 1 => do
    if !(← atPlace) then return none
    return (← barePlace n).place

/-- A variable, an element or a field. -/
def barePlace : Nat → Parser Operand
  | 0 => unexpected
  | n + 1 => do
    match (← here).token with
    | .name cs =>
      skip
      if ← atSign "[" then
        skip
        let keys ← expressions n
        expect "]"
        return ofPlace (.element (← variableOf cs .table) keys)
      return ofPlace (.whole (← variableOf cs .value))
    | .sign "$" =>
      skip
      let number ← match (← here).token with
        | .name cs =>
          if (← isFunction cs) || recordNames.contains (Chars.toString cs) then operand n
          else barePlace n
        | .sign "$" => barePlace n
        | _ => operand n
      return ofPlace (.field number.expression)
    | .sign "(" =>
      skip
      let e ← whole n
      expect ")"
      match e with
      | .value (.field k) => return ofPlace (.field k)
      | _ => unexpected
    | _ => unexpected

/-- An operand with the signs that belong to it alone. -/
def operand : Nat → Parser Operand
  | 0 => unexpected
  | n + 1 => do
    let counted := fun (o : Operand) ↦ do
      match o.place with
      | none => return o
      | some p => do
        if ← atSign "++" then
          skip
          return ofValue (.step true true p)
        if ← atSign "--" then
          skip
          return ofValue (.step false true p)
        return o
    match (← here).token with
    | .number x => skip; return ofValue (.number x)
    | .text cs => skip; return ofValue (.text cs)
    | .pattern cs =>
      skip
      return ofValue (.pattern (← patternOf cs))
    | .name cs =>
      if (← isFunction cs) && (match ← ahead 1 with | .sign s => s = "(" | _ => false) then
        skip
        ofValue <$> call n cs
      else counted (← barePlace n)
    | .function cs =>
      skip
      ofValue <$> call n cs
    | .word w =>
      if !specialFunctions.contains w && (builtins.lookup w).isNone then unexpected
      skip
      if w = "getline" then
        let p ← recordPlace n
        if ← atSign "<" then
          skip
          return ofValue (.nextOfFile (← expression n (commandLevel + 1) false) p)
        return ofValue (.nextRecord p)
      else match builtins.lookup w with
        | some (f, least, most) => do
          expect "("
          let args ← if ← atSign ")" then pure [] else expressions n
          expect ")"
          if args.length < least || most < args.length then
            complain ("wrong number of arguments in call to ".toList ++ w.toList)
          return ofValue (.builtin f args)
        | none => ofValue <$> specialCall n w
    | .sign "$" => do counted (← barePlace n)
    | .sign "!" => skip; return ofValue (.negation (← expression n signLevel false))
    | .sign "-" => skip; return ofValue (.negative (← expression n signLevel false))
    | .sign "+" => skip; return ofValue (.positive (← expression n signLevel false))
    | .sign "++" =>
      skip
      match (← barePlace n).place with
      | some p => return ofValue (.step true false p)
      | none => unexpected
    | .sign "--" =>
      skip
      match (← barePlace n).place with
      | some p => return ofValue (.step false false p)
      | none => unexpected
    | .sign "(" => do
      skip
      let es ← expressions n
      expect ")"
      match es with
      | [.value (.field k)] => counted (ofPlace (.field k))
      | [e] => return ofValue e
      | es => do
        if !(← atWord "in") then unexpected
        skip
        return ofWide (.contains es (← variableOf (← name) .table))
    | _ => unexpected

/-- Expressions with commas between them. -/
def expressions : Nat → Parser (List Expression)
  | 0 => unexpected
  | n + 1 => do
    let e ← expression n 1 true
    if ← atSign "," then
      skip
      return e :: (← expressions n)
    return [e]

/-- The arguments of a function of the program; a variable that stands alone can be a table. -/
def callArguments : Nat → Parser (List Expression)
  | 0 => unexpected
  | n + 1 => do
    let isAlone := match ← ahead 1 with
      | .sign s => s = "," || s = ")"
      | _ => false
    let e ← match (← here).token, isAlone with
      | .name cs, true => do
        skip
        pure (.value (.whole (← variableOf cs .unknown)))
      | _, _ => expression n 1 true
    if ← atSign "," then
      skip
      return e :: (← callArguments n)
    return [e]

/-- The call of a function of the program. -/
def call : Nat → Chars → Parser Expression
  | 0, _ => unexpected
  | n + 1, cs => do
    expect "("
    let args ← if ← atSign ")" then pure [] else callArguments n
    expect ")"
    let k ← functionOf cs
    noteCall k args.length
    return .call k args

/-- The call of a function with arguments of their own kinds. -/
def specialCall : Nat → String → Parser Expression
  | 0, _ => unexpected
  | n + 1, w => do
    match w with
    | "length" =>
      if !(← atSign "(") then return .builtin .length []
      skip
      if ← atSign ")" then
        skip
        return .builtin .length []
      let args ← match (← here).token, ← ahead 1 with
        | .name cs, .sign ")" => do
          skip
          pure [.value (.whole (← variableOf cs .unknown))]
        | _, _ => do pure [← whole n]
      expect ")"
      return .builtin .length args
    | "split" =>
      expect "("
      let text ← whole n
      expect ","
      let t ← name
      let separator ← if ← atSign "," then do
          skip
          pure [← whole n]
        else pure []
      expect ")"
      return .builtin .split
        (text :: .value (.whole (← variableOf t .table)) :: separator)
    | "match" =>
      expect "("
      let text ← whole n
      expect ","
      let pattern ← whole n
      expect ")"
      return .builtin .search [text, pattern]
    | w =>
      expect "("
      let pattern ← whole n
      expect ","
      let new ← whole n
      let target ← if ← atSign "," then do
          skip
          if !(← atPlace) && !(← atSign "(") then unexpected
          match (← barePlace n).place with
          | some p => pure p
          | none => unexpected
        else pure (.field (.number 0))
      expect ")"
      return .builtin (if w = "sub" then .substitute else .substituteAll)
        [pattern, new, .value target]

end

/-! ## Statements -/

/-- Where a statement writes to. -/
def destination (n : Nat) : Parser Destination := do
  match (← here).token with
  | .toward s =>
    skip
    let kind := if s = ">" then SinkKind.file else if s = ">>" then .extended else .command
    return some (kind, ← whole n)
  | _ => return none

/-- Whether the parenthesis at hand holds all values of a statement that writes, from the tokens
behind it. -/
def holdsAll : Nat → List Placed → Bool
  | _, [] => false
  | depth, t :: ts =>
    match t.token with
    | .sign "(" => holdsAll (depth + 1) ts
    | .sign ")" =>
      if depth = 0 then match (ts.head?.map Placed.token : Option Token) with
        | some (.toward _) | none => true
        | some t => t.isEnd
      else holdsAll (depth - 1) ts
    | _ => holdsAll depth ts

/-- The values that a statement writes. -/
def writtenValues (n : Nat) : Parser (List Expression) := do
  match (← here).token with
  | .toward _ => return []
  | t =>
    if t.isEnd then return []
    if (← atSign "(") && holdsAll 0 ((← get).tokens.drop 1) then
      skip
      let es ← if ← atSign ")" then pure [] else expressions n
      expect ")"
      return es
    expressions n

/-- An expression in parentheses. -/
def inParentheses (n : Nat) : Parser Expression := do
  expect "("
  let e ← whole n
  expect ")"
  return e

/-- What may stand before the end of a statement. -/
def optional (n : Nat) : Parser (Option Expression) := do
  if ← atEnd then return none
  return some (← whole n)

/-- A statement within a loop. -/
def inLoop {α : Type} (body : Parser α) : Parser α := do
  modify fun r ↦ { r with loops := r.loops + 1 }
  let s ← body
  modify fun r ↦ { r with loops := r.loops - 1 }
  return s

/-- A statement that is written as one word. -/
def jump (s : Statement) (isAllowed : Bool) (complaint : String) : Parser Statement := do
  skip
  if !isAllowed then complain complaint.toList
  endStatement
  return s

/-- The most faults of a program that are told. -/
def faultLimit : Nat := 5

/-- The tokens where the parentheses that are open at the first one are given up. -/
def withoutParentheses (ts : List Placed) : List Placed :=
  let count := (ts.head?.map (·.parentheses)).getD 0
  ts.map fun t ↦ { t with parentheses := t.parentheses - count }

/-- Notes what is wrong and goes on where `skipTo` says, unless nothing more can be read. -/
def recover (r : Reading) (f : Fault) (skipTo : List Placed → List Placed) : Parser Unit := do
  match f.tokens.map fun ts ↦ skipTo (withoutParentheses ts) with
  | none | some [] => throw { f with tokens := none }
  | some tokens =>
    if f.complaints.length = faultLimit then throw { f with tokens := none }
    set (withoutSurplus { r with complaints := f.complaints } tokens)

/-- The tokens behind the next end of a statement. -/
def behindStatement : List Placed → List Placed
  | [] => []
  | t :: ts =>
    match t.token with
    | .lineEnd => ts
    | .sign s => if s = ";" then ts else behindStatement ts
    | _ => behindStatement ts

/-- The tokens from the next opening brace on. -/
def fromBrace : List Placed → List Placed
  | [] => []
  | t :: ts =>
    match t.token with
    | .sign s => if s = "\x7b" then t :: ts else fromBrace ts
    | _ => fromBrace ts

/-- A statement, or what is wrong with it is noted. -/
def guarded (body : Parser Statement) : Parser Statement := do
  let r ← get
  tryCatch body fun f ↦ do
    recover r f behindStatement
    return .nothing

mutual

/-- A statement.  Every step goes one part further in. -/
def statement : Nat → Parser Statement
  | 0 => unexpected
  | n + 1 => guarded do
    let r ← get
    match (← here).token with
    | .sign "\x7b" => block n
    | .sign ";" | .lineEnd =>
      skip
      return .nothing
    | .word "if" =>
      skip
      let e ← inParentheses n
      skipLineEnd
      let first ← statement n
      if ← atWord "else" then
        skip
        skipLineEnd
        return .branch e first (← statement n)
      return .branch e first .nothing
    | .word "while" =>
      skip
      let e ← inParentheses n
      skipLineEnd
      return .loop false (some e) none (← inLoop (statement n))
    | .word "do" =>
      skip
      skipLineEnd
      let body ← inLoop (statement n)
      if !(← atWord "while") then unexpected
      skip
      let e ← inParentheses n
      endStatement
      return .loop true (some e) none body
    | .word "for" => skip; forLoop n
    | .word "break" => jump .leave (r.loops ≠ 0) "break statement outside of loop"
    | .word "continue" => jump .again (r.loops ≠ 0) "continue statement outside of loop"
    | .word "next" => jump .next r.isInRule "improper use of next"
    | .word "nextfile" => jump .nextInput r.isInRule "improper use of nextfile"
    | .word "exit" =>
      skip
      let e ← optional n
      endStatement
      return .exit e
    | .word "return" =>
      skip
      if !r.isInFunction then complain "return outside function body".toList
      let e ← optional n
      endStatement
      return .giveBack e
    | .word "delete" =>
      skip
      let t ← variableOf (← name) .table
      let keys ← if ← atSign "[" then do
          skip
          let keys ← expressions n
          expect "]"
          pure (some keys)
        else pure none
      endStatement
      return match keys with
        | some keys => .delete t keys
        | none => .deleteAll t
    | .word "print" =>
      skip
      let es ← writtenValues n
      let target ← destination n
      endStatement
      return .print es target
    | .word "printf" =>
      skip
      let es ← writtenValues n
      if es.isEmpty then complain "no arguments in call to printf".toList
      let target ← destination n
      endStatement
      return .printf es target
    | _ =>
      let e ← whole n
      endStatement
      return .effect e

/-- The rest of a loop behind its first word. -/
def forLoop : Nat → Parser Statement
  | 0 => unexpected
  | n + 1 => do
    expect "("
    match (← here).token, ← ahead 1, ← ahead 2, ← ahead 3 with
    | .name k, .word "in", .name t, .sign ")" =>
      let v ← variableOf k .value
      let t ← variableOf t .table
      modify fun r ↦ { r with tokens := r.tokens.drop 4 }
      skipLineEnd
      return .each v t (← inLoop (statement n))
    | _, _, _, _ => do
      let first ← if ← atSign ";" then pure none else some <$> whole n
      expect ";"
      let condition ← if ← atSign ";" then pure none else some <$> whole n
      expect ";"
      let step ← if ← atSign ")" then pure none else some <$> whole n
      expect ")"
      skipLineEnd
      let loop := Statement.loop false condition step (← inLoop (statement n))
      return match first with
        | some e => .block [.effect e, loop]
        | none => loop

/-- Statements in braces. -/
def block : Nat → Parser Statement
  | 0 => unexpected
  | n + 1 => do
    expect "\x7b"
    .block <$> blockRest n

/-- Statements up to a closing brace. -/
def blockRest : Nat → Parser (List Statement)
  | 0 => unexpected
  | n + 1 => do
    if ← atSign "\x7d" then
      skip
      return []
    let s ← statement n
    return s :: (← blockRest n)

end

/-! ## Programs -/

/-- The parameters of a function up to a closing parenthesis. -/
def parameters : Nat → Parser (List Chars)
  | 0 => unexpected
  | n + 1 => do
    let cs ← name
    if ← atSign "," then
      skip
      let rest ← parameters n
      if rest.contains cs then complain (cs ++ " is duplicated in argument list".toList)
      return cs :: rest
    return [cs]

/-- The definition of a function, behind its first word. -/
def definition (n : Nat) : Parser Unit := do
  let cs ← match (← here).token with
    | .function cs => pure cs
    | .name cs => pure cs
    | _ => unexpected
  skip
  expect "("
  let ps ← if ← atSign ")" then pure [] else parameters n
  expect ")"
  skipLineEnd
  let k ← functionOf cs
  if (((← get).functions[k]?).bind (·.parameters)).isSome then
    complain ("redefinition of ".toList ++ cs)
  modify fun r ↦ { r with
    functions := r.functions.setIfInBounds k ⟨cs, some ps.length, .nothing⟩
    own := (ps.map fun p ↦ (p, Use.unknown)).toArray
    isInFunction := true }
  let body ← block n
  modify fun r ↦ { r with
    functions := r.functions.setIfInBounds k ⟨cs, some ps.length, body⟩
    own := #[]
    isInFunction := false }

/-- What is done for a record if nothing is said. -/
def usualBody : Statement := .print [] none

/-- A part of a program: the work before or behind all records, a function or a rule. -/
def part (n : Nat) (script : Script) : Parser Script := do
  match (← here).token with
  | .word "BEGIN" =>
    skip
    let body ← block n
    return { script with start := script.start ++ [body] }
  | .word "END" =>
    skip
    let body ← block n
    return { script with finish := script.finish ++ [body] }
  | .word "function" =>
    skip
    definition n
    return script
  | _ =>
    modify fun r ↦ { r with isInRule := true }
    let condition ← if ← atSign "\x7b" then pure .always else do
      let first ← whole n
      if ← atSign "," then
        skip
        pure (.between first (← whole n))
      else pure (.when first)
    let body ← if ← atSign "\x7b" then block n else do
      endStatement
      pure usualBody
    modify fun r ↦ { r with isInRule := false }
    return { script with rules := script.rules.push ⟨condition, body⟩ }

/-- The parts of a program up to its end. -/
def parts : Nat → Script → Parser Script
  | 0, _ => unexpected
  | n + 1, script => do
    match (← here).token with
    | .last => return script
    | _ =>
      let r ← get
      let script ← tryCatch (part n script) fun f ↦ do
        recover r f fromBrace
        return script
      parts n script

/-- What is wrong with the calls of functions, the latest first: one that is not defined, or too
many arguments. -/
def wrongCalls (r : Reading) (line : Nat) : List Chars :=
  r.calls.filterMap fun (k, count, callLine) ↦
    match r.functions[k]? with
    | some ⟨cs, none, _⟩ => some (onLine line ("function ".toList ++ cs ++ " never defined".toList))
    | some ⟨cs, some ps, _⟩ => if ps < count then some (onLine callLine (tooMany cs)) else none
    | none => none

/-- The program that a text spells, and what is wrong with it. -/
def script (n : Nat) : Parser (Script × List Chars) := do
  modify fun r ↦ withoutSurplus r r.tokens
  let s ← parts n ⟨#[], #[], [], #[], []⟩
  let r ← get
  let s := { s with
    names := r.shared.map (·.1)
    functions := r.functions.map fun f ↦ ⟨f.name, f.parameters.getD 0, f.body⟩ }
  let line := (← here).line
  let complaints := if r.complaints = [] then wrongCalls r line else r.complaints.reverse
  return (s, complaints.take faultLimit)

end Parser

/-- The program that a text spells, or what is wrong with it. -/
def read (cs : Chars) : Except (List Chars) Script :=
  match (Parser.script (40 * cs.length + 100)).run (Reading.ofProgram cs) with
  | .ok ((s, []), _) => .ok s
  | .ok ((_, complaints), _) => .error complaints
  | .error f => .error f.complaints.reverse

end ContractBuild.Utility.RecordProgram
