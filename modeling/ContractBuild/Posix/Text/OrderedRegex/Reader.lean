import ContractBuild.Posix.Text.Numeral
import ContractBuild.Posix.Text.OrderedRegex.Basic

/-!
# Reading regular expressions with an order

A text is read twice, because a part can be referred to before it comes: the first reading finds
out which parts there are, the second one knows them.
-/

namespace ContractBuild.OrderedRegex

/-! ## What can be wrong -/

/-- What is wrong with an expression. -/
inductive Wrong
  /-- A backslash stands at the end. -/
  | lastBackslash
  /-- The sign for a control character stands at the end. -/
  | lastControl
  /-- A letter behind a backslash has no meaning. -/
  | escape
  /-- A letter behind a backslash has a meaning that is not known here. -/
  | foreignEscape
  /-- A letter behind a backslash has no meaning in brackets. -/
  | escapeInBrackets
  /-- The sign for all but the end of a line stands in brackets. -/
  | noLineEndInBrackets
  /-- The numbers of a repetition are out of order. -/
  | timesOrder
  /-- A number of a repetition is too great. -/
  | timesSize
  /-- There is nothing to be repeated. -/
  | bareTimes
  /-- Brackets do not end. -/
  | openBracket
  /-- A range has its end before its start. -/
  | rangeOrder
  /-- The end of a range is no character. -/
  | range
  /-- The name of a class stands outside of brackets. -/
  | classOutside
  /-- Signs for a character of some language. -/
  | collation
  /-- There is no class of a name. -/
  | className
  /-- A sign at the start of a part is not known. -/
  | groupSign
  /-- A sign of the other kind at the start of a part is not known. -/
  | otherGroupSign
  /-- A word at the start of a part is not known. -/
  | verb
  /-- A part does not end. -/
  | openGroup
  /-- A part ends that has not started. -/
  | closedGroup
  /-- A remark does not end. -/
  | openRemark
  /-- The name of a part is missing. -/
  | noName
  /-- The name of a part does not end. -/
  | openName
  /-- Two parts have the same name. -/
  | nameTwice
  /-- The name of a part starts with a digit. -/
  | nameDigit
  /-- No name follows the sign for a part. -/
  | bareName
  /-- No name and no number follows the sign for a part. -/
  | bareReference
  /-- There is no such part. -/
  | reference
  /-- A part is counted from here with zero. -/
  | zeroDistance
  /-- A part is counted from here without a number. -/
  | noDistance
  /-- A call of the whole expression does not end. -/
  | openCall
  /-- A condition does not end. -/
  | openCondition
  /-- A condition is none. -/
  | condition
  /-- A condition decides between more than two branches. -/
  | branches
  /-- The text before a spot has no fixed length. -/
  | behindLength
  /-- The number of a character is too great. -/
  | codePoint
  /-- A digit of a number is none. -/
  | hexadecimal
  /-- An octal digit of a number is none. -/
  | octal
  /-- There is no kind of characters of a name. -/
  | property
  /-- The name of a kind of characters is missing. -/
  | noProperty
  deriving DecidableEq, Repr

/-- The words for what is wrong. -/
def Wrong.message : Wrong → String
  | .lastBackslash => "\\ at end of pattern"
  | .lastControl => "\\c at end of pattern"
  | .escape => "unrecognized character follows \\"
  | .foreignEscape => "PCRE2 does not support \\F, \\L, \\l, \\N\x7bname\x7d, \\U, or \\u"
  | .escapeInBrackets => "escape sequence is invalid in character class"
  | .noLineEndInBrackets => "\\N is not supported in a class"
  | .timesOrder => "numbers out of order in \x7b\x7d quantifier"
  | .timesSize => "number too big in \x7b\x7d quantifier"
  | .bareTimes => "quantifier does not follow a repeatable item"
  | .openBracket => "missing terminating ] for character class"
  | .rangeOrder => "range out of order in character class"
  | .range => "invalid range in character class"
  | .classOutside => "POSIX named classes are supported only within a class"
  | .collation => "POSIX collating elements are not supported"
  | .className => "unknown POSIX class name"
  | .groupSign => "unrecognized character after (? or (?-"
  | .otherGroupSign => "unrecognized character after (?P"
  | .verb => "(*VERB) not recognized or malformed"
  | .openGroup => "missing closing parenthesis"
  | .closedGroup => "unmatched closing parenthesis"
  | .openRemark => "missing ) after (?# comment"
  | .noName => "subpattern name expected"
  | .openName => "syntax error in subpattern name (missing terminator?)"
  | .nameTwice => "two named subpatterns have the same name (PCRE2_DUPNAMES not set)"
  | .nameDigit => "subpattern name must start with a non-digit"
  | .bareName => "\\k is not followed by a braced, angle-bracketed, or quoted name"
  | .bareReference =>
    "\\g is not followed by a braced, angle-bracketed, or quoted name/number or " ++
    "by a plain number"
  | .reference => "reference to non-existent subpattern"
  | .zeroDistance => "a relative value of zero is not allowed"
  | .noDistance => "digit expected after (?+ or (?-"
  | .openCall => "(?R (recursive pattern call) must be followed by a closing parenthesis"
  | .openCondition => "missing closing parenthesis for condition"
  | .condition => "assertion expected after (?( or (?(?C)"
  | .branches => "conditional subpattern contains more than two branches"
  | .behindLength => "lookbehind assertion is not fixed length"
  | .codePoint => "character code point value in \\x\x7b\x7d or \\o\x7b\x7d is too large"
  | .hexadecimal => "non-hex character in \\x\x7b\x7d (closing brace missing?)"
  | .octal => "non-octal character in \\o\x7b\x7d (closing brace missing?)"
  | .property => "unknown property after \\P or \\p"
  | .noProperty => "malformed \\P or \\p sequence"

/-! ## The state of a reading -/

/-- How what follows is read. -/
structure Options where
  /-- Capitals count as small letters. -/
  isFolded : Bool
  /-- Lines within the text start and end. -/
  hasLines : Bool
  /-- A dot stands for every character. -/
  takesAll : Bool
  /-- Blanks and remarks are left out. -/
  isSpaced : Bool
  /-- Parts without a name have no number. -/
  countsNames : Bool
  /-- Repetitions prefer less. -/
  isModest : Bool

/-- What the first reading has found out. -/
structure Known where
  /-- The names of parts, each with the number of its part. -/
  names : List (Chars × Nat)
  /-- How many parts there are. -/
  count : Nat

/-- The state of a reading. -/
structure Reading where
  /-- How what follows is read. -/
  options : Options
  /-- Characters stand for themselves. -/
  isQuoted : Bool
  /-- The number of the next part. -/
  next : Nat
  /-- The names of parts, each with the number of its part. -/
  names : List (Chars × Nat)
  /-- Characters can have several bytes. -/
  isWide : Bool
  /-- What is known from the first reading, if there was one. -/
  known : Option Known

/-- The number of a part that is referred to, which must exist. -/
def Reading.number (s : Reading) (n : Nat) : Except Wrong Nat :=
  match s.known with
  | some k => if k.count < n then .error .reference else .ok n
  | none => .ok n

/-- The number of the part of a name, which must exist. -/
def Reading.named (s : Reading) (name : Chars) : Except Wrong Nat :=
  match s.known with
  | some k => match k.names.lookup name with
    | some n => .ok n
    | none => .error .reference
  | none => .ok 0

/-- The character of a number. -/
def Reading.char (s : Reading) (n : Nat) : Except Wrong Char :=
  if (if s.isWide then 0x10FFFF else 0xFF) < n then .error .codePoint
  else .ok (if s.isWide then Wide.placed (.ofNat n) else .ofNat n)

/-! ## Numbers and names -/

/-- The value of digits in front of something else. -/
def digits (cs : Chars) : Option (Nat × Chars) :=
  let ds := cs.takeWhile Char.isDigit
  (Chars.toNat? ds).map fun n ↦ (n, cs.drop ds.length)

/-- The value of digits, and so many at most, in front of something else. -/
def digitsIn (base most : Nat) (cs : Chars) : Nat × Chars :=
  let ds := (Numeral.digits base (cs.take most)).1
  (Numeral.value base ds, cs.drop ds.length)

/-- The number in braces, behind the first one. -/
def bracedNumber (base : Nat) (e : Wrong) (cs : Chars) : Except Wrong (Nat × Chars) :=
  match digitsIn base cs.length cs with
  | (n, '\x7d' :: rest) => if cs.head? = some '\x7d' then .error e else .ok (n, rest)
  | _ => .error e

/-- The name in front of a sign. -/
def readName (last : Char) (cs : Chars) : Except Wrong (Chars × Chars) :=
  let name := cs.takeWhile (inClass "word")
  if name = [] then .error .noName
  else if name.head?.any Char.isDigit then .error .nameDigit
  else match cs.drop name.length with
    | c :: rest => if c = last then .ok (name, rest) else .error .openName
    | [] => .error .openName

/-- The sign that ends what another one starts. -/
def closingOf (c : Char) : Char :=
  match c with
  | '<' => '>'
  | '\x7b' => '\x7d'
  | c => c

/-! ## Characters -/

/-- What a letter behind a backslash stands for, as far as brackets know it too. -/
inductive Escaped
  /-- A character. -/
  | char (c : Char)
  /-- Characters of one kind. -/
  | kind (p : Piece)
  /-- Something else. -/
  | other

/-- The kinds of characters that letters stand for. -/
def kinds : List (Char × String) :=
  [('d', "digit"), ('w', "word"), ('s', "space"), ('h', "blank"), ('v', "upright")]

/-- The characters that letters stand for. -/
def controls : List (Char × Char) :=
  [('a', '\x07'), ('e', '\x1b'), ('f', '\x0c'), ('n', '\n'), ('r', '\r'), ('t', '\t')]

/-- The kinds of characters that have names, each with the class that it is. -/
def properties : List (String × String) :=
  [("L", "alpha"), ("L&", "alpha"), ("Lu", "upper"), ("Ll", "lower"), ("N", "digit"),
    ("Nd", "digit"), ("P", "punct"), ("Z", "blank"), ("Zs", "blank"), ("Cc", "cntrl"),
    ("C", "cntrl"), ("Xan", "alnum"), ("Xsp", "space"), ("Xps", "space"), ("Xwd", "word"),
    ("Any", "ascii")]

/-- The kind of characters of a name, in braces or of one letter. -/
def readProperty (isNegated : Bool) (cs : Chars) : Except Wrong (Escaped × Chars) :=
  let named := fun (isNegated : Bool) (name rest : Chars) ↦
    match properties.lookup (Chars.toString name) with
    | some c => .ok (.kind (.ofClass isNegated c), rest)
    | none => .error Wrong.property
  match cs with
  | '\x7b' :: cs =>
    let (isNegated, cs) := if cs.head? = some '^' then (!isNegated, cs.drop 1) else (isNegated, cs)
    let name := cs.takeWhile (· ≠ '\x7d')
    if name.length < cs.length then named isNegated name (cs.drop (name.length + 1))
    else .error .noProperty
  | c :: cs => named isNegated [c] cs
  | [] => .error .noProperty

/-- What stands behind a backslash, as far as brackets know it too. -/
def Reading.escaped (s : Reading) (isInside : Bool) (cs : Chars) : Except Wrong (Escaped × Chars) :=
  match cs with
  | [] => .error .lastBackslash
  | c :: rest => do
    let char := fun (n : Nat) (rest : Chars) ↦ do return (Escaped.char (← s.char n), rest)
    match controls.lookup c, kinds.lookup c.toLower with
    | some d, _ => return (.char d, rest)
    | none, some name => return (.kind (.ofClass c.isUpper name), rest)
    | none, none =>
      match c, rest with
      | 'b', _ => return if isInside then (.char '\x08', rest) else (.other, rest)
      | 'p', _ => readProperty false rest
      | 'P', _ => readProperty true rest
      | 'c', [] => throw .lastControl
      | 'c', d :: rest =>
        let n := d.toUpper.toNat
        return (.char (.ofNat (if n < 64 then n + 64 else n - 64)), rest)
      | 'o', '\x7b' :: rest => do
        let (n, rest) ← bracedNumber 8 .octal rest
        char n rest
      | 'x', '\x7b' :: rest => do
        let (n, rest) ← bracedNumber 16 .hexadecimal rest
        char n rest
      | 'x', rest =>
        let (n, rest) := digitsIn 16 2 rest
        char n rest
      | '0', rest =>
        let (n, rest) := digitsIn 8 2 rest
        char n rest
      | c, rest =>
        if ['F', 'L', 'l', 'U', 'u'].contains c then throw .foreignEscape
        else if isInside && '1' ≤ c && c ≤ '7' then
          let (n, rest) := digitsIn 8 3 (c :: rest)
          char n rest
        else if c.isAlphanum then return (.other, rest)
        else return (.char c, rest)

/-! ## Brackets -/

/-- The names of the classes of characters. -/
def classNames : List String :=
  ["alpha", "lower", "upper", "alnum", "ascii", "blank", "cntrl", "digit", "graph", "print",
    "punct", "space", "word", "xdigit"]

/-- The name between two signs and a closing bracket, and what follows it. -/
def namedClass? (sign : Char) : Chars → Option (Chars × Chars)
  | [] | [_] => none
  | c :: d :: cs =>
    if c = sign && d = ']' then some ([], cs)
    else if c = ']' || (c = '[' && d = sign) then none
    else (namedClass? sign (d :: cs)).map fun (name, rest) ↦ (c :: name, rest)

/-- The class in brackets whose name starts here, and what follows it. -/
def classAt? : Chars → Except Wrong (Option (Piece × Chars))
  | sign :: cs =>
    if !(":.=".toList.contains sign) then .ok none
    else match namedClass? sign cs with
      | none => .ok none
      | some (name, rest) =>
        let (isNegated, name) := match name with
          | '^' :: name => (true, Chars.toString name)
          | name => (false, Chars.toString name)
        if sign ≠ ':' then .error .collation
        else if classNames.contains name then .ok (some (.ofClass isNegated name, rest))
        else .error .className
  | [] => .ok none

/-- What brackets hold up to their end, and what follows it.  Every step takes a character. -/
def Reading.pieces (s : Reading) : Nat → Bool → Bool → Chars → Except Wrong (List Piece × Chars)
  | 0, _, _, _ => .error .openBracket
  | n + 1, isFirst, isQuoted, cs => do
    let goOn := fun (p : Piece) (isQuoted : Bool) (cs : Chars) ↦ do
      let (ps, rest) ← s.pieces n false isQuoted cs
      return (p :: ps, rest)
    let kind := fun (p : Piece) (cs : Chars) ↦
      match cs with
      | '-' :: c :: _ => if c = ']' then goOn p false cs else throw Wrong.range
      | cs => goOn p false cs
    let upTo := fun (low high : Char) (cs : Chars) ↦
      if high < low then throw Wrong.rangeOrder else goOn (.range low high) false cs
    let from' := fun (low : Char) (cs : Chars) ↦ do
      match cs with
      | '-' :: ']' :: _ => goOn (.range low low) false cs
      | '-' :: '[' :: rest => do
        if (← classAt? rest).isSome then throw .range
        upTo low '[' rest
      | '-' :: '\\' :: rest => do
        match ← s.escaped true rest with
        | (.char high, rest) => upTo low high rest
        | _ => throw .range
      | '-' :: high :: rest => upTo low high rest
      | cs => goOn (.range low low) false cs
    if isQuoted then
      match cs with
      | '\\' :: 'E' :: rest => s.pieces n isFirst false rest
      | c :: rest => goOn (.range c c) true rest
      | [] => throw .openBracket
    else match cs with
    | [] => throw .openBracket
    | ']' :: rest => if isFirst then from' ']' rest else return ([], rest)
    | '[' :: rest =>
      match ← classAt? rest with
      | some (p, rest) => kind p rest
      | none => from' '[' rest
    | '\\' :: 'Q' :: rest => s.pieces n isFirst true rest
    | '\\' :: 'E' :: rest => s.pieces n isFirst false rest
    | '\\' :: rest => do
      match ← s.escaped true rest with
      | (.char c, rest) => from' c rest
      | (.kind p, rest) => kind p rest
      | (.other, _) =>
        match rest.head? with
        | some 'N' => throw .noLineEndInBrackets
        | some c => throw (if ['B', 'R', 'X'].contains c then .escapeInBrackets else .escape)
        | none => throw .lastBackslash
    | c :: rest => from' c rest

/-- The expression of brackets, behind the first one, and what follows them. -/
def Reading.brackets (s : Reading) (cs : Chars) : Except Wrong (OrderedRegex × Chars) := do
  if let [sign] := cs.take 1 then
    if [':', '.', '='].contains sign && (namedClass? sign (cs.drop 1)).isSome then
      throw (if sign = ':' then Wrong.classOutside else Wrong.collation)
  let (isNegated, cs) := if cs.head? = some '^' then (true, cs.drop 1) else (false, cs)
  let (ps, rest) ← s.pieces (cs.length + 1) true false cs
  return (.one s.options.isFolded (.oneOf isNegated ps), rest)

/-! ## Repetitions -/

/-- The greatest number of a repetition. -/
def timesLimit : Nat := 65535

/-- The numbers in braces, behind the first one, if they say how often. -/
def interval? (cs : Chars) : Except Wrong (Option ((Nat × Option Nat) × Chars)) :=
  let checked := fun (least : Nat) (most : Option Nat) (rest : Chars) ↦
    if timesLimit < least || most.any (timesLimit < ·) then .error Wrong.timesSize
    else if most.any (· < least) then .error Wrong.timesOrder
    else .ok (some ((least, most), rest))
  match digits cs with
  | some (n, '\x7d' :: rest) => checked n (some n) rest
  | some (n, ',' :: '\x7d' :: rest) => checked n none rest
  | some (n, ',' :: cs) =>
    match digits cs with
    | some (m, '\x7d' :: rest) => checked n (some m) rest
    | _ => .ok none
  | _ => .ok none

/-- How often the expression before is asked for, if something says so. -/
def times? (cs : Chars) : Except Wrong (Option ((Nat × Option Nat) × Chars)) :=
  match cs with
  | '*' :: rest => .ok (some ((0, none), rest))
  | '+' :: rest => .ok (some ((1, none), rest))
  | '?' :: rest => .ok (some ((0, some 1), rest))
  | '\x7b' :: rest => interval? rest
  | _ => .ok none

/-- An expression repeated as what follows says. -/
def Reading.withTimes (s : Reading) (canRepeat : Bool) (r : OrderedRegex) (cs : Chars) :
    Except Wrong (OrderedRegex × Chars) := do
  if s.isQuoted then return (r, cs)
  match ← times? cs with
  | none => return (r, cs)
  | some ((least, most), rest) =>
    if !canRepeat then throw .bareTimes
    let (usual, other) := if s.options.isModest then (Mood.lazy, Mood.greedy) else (.greedy, .lazy)
    match rest with
    | '+' :: rest => return (.repeated .possessive r least most, rest)
    | '?' :: rest => return (.repeated other r least most, rest)
    | rest => return (.repeated usual r least most, rest)

/-! ## What is left out -/

/-- Leaves out remarks, and blanks on demand, and enters or leaves what stands for itself.  Every
step takes a character. -/
def Reading.skip : Nat → Reading → Chars → Except Wrong (Reading × Chars)
  | 0, s, cs => .ok (s, cs)
  | n + 1, s, cs =>
    match s.isQuoted, cs with
    | true, '\\' :: 'E' :: cs => skip n { s with isQuoted := false } cs
    | true, cs => .ok (s, cs)
    | false, '\\' :: 'E' :: cs => skip n s cs
    | false, '\\' :: 'Q' :: cs => skip n { s with isQuoted := true } cs
    | false, '(' :: '?' :: '#' :: cs =>
      match cs.dropWhile (· ≠ ')') with
      | _ :: rest => skip n s rest
      | [] => .error .openRemark
    | false, '#' :: rest =>
      if s.options.isSpaced then skip n s ((rest.dropWhile (· ≠ '\n')).drop 1) else .ok (s, cs)
    | false, c :: rest =>
      if s.options.isSpaced && inClass "space" c then skip n s rest else .ok (s, cs)
    | false, [] => .ok (s, [])

/-! ## Options -/

/-- The options behind the signs for them, up to a colon or a parenthesis. -/
def readOptions : Bool → Options → Chars → Except Wrong (Options × Chars)
  | _, _, [] => .error .openGroup
  | isOn, o, c :: cs =>
    match c with
    | '^' => readOptions isOn ⟨false, false, false, false, false, o.isModest⟩ cs
    | '-' => readOptions false o cs
    | 'i' => readOptions isOn { o with isFolded := isOn } cs
    | 'm' => readOptions isOn { o with hasLines := isOn } cs
    | 's' => readOptions isOn { o with takesAll := isOn } cs
    | 'x' => readOptions isOn { o with isSpaced := isOn } cs
    | 'n' => readOptions isOn { o with countsNames := isOn } cs
    | 'U' => readOptions isOn { o with isModest := isOn } cs
    | 'J' => readOptions isOn o cs
    | c => if c = ':' || c = ')' then .ok (o, c :: cs) else .error .groupSign

/-! ## References -/

/-- The number of a part counted from the next one. -/
def Reading.relative (s : Reading) (isForward : Bool) (n : Nat) : Except Wrong Nat :=
  if n = 0 then .error .zeroDistance
  else if isForward then s.number (s.next + n - 1)
  else if s.next ≤ n then .error .reference
  else .ok (s.next - n)

/-- The number of a part that is referred to by its number or its name, up to a sign. -/
def Reading.target (s : Reading) (last : Char) (cs : Chars) : Except Wrong (Nat × Chars) := do
  let close := fun (n : Nat) (cs : Chars) ↦
    match cs with
    | c :: rest => if c = last then .ok (n, rest) else .error Wrong.bareReference
    | [] => .error .bareReference
  match cs with
  | '-' :: cs => match digits cs with
    | some (n, rest) => close (← s.relative false n) rest
    | none => throw .bareReference
  | '+' :: cs => match digits cs with
    | some (n, rest) => close (← s.relative true n) rest
    | none => throw .bareReference
  | cs => match digits cs with
    | some (n, rest) => close (← s.number n) rest
    | none => do
      let (name, rest) ← readName last cs
      return (← s.named name, rest)

/-- What the sign for a part, by its number or name, stands for. -/
def Reading.reference (s : Reading) (cs : Chars) : Except Wrong (OrderedRegex × Chars) := do
  let same := OrderedRegex.same s.options.isFolded
  match cs with
  | '\x7b' :: cs =>
    let (n, rest) ← s.target '\x7d' cs
    return (same n, rest)
  | '<' :: cs =>
    let (n, rest) ← s.target '>' cs
    return (.again n, rest)
  | '\'' :: cs =>
    let (n, rest) ← s.target '\'' cs
    return (.again n, rest)
  | '-' :: cs => match digits cs with
    | some (n, rest) => return (same (← s.relative false n), rest)
    | none => throw .bareReference
  | '+' :: cs => match digits cs with
    | some (n, rest) => return (same (← s.relative true n), rest)
    | none => throw .bareReference
  | cs => match digits cs with
    | some (n, rest) => return (same (← s.number n), rest)
    | none => throw .bareReference

/-- The ends of lines of all kinds. -/
def lineBreak : OrderedRegex :=
  let one := fun (c : Char) ↦ OrderedRegex.one false (.oneOf false [.range c c])
  .atomic (.either (.both (one '\r') (one '\n')) (.one false (.oneOf false [.range '\n' '\r'])))

/-- What a letter behind a backslash stands for outside of brackets, and whether it can be
repeated. -/
def Reading.outside (s : Reading) (cs : Chars) : Except Wrong ((OrderedRegex × Bool) × Chars) := do
  let rest := cs.drop 1
  let edge := fun (e : Edge) ↦ .ok ((.edge e, false), rest)
  let char := fun (c : Char) ↦ OrderedRegex.one s.options.isFolded (.oneOf false [.range c c])
  match ← s.escaped false cs with
  | (.char c, rest) => return ((char c, true), rest)
  | (.kind p, rest) => return ((.one false (.oneOf false [p]), true), rest)
  | (.other, _) =>
    match cs.head?.getD '\x00' with
    | 'b' => edge (.word false)
    | 'B' => edge (.word true)
    | 'A' => edge .textStart
    | 'z' => edge .textEnd
    | 'Z' => edge .lastLineEnd
    | 'G' => edge .searchStart
    | 'K' => return ((.startHere, false), rest)
    | 'N' =>
      if rest.head? = some '\x7b' && (← interval? (rest.drop 1)).isNone then throw .foreignEscape
      return ((.one false (.oneOf true [.range '\n' '\n']), true), rest)
    | 'R' => return ((lineBreak, true), rest)
    | 'X' | 'C' => return ((.one false .any, true), rest)
    | 'g' => do
      let (r, rest) ← s.reference rest
      return ((r, true), rest)
    | 'k' =>
      match rest with
      | c :: rest =>
        if !("<'\x7b".toList.contains c) then throw .bareName
        let (name, rest) ← readName (closingOf c) rest
        return ((.same s.options.isFolded (← s.named name), true), rest)
      | [] => throw .bareName
    | c =>
      if !c.isDigit then throw .escape
      let (n, rest) := (digits cs).getD (0, rest)
      if n < 10 || n < s.next then
        return ((.same s.options.isFolded (← s.number n), true), rest)
      else if '8' ≤ c then return ((char c, true), cs.drop 1)
      else
        let (n, rest) := digitsIn 8 3 cs
        return ((char (← s.char n), true), rest)

/-! ## Expressions -/

/-- What has been read of an expression, and the state behind it. -/
abbrev Part := OrderedRegex × Reading

/-- The end of a part that must come now. -/
def closed {α : Type} (x : α) : Chars → Except Wrong (α × Chars)
  | ')' :: rest => .ok (x, rest)
  | _ => .error .openGroup

/-- The branches of a condition. -/
def branchesOf : OrderedRegex → Except Wrong (OrderedRegex × OrderedRegex)
  | .either _ (.either _ _) => .error .branches
  | .either first second => .ok (first, second)
  | r => .ok (r, .empty)

mutual

/-- The expression up to the end of a part.  Where `base` is a number, the parts of every branch
are counted from it.  Every step takes a character. -/
def readChoice : Nat → Option Nat → Reading → Chars → Except Wrong (Part × Chars)
  | 0, _, s, cs => .ok ((.empty, s), cs)
  | n + 1, base, s, cs => do
    let ((first, s), cs) ← readBranch n s cs
    match cs with
    | '|' :: cs =>
      let ((second, t), cs) ← readChoice n base { s with next := base.getD s.next } cs
      return ((.either first second, { t with next := max s.next t.next }), cs)
    | cs => return ((first, s), cs)

/-- The expression up to the end of a branch. -/
def readBranch : Nat → Reading → Chars → Except Wrong (Part × Chars)
  | 0, s, cs => .ok ((.empty, s), cs)
  | n + 1, s, cs => do
    let (s, cs) ← Reading.skip (cs.length + 1) s cs
    let goOn := fun (r : OrderedRegex) (canRepeat : Bool) (s : Reading) (cs : Chars) ↦ do
      let (s, cs) ← Reading.skip (cs.length + 1) s cs
      let (r, cs) ← s.withTimes canRepeat r cs
      let ((rest, s), cs) ← readBranch n s cs
      return ((match rest with
        | .empty => r
        | rest => .both r rest, s), cs)
    let o := s.options
    let char := fun (c : Char) (cs : Chars) ↦
      goOn (.one o.isFolded (.oneOf false [.range c c])) true s cs
    match s.isQuoted, cs with
    | _, [] => return ((.empty, s), [])
    | true, c :: cs => char c cs
    | false, '|' :: _ | false, ')' :: _ => return ((.empty, s), cs)
    | false, '\\' :: cs => do
      let ((r, canRepeat), cs) ← s.outside cs
      goOn r canRepeat s cs
    | false, '.' :: cs =>
      goOn (.one false (if o.takesAll then .any else .oneOf true [.range '\n' '\n'])) true s cs
    | false, '^' :: cs => goOn (.edge (if o.hasLines then .lineStart else .textStart)) false s cs
    | false, '$' :: cs => goOn (.edge (if o.hasLines then .lineEnd else .textEnd)) false s cs
    | false, '[' :: cs => do
      let (r, cs) ← s.brackets cs
      goOn r true s cs
    | false, '(' :: cs => do
      let ((r, canRepeat, s), cs) ← readGroup n s cs
      goOn r canRepeat s cs
    | false, c :: rest =>
      if (← times? cs).isSome then throw .bareTimes
      char c rest

/-- The part behind its opening parenthesis, and whether it can be repeated. -/
def readGroup : Nat → Reading → Chars → Except Wrong ((OrderedRegex × Bool × Reading) × Chars)
  | 0, s, cs => .ok ((.empty, true, s), cs)
  | n + 1, s, cs => do
    let inner := fun (f : OrderedRegex → OrderedRegex) (base : Option Nat) (s t : Reading)
        (cs : Chars) ↦ do
      let ((r, u), cs) ← readChoice n base t cs
      closed (f r, true, { u with options := s.options }) cs
    let plain := fun (f : OrderedRegex → OrderedRegex) (cs : Chars) ↦ inner f none s s cs
    let named := fun (last : Char) (cs : Chars) ↦ do
      let (name, cs) ← readName last cs
      if (s.names.lookup name).isSome then throw .nameTwice
      let named := { s with next := s.next + 1, names := (name, s.next) :: s.names }
      inner (.group s.next) none s named cs
    let call := fun (number : Nat) (cs : Chars) ↦
      match cs with
      | ')' :: rest => return ((.again number, true, s), rest)
      | _ => throw Wrong.openCall
    let decision := fun (f : OrderedRegex → OrderedRegex → OrderedRegex) (s : Reading)
        (cs : Chars) ↦ do
      let ((r, t), cs) ← readChoice n none s cs
      let (first, second) ← branchesOf r
      closed (f first second, true, { t with options := s.options }) cs
    match cs with
    | '*' :: c :: rest =>
      if !(c.isAlpha || c = ':') then
        inner (.group s.next) none s { s with next := s.next + 1 } cs
      else
        let verb := Chars.toString ((c :: rest).takeWhile (· ≠ ')'))
        if verb = "F" || verb = "FAIL" then
          return ((.ahead true .empty, false, s), (rest.dropWhile (· ≠ ')')).drop 1)
        else throw .verb
    | ['?'] => throw .openGroup
    | '?' :: ':' :: cs => plain id cs
    | '?' :: '|' :: cs => inner id (some s.next) s s cs
    | '?' :: '>' :: cs => plain .atomic cs
    | '?' :: '=' :: cs => plain (.ahead false) cs
    | '?' :: '!' :: cs => plain (.ahead true) cs
    | '?' :: '<' :: '=' :: cs => plain (.behind false) cs
    | '?' :: '<' :: '!' :: cs => plain (.behind true) cs
    | '?' :: '<' :: cs => named '>' cs
    | '?' :: '\'' :: cs => named '\'' cs
    | '?' :: 'P' :: '<' :: cs => named '>' cs
    | '?' :: 'P' :: '=' :: cs => do
      let (name, cs) ← readName ')' cs
      return ((.same s.options.isFolded (← s.named name), true, s), cs)
    | '?' :: 'P' :: '>' :: cs | '?' :: '&' :: cs => do
      let (name, cs) ← readName ')' cs
      return ((.again (← s.named name), true, s), cs)
    | '?' :: 'P' :: _ => throw .otherGroupSign
    | '?' :: 'R' :: cs => call 0 cs
    | '?' :: '(' :: cs =>
      match cs with
      | '?' :: _ => do
        let ((test, _, t), cs) ← readGroup n s cs
        match test with
        | .ahead _ _ | .behind _ _ =>
          decision (fun first second ↦ .either (.both test first)
            (.both (.ahead true test) second)) t cs
        | _ => throw .condition
      | '<' :: cs => do
        let (name, cs) ← readName '>' cs
        let (number, cs) ← (match cs with
          | ')' :: cs => return (← s.named name, cs)
          | _ => throw .openCondition : Except Wrong (Nat × Chars))
        decision (.ifMatched number) s cs
      | cs =>
        match digits cs with
        | some (number, ')' :: cs) => do
          let number ← s.number number
          decision (.ifMatched number) s cs
        | some _ => throw .openCondition
        | none => do
          let (name, cs) ← readName ')' cs
          let number ← s.named name
          decision (.ifMatched number) s cs
    | '?' :: '+' :: cs =>
      match digits cs with
      | some (k, cs) => do call (← s.relative true k) cs
      | none => throw .noDistance
    | '?' :: cs =>
      match digits cs, cs with
      | some (k, cs), _ => do call (← s.number k) cs
      | none, '-' :: d :: rest =>
        match digits (d :: rest) with
        | some (k, cs) => do call (← s.relative false k) cs
        | none => do
          let (o, cs) ← readOptions true s.options cs
          match cs with
          | ':' :: cs => inner id none s { s with options := o } cs
          | cs => closed (.empty, false, { s with options := o }) cs
      | none, cs => do
        let (o, cs) ← readOptions true s.options cs
        match cs with
        | ':' :: cs => inner id none s { s with options := o } cs
        | cs => closed (.empty, false, { s with options := o }) cs
    | cs =>
      if s.options.countsNames then plain id cs
      else inner (.group s.next) none s { s with next := s.next + 1 } cs

end

/-! ## Lengths -/

/-- How long every match of an expression is, if they all have the same length. -/
def length? : OrderedRegex → Option Nat
  | .empty | .edge _ | .ahead _ _ | .behind _ _ | .startHere => some 0
  | .one _ _ => some 1
  | .group _ body | .atomic body => length? body
  | .both first second => do return (← length? first) + (← length? second)
  | .either first second | .ifMatched _ first second => do
    let n ← length? first
    if (← length? second) = n then some n else none
  | .repeated _ body least most => do
    if most = some least then return least * (← length? body) else none
  | .same _ _ | .again _ => none

/-- Whether every branch of an expression has matches of one length. -/
def hasLengths : OrderedRegex → Bool
  | .either first second => (length? first).isSome && hasLengths second
  | r => (length? r).isSome

/-- Whether every expression that must match up to a spot has matches of one length. -/
def isMeasured : OrderedRegex → Bool
  | .behind _ body => hasLengths body && isMeasured body
  | .group _ body | .atomic body | .ahead _ body | .repeated _ body _ _ => isMeasured body
  | .both first second | .either first second | .ifMatched _ first second =>
    isMeasured first && isMeasured second
  | _ => true

/-! ## Whole texts -/

/-- Reads an expression once. -/
def readOnce (s : Reading) (cs : Chars) : Except Wrong Part := do
  let (part, rest) ← readChoice (4 * cs.length + 4) none s cs
  match rest with
  | [] => return part
  | _ => throw .closedGroup

/-- The expression that a text spells. -/
def read (isWide isFolded hasLines : Bool) (cs : Chars) : Except Wrong OrderedRegex := do
  let s : Reading :=
    ⟨⟨isFolded, hasLines, false, false, false, false⟩, false, 1, [], isWide, none⟩
  let (r, t) ← readOnce s cs
  if !isMeasured r then throw .behindLength
  return (← readOnce { s with known := some ⟨t.names, t.next - 1⟩ } cs).1

/-- The first match of what a text spells. -/
def firstMatch (pattern text : String) : Option Match :=
  match read false false false pattern.toList with
  | .ok r => search r text.toList 0
  | .error _ => none

/-- The first branch counts, and not the longest one. -/
example : firstMatch "(a|ab)(c|bcd)?" "xabcd" = some (1, 5) ∧
    firstMatch "a|ab" "xab" = some (1, 2) := by decide +kernel

/-- What lies around a spot. -/
example : firstMatch "(?<=\\d)[a-z]+?(?=;)" "a;1bc;" = some (3, 5) ∧
    firstMatch "x\\K\\w" "xy" = some (1, 2) := by decide +kernel

/-- A part within itself. -/
example : firstMatch "\\((?:[^()]|(?R))*\\)" "(a(b)" = some (2, 5) := by decide +kernel

/-- A text before a spot needs a length. -/
example : (read false false false "(?<=a*)b".toList).toOption.isNone = true := by decide +kernel

end ContractBuild.OrderedRegex
