import ContractBuild.Posix.Utility.Entry
import ContractBuild.Posix.Utility.Grep.Query

/-!
# Finding lines

Lines of files, and of the files in directories, are selected by patterns.
-/

namespace ContractBuild.Utility

namespace Grep

/-! ## Calls -/

/-- The options. -/
def flags : List Flag :=
  [⟨'G', "basic-regexp", .none⟩, ⟨'E', "extended-regexp", .none⟩, ⟨'F', "fixed-regexp", .none⟩,
    ⟨'F', "fixed-strings", .none⟩, ⟨'P', "perl-regexp", .none⟩, ⟨'A', "after-context", .required⟩,
    ⟨'B', "before-context", .required⟩, ⟨'\x01', "binary-files", .required⟩,
    ⟨'\x02', "line-buffered", .none⟩, ⟨'b', "byte-offset", .none⟩, ⟨'C', "context", .required⟩,
    ⟨'\x03', "color", .optional⟩, ⟨'\x03', "colour", .optional⟩, ⟨'c', "count", .none⟩,
    ⟨'D', "devices", .required⟩, ⟨'d', "directories", .required⟩, ⟨'\x04', "exclude", .required⟩,
    ⟨'\x05', "exclude-from", .required⟩, ⟨'\x06', "exclude-dir", .required⟩,
    ⟨'f', "file", .required⟩, ⟨'l', "files-with-matches", .none⟩,
    ⟨'L', "files-without-match", .none⟩, ⟨'\x07', "group-separator", .required⟩,
    ⟨'\x08', "help", .none⟩, ⟨'\x0b', "include", .required⟩, ⟨'i', "ignore-case", .none⟩,
    ⟨'\x0c', "no-ignore-case", .none⟩, ⟨'T', "initial-tab", .none⟩, ⟨'\x0e', "label", .required⟩,
    ⟨'n', "line-number", .none⟩, ⟨'x', "line-regexp", .none⟩, ⟨'m', "max-count", .required⟩,
    ⟨'h', "no-filename", .none⟩, ⟨'\x0f', "no-group-separator", .none⟩,
    ⟨'s', "no-messages", .none⟩, ⟨'Z', "null", .none⟩, ⟨'z', "null-data", .none⟩,
    ⟨'o', "only-matching", .none⟩, ⟨'q', "quiet", .none⟩, ⟨'r', "recursive", .none⟩,
    ⟨'R', "dereference-recursive", .none⟩, ⟨'e', "regexp", .required⟩,
    ⟨'v', "invert-match", .none⟩, ⟨'q', "silent", .none⟩, ⟨'a', "text", .none⟩,
    ⟨'U', "binary", .none⟩, ⟨'V', "version", .none⟩, ⟨'H', "with-filename", .none⟩,
    ⟨'w', "word-regexp", .none⟩, ⟨'u', "unix-byte-offsets", .none⟩,
    ⟨'y', "", .none⟩, ⟨'I', "", .none⟩, ⟨'X', "", .required⟩] ++
  plainFlags ("0123456789".toList.map fun d ↦ (d, ""))

/-- Says how the program is called and ends with a code. -/
def usage {α : Type} (name : Chars) (code : Nat) : Routine α := do
  Routine.complain (Chars.line ("Usage: ".toList ++ name ++
    " [OPTION]... PATTERNS [FILE]...".toList))
  pointToHelp name
  Routine.exit code

/-- A number that an option takes; nothing if it is less than zero. -/
def readCount (name : Chars) (message : Chars → Chars) (w : Chars) : Routine (Option Nat) :=
  match Numeral.read 10 w with
  | some (n, []) => pure (if n < 0 then none else some n.toNat)
  | _ => fail name 2 (message w)

/-- The number of neighbours that an option asks for. -/
def contextOf (name : Chars) (c : Call) (letter : Char) : Routine (Option Nat) := do
  let message := fun (w : Chars) ↦ w ++ ": invalid context length argument".toList
  match c.value? letter with
  | none => return none
  | some w =>
    match ← readCount name message w with
    | some n => return some n
    | none => fail name 2 (message w)

/-! ### Patterns -/

/-- A pattern, with the place where it stands if that is a file. -/
abbrev Pattern := Chars × Option (Chars × Nat)

/-- The patterns of a call that are given by options. -/
def givenPatterns (name : Chars) : List (Char × Chars) → Routine (Option (List Pattern))
  | [] => return none
  | (letter, w) :: rest => do
    let own ← (match letter with
      | 'e' => return some ((Chars.splitOn (· = '\n') w).map fun p ↦ (p, none))
      | 'f' => do
        match ← readInput w with
        | .ok content => return some ((Chars.lines content).mapIdx fun i p ↦ (p, some (w, i + 1)))
        | .error e => fail name 2 (because w e)
      | _ => return none : Routine (Option (List Pattern)))
    match own, ← givenPatterns name rest with
    | some ps, later => return some (ps ++ later.getD [])
    | none, later => return later

/-- The patterns of a call and its other operands. -/
def patternsOf (name : Chars) (c : Call) : Routine (List Pattern × List Chars) := do
  match ← givenPatterns name c.flags, c.operands with
  | some ps, operands => return (ps, operands)
  | none, w :: operands => return ((Chars.splitOn (· = '\n') w).map fun p ↦ (p, none), operands)
  | none, [] => usage name 2

/-- The kinds of patterns, each with the word for it. -/
def kinds : List (String × Char) :=
  [("grep", 'G'), ("egrep", 'E'), ("fgrep", 'F'), ("awk", 'E'), ("gawk", 'E'), ("posixawk", 'E'),
    ("perl", 'P')]

/-- The kind of the patterns of a call. -/
def kindOf (name : Chars) (c : Call) : Routine Char := do
  let chosen ← (c.flags.filter fun f ↦ ['G', 'E', 'F', 'P', 'X'].contains f.1).mapM fun f ↦
    (if f.1 ≠ 'X' then return f.1
    else match kinds.lookup (Chars.toString f.2) with
      | some k => return k
      | none => fail name 2 ("invalid matcher ".toList ++ f.2) : Routine Char)
  match chosen with
  | [] => return 'G'
  | k :: ks =>
    if ks.any (· ≠ k) then fail name 2 "conflicting matchers specified".toList
    return k

/-- The patterns in the form of expressions of which the longest match counts. -/
def longestOf (name : Chars) (meant : Chars → Chars) (isExtended : Bool) (ps : List Pattern) :
    Routine (List Regex) := do
  let form := if isExtended then Regex.Form.extended false true else .basic false true
  let results := ps.map fun (p, place) ↦ (Regex.read form (meant p), place)
  Routine.forEach (fun (r, place) ↦
    match r, place with
    | .ok _, _ => pure ()
    | .error e, none => warn name e.message.toList
    | .error e, some (file, n) => warn name (file ++ ':' :: Chars.ofNat n ++ ": ".toList ++
        e.message.toList)) results
  let regexes := results.filterMap fun (r, _) ↦ r.toOption.map (·.1)
  if regexes.length < results.length then Routine.exit 2
  Routine.forEach (fun (p, _) ↦ Routine.forEach (fun (message : Chars) ↦
    warn name ("warning: ".toList ++ message)) (Regex.remarks form (meant p))) ps
  return regexes

/-- What lines are compared with in a call. -/
def matcherOf (name : Chars) (c : Call) (isWide : Bool) (ps : List Pattern) : Routine Matcher := do
  let isFolded := c.lastOf? ['i', 'y', '\x0c'] |>.any (· ≠ '\x0c')
  let extent : Extent := if c.has 'x' then .line else if c.has 'w' then .word else .anywhere
  let meant := fun (cs : Chars) ↦ if isWide then Wide.read cs else cs
  match ← kindOf name c with
  | 'F' => return .longest (ps.map fun p ↦ literal (meant p.1)) isFolded extent
  | 'P' =>
    if 1 < ps.length then fail name 2 "the -P option only supports a single pattern".toList
    let hasLines := c.has 'z'
    match OrderedRegex.read isWide isFolded hasLines (meant ((ps.head?.map (·.1)).getD [])) with
    | .ok r => return .ordered (extent.around hasLines r)
    | .error e => fail name 2 e.message.toList
  | k => return .longest (← longestOf name meant (k = 'E') ps) isFolded extent

/-! ### Files in directories -/

/-- A rule about the files that are looked at: whether those with a name are wanted. -/
abbrev NameRule := Bool × List Glob.Part

/-- The names of files that are looked at. -/
structure Choice where
  /-- The rules about files; of those that say something about a file the last one counts. -/
  files : List NameRule
  /-- The rules about directories. -/
  directories : List NameRule

/-- A word without the slashes at its end. -/
def withoutSlashes (w : Chars) : Chars := (w.reverse.dropWhile (· = '/')).reverse

/-- The choice that a call asks for. -/
def Choice.ofCall (name : Chars) (c : Call) : Routine Choice := do
  let files ← c.flags.mapM fun (letter, w) ↦
    (match letter with
    | '\x0b' => return [(true, Glob.ofChars w)]
    | '\x04' => return [(false, Glob.ofChars w)]
    | '\x05' => do
      match ← readInput w with
      | .ok content => return (Chars.lines content).map fun l ↦ (false, Glob.ofChars l)
      | .error e => fail name 2 (because w e)
    | _ => return [] : Routine (List NameRule))
  let directories := c.flags.filterMap fun (letter, w) ↦
    if letter = '\x06' then some (false, Glob.ofChars (withoutSlashes w)) else none
  return ⟨files.flatten, directories⟩

/-- Whether some rules allow a file that is known by several names; where no rule says something,
the first one says the contrary of what the others get. -/
def isAllowed (rules : List NameRule) (names : List Chars) : Bool :=
  match rules.reverse.find? fun r ↦ names.any fun n ↦ Glob.matchesText r.2 n with
  | some r => r.1
  | none => rules.head?.all fun r ↦ !r.1

/-- The ends of a path that start behind a slash, and the path itself. -/
def endsOf : Chars → List Chars
  | [] => []
  | '/' :: cs => if cs.head?.any (· ≠ '/') then cs :: endsOf cs else endsOf cs
  | _ :: cs => endsOf cs

/-- Whether a file or a directory that is an operand is wanted. -/
def Choice.allowsOperand (x : Choice) (isDirectory : Bool) (operand : Chars) : Bool :=
  let names := operand :: endsOf operand
  isAllowed (if isDirectory then x.directories else x.files) names

/-- Whether a file or a directory in a directory is wanted. -/
def Choice.allows (x : Choice) (isDirectory : Bool) (names : Location) : Bool :=
  isAllowed (if isDirectory then x.directories else x.files)
    [Chars.ofBytes (names.getLast?.getD [])]

/-- What is done with directories. -/
inductive Depth
  /-- They are read like files. -/
  | none
  /-- They are left out. -/
  | left
  /-- The files in them are looked at; links in them are followed on demand. -/
  | deep (follows : Bool)
  deriving DecidableEq, Repr

/-- What a call wants to be done with directories. -/
def Depth.ofCall (name : Chars) (c : Call) : Routine Depth := do
  let chosen ← (c.flags.filter fun f ↦ ['r', 'R', 'd'].contains f.1).mapM fun (letter, w) ↦
    (match letter with
    | 'r' => return .deep false
    | 'R' => return .deep true
    | _ => do
      let words := ["read", "recurse", "skip"]
      match words.filter fun v ↦ w.isPrefixOf v.toList with
      | ["recurse"] => return .deep false
      | ["skip"] => return .left
      | ["read"] => return .none
      | found => do
        warn name ((if found = [] then "invalid argument " else "ambiguous argument ").toList ++
          cited w ++ " for ".toList ++ cited "--directories".toList)
        say (Chars.line "Valid arguments are:".toList)
        Routine.forEach (fun v ↦ say (Chars.line ("  - ".toList ++ cited v.toList))) words
        usage name 1 : Routine Depth)
  return chosen.getLastD .none

/-- Looks at the files in a directory. -/
def Query.directory (q : Query) (x : Choice) (follows : Bool) (operand : Chars) (l : Location)
    (o : Outcome) : Routine Outcome :=
  walk follows (fun v o ↦ do
    let path := if operand = [] then Chars.join ['/'] (v.names.map Chars.ofBytes)
      else pathBelow operand v.names
    let behind := fun (step : Routine Outcome) ↦ do return (← step, false)
    if q.style = .nothing && o.isFound then return (o, false)
    match v.event, v.node with
    | .enter, _ => return (o, v.names = [] || x.allows true v.names)
    | .meet, .file _ =>
      if x.allows false v.names then behind (q.file path o) else return (o, false)
    | .meet, .link _ =>
      if !follows then return (o, false)
      match ← Routine.look (·.entry (Chars.toPath path)) with
      | .error e => behind (q.complain path e o)
      | .ok _ => return (o, false)
    | .blocked e, _ | .unreachable e, _ => behind (q.complain path e o)
    | .loop _, _ =>
      if !q.isQuiet then
        warn q.name ("warning: ".toList ++ path ++ ": recursive directory loop".toList)
      return (o, false)
    | _, _ => return (o, false)) l o

/-- Looks at an operand. -/
def Query.operand (q : Query) (x : Choice) (d : Depth) (operand : Chars) (o : Outcome) :
    Routine Outcome := do
  if isStandard operand then return ← q.file operand o
  let entry ← Routine.look (·.entry (Chars.toPath (if operand = [] then ['.'] else operand)))
  match entry with
  | .ok (l, .directory _) =>
    if d = .left then return o
    if operand ≠ [] && !x.allowsOperand true operand then return o
    match d with
    | .deep follows =>
      let q := { q with showsName := q.showsName || q.namesDeep }
      q.directory x follows operand l o
    | _ => q.file operand o
  | .ok _ => if x.allowsOperand false operand then q.file operand o else return o
  | .error _ => q.file operand o

/-- Looks at operands one after the other; where nothing is shown the first find is enough. -/
def Query.operands (q : Query) (x : Choice) (d : Depth) : List Chars → Outcome → Routine Outcome
  | [], o => return o
  | a :: as, o => do
    let o ← q.operand x d a o
    if o.isFound && q.style = .nothing then return { o with isFailure := false }
    q.operands x d as o

/-! ### Queries -/

/-- What a call wants to be done with inputs that are no text. -/
def binaryOf (name : Chars) (c : Call) : Routine BinaryChoice := do
  let chosen ← (c.flags.filter fun f ↦ ['a', 'I', '\x01'].contains f.1).mapM fun (letter, w) ↦
    (match letter, Chars.toString w with
    | 'a', _ | _, "text" => return .asText
    | 'I', _ | _, "without-match" => return .left
    | _, "binary" => return .brief
    | _, _ => fail name 2 "unknown binary-files type".toList : Routine BinaryChoice)
  return chosen.getLastD .brief

/-- What a call wants to be shown. -/
def styleOf (c : Call) : Style :=
  if c.has 'q' then .nothing
  else match c.lastOf? ['l', 'L'] with
    | some 'l' => .filesWith
    | some _ => .filesWithout
    | none => if c.has 'c' then .count else if c.has 'o' then .parts else .lines

/-- The line between groups of neighbours in a call with neighbours. -/
def separatorOf (c : Call) : Option Chars :=
  match (c.flags.filter fun f ↦ f.1 = '\x07' || f.1 = '\x0f').getLast? with
  | some ('\x07', w) => some w
  | some _ => none
  | none => some ['-', '-']

end Grep

open Grep in
/-- Selects lines by patterns. -/
def grepAs (extra : List (Char × Chars)) : Program := fun args _ ↦ do
  let name := if extra = [] then args.headD [] else "grep".toList
  let c ← match Flag.read flags true args.tail with
    | .ok c => pure { c with flags := extra ++ c.flags }
    | .error message => do
      warn name message
      usage name 2
  Routine.forEach (fun _ ↦
    warn name "warning: --unix-byte-offsets (-u) is obsolete".toList)
    (c.flags.filter (·.1 = 'u'))
  let digits := (c.flags.filter fun f ↦ f.1.isDigit).map (·.1)
  let around := (← contextOf name c 'C').orElse fun _ ↦ Chars.toNat? digits
  let before := (← contextOf name c 'B').orElse fun _ ↦ around
  let after := (← contextOf name c 'A').orElse fun _ ↦ around
  let most ← (match c.value? 'm' with
    | none => return none
    | some w => readCount name (fun _ ↦ "invalid max count".toList) w)
  let binary ← binaryOf name c
  let depth ← Depth.ofCall name c
  let choice ← Choice.ofCall name c
  if let some w := c.value? 'D' then
    if w ≠ "read".toList && w ≠ "skip".toList then fail name 2 "unknown devices method".toList
  let (patterns, operands) ← patternsOf name c
  let patterns := patterns.foldl (fun ps p ↦
    if ps.any (·.1 = p.1) then ps else ps ++ [p]) []
  let style := styleOf c
  if most = some 0 && style ≠ .filesWithout then return 1
  let isWide := (← Routine.self).isWide
  let matcher ← matcherOf name c isWide patterns
  let isDeep := match depth with
    | .deep _ => true
    | _ => false
  let q : Query := {
    name, matcher, style, most, binary, isWide
    before := before.getD 0
    after := after.getD 0
    separator := if before.isSome || after.isSome then separatorOf c else none
    isInverse := c.has 'v'
    showsName := match c.lastOf? ['H', 'h'] with
      | some 'H' => true
      | some _ => false
      | none => 1 < operands.length
    namesDeep := (c.lastOf? ['H', 'h']).isNone
    showsNumber := c.has 'n'
    showsPlace := c.has 'b'
    hasTab := c.has 'T'
    lineEnd := if c.has 'z' then '\x00' else '\n'
    isQuiet := c.has 's'
    label := (c.value? '\x0e').getD "(standard input)".toList
    nameEnd := if c.has 'Z' then some '\x00' else none }
  if q.isInverse && patterns.all (·.1 = []) && patterns ≠ [] && !c.has 'x' && !c.has 'w' &&
      style ≠ .filesWithout then return 1
  let inputs := if operands ≠ [] then operands else if isDeep then [[]] else [['-']]
  let o ← q.operands choice depth inputs .none
  return if o.isFailure then 2 else if o.isFound then 0 else 1

/-- Selects lines by patterns. -/
def grep : Program := grepAs []

/-- Selects lines by patterns of the extended form. -/
def egrep : Program := grepAs [('E', [])]

/-- Selects lines by texts that they contain. -/
def fgrep : Program := grepAs [('F', [])]

end ContractBuild.Utility
