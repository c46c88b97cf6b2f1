import ContractBuild.Posix.Text.Regex
import ContractBuild.Posix.Utility.Find.Format
import ContractBuild.Posix.Utility.Identity

/-!
# Expressions about entries

An expression is decided for an entry: conditions on it, and actions that are done to it.  Words
are read into expressions while files can be looked at, because some conditions compare with files
that must be there.
-/

namespace ContractBuild.Utility.Find

/-- How a number is compared with a given one. -/
structure Amount where
  /-- The given number. -/
  number : Nat
  /-- Whether it is a bound, and on which side. -/
  order : Ordering

/-- Whether a number is as it is asked for. -/
def Amount.holds (a : Amount) (n : Nat) : Bool := compare n a.number = a.order

/-- A condition or an action. -/
inductive Primary
  /-- A condition that always has this value. -/
  | always (value : Bool)
  /-- The name has this pattern. -/
  | name (isFolded : Bool) (p : List Glob.Part)
  /-- The path has this pattern. -/
  | path (isFolded : Bool) (p : List Glob.Part)
  /-- The path matches an expression as a whole. -/
  | expression (isFolded : Bool) (r : Regex)
  /-- The kind is one of these. -/
  | kind (letters : List Char)
  /-- There is nothing in it. -/
  | isEmpty
  /-- The size in some unit. -/
  | size (unit : Nat) (a : Amount)
  /-- The number of names. -/
  | names (a : Amount)
  /-- The time since the last use or the last change, in units of so many seconds. -/
  | age (byUse : Bool) (unit : Nat) (a : Amount)
  /-- The permissions: all of them, all of these, or some of these. -/
  | mode (sign : Option Char) (bits : Nat)
  /-- It was used or changed after a moment. -/
  | newer (byUse : Bool) (m : Moment)
  /-- It is the file at a location. -/
  | same (l : Location) (n : Node)
  /-- The user may do something with it. -/
  | allows (what : Access)
  /-- The kind is one of these, where links are followed. -/
  | targetKind (letters : List Char)
  /-- It is a link to a path with this pattern. -/
  | target (isFolded : Bool) (p : List Glob.Part)
  /-- It has this number. -/
  | identity (a : Amount)
  /-- Its path is written, with this end, to a file or else to the output. -/
  | print (last : Char) (file : Option Chars)
  /-- Facts about it are written. -/
  | facts (format : List Piece) (file : Option Chars)
  /-- It is listed with everything that is known. -/
  | list (file : Option Chars)
  /-- A program is run for it, in its directory or after a question if that is asked for. -/
  | run (words : List Chars) (isInside asks : Bool)
  /-- A program is run for all at the end. -/
  | runAll (number : Nat) (words : List Chars)
  /-- It is removed. -/
  | delete
  /-- What it holds is not met. -/
  | prune
  /-- Nothing more is met. -/
  | quit

/-- Whether a primary does something that shows. -/
def Primary.isAction : Primary → Bool
  | .print .. | .facts .. | .list _ | .run .. | .runAll .. | .delete => true
  | _ => false

/-- An expression. -/
inductive Expr
  /-- A condition or an action. -/
  | one (p : Primary)
  /-- The contrary. -/
  | not (e : Expr)
  /-- Both, the second one only if the first one holds. -/
  | both (a b : Expr)
  /-- One of both, the second one only if the first one does not hold. -/
  | either (a b : Expr)
  /-- The second one, behind the first one. -/
  | last (a b : Expr)

/-- Whether an expression has an action. -/
def Expr.hasAction : Expr → Bool
  | .one p => p.isAction
  | .not e => e.hasAction
  | .both a b | .either a b | .last a b => a.hasAction || b.hasAction

/-! ## Reading -/

/-- What is read from words besides the expression. -/
structure Limits where
  /-- How deep entries can lie. -/
  most : Option Nat
  /-- How deep they must lie. -/
  least : Nat
  /-- Directories are met after what they hold. -/
  isDepthFirst : Bool
  /-- The number of the next program that is run for all. -/
  next : Nat
  /-- How expressions are written. -/
  form : Regex.Form
  /-- What is to be said about the words. -/
  remarks : List Chars
  /-- The name of the primary before. -/
  previous : Chars

/-- What is read, with the words behind it. -/
abbrev Parsed (α : Type) := α × Limits × List Chars

/-- How expressions are written if nothing else is said: only groups and choices need a
backslash. -/
def usualForm : Regex.Form := ⟨['+', '?'], ['(', ')', '|'], false, false⟩

/-- How expressions of a kind are written. -/
def formOf? (w : Chars) : Option Regex.Form :=
  match Chars.toString w with
  | "posix-basic" | "ed" | "sed" | "grep" | "posix-minimal-basic" => some (.basic false false)
  | "posix-extended" => some (.extended true false)
  | "posix-egrep" | "egrep" | "awk" | "posix-awk" | "gnu-awk" => some (.extended false false)
  | "findutils-default" | "emacs" => some usualForm
  | _ => none

/-- The names of the ways to write expressions. -/
def formNames : List String :=
  ["findutils-default", "ed", "emacs", "gnu-awk", "grep", "posix-awk", "awk", "posix-basic",
    "posix-egrep", "egrep", "posix-extended", "posix-minimal-basic", "sed"]

/-- A number with a sign. -/
def amount? (w : Chars) : Option Amount :=
  match w with
  | '+' :: ds => (Chars.toNat? ds).map (⟨·, .gt⟩)
  | '-' :: ds => (Chars.toNat? ds).map (⟨·, .lt⟩)
  | ds => (Chars.toNat? ds).map (⟨·, .eq⟩)

/-- The units of sizes. -/
def units : List (Char × Nat) :=
  [('c', 1), ('w', 2), ('b', 512), ('k', 1024), ('M', 1048576), ('G', 1073741824)]

/-- A size with a unit. -/
def size? (w : Chars) : Option Primary :=
  match w.getLast?.bind fun c ↦ units.lookup c with
  | some u => (amount? w.dropLast).map (.size u)
  | none => (amount? w).map (.size 512)

/-- Permissions with a sign. -/
def mode? (w : Chars) : Option Primary :=
  let (sign, text) := match w with
    | '-' :: cs => (some '-', cs)
    | '/' :: cs => (some '/', cs)
    | cs => (none, cs)
  (PermissionChange.read text).map fun cs ↦
    .mode sign (PermissionChange.applyAll false 0 0 cs)

/-- The words of a program up to their end, with whether it is run for all. -/
def command? : List Chars → Option (List Chars × Bool × List Chars)
  | [] => none
  | [';'] :: rest => some ([], false, rest)
  | ['\x7b', '\x7d'] :: ['+'] :: rest => some ([], true, rest)
  | w :: rest => (command? rest).map fun (ws, isAll, rest) ↦ (w :: ws, isAll, rest)

/-- A pattern for names. -/
def glob (isFolded : Bool) (w : Chars) : List Glob.Part :=
  Glob.ofChars (if isFolded then w.map Char.toLower else w)

/-- A text in the quotes of messages. -/
def graved (w : Chars) : Chars := '\x60' :: w ++ ['\'']

/-- What conditions can compare with. -/
structure Surroundings where
  /-- The files. -/
  host : Host
  /-- The zone for times. -/
  zone : Zone
  /-- The moment. -/
  now : Moment
  /-- Whether links are followed. -/
  follows : Bool

/-- The entry that a path names, which must be there. -/
def Surroundings.entry (x : Surroundings) (file : Chars) : Except Chars (Location × Node) :=
  let p := Chars.toPath file
  match if x.follows then x.host.entry p else x.host.linkEntry p with
  | .ok e => .ok e
  | .error e => .error (because (cited file) e)

/-- The letters of kinds in a word, with commas between them if there are several. -/
def kindLetters (name w : Chars) : Except Chars (List Char) :=
  let front := name ++ ": ".toList
  match Chars.splitOn (· = ',') w with
  | [[]] => .error ("Arguments to ".toList ++ name ++ " should contain at least one letter".toList)
  | ws => ws.mapM fun letters ↦ match letters with
    | [c] => if "fdlbcpsD".toList.contains c then .ok c
        else .error ("Unknown argument to ".toList ++ front ++ [c])
    | [] => .error ("Last file type in list argument to ".toList ++ name ++
        " is missing, i.e., list is ending on: ','".toList)
    | _ => .error ("Must separate multiple arguments to ".toList ++ name ++
        " using: ','".toList)

/-- A pair of times in the name of a condition, the second of which can be one that is written. -/
def timePair? (name : Chars) : Option (Char × Char) :=
  match name with
  | ['-', 'n', 'e', 'w', 'e', 'r', x, y] =>
    if "aBcm".toList.contains x && "aBcmt".toList.contains y then some (x, y) else none
  | _ => none

/-- The condition that a file was used or changed after another one, or after a moment that is
written. -/
def newerThan (x : Surroundings) (pair : Char × Char) (w : Chars) : Except Chars Primary :=
  if pair.2 = 't' then
    match WrittenDate.read x.zone (x.now.seconds, x.now.fraction) w with
    | some t => .ok (.newer (pair.1 = 'a') (momentOf t))
    | none => .error ("I cannot figure out how to interpret ".toList ++ cited w ++
        " as a date or time".toList)
  else do
    let (_, n) ← x.entry w
    return .newer (pair.1 = 'a') (if pair.2 = 'a' then n.accessed else n.modified)

/-- The condition that everything belongs to the owner that a word names.  All that there is belongs
to the first one. -/
def owner (what : String) (numberOf? : Chars → Option Nat) (w : Chars) : Except Chars Primary :=
  match numberOf? w with
  | some n => .ok (.always (n = 0))
  | none => .error (cited w ++ " is not the name of ".toList ++ what.toList)

/-- The primary of a name, which stands in front of some words. -/
def primary (x : Surroundings) (l : Limits) (name : Chars) (ws : List Chars) :
    Except Chars (Parsed Primary) :=
  let before := l.previous
  let l := { l with previous := name }
  let plain := fun (p : Primary) ↦ Except.ok (p, l, ws)
  let missing := "missing argument to ".toList ++ graved name
  let reads := fun (f : Chars → Except Chars Primary) ↦
    match ws with
    | [] => .error missing
    | w :: rest => do return (← f w, l, rest)
  let needs := fun (f : Chars → Option Primary) (wrong : Chars → Chars) ↦
    reads fun w ↦ match f w with
      | some p => .ok p
      | none => .error (wrong w)
  let invalid := fun (w : Chars) ↦ "invalid argument ".toList ++ graved w ++ " to ".toList ++
    graved name
  let sure := fun (f : Chars → Primary) ↦ reads fun w ↦ .ok (f w)
  let depth := fun (f : Nat → Limits) ↦
    match ws with
    | [] => .error missing
    | w :: rest => match Chars.toNat? w with
      | some n => .ok (.always true, f n, rest)
      | none => .error ("Expected a positive decimal integer argument to ".toList ++ name ++
          ", but got ".toList ++ cited w)
  let formatted := fun (file : Option Chars) (w : Chars) (rest : List Chars) ↦ do
    let (pieces, remarks) ← readFormat (w.length + 1) w
    return (Primary.facts pieces file, { l with remarks := l.remarks ++ remarks }, rest)
  match Chars.toString name with
  | "-true" | "-noleaf" | "-xdev" | "-mount" | "-daystart" | "-follow" | "-warn" | "-nowarn"
  | "-ignore_readdir_race" | "-noignore_readdir_race" => plain (.always true)
  | "-false" | "-nouser" | "-nogroup" => plain (.always false)
  | "-maxdepth" => depth fun n ↦ { l with most := some n }
  | "-mindepth" => depth fun n ↦ { l with least := n }
  | "-depth" | "-d" => .ok (.always true, { l with isDepthFirst := true }, ws)
  | "-regextype" => match ws with
    | w :: rest => match formOf? w with
      | some form => .ok (.always true, { l with form }, rest)
      | none => .error ("Unknown regular expression type ".toList ++ cited w ++
          "; valid types are ".toList ++
          Chars.join [',', ' '] (formNames.map fun n ↦ cited n.toList) ++ ['.'])
    | [] => .error missing
  | "-name" => sure fun w ↦ .name false (glob false w)
  | "-iname" => sure fun w ↦ .name true (glob true w)
  | "-path" | "-wholename" => sure fun w ↦ .path false (glob false w)
  | "-ipath" | "-iwholename" => sure fun w ↦ .path true (glob true w)
  | "-lname" => sure fun w ↦ .target false (glob false w)
  | "-ilname" => sure fun w ↦ .target true (glob true w)
  | "-regex" | "-iregex" => reads fun w ↦ match Regex.read l.form w with
    | .ok r => .ok (.expression (name = "-iregex".toList) r.1)
    | .error e => .error ("failed to compile regular expression ".toList ++ cited w ++
        ": ".toList ++ e.message.toList)
  | "-type" => reads fun w ↦ do return .kind (← kindLetters name w)
  | "-xtype" => reads fun w ↦ do return .targetKind (← kindLetters name w)
  | "-empty" => plain .isEmpty
  | "-size" => needs size? fun w ↦ if (w.getLast?.bind fun c ↦ units.lookup c).isSome ||
        w.getLast?.any Char.isDigit then
      "Invalid argument ".toList ++ graved w ++ " to ".toList ++ name
    else "invalid -size type \x60".toList ++ w.getLast?.toList ++ ['\'']
  | "-links" => needs (fun w ↦ (amount? w).map .names) invalid
  | "-inum" => needs (fun w ↦ (amount? w).map .identity) invalid
  | "-mtime" | "-ctime" => needs (fun w ↦ (amount? w).map (.age false 86400)) invalid
  | "-atime" => needs (fun w ↦ (amount? w).map (.age true 86400)) invalid
  | "-mmin" | "-cmin" => needs (fun w ↦ (amount? w).map (.age false 60)) invalid
  | "-amin" => needs (fun w ↦ (amount? w).map (.age true 60)) invalid
  | "-perm" => needs mode? fun w ↦ "invalid mode ".toList ++ cited w
  | "-newer" | "-cnewer" => reads (newerThan x ('m', 'm'))
  | "-anewer" => reads (newerThan x ('a', 'm'))
  | "-samefile" => reads fun w ↦ do
    let (k, n) ← x.entry w
    return .same k n
  | "-executable" => plain (.allows .run)
  | "-readable" => plain (.allows .read)
  | "-writable" => plain (.allows .write)
  | "-user" => reads (owner "a known user" userNumberOf?)
  | "-group" => reads (owner "an existing group" groupOf?)
  | "-uid" | "-gid" => needs (fun w ↦ (amount? w).map fun a ↦ .always (a.holds 0)) invalid
  | "-fstype" => sure fun w ↦ .always (w = "tmpfs".toList)
  | "-print" => plain (.print '\n' none)
  | "-print0" => plain (.print '\x00' none)
  | "-fprint" => sure fun w ↦ .print '\n' (some w)
  | "-fprint0" => sure fun w ↦ .print '\x00' (some w)
  | "-printf" => match ws with
    | w :: rest => formatted none w rest
    | [] => .error missing
  | "-fprintf" => match ws with
    | file :: w :: rest => formatted (some file) w rest
    | _ => .error missing
  | "-ls" => plain (.list none)
  | "-fls" => sure fun w ↦ .list (some w)
  | "-delete" => .ok (.delete, { l with isDepthFirst := true }, ws)
  | "-prune" => plain .prune
  | "-quit" => plain .quit
  | "-exec" | "-execdir" | "-ok" | "-okdir" =>
    let asks := name.take 3 = "-ok".toList
    match command? ws with
    | some (words@(_ :: _), isAll, rest) =>
      if isAll && !asks then .ok (.runAll l.next words, { l with next := l.next + 1 }, rest)
      else .ok (.run words ("dir".toList.isSuffixOf name) asks, l, rest)
    | _ => .error missing
  | _ =>
    match timePair? name with
    | some pair => reads (newerThan x pair)
    | none =>
      if "-newer".toList.isPrefixOf name then .error ("invalid predicate ".toList ++ graved name)
      else if name.head? = some '-' then .error ("unknown predicate ".toList ++ graved name)
      else .error (strayPath x before name)
where
  /-- The complaint about a path behind an expression. -/
  strayPath (x : Surroundings) (before name : Chars) : Chars :=
    "paths must precede expression: ".toList ++ graved name ++
      if before ≠ [] && (x.host.linkEntry (Chars.toPath name)).isOk then
        "\nfind: possible unquoted pattern after predicate ".toList ++ graved before ++ ['?']
      else []

/-- Whether a word joins expressions or ends one. -/
def isJoint (w : Chars) : Bool :=
  ["-o", "-or", ",", ")", "-a", "-and"].contains (Chars.toString w)

mutual

/-- Expressions behind each other, with commas between them.  Every step takes a word or goes one
level down. -/
def chain (x : Surroundings) : Nat → Limits → List Chars → Except Chars (Parsed Expr)
  | 0, _, _ => .error []
  | n + 1, l, ws => do
    let (a, l, ws) ← choice x n l ws
    match ws with
    | [','] :: ws =>
      let (b, l, ws) ← chain x n l ws
      return (.last a b, l, ws)
    | ws => return (a, l, ws)

/-- Expressions one of which is to hold. -/
def choice (x : Surroundings) : Nat → Limits → List Chars → Except Chars (Parsed Expr)
  | 0, _, _ => .error []
  | n + 1, l, ws => do
    let (a, l, ws) ← series x n l ws
    match ws with
    | w :: ws' =>
      if w = "-o".toList || w = "-or".toList then
        if ws' = [] then throw ("expected an expression after ".toList ++ cited w)
        let (b, l, ws) ← choice x n l ws'
        return (.either a b, l, ws)
      else return (a, l, ws)
    | [] => return (a, l, [])

/-- Expressions all of which are to hold. -/
def series (x : Surroundings) : Nat → Limits → List Chars → Except Chars (Parsed Expr)
  | 0, _, _ => .error []
  | n + 1, l, ws => do
    let (a, l, ws) ← single x n l ws
    match ws with
    | w :: ws' =>
      if w = "-a".toList || w = "-and".toList then
        if ws' = [] then throw ("expected an expression after ".toList ++ cited w)
        let (b, l, ws) ← series x n l ws'
        return (.both a b, l, ws)
      else if isJoint w then return (a, l, ws)
      else
        let (b, l, ws) ← series x n l ws
        return (.both a b, l, ws)
    | [] => return (a, l, [])

/-- A single expression. -/
def single (x : Surroundings) : Nat → Limits → List Chars → Except Chars (Parsed Expr)
  | 0, _, _ => .error []
  | n + 1, l, ws => do
    match ws with
    | [] => throw "invalid expression; expected an expression".toList
    | w :: ws =>
      if w = ['('] then
        if ws.head? = some [')'] then
          throw "invalid expression; empty parentheses are not allowed.".toList
        let (e, l, ws) ← chain x n l ws
        match ws with
        | [')'] :: ws => return (e, l, ws)
        | _ => throw ("invalid expression; I was expecting to find a ')' somewhere but did not " ++
            "see one.").toList
      else if w = ['!'] || w = "-not".toList then
        if ws = [] then throw ("expected an expression after ".toList ++ cited w)
        let (e, l, ws) ← single x n l ws
        return (.not e, l, ws)
      else if isJoint w then
        throw ("invalid expression; you have used a binary operator ".toList ++ cited w ++
          " with nothing before it.".toList)
      else
        let (p, l, ws) ← primary x l w ws
        return (.one p, l, ws)

end

/-- The limits if nothing is said. -/
def usualLimits : Limits := ⟨none, 0, false, 0, usualForm, [], []⟩

/-- The expression that words spell; what is found is written if it has no action. -/
def read (x : Surroundings) (ws : List Chars) : Except Chars (Expr × Limits) := do
  let print : Expr := .one (.print '\n' none)
  if ws = [] then return (print, usualLimits)
  let (e, l, rest) ← chain x (4 * ws.length + 8) usualLimits ws
  match rest with
  | [')'] :: _ => throw "invalid expression; you have too many ')'".toList
  | w :: _ => throw ("paths must precede expression: ".toList ++ graved w)
  | [] => return (if e.hasAction then e else .both e print, l)

/-- The files to which an expression writes. -/
def Expr.files : Expr → List Chars
  | .one (.print _ (some f)) | .one (.facts _ (some f)) | .one (.list (some f)) => [f]
  | .one _ => []
  | .not e => e.files
  | .both a b | .either a b | .last a b => a.files ++ b.files

/-- The programs in an expression that are run for all. -/
def Expr.runs : Expr → List (Nat × List Chars)
  | .one (.runAll number words) => [(number, words)]
  | .one _ => []
  | .not e => e.runs
  | .both a b | .either a b | .last a b => a.runs ++ b.runs

end ContractBuild.Utility.Find
