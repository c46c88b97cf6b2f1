import ContractBuild.Posix.Text.Chars
import ContractBuild.Posix.Text.Glob
import ContractBuild.Posix.Text.Version
import ContractBuild.Posix.Utility.Link
import ContractBuild.Posix.Utility.Message
import ContractBuild.Posix.Utility.Times

/-!
# Listing entries

What stands in directories, by name or with everything that is known about it.
-/

/-!
## Columns

Texts stand in as many columns as a line has room for, one below the other or side by side.  A
column is as wide as its widest text with two blanks behind it, which the last one does not need;
tabs fill the room between texts where they fit.
-/

namespace ContractBuild.Columns

/-- How wide a column is at least. -/
def leastWidth : Nat := 3

/-- The column of a text among so many columns; `isDown` says that texts stand one below the
other. -/
def columnOf (isDown : Bool) (total count k : Nat) : Nat :=
  if isDown then k / ((total + count - 1) / count) else k % count

/-- The widths of so many columns for texts of these lengths, if they fit into a line. -/
def widths? (isDown : Bool) (line : Nat) (lengths : List Nat) (count : Nat) : Option (List Nat) :=
  let wanted := lengths.zipIdx.map fun (n, k) ↦
    let column := columnOf isDown lengths.length count k
    (column, if column = count - 1 then n else n + 2)
  let widths := (List.range count).map fun c ↦
    ((wanted.filter (·.1 = c)).map (·.2)).foldl max leastWidth
  if widths.all (· = leastWidth) || widths.foldl (· + ·) 0 < line then some widths else none

/-- The widths of as many columns as a line has room for. -/
def widths (isDown : Bool) (line : Nat) (lengths : List Nat) : List Nat :=
  let limit := min ((line + leastWidth - 1) / leastWidth) lengths.length
  let counts := ((List.range limit).map (· + 1)).reverse
  let fitting := counts.findSome? fun k ↦
    if k ≤ 1 then none else widths? isDown line lengths k
  fitting.getD [lengths.foldl max leastWidth]

/-- Blanks and tabs from one place to another.  Every step fills one place at least. -/
def gap (tab : Nat) : Nat → Nat → Nat → Chars
  | 0, _, _ => []
  | n + 1, start, stop =>
    if stop ≤ start then []
    else if tab ≠ 0 && (start + 1) / tab < stop / tab then
      '\t' :: gap tab n (start + tab - start % tab) stop
    else ' ' :: gap tab n (start + 1) stop

/-- A line of texts, each with its length, in columns of these widths; so much has been filled. -/
def row (tab : Nat) : Nat → List Nat → List (Chars × Nat) → Chars
  | _, _, [] => []
  | _, _, [(text, _)] => text
  | used, widths, (text, n) :: rest =>
    let next := used + widths.headD leastWidth
    text ++ gap tab (next + 1) (used + n) next ++ row tab next widths.tail rest

/-- Texts, each with its length, in columns. -/
def lines (isDown : Bool) (tab line : Nat) (texts : List (Chars × Nat)) : List Chars :=
  let ws := widths isDown line (texts.map (·.2))
  let count := ws.length
  let height := (texts.length + count - 1) / count
  let place := fun (r c : Nat) ↦ if isDown then c * height + r else r * count + c
  (List.range height).map fun r ↦
    row tab 0 ws ((List.range count).filterMap fun c ↦ texts[place r c]?)

/-- Texts, each with its length, behind each other with a separator, in lines that have room; the
first one stands behind so much. -/
def flow (separator : Chars) (line : Nat) : Nat → List (Chars × Nat) → Chars
  | _, [] => []
  | _, [(text, _)] => text
  | used, (text, n) :: (next, k) :: rest =>
    let used := used + n
    let isIn := line = 0 || used + k + 2 < line
    text ++ separator ++ (if isIn then ' ' else '\n') ::
      flow separator line (if isIn then used + 2 else 0) ((next, k) :: rest)

/-- Two columns. -/
example : lines true 8 10 [("a".toList, 1), ("b".toList, 1), ("cccc".toList, 4)] =
    ["a  cccc".toList, "b".toList] := by decide +kernel

end ContractBuild.Columns

namespace ContractBuild.Utility

namespace Listing

/-- An entry that is listed. -/
structure Entry where
  /-- What it is called. -/
  name : Chars
  /-- Where it is. -/
  location : Location
  /-- What it is. -/
  node : Node
  /-- Why nothing but its kind is known, if that is so. -/
  failure : Option IoError

/-! ## How entries are listed -/

/-- How entries stand in lines. -/
inductive Shape
  /-- One in a line. -/
  | single
  /-- One in a line, with everything that is known. -/
  | long
  /-- In columns. -/
  | down
  /-- In columns, side by side. -/
  | across
  /-- Behind each other with commas. -/
  | commas
  deriving DecidableEq, Repr

/-- How entries are listed. -/
structure Style where
  /-- Names that start with a dot are listed. -/
  isAll : Bool
  /-- The directory itself and the one above it are listed. -/
  hasDots : Bool
  /-- The patterns of names that are left out. -/
  ignored : List (List Glob.Part)
  /-- The patterns of names that are left out unless all names are listed. -/
  hidden : List (List Glob.Part)
  /-- Directories are listed themselves. -/
  isFlat : Bool
  /-- What directories hold is listed as well. -/
  isDeep : Bool
  /-- How entries stand in lines. -/
  shape : Shape
  /-- Links are followed. -/
  follows : Bool
  /-- Links among the operands are followed. -/
  followsOperands : Bool
  /-- Numbers that tell entries apart are shown. -/
  hasNumbers : Bool
  /-- The room that entries take is shown. -/
  hasRoom : Bool
  /-- How names are written. -/
  names : NameStyle
  /-- Characters without a form of their own are not shown. -/
  hides : Bool
  /-- Users are shown by their numbers. -/
  isNumeric : Bool
  /-- Owners are left out. -/
  hidesOwner : Bool
  /-- Groups are left out. -/
  hidesGroup : Bool
  /-- Who made an entry is shown. -/
  hasAuthor : Bool
  /-- The mark behind names: of directories only, of kinds, or of all that differ. -/
  marks : Option Char
  /-- The order: by name, size, time, ending, version, width or none. -/
  order : Char
  /-- The order is turned round. -/
  isReversed : Bool
  /-- Directories come first. -/
  hasDirectoriesFirst : Bool
  /-- The time of the last use counts. -/
  byUse : Bool
  /-- The base in which sizes are written so that people read them easily. -/
  humanBase : Option Nat
  /-- The formats of times that are long ago and of others. -/
  timeFormats : Chars × Chars
  /-- The zone for times. -/
  zone : Zone
  /-- The moment. -/
  now : Moment
  /-- How long a line is; 0 stands for no end. -/
  width : Nat
  /-- How wide a tab is. -/
  tab : Nat
  /-- What ends lines. -/
  lineEnd : Char
  /-- Whether text is UTF-8. -/
  isWide : Bool

/-- The mark of a kind of entry. -/
def markOf (marks : Option Char) (n : Node) : Chars :=
  match marks, n with
  | some _, .directory _ => ['/']
  | some 'F', .link _ | some 't', .link _ => ['@']
  | some 'F', .file f => if permitsRunning f.mode then ['*'] else []
  | _, _ => []

/-- A name as it is shown. -/
def Style.shownName (s : Style) (name : Chars) : Chars :=
  s.names.apply s.isWide s.hides (if s.names = .escape then [' '] else []) name

/-- How much room a name takes. -/
def Style.room (s : Style) (shown : Chars) : Nat :=
  if s.isWide then ((Wide.read shown).map Wide.width).foldl (· + ·) 0 else shown.length

/-- Whether facts about entries are needed besides their kinds. -/
def Style.needsFacts (s : Style) : Bool :=
  s.shape = .long || s.hasRoom || ['S', 't'].contains s.order || s.marks = some 'F'

/-- The part of a name behind its last dot. -/
def ending (name : Chars) : Chars :=
  if name.contains '.' then '.' :: (name.reverse.takeWhile (· ≠ '.')).reverse else []

/-- The time of an entry that counts. -/
def Style.timeOf (s : Style) (n : Node) : Moment := if s.byUse then n.accessed else n.modified

/-- Whether an entry comes before another one, or might as well. -/
def Style.isBefore (s : Style) (a b : Entry) : Bool :=
  let byName := !Chars.isBefore b.name a.name
  let byKey := fun (o : Ordering) ↦ o = .lt || (o = .eq && byName)
  match s.order with
  | 'S' => byKey (compare (EntryFacts.sizeOf b.node) (EntryFacts.sizeOf a.node))
  | 't' => byKey (compare (s.timeOf b.node) (s.timeOf a.node))
  | 'X' =>
    let x := ending a.name
    let y := ending b.name
    Chars.isBefore x y || (x = y && byName)
  | 'v' => byKey (Version.compareNames a.name b.name)
  | 'W' => byKey (compare (s.room (s.shownName a.name)) (s.room (s.shownName b.name)))
  | _ => byName

/-- Entries in their order. -/
def Style.sorted (s : Style) (h : Host) (es : List Entry) : List Entry :=
  let es := es.mergeSort s.isBefore
  let es := if s.isReversed && s.order ≠ 'U' then es.reverse else es
  let isDirectory := fun (e : Entry) ↦ match e.node with
    | .directory _ => true
    | .link _ => h.isDirectory (.ofLocation e.location)
    | _ => false
  if s.hasDirectoriesFirst && s.order ≠ 'U' then
    es.filter isDirectory ++ es.filter (!isDirectory ·) else es

/-- A text at the right of a field. -/
def rightIn (width : Nat) (cs : Chars) : Chars := List.replicate (width - cs.length) ' ' ++ cs

/-- A text at the left of a field. -/
def leftIn (width : Nat) (cs : Chars) : Chars := cs ++ List.replicate (width - cs.length) ' '

/-- The width of the widest of some texts. -/
def widest (ws : List Chars) : Nat := (ws.map (·.length)).foldl max 0

/-- What links lead to, behind their names. -/
def Style.target (s : Style) (h : Host) (e : Entry) : Chars :=
  match e.node with
  | .link k =>
    let mark := match s.marks, h.tree.locate (some e.location.dropLast) ⟨true, false⟩ k.target with
      | some _, .ok (.entry _ n) => markOf s.marks n
      | _, _ => []
    " -> ".toList ++ s.shownName (Chars.ofPath k.target) ++ mark
  | n => markOf s.marks n

/-- The half of a year, in seconds. -/
def halfYear : Nat := 15778476

/-- The time of an entry as it is shown. -/
def Style.timeText (s : Style) (n : Node) : Chars :=
  let m := s.timeOf n
  let isNear := m ≤ s.now && s.now - Moment.ofSeconds halfYear < m
  (stampOf s.zone m).inFormat (if isNear then s.timeFormats.2 else s.timeFormats.1)

/-- A size as it is shown. -/
def Style.sizeText (s : Style) (n : Node) : Chars :=
  match n with
  | .device _ =>
    let (a, b) := EntryFacts.deviceOf n
    Chars.ofNat a ++ ", ".toList ++ Chars.ofNat b
  | n =>
    let k := EntryFacts.sizeOf n
    match s.humanBase with
    | some base => EntryFacts.human base k
    | none => Chars.ofNat k

/-- The room that entries take as it is shown, in thousands of bytes. -/
def Style.roomText (s : Style) (n : Nat) : Chars :=
  match s.humanBase with
  | some base => EntryFacts.human base (n * 1024)
  | none => Chars.ofNat n

/-- The lines for entries, with everything that is known. -/
def Style.longLines (s : Style) (h : Host) (es : List Entry) : List Chars :=
  let unknown := ['?']
  let fact := fun (e : Entry) (cs : Chars) ↦ if e.failure.isSome then unknown else cs
  let rows := es.map fun e ↦
    (e, fact e (Chars.ofNat (EntryFacts.namesOf h.tree e.location e.node)),
      fact e (s.sizeText e.node), fact e (s.timeText e.node))
  let countWidth := widest (rows.map (·.2.1))
  let sizeWidth := widest (rows.map (·.2.2.1))
  let timeWidth := widest (rows.map (·.2.2.2))
  let user := if s.isNumeric then ['0'] else "root".toList
  let userWidth := if es.any (·.failure.isNone) then user.length else 1
  rows.map fun (e, count, size, time) ↦
    let mode := if e.failure.isSome then EntryFacts.letterOf e.node :: List.replicate 9 '?'
      else EntryFacts.modeText e.node
    let owner := leftIn userWidth (fact e user) ++ [' ']
    mode ++ ' ' :: rightIn countWidth count ++ [' '] ++
      (if s.hidesOwner then [] else owner) ++ (if s.hidesGroup then [] else owner) ++
      (if s.hasAuthor then owner else []) ++ rightIn sizeWidth size ++ [' '] ++
      (if e.failure.isSome then rightIn timeWidth time else time) ++ [' '] ++
      s.shownName e.name ++ s.target h e

/-- What stands in front of entries. -/
def Style.fronts (s : Style) (es : List Entry) : List Chars :=
  let numbers := es.map fun e ↦
    if e.failure.isSome then ['?'] else Chars.ofNat (EntryFacts.numberOf e.node)
  let rooms := es.map fun e ↦
    if e.failure.isSome then ['?'] else s.roomText (EntryFacts.roomOf e.node)
  let filled := fun (ws : List Chars) (w : Chars) ↦
    if s.shape = .commas then w else rightIn (widest ws) w
  (numbers.zip rooms).map fun (n, r) ↦
    (if s.hasNumbers then filled numbers n ++ [' '] else []) ++
      (if s.hasRoom then filled rooms r ++ [' '] else [])

/-- Entries as they are shown. -/
def Style.shown (s : Style) (h : Host) (es : List Entry) : Chars :=
  let lines := if s.shape = .long then s.longLines h es
    else es.map fun e ↦ s.shownName e.name ++ markOf s.marks e.node
  let lines := ((s.fronts es).zip lines).map fun (a, b) ↦ a ++ b
  let texts := lines.map fun l ↦ (l, s.room l)
  let lines := if lines = [] then [] else match s.shape with
    | .commas => [Columns.flow [','] s.width 0 texts]
    | .down => if s.width = 0 then [Columns.flow [' '] 0 0 texts]
        else Columns.lines true s.tab s.width texts
    | .across => if s.width = 0 then [Columns.flow [' '] 0 0 texts]
        else Columns.lines false s.tab s.width texts
    | _ => lines
  lines.flatMap (· ++ [s.lineEnd])

/-! ## Directories -/

/-- A part of what is listed. -/
inductive Piece
  /-- A text. -/
  | text (cs : Chars)
  /-- A complaint about an entry: what cannot be done with it, its path, why, and the status. -/
  | failure (what : String) (path : Chars) (e : IoError) (status : Nat)

/-- Whether a name is listed. -/
def Style.isListed (s : Style) (name : Chars) : Bool :=
  (s.isAll || name.head? ≠ some '.') && !s.ignored.any (Glob.matchesText · name) &&
    (s.isAll || !s.hidden.any (Glob.matchesText · name))

/-- The entries of a directory. -/
def Style.inside (s : Style) (h : Host) (l : Location) : List Entry :=
  let names := (h.tree.names l).filter fun n ↦ s.isListed (Chars.ofBytes n)
  let entry := fun (name : Chars) (k : Location) ↦ (h.tree.node? k).map fun n ↦
    if s.needsFacts && !h.tree.allows l .run then (⟨name, k, n, some .notPermitted⟩ : Entry)
    else match s.follows, n with
      | true, .link _ => match h.tree.locate (some []) ⟨true, false⟩ (.ofLocation k) with
        | .ok (.entry _ m) => ⟨name, k, m, none⟩
        | .ok (.vacant _) => ⟨name, k, n, if s.needsFacts then some .notFound else none⟩
        | .error e => ⟨name, k, n, if s.needsFacts then some e else none⟩
      | _, n => ⟨name, k, n, none⟩
  let dots := if s.hasDots then
    (entry ['.'] l).toList ++ (entry ['.', '.'] l.dropLast).toList else []
  s.sorted h (dots ++ names.filterMap fun n ↦ entry (Chars.ofBytes n) (l ++ [n]))

/-- The title of a directory. -/
def Style.title (s : Style) (path : Chars) : Chars :=
  s.names.apply s.isWide s.hides (if s.names = .escape then [' ', ':'] else [':']) path ++
    [':', '\n']

/-- A directory as it is listed, with those in it if that is asked for; `path` stands above it if
there is a title.  Every step goes one directory down. -/
def Style.directory (s : Style) (h : Host) (hasTitle isOperand : Bool) :
    Nat → Chars → Location → List Piece
  | 0, _, _ => []
  | n + 1, path, l =>
    if !h.tree.allows l .read then
      [.failure "cannot open directory" path .notPermitted (if isOperand then 2 else 1)]
    else
      let es := s.inside h l
      let failures := es.filterMap fun e ↦ e.failure.map fun x ↦
        Piece.failure "cannot access" (inDirectory path e.name) x 1
      let total := if s.shape = .long || s.hasRoom then
        "total ".toList ++ s.roomText ((es.map fun e ↦ EntryFacts.roomOf e.node).foldl (· + ·) 0) ++
          [s.lineEnd] else []
      let title := if hasTitle then s.title path else []
      let inner := if s.isDeep then
        es.flatMap fun e ↦ match e.node with
          | .directory _ =>
            if e.name = ['.'] || e.name = ['.', '.'] then []
            else s.directory h hasTitle false n (inDirectory path e.name) e.location
          | _ => []
        else []
      failures ++ .text (title ++ total ++ s.shown h es) :: inner

/-- The entry of an operand. -/
def Style.operand (s : Style) (h : Host) (path : Chars) : Except IoError Entry :=
  let p := Chars.toPath path
  let listed := fun (e : Location × Node) ↦ Entry.mk path e.1 e.2 none
  let exact : Except IoError Entry := (h.linkEntry p).map listed
  let behind : Except IoError Entry := (h.entry p).map listed
  if s.follows || s.followsOperands then behind
  else match exact with
    | .ok ⟨_, _, .link _, _⟩ =>
      if s.shape = .long || s.isFlat || s.marks = some 'F' then exact
      else match behind with
        | .ok e => match e.node with
          | .directory _ => behind
          | _ => exact
        | .error _ => exact
    | other => other

/-- How deep directories are listed. -/
def listDepth : Nat := 2000

/-! ## Options -/

/-- The options. -/
def flags : List Flag :=
  plainFlags [('a', "all"), ('A', "almost-all"), ('b', "escape"), ('B', "ignore-backups"),
    ('c', ""), ('C', ""), ('d', "directory"), ('D', "dired"), ('f', ""), ('F', ""), ('g', ""),
    ('G', "no-group"), ('h', "human-readable"), ('H', "dereference-command-line"), ('i', "inode"),
    ('k', "kibibytes"), ('l', ""), ('L', "dereference"), ('m', ""), ('n', "numeric-uid-gid"),
    ('N', "literal"), ('o', ""), ('p', ""), ('q', "hide-control-chars"), ('Q', "quote-name"),
    ('r', "reverse"), ('R', "recursive"), ('s', "size"), ('S', ""), ('t', ""), ('u', ""), ('U', ""),
    ('v', ""), ('x', ""), ('X', ""), ('Z', "context"), ('1', ""),
    ('\x01', "group-directories-first"), ('\x02', "full-time"), ('\x0e', "author"),
    ('\x0f', "si"), ('\x10', "file-type"), ('\x11', "show-control-chars"), ('\x12', "zero"),
    ('\x13', "dereference-command-line-symlink-to-dir")] ++
  valueFlags [('I', "ignore"), ('T', "tabsize"), ('w', "width"), ('\x03', "sort"),
    ('\x04', "format"), ('\x05', "time-style"), ('\x06', "quoting-style"), ('\x07', "time"),
    ('\x14', "hide"), ('\x15', "block-size")] ++
  [⟨'\x08', "color", .optional⟩, ⟨'\x0b', "classify", .optional⟩,
    ⟨'\x0c', "indicator-style", .required⟩, ⟨'\x16', "hyperlink", .optional⟩]

/-- The words for how entries stand in lines. -/
def shapeWords : List (String × Shape) :=
  [("verbose", .long), ("long", .long), ("commas", .commas), ("horizontal", .across),
    ("across", .across), ("vertical", .down), ("single-column", .single)]

/-- How entries stand in lines behind one more option. -/
def withShape (shape : Shape) (f : Char × Chars) : Shape :=
  match f.1 with
  | 'l' | 'n' | 'o' | 'g' | '\x02' => .long
  | '1' | '\x12' => if shape = .long then .long else .single
  | 'f' => if shape = .long then .single else shape
  | 'C' => .down
  | 'x' => .across
  | 'm' => .commas
  | '\x04' => (shapeWords.lookup (Chars.toString f.2)).getD shape
  | _ => shape

/-- The words for orders. -/
def orderWords : List (String × Char) :=
  [("none", 'U'), ("time", 't'), ("size", 'S'), ("extension", 'X'), ("version", 'v'),
    ("width", 'W')]

/-- The words for times. -/
def timeWords : List (List String) :=
  [["atime", "access", "use"], ["ctime", "status"], ["mtime", "modification"],
    ["birth", "creation"]]

/-- The words for marks. -/
def markWords : List (String × Option Char) :=
  [("none", none), ("slash", some 'p'), ("file-type", some 't'), ("classify", some 'F')]

/-- The formats of times that a word stands for, that of times long ago first. -/
def timeFormats? (w : Chars) : Option (Chars × Chars) :=
  let w := if "posix-".toList.isPrefixOf w then "locale".toList else w
  match w with
  | '+' :: f =>
    let front := f.takeWhile (· ≠ '\n')
    some (front, if front.length = f.length then f else f.drop (front.length + 1))
  | w => match Chars.toString w with
    | "full-iso" =>
      let f := "%Y-%m-%d %H:%M:%S.%N %z".toList
      some (f, f)
    | "long-iso" => some ("%Y-%m-%d %H:%M".toList, "%Y-%m-%d %H:%M".toList)
    | "iso" => some ("%Y-%m-%d ".toList, "%m-%d %H:%M".toList)
    | "locale" => some ("%b %e  %Y".toList, "%b %e %H:%M".toList)
    | _ => none

/-- The style that a call asks for, as far as it needs nothing else. -/
def styleOf (c : Call) (isWide : Bool) (zone : Zone) (now : Moment) : Style :=
  let shape := c.flags.foldl withShape .single
  let word := fun (letter : Char) ↦ Chars.toString ((c.value? letter).getD [])
  let byUse := (c.lastOf? ['u', 'c', '\x07']).any fun l ↦
    l = 'u' || (l = '\x07' && ["atime", "access", "use"].contains (word '\x07'))
  let timeGiven := c.has 'u' || c.has 'c' || c.has '\x07'
  let order := match c.lastOf? ['S', 't', 'U', 'X', 'f', 'v', '\x03'] with
    | some 'f' => 'U'
    | some '\x03' => (orderWords.lookup (word '\x03')).getD 'n'
    | some l => l
    | none => if timeGiven && shape ≠ .long then 't' else 'n'
  let pattern := fun (f : Char × Chars) ↦ Glob.ofChars f.2
  { isAll := c.has 'a' || c.has 'A' || c.has 'f'
    hasDots := c.lastOf? ['a', 'A', 'f'] |>.any (· ≠ 'A')
    ignored := (c.flags.filter (·.1 = 'I')).map pattern ++
      if c.has 'B' then [Glob.ofChars "*~".toList, Glob.ofChars ".*~".toList] else []
    hidden := (c.flags.filter (·.1 = '\x14')).map pattern
    isFlat := c.has 'd'
    isDeep := c.has 'R'
    shape
    follows := c.lastOf? ['L', 'H', '\x13'] = some 'L'
    followsOperands := c.lastOf? ['L', 'H', '\x13'] = some 'H'
    hasNumbers := c.has 'i'
    hasRoom := c.has 's' && c.lastOf? ['s', 'f'] = some 's'
    names := match c.lastOf? ['b', 'N', 'Q', '\x06', '\x12'] with
      | some 'b' => .escape
      | some 'Q' => .double
      | some '\x06' => (NameStyle.words.lookup (word '\x06')).getD .literal
      | _ => .literal
    hides := c.lastOf? ['q', '\x11', '\x12'] = some 'q'
    isNumeric := c.has 'n'
    hidesOwner := c.has 'g'
    hidesGroup := c.has 'o' || c.has 'G'
    hasAuthor := c.has '\x0e'
    marks := match c.lastOf? ['F', 'p', '\x0b', '\x0c', '\x10'] with
      | some 'F' => some 'F'
      | some '\x0b' => if ["auto", "tty", "if-tty", "never", "no", "none"].contains (word '\x0b')
        then none else some 'F'
      | some '\x10' => some 't'
      | some '\x0c' => (markWords.lookup (word '\x0c')).getD none
      | some l => some l
      | none => none
    order
    isReversed := c.has 'r'
    hasDirectoriesFirst := c.has '\x01'
    byUse
    humanBase := match c.lastOf? ['h', '\x0f', 'k'] with
      | some 'h' => some 1024
      | some '\x0f' => some 1000
      | _ => none
    timeFormats := ("%b %e  %Y".toList, "%b %e %H:%M".toList)
    zone, now
    width := 80
    tab := 8
    lineEnd := if c.has '\x12' then '\x00' else '\n'
    isWide }

/-- Replaces the words of options by the full ones. -/
def withFullWords (name : Chars) (c : Call) : Routine Call := do
  let single := fun (ws : List String) ↦ ws.map fun w ↦ [w]
  let flags ← c.flags.mapM fun f ↦ do
    let read := fun (option : String) (lines : List (List String)) ↦ do
      return (f.1, (← readWord name 2 option lines f.2).toList)
    match f.1 with
    | '\x03' => read "--sort" (single (orderWords.map (·.1)))
    | '\x04' => read "--format" [["verbose", "long"], ["commas"], ["horizontal", "across"],
        ["vertical"], ["single-column"]]
    | '\x06' => read "--quoting-style" (single (NameStyle.words.map (·.1)))
    | '\x07' => read "--time" timeWords
    | '\x0c' => read "--indicator-style" (single (markWords.map (·.1)))
    | '\x08' | '\x0b' | '\x16' => if f.2 = [] then pure f else
      read (if f.1 = '\x08' then "--color" else if f.1 = '\x0b' then "--classify"
        else "--hyperlink") [["always", "yes", "force"], ["never", "no", "none"],
          ["auto", "tty", "if-tty"]]
    | _ => pure f
  return { c with flags }

/-- The number that an option or else a variable gives. -/
def numberFor (name : Chars) (c : Call) (letter : Char) (what : String) (env : List Chars)
    (entry : String) (usual : Nat) : Routine Nat :=
  match c.value? letter with
  | some w => match Chars.toNat? w with
    | some n => pure n
    | none => fail name 2 ("invalid ".toList ++ what.toList ++ ": ".toList ++ cited w)
  | none => pure (((Image.valueIn? env entry.toList).bind Chars.toNat?).getD usual)

end Listing

open Listing in
/-- Lists entries as if these letters stood before all options. -/
def listing (letters : List Char) : Program := fun args env ↦ do
  let name := args.headD []
  let c ← readCall name 2 flags true args.tail
  let c ← withFullWords name { c with flags := letters.map (·, []) ++ c.flags }
  let s := styleOf c (← Routine.self).isWide (zoneIn env) (.ofMilliseconds (← Routine.now))
  let formats ← match c.lastOf? ['\x05', '\x02'], Image.valueIn? env "TIME_STYLE".toList with
    | some '\x02', _ => pure (timeFormats? "full-iso".toList)
    | some _, _ => do
      let w := (c.value? '\x05').getD []
      match timeFormats? w with
      | some f => pure (some f)
      | none => do
        warn name ("invalid argument ".toList ++ cited w ++ " for ".toList ++
          cited "time style".toList)
        say ("Valid arguments are:\n  - [posix-]full-iso\n  - [posix-]long-iso\n" ++
          "  - [posix-]iso\n  - [posix-]locale\n  - +FORMAT (e.g., +%H:%M) for a " ++
          "'date'-style format\n").toList
        pointToHelp name
        Routine.exit 2
    | none, some w => pure (timeFormats? w)
    | none, none => pure none
  let names := match Image.valueIn? env "QUOTING_STYLE".toList,
      c.lastOf? ['b', 'N', 'Q', '\x06', '\x12'] with
    | some w, none => (NameStyle.words.lookup (Chars.toString w)).getD s.names
    | _, _ => s.names
  let width ← numberFor name c 'w' "line width" env "COLUMNS" 80
  let tab ← numberFor name c 'T' "tab size" env "TABSIZE" 8
  let s := { s with timeFormats := formats.getD s.timeFormats, names, width, tab }
  let paths := if c.operands = [] then [['.']] else c.operands
  let isGone ← Routine.look (·.here?.isNone)
  let paths := if isGone && !s.isFlat then paths.filter (· ≠ ['.']) else paths
  let found ← Routine.look fun h ↦ paths.map fun p ↦ (p, s.operand h p)
  Routine.forEach (fun (path, r) ↦ match r with
    | .error e => warn name (because ("cannot access ".toList ++ quoted path) e)
    | .ok _ => pure ()) found
  let pieces ← Routine.look fun h ↦
    let es : List Entry := s.sorted h (found.filterMap fun e ↦ e.2.toOption)
    let isDirectory := fun (e : Entry) ↦ match e.node with
      | .directory _ => !s.isFlat
      | _ => false
    let files : List Entry := es.filter (!isDirectory ·)
    let dirs : List Entry := es.filter isDirectory
    let hasTitle := 1 < paths.length || s.isDeep
    let front := if files = [] then [] else [Piece.text (s.shown h files)]
    front ++ dirs.flatMap fun e ↦ s.directory h hasTitle true listDepth e.name e.location
  Routine.forEach (fun p ↦ match p with
    | .failure what path e _ => warn name (because (what.toList ++ ' ' :: quoted path) e)
    | .text _ => pure ()) pieces
  emit name (Chars.join ['\n'] (pieces.filterMap fun p ↦ match p with
    | .text cs => some cs
    | _ => none))
  let statuses := pieces.map fun p ↦ match p with
    | .failure _ _ _ status => status
    | .text _ => 0
  return (found.map fun e ↦ if e.2.isOk then 0 else 2).foldl max (statuses.foldl max 0)

/-- A dot starts an ending, also at the start. -/
example : Listing.ending ".a.b".toList = ".b".toList := by decide +kernel

end ContractBuild.Utility
