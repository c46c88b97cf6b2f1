import ContractBuild.Posix.Text.Glob
import ContractBuild.Posix.Utility.ByteComparison
import ContractBuild.Posix.Utility.Difference.Style
import ContractBuild.Posix.Utility.Link
import ContractBuild.Posix.Utility.Times

/-!
# Comparing texts

A utility that shows the differences of two texts, or of all texts in two directories.
-/

namespace ContractBuild.Utility.Difference

/-! ## What is compared -/

/-- Which blanks of lines count. -/
inductive Blanks
  /-- All of them. -/
  | all
  /-- All but those at ends of lines. -/
  | inner
  /-- Whether there are some. -/
  | presence
  /-- None. -/
  | nothing
  deriving DecidableEq, Repr

/-- How texts are compared and how that is shown. -/
structure Options where
  /-- How differences are shown. -/
  style : Style
  /-- How many lines stand around changes. -/
  context : Nat
  /-- How texts stand beside each other. -/
  columns : Columns
  /-- Hunks show the last line in front that starts with a letter. -/
  showsPlace : Bool
  /-- Only which texts differ is shown. -/
  isBrief : Bool
  /-- Texts that do not differ are shown. -/
  tellsSame : Bool
  /-- Everything counts as text. -/
  isText : Bool
  /-- Directories in directories are compared. -/
  isRecursive : Bool
  /-- A text that is missing counts as empty. -/
  takesMissing : Bool
  /-- A first text that is missing counts as empty. -/
  takesMissingFirst : Bool
  /-- The blanks that count. -/
  blanks : Blanks
  /-- Capital letters count as small ones. -/
  foldsCase : Bool
  /-- Tabs count as blanks. -/
  foldsTabs : Bool
  /-- Empty lines do not count. -/
  ignoresEmpty : Bool
  /-- Carriage returns at ends of lines do not count. -/
  dropsReturns : Bool
  /-- Names for the texts. -/
  labels : List Chars
  /-- The patterns of names that are left out. -/
  excluded : List (List Glob.Part)
  /-- The options as they were written. -/
  switches : Chars
  /-- The zone for times. -/
  zone : Zone

/-- A line with blanks in the place of its tabs, from a column on. -/
def withoutTabs : Nat → Chars → Chars
  | _, [] => []
  | k, c :: cs =>
    if c = '\t' then List.replicate (8 - k % 8) ' ' ++ withoutTabs (k + 8 - k % 8) cs
    else c :: withoutTabs (k + 1) cs

/-- A text with one blank in the place of each run of blanks. -/
def squeezed : Bool → Chars → Chars
  | _, [] => []
  | isBehind, c :: cs =>
    if Numeral.isBlank c then (if isBehind then [] else [' ']) ++ squeezed true cs
    else c :: squeezed false cs

/-- A text without the blanks at its end. -/
def trimmed (cs : Chars) : Chars := (cs.reverse.dropWhile Numeral.isBlank).reverse

/-- What of a line is compared. -/
def Options.key (o : Options) (line : Chars) : Chars :=
  let cs := if o.foldsCase then line.map Char.toLower else line
  match o.blanks with
  | .all => if o.foldsTabs then withoutTabs 0 cs else cs
  | .inner => trimmed (if o.foldsTabs then withoutTabs 0 cs else cs)
  | .presence => squeezed false (trimmed cs)
  | .nothing => cs.filter (!Numeral.isBlank ·)

/-- Whether a line is empty. -/
def Options.isEmpty (o : Options) (line : Chars) : Bool :=
  withoutEnd line = [] || (o.blanks ≠ .all && line.all Numeral.isBlank)

/-- The changes from one text to another one, each with whether it counts. -/
def Options.steps (o : Options) (a b : Side) : List Step :=
  let (as, bs) := (a.lines.toList, b.lines.toList)
  (EditScript.changes o.context as bs (as.map o.key) (bs.map o.key)).map fun c ↦
    ⟨c, o.ignoresEmpty && (a.range c.first c.deleted ++ b.range c.second c.inserted).all o.isEmpty⟩

/-- The lines of a content. -/
def Options.lines (o : Options) (content : Chars) : Array Chars :=
  let ls := Chars.wholeRecords '\n' content
  (if o.dropsReturns then ls.map fun l ↦
      if l.reverse.take 2 = ['\n', '\r'] then l.dropLast.dropLast ++ ['\n'] else l
    else ls).toArray

/-- How many bytes of a content are looked at to see whether it is a text. -/
def checkedSize : Nat := 4096

/-- Whether a content is no text. -/
def isNoText (bs : Bytes) : Bool := (bs.take checkedSize).contains 0

/-! ## Comparing -/

/-- One of two things that are compared. -/
structure Item where
  /-- Its name. -/
  name : Chars
  /-- What it is; nothing if it is missing. -/
  node : Option Node

/-- Whether an item is a directory. -/
def Item.isDirectory (i : Item) : Bool :=
  match i.node with
  | some (.directory _) => true
  | _ => false

/-- The name of an item that is shown, with its place among the two. -/
def Options.title (o : Options) (place : Nat) (i : Item) : Chars := (o.labels[place]?).getD i.name

/-- The time of an item as it is shown. -/
def Options.note (o : Options) (isWide : Bool) (now : Moment) (place : Nat) (i : Item) : Chars :=
  if o.labels[place]?.isSome then []
  else
    let time := if isStandard i.name then now else (i.node.map (·.modified)).getD (.ofSeconds 0)
    let stamp := stampOf o.zone time
    if o.style = .contextual && !isWide then stamp.inFormat "%a %b %e %T %Y".toList else stamp.full

/-- Says something on the output. -/
def announce (name cs : Chars) : Routine Unit := emitBytes name 2 (Chars.toBytes cs)

/-- The content of an item. -/
def Item.read (name : Chars) (i : Item) : Routine (Option Bytes) := do
  if i.node.isNone && !isStandard i.name then return some []
  let found ← (do
    match ← openInput i.name with
    | .error e => return .error e
    | .ok n =>
      let content ← Routine.readAll n
      closeInput n
      return content : Routine (Except IoError Bytes))
  match found with
  | .ok bs => return some bs
  | .error e =>
    warn name (because i.name e)
    return none

/-- Says that two items differ. -/
def Options.announceTitles (o : Options) (name : Chars) (front behind : String) (a b : Item) :
    Routine Unit :=
  announce name (front.toList ++ o.title 0 a ++ " and ".toList ++ o.title 1 b ++ behind.toList)

/-- The lines of hunks with the line that each of them is in. -/
def Options.rendered (o : Options) (a b : Side) (steps : List Step) : Chars :=
  let output := o.style.render o.context o.columns a b steps
  if !o.showsPlace then output
  else
    let groups := (hunks o.context (steps.length + 1) steps).filter fun g ↦ g.any (!·.isTrivial)
    let mark := if o.style = .unified then "@@ -".toList else "***************\n".toList
    let places := groups.map fun g ↦
      let start := (extent o.context a b g).firstStart
      ((List.range start).reverse.map a.line).find? fun l ↦
        l.head?.any fun c ↦ c.isAlpha || c = '_' || c = '$'
    let shown := fun (p : Option Chars) ↦ match p with
      | some l => ' ' :: trimmed ((withoutEnd l).take 40)
      | none => []
    let add := fun (s : List (Option Chars) × Chars) (l : Chars) ↦
      match s.1 with
      | p :: ps =>
        if mark.isPrefixOf l then (ps, s.2 ++ Chars.line (withoutEnd l ++ shown p))
        else (s.1, s.2 ++ l)
      | [] => (s.1, s.2 ++ l)
    ((Chars.wholeRecords '\n' output).foldl add (places, [])).2

/-- Compares two files; the truth value says whether they are inside directories. -/
def Options.files (o : Options) (name : Chars) (isInside : Bool) (a b : Item) : Routine Nat := do
  let first ← a.read name
  let second ← b.read name
  match first, second with
  | some as, some bs =>
    let same := do
      if o.tellsSame then o.announceTitles name "Files " " are identical\n" a b
      return 0
    let isPlain := !(o.foldsCase || o.foldsTabs || o.ignoresEmpty || o.dropsReturns) &&
      o.blanks = .all
    if (!o.isText && (isNoText as || isNoText bs)) || (o.isBrief && isPlain) then
      if as = bs then same
      else if o.isBrief then
        o.announceTitles name "Files " " differ\n" a b
        return 1
      else
        o.announceTitles name "Binary files " " differ\n" a b
        return 1
    else
      let isWide := (← Routine.self).isWide
      let now := momentOf (← thisMoment)
      let side := fun (place : Nat) (i : Item) (content : Bytes) ↦
        Side.mk (o.title place i) (o.note isWide now place i) (o.lines (Chars.ofBytes content))
      let (left, right) := (side 0 a as, side 1 b bs)
      let steps := o.steps left right
      let differs := steps.any (!·.isTrivial)
      if o.isBrief then
        if differs then
          o.announceTitles name "Files " " differ\n" a b
          return 1
        else same
      else
        let isShown := differs || (o.style = .columns && !o.columns.hidesCommon)
        if isShown then
          if isInside then
            announce name (Chars.line ("diff".toList ++ o.switches ++
              render isWide (' ' :: shown a.name ++ ' ' :: shown b.name)))
          announce name (o.rendered left right steps)
        if differs then return 1 else same
  | _, _ => return 2

/-- A name in a directory. -/
def within (dir name : Chars) : Chars :=
  if dir.getLast? = some '/' then dir ++ name else dir ++ '/' :: name

/-- What is at a path. -/
def stand (path : Chars) : Routine (Except IoError Node) :=
  Routine.look fun h ↦ (h.entry (Chars.toPath path)).map (·.2)

/-- The names in a directory that are compared, in their order. -/
def Options.namesIn (o : Options) (i : Item) : Routine (Except IoError (List Chars)) := do
  if i.node.isNone then return .ok []
  let names ← Routine.look fun h ↦ h.list (Chars.toPath i.name)
  return names.map fun ns ↦ ((ns.map Chars.ofBytes).filter fun n ↦
    !o.excluded.any (Glob.matchesText · n)).mergeSort fun x y ↦ !Chars.isBefore y x

/-- The names of two lists in order, each with where it is found. -/
def merged (xs ys : List Chars) : List (Chars × Bool × Bool) :=
  let all := (xs ++ ys.filter (!xs.contains ·)).mergeSort fun x y ↦ !Chars.isBefore y x
  all.map fun n ↦ (n, xs.contains n, ys.contains n)

/-- Whether two items are one. -/
def isSame (a b : Item) : Routine Bool :=
  match a.node, b.node with
  | some _, some _ => Routine.look fun h ↦ h.sameEntry (Chars.toPath a.name) (Chars.toPath b.name)
  | none, none => return a.name = b.name
  | _, _ => return false

mutual

/-- Compares two items; the truth value says whether they are inside directories.  Every step goes
one level down. -/
def Options.items (o : Options) (name : Chars) (isInside : Bool) (a b : Item) :
    Nat → Routine Nat
  | 0 => return 2
  | n + 1 => do
    if (o.style ≠ .columns || o.columns.hidesCommon) && (← isSame a b) then
      if o.tellsSame && !a.isDirectory then o.announceTitles name "Files " " are identical\n" a b
      return 0
    let isFile := fun (i : Item) ↦ match i.node with
      | some (.file _) | none => true
      | _ => false
    if (a.isDirectory || a.node.isNone) && (b.isDirectory || b.node.isNone) &&
        (a.isDirectory || b.isDirectory) then
      if isInside && !o.isRecursive then
        announce name ("Common subdirectories: ".toList ++ a.name ++ " and ".toList ++
          Chars.line b.name)
        return 0
      else o.directories name a b n
    else if a.isDirectory || b.isDirectory || (isInside && !(isFile a && isFile b)) then
      let kind := fun (i : Item) ↦ (i.node.map EntryFacts.kindText).getD []
      announce name ("File ".toList ++ o.title 0 a ++ " is a ".toList ++ kind a ++
        " while file ".toList ++ o.title 1 b ++ " is a ".toList ++ Chars.line (kind b))
      return 1
    else o.files name isInside a b

/-- Compares what is in two directories. -/
def Options.directories (o : Options) (name : Chars) (a b : Item) : Nat → Routine Nat
  | 0 => return 2
  | n + 1 => do
    let fault := fun (i : Item) (e : IoError) ↦ do
      warn name (because i.name e)
      (return 2 : Routine Nat)
    match ← o.namesIn a, ← o.namesIn b with
    | .ok xs, .ok ys =>
      forStatus (fun (child, isFirst, isSecond) ↦ do
        let only := fun (i : Item) ↦ do
          announce name ("Only in ".toList ++ i.name ++ ": ".toList ++ Chars.line child)
          (return 1 : Routine Nat)
        let isTaken := o.takesMissing || (o.takesMissingFirst && !isFirst)
        if !isSecond && !isTaken then only a
        else if !isFirst && !isTaken then only b
        else
          let (p, q) := (within a.name child, within b.name child)
          let found := fun (isThere : Bool) (path : Chars) ↦ (do
            if isThere then return (← stand path).map some else return .ok none
            : Routine (Except IoError (Option Node)))
          match ← found isFirst p, ← found isSecond q with
          | .ok x, .ok y =>
            let lone := x.isNone || y.isNone
            let isTree := (Item.mk p x).isDirectory || (Item.mk q y).isDirectory
            if lone && isTree && !o.isRecursive then only (if isFirst then a else b)
            else o.items name true ⟨p, x⟩ ⟨q, y⟩ n
          | x, y => do
            if let .error e := x then warn name (because p e)
            if let .error e := y then warn name (because q e)
            return 2) (merged xs ys)
    | .error e, .error e' => do
      let _ ← fault a e
      fault b e'
    | .error e, _ => fault a e
    | _, .error e => fault b e

end

/-! ## The program -/

/-- The options of the program. -/
def flags : List Flag :=
  plainFlags [('a', "text"), ('b', "ignore-space-change"), ('B', "ignore-blank-lines"), ('c', ""),
    ('d', "minimal"), ('e', "ed"), ('E', "ignore-tab-expansion"), ('H', "speed-large-files"),
    ('i', "ignore-case"), ('n', "rcs"), ('N', "new-file"), ('p', "show-c-function"),
    ('P', "unidirectional-new-file"), ('q', "brief"), ('r', "recursive"),
    ('s', "report-identical-files"), ('t', "expand-tabs"), ('u', ""), ('w', "ignore-all-space"),
    ('y', "side-by-side"), ('Z', "ignore-trailing-space"), ('\x01', "normal"),
    ('\x02', "left-column"), ('\x03', "suppress-common-lines"), ('\x04', "strip-trailing-cr"),
    ('\x05', "no-dereference")] ++
  plainFlags ("0123456789".toList.map fun d ↦ (d, "")) ++
  valueFlags [('C', ""), ('U', ""), ('L', "label"), ('x', "exclude"), ('W', "width")] ++
  [⟨'\x06', "context", .optional⟩, ⟨'\x07', "unified", .optional⟩, ⟨'\x08', "color", .optional⟩]

/-- The styles that options stand for. -/
def styles : List (Char × Style) :=
  [('c', .contextual), ('C', .contextual), ('\x06', .contextual), ('u', .unified), ('U', .unified),
    ('\x07', .unified), ('e', .commands), ('n', .counted), ('y', .columns), ('\x01', .normal)]

/-- The number in an option. -/
def readCount (name : Chars) (what : String) (w : Chars) : Routine Nat :=
  match Chars.toNat? w with
  | some n => return n
  | none => refuseWithName name 2 ("invalid ".toList ++ what.toList ++ " '".toList ++ w ++ ['\''])

/-- How many lines a call wants around changes. -/
def contextOf (name : Chars) (c : Call) (style : Style) : Routine Nat := do
  let given ← c.flags.filterMapM fun (letter, w) ↦ do
    if letter = 'C' || letter = 'U' then return some (true, ← readCount name "context length" w)
    else if letter = '\x06' || letter = '\x07' then
      if w = [] then return some (false, 3)
      else return some (true, ← readCount name "context length" w)
    else return if letter = 'c' || letter = 'u' then some (false, 3) else none
  if style ≠ .contextual && style ≠ .unified then return 0
  let most := (given.map (·.2)).foldl max (if given = [] then 3 else 0)
  let old := Chars.toNat? ((c.flags.map (·.1)).filter Char.isDigit)
  return match old with
    | some k => if most < k || !given.any (·.1) then k else most
    | none => most

/-- The arguments of a call that are no operands, as words. -/
def switchesOf (isWide : Bool) (c : Call) (args : List Chars) : Chars :=
  let left := args.reverse.foldl (fun (s : List Chars × List Chars) w ↦
    match s.1 with
    | o :: os => if o = w then (os, s.2) else (s.1, w :: s.2)
    | [] => (s.1, w :: s.2)) (c.operands.reverse, [])
  left.2.flatMap fun w ↦ ' ' :: render isWide (shown w)

/-- The options that a call sets. -/
def optionsOf (name : Chars) (env args : List Chars) (c : Call) : Routine Options := do
  let chosen := c.flags.filterMap fun f ↦ styles.lookup f.1
  let style := chosen.headD (if c.has 'p' then .contextual else .normal)
  if chosen.any (· ≠ style) then
    refuseWithName name 2 "conflicting output style options".toList
  let context ← contextOf name c style
  let width ← (match c.value? 'W' with
    | some w => readCount name "width" w
    | none => return 130)
  let labels := (c.flags.filter (·.1 = 'L')).map (·.2)
  if 2 < labels.length then fail name 2 "too many file label options".toList
  return {
    style, context, labels
    columns := ⟨width, c.has 't', c.has '\x02', c.has '\x03'⟩
    showsPlace := c.has 'p' && (style = .unified || style = .contextual)
    isBrief := c.has 'q'
    tellsSame := c.has 's'
    isText := c.has 'a'
    isRecursive := c.has 'r'
    takesMissing := c.has 'N'
    takesMissingFirst := c.has 'P'
    blanks := if c.has 'w' then .nothing else if c.has 'b' then .presence
      else if c.has 'Z' then .inner else .all
    foldsCase := c.has 'i'
    foldsTabs := c.has 'E'
    ignoresEmpty := c.has 'B'
    dropsReturns := c.has '\x04'
    excluded := (c.flags.filter (·.1 = 'x')).map fun f ↦ Glob.ofChars f.2
    switches := switchesOf (← Routine.self).isWide c args
    zone := zoneIn env }

/-- The item that an operand names; it must be there unless missing ones count as empty. -/
def findItem (takesMissing : Bool) (file : Chars) : Routine (Except IoError Item) := do
  if isStandard file then return .ok ⟨file, none⟩
  match ← stand file with
  | .ok n => return .ok ⟨file, some n⟩
  | .error e => return if takesMissing && e = .notFound then .ok ⟨file, none⟩ else .error e

/-- The last name of a path. -/
def lastName (path : Chars) : Chars :=
  ((Chars.splitOn (· = '/') path).filter (· ≠ [])).getLastD path

/-- Compares two operands, one of which may be a directory that holds the other's name. -/
def compareOperands (o : Options) (name : Chars) (a b : Item) : Routine Nat := do
  let depth := 2100
  let inside := fun (dir file : Item) ↦ do
    if isStandard file.name then fail name 2 "cannot compare '-' to a directory".toList
    let path := within dir.name (lastName file.name)
    match ← stand path with
    | .ok n => return some ⟨path, some n⟩
    | .error e =>
      warn name (because path e)
      (return none : Routine (Option Item))
  if a.isDirectory && !b.isDirectory && (b.node.isSome || isStandard b.name) then
    match ← inside a b with
    | some a => o.items name false a b depth
    | none => return 2
  else if b.isDirectory && !a.isDirectory && (a.node.isSome || isStandard a.name) then
    match ← inside b a with
    | some b => o.items name false a b depth
    | none => return 2
  else o.items name false a b depth

end Difference

open Difference in
/-- Shows the differences of two texts or directories. -/
def diff : Program := fun args env ↦ do
  let name := args.headD []
  let c ← readCallWithName name 2 flags args.tail
  let o ← optionsOf name env args.tail c
  match c.operands with
  | [first, second] =>
    let a ← findItem (o.takesMissing || o.takesMissingFirst) first
    let b ← findItem o.takesMissing second
    match a, b with
    | .ok a, .ok b =>
      if a.node.isNone && b.node.isNone && !isStandard first && !isStandard second then
        warn name (because first .notFound)
        warn name (because second .notFound)
        return 2
      compareOperands o name a b
    | a, b =>
      if let .error e := a then warn name (because first e)
      if let .error e := b then warn name (because second e)
      return 2
  | _ :: _ :: extra :: _ =>
    refuseWithName name 2 ("extra operand '".toList ++ extra ++ ['\''])
  | operands =>
    refuseWithName name 2 ("missing operand after '".toList ++
      operands.getLastD (args.getLastD name) ++ ['\''])

end ContractBuild.Utility
