import ContractBuild.Posix.Utility.Amount

/-!
# Filling paragraphs

The words of a paragraph are put into lines of about the same length.  Every way to do that has a
cost: lines cost what they miss of the wanted length, and what they differ from the next line; it is
cheap to break a line where a sentence ends.  The way with the least costs is found from the last
word to the first one.
-/

namespace ContractBuild.Utility

namespace Paragraph

/-! ## Words -/

/-- A word of a paragraph. -/
structure Word where
  /-- Its characters. -/
  text : Chars
  /-- How many columns of space follow it in its line. -/
  space : Nat
  /-- Whether it starts with an opening mark. -/
  opens : Bool
  /-- Whether it ends with what could end a sentence. -/
  hasPeriod : Bool
  /-- Whether it ends with a mark. -/
  hasMark : Bool
  /-- Whether it ends a sentence. -/
  isLast : Bool

/-- Whether a character is one of the marks that are printed. -/
def isMark (c : Char) : Bool := '!' ≤ c && c ≤ '~' && !c.isAlphanum

/-- Whether a character separates words. -/
def isSeparator (c : Char) : Bool := c = ' ' || ('\t' ≤ c && c ≤ '\r')

/-- A word as far as its characters say what it is. -/
def wordOf (cs : Chars) : Word :=
  let front := cs.reverse
  let closed := front.dropLast.dropWhile (")]'\"".toList.contains ·)
  let deciding := if closed = [] then cs.head? else closed.head?
  { text := cs
    space := 1
    opens := cs.head?.any ("(['\x60\"".toList.contains ·)
    hasPeriod := deciding.any (".?!".toList.contains ·)
    hasMark := front.head?.any isMark
    isLast := false }

/-! ## Costs -/

/-- The square of a number. -/
def square (n : Int) : Int := n * n

/-- The cost of a line that misses its length by so many columns. -/
def shortCost (n : Int) : Int := square (n * 10)

/-- The cost of two lines that differ so much. -/
def raggedCost (n : Int) : Int := shortCost n / 2

/-- The best way to break the lines from a word on. -/
structure Way where
  /-- What it costs. -/
  cost : Int
  /-- The place of the first word of the next line. -/
  next : Nat
  /-- The length of the first line. -/
  length : Int

/-- The lengths and indents of lines. -/
structure Shape where
  /-- The columns that no line reaches. -/
  width : Nat
  /-- The columns that lines should have. -/
  goal : Nat
  /-- The indent of the first line. -/
  first : Nat
  /-- The indent of the other lines. -/
  other : Nat

/-- The cost of a break before the word at a place, whatever the lines are. -/
def breakCost (words : Array Word) (k : Nat) : Int :=
  let before := if k = 0 then none else words[k - 1]?
  let second := if k < 2 then none else words[k - 2]?
  let front : Int := match before with
    | none => 0
    | some w =>
      if w.hasPeriod then (if w.isLast then -square 50 else square 600)
      else if w.hasMark then -square 40
      else if second.any (·.isLast) then square 200 / (w.text.length + 2) else 0
  let behind : Int := match words[k]? with
    | none => 0
    | some w =>
      if w.opens then -square 40
      else if w.isLast then square 150 / (w.text.length + 2) else 0
  square 70 + front + behind

/-- The cost of a line of a length in front of the word at a place. -/
def lineCost (x : Shape) (ways : Array Way) (last next : Nat) (length : Int) : Int :=
  if next = last then 0
  else match ways[next]? with
    | none => 0
    | some w => shortCost (x.goal - length) +
        if w.next ≠ last then raggedCost (length - w.length) else 0

/-- The best way among those that end the line before the word at `next` or later.  Every step takes
a word. -/
def bestFrom (x : Shape) (words : Array Word) (ways : Array Way) :
    Nat → Nat → Int → Option Way → Option Way
  | 0, _, _, best => best
  | n + 1, next, length, best =>
    let cost := lineCost x ways words.size next length + ((ways[next]?).map (·.cost)).getD 0
    let best := if best.all (cost < ·.cost) then some ⟨cost, next, length⟩ else best
    match words[next]? with
    | none => best
    | some w =>
      let space := ((words[next - 1]?).map (·.space)).getD 0
      let length := length + space + w.text.length
      if length < x.width then bestFrom x words ways n (next + 1) length best else best

/-- The best ways from all words on, the first ones of which are still to be found.  Every step
finds one. -/
def waysFrom (x : Shape) (words : Array Word) : Nat → Array Way → Array Way
  | 0, ways => ways
  | k + 1, ways =>
    let indent := if k = 0 then x.first else x.other
    let length : Int := indent + ((words[k]?).map (·.text.length)).getD 0
    let best := (bestFrom x words ways (words.size + 1) (k + 1) length none).getD
      ⟨0, words.size, length⟩
    waysFrom x words k
      (ways.setIfInBounds k { best with cost := best.cost + breakCost words k })

/-- The words of the lines from a word on.  Every step takes a line. -/
def linesFrom (words : Array Word) (ways : Array Way) : Nat → Nat → List (List Word)
  | 0, _ => []
  | n + 1, k =>
    if words.size ≤ k then []
    else
      let next := ((ways[k]?).map (·.next)).getD words.size
      (words.extract k next).toList :: linesFrom words ways n next

/-- The words of a paragraph in lines. -/
def lines (x : Shape) (words : List Word) : List (List Word) :=
  let words := words.toArray
  let ways := waysFrom x words words.size
    (Array.replicate (words.size + 1) ⟨0, words.size, 0⟩)
  linesFrom words ways words.size 0

/-! ## Reading -/

/-- How paragraphs are found and filled. -/
structure Filling where
  /-- The spaces in front of what all lines start with. -/
  lead : Nat
  /-- What all lines start with, without spaces around it. -/
  start : Chars
  /-- How long that is with the spaces behind it. -/
  startLength : Nat
  /-- Whether the second line has an indent of its own. -/
  isCrown : Bool
  /-- Whether the second line must have one. -/
  isTagged : Bool
  /-- Whether lines are only cut. -/
  isSplit : Bool
  /-- Whether words have one space between them, and sentences two. -/
  isUniform : Bool
  /-- The columns that no line reaches. -/
  width : Nat
  /-- The columns that lines should have. -/
  goal : Nat

/-- A place in the input. -/
structure Place where
  /-- What follows. -/
  rest : Chars
  /-- The column. -/
  column : Nat
  /-- The indent of what the line starts with. -/
  indent : Nat
  /-- Whether there was a tab. -/
  hasTabs : Bool

/-- How many columns a tab goes. -/
def tabWidth : Nat := 8

/-- The place behind spaces and tabs. -/
def Place.skipSpace (p : Place) : Place :=
  let (blanks, rest) := p.rest.span fun c ↦ c = ' ' || c = '\t'
  { p with
    rest
    column := blanks.foldl (fun n c ↦
      if c = '\t' then (n / tabWidth + 1) * tabWidth else n + 1) p.column
    hasTabs := p.hasTabs || blanks.contains '\t' }

/-- The place behind as much of a text as follows. -/
def Place.skipText : Chars → Place → Place × Bool
  | [], p => (p, true)
  | c :: cs, p => match p.rest with
    | d :: rest =>
      if c = d then skipText cs { p with rest, column := p.column + 1 } else (p, false)
    | [] => (p, false)

/-- The place behind what a line starts with. -/
def Place.startLine (f : Filling) (p : Place) : Place :=
  let p := { p with column := 0 }.skipSpace
  if f.start = [] then { p with indent := min f.lead p.column }
  else
    let (p, isWhole) := { p with indent := p.column }.skipText f.start
    if isWhole then p.skipSpace else p

/-- Whether a line has nothing more. -/
def Place.isAtEnd (p : Place) : Bool := p.rest.head?.all (· = '\n')

/-- Whether a line starts as it should. -/
def Place.isProper (f : Filling) (p : Place) : Bool :=
  f.lead ≤ p.indent && p.indent + f.startLength ≤ p.column

/-- Whether a line could go on with a paragraph whose start has an indent. -/
def Place.goesOn (f : Filling) (indent : Nat) (p : Place) : Bool :=
  p.indent = indent && p.indent + f.startLength ≤ p.column && !p.isAtEnd

/-- Reads the words of a line, and goes to the start of the next one.  Every step takes a word. -/
def readWords (f : Filling) : Nat → Place → List Word × Place
  | 0, p => ([], p)
  | n + 1, p =>
    match p.rest with
    | [] => ([], p)
    | c :: cs =>
      let (behind, rest) := cs.span (!isSeparator ·)
      let w := wordOf (c :: behind)
      let q := { p with rest, column := p.column + w.text.length }
      let r := q.skipSpace
      let space := r.column - q.column
      let isLast := r.rest = [] || (w.hasPeriod && (r.rest.head? = some '\n' || 1 < space))
      let space := if r.isAtEnd || f.isUniform then (if isLast then 2 else 1) else space
      let w := { w with space, isLast }
      if r.isAtEnd then ([w], { r with rest := r.rest.tail }.startLine f)
      else
        let (ws, r) := readWords f n r
        (w :: ws, r)

/-- Reads the lines of a paragraph that have an indent.  Every step takes a line. -/
def readLines (f : Filling) (indent other : Nat) : Nat → Place → List Word × Place
  | 0, p => ([], p)
  | n + 1, p =>
    if p.goesOn f indent && p.column = other then
      let (ws, p) := readWords f (p.rest.length + 1) p
      let (more, p) := readLines f indent other n p
      (ws ++ more, p)
    else ([], p)

/-! ## Writing -/

/-- Space from a column on, with tabs if there are some in the input. -/
def spaceText (hasTabs : Bool) (column count : Nat) : Chars :=
  let target := column + count
  let tabTarget := target / tabWidth * tabWidth
  if hasTabs && column + 1 < tabTarget then
    List.replicate (tabTarget / tabWidth - column / tabWidth) '\t' ++
      List.replicate (target - tabTarget) ' '
  else List.replicate count ' '

/-- Words with their spaces between them, from a column on. -/
def wordsText (hasTabs : Bool) : Nat → List Word → Chars
  | _, [] => []
  | _, [w] => w.text
  | column, w :: ws =>
    let column := column + w.text.length
    w.text ++ spaceText hasTabs column w.space ++ wordsText hasTabs (column + w.space) ws

/-- A line of words. -/
def lineText (f : Filling) (hasTabs : Bool) (prefixIndent indent : Nat) (ws : List Word) : Chars :=
  let column := prefixIndent + f.start.length
  spaceText hasTabs 0 prefixIndent ++ f.start ++ spaceText hasTabs column (indent - column) ++
    wordsText hasTabs (max column indent) ws ++ ['\n']

/-- A line that belongs to no paragraph, and the place behind it; there may be no line end. -/
def copiedLine (f : Filling) (p : Place) : Chars × Place :=
  let (text, rest) := p.rest.span (· ≠ '\n')
  let front :=
    if p.indent < p.column || text ≠ [] then
      let start := f.start.take (p.column - p.indent)
      let column := p.indent + start.length
      spaceText p.hasTabs 0 p.indent ++ start ++
        (if p.rest ≠ [] && text ≠ [] then spaceText p.hasTabs column (p.column - column) else []) ++
        (if p.rest = [] && p.indent + f.start.length ≤ p.column then ['\n'] else [])
    else []
  (front ++ text, { p with rest })

/-- The text with all paragraphs filled.  The indent of the lines behind the first one is known from
the paragraph before.  Every step takes a line at least. -/
def fill (f : Filling) : Nat → Nat → Place → Chars
  | 0, _, _ => []
  | n + 1, other, p =>
    if p.isAtEnd || !p.isProper f then
      let (text, p) := copiedLine f p
      match p.rest with
      | [] => text
      | _ :: rest => text ++ '\n' :: fill f n other ({ p with rest }.startLine f)
    else
      let (indent, first) := (p.indent, p.column)
      let (ws, q) := readWords f (p.rest.length + 1) p
      let same := q.goesOn f indent
      let other :=
        if f.isSplit then first
        else if f.isCrown then (if same then q.column else first)
        else if f.isTagged then
          (if same && q.column ≠ first then q.column
            else if other = first then (if first = 0 then 3 else 0) else other)
        else first
      let hasMore := !f.isSplit && same && (!f.isTagged || f.isCrown || q.column ≠ first)
      let (more, q) := if hasMore then readLines f indent other (q.rest.length + 1) q else ([], q)
      let words := match (ws ++ more).reverse with
        | [] => []
        | w :: front => front.reverse ++ [{ w with hasPeriod := true, isLast := true }]
      let text := match lines ⟨f.width, f.goal, first, other⟩ words with
        | [] => []
        | l :: ls => lineText f q.hasTabs indent first l ++
            ls.flatMap (lineText f q.hasTabs indent other)
      text ++ fill f n other q

/-- A text with its paragraphs filled. -/
def filled (f : Filling) (cs : Chars) : Chars :=
  fill f (cs.length + 1) 0 (Place.startLine f ⟨cs, 0, 0, false⟩)

end Paragraph

open Paragraph in
/-- Fills the paragraphs of inputs. -/
def fmt : Program := fun args _ ↦ do
  let name := args.headD []
  let (old, words) := match args.tail with
    | ('-' :: c :: cs) :: ws => if c.isDigit then (some (c :: cs), ws) else (none, args.tail)
    | ws => (none, ws)
  let c ← readCall name 1 (plainFlags ([('c', "crown-margin"), ('s', "split-only"),
    ('t', "tagged-paragraph"), ('u', "uniform-spacing")] ++
      "0123456789".toList.map fun c ↦ (c, "")) ++
    valueFlags [('p', "prefix"), ('w', "width"), ('g', "goal")]) true words
  if let some (digit, _) := c.flags.find? (·.1.isDigit) then
    refuse name 1 ("invalid option -- ".toList ++ digit ::
      "; -WIDTH is recognized only when it is the first\noption; use -w N instead".toList)
  let number := fun (greatest : Nat) (w : Chars) ↦ do
    let n ← readAmount name 1 "invalid width" [] 0 w
    if greatest < n then
      fail name 1 (because ("invalid width: ".toList ++ cited w) (.system 34))
    return n
  let said := (c.value? 'w').orElse fun _ ↦ old
  let width ← match said with
    | some w => number 2500 w
    | none => pure 75
  let (width, goal) ← match c.value? 'g' with
    | some w => do
      let goal ← number width w
      pure (if said.isNone then goal + 10 else width, goal)
    | none => pure (width, width * 187 / 200)
  let text := (c.value? 'p').getD []
  let start := text.dropWhile (· = ' ')
  let f : Filling := {
    lead := text.length - start.length
    start := (start.reverse.dropWhile (· = ' ')).reverse
    startLength := start.length
    isCrown := c.has 'c'
    isTagged := c.has 't'
    isSplit := c.has 's'
    isUniform := c.has 'u'
    width, goal }
  let files := inputsOf c.operands
  let status ← forStatus (fun file ↦ do
    match ← openInput file with
    | .error e =>
      warn name (because ("cannot open ".toList ++ quoted file ++ " for reading".toList) e)
      return 1
    | .ok n =>
      match ← Routine.readAll n with
      | .error _ =>
        warn name "read error".toList
        return 1
      | .ok content =>
        closeInput n
        emit name (filled f (Chars.ofBytes content))
        return 0) files
  leaveStandard name 1 "closing standard input" files status

end ContractBuild.Utility
