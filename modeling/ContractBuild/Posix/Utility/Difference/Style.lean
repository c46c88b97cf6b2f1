import ContractBuild.Posix.Text.EditScript

/-!
# How differences are shown

A script is the list of the changes from one text to another one.  It can be shown change by change,
as hunks with the lines around them, as commands for an editor, or as both texts beside each other.
-/

namespace ContractBuild.Utility.Difference

open EditScript (Change)

/-! ## Texts -/

/-- A text that is compared. -/
structure Side where
  /-- Its name. -/
  title : Chars
  /-- What stands behind the name in the titles of hunks. -/
  note : Chars
  /-- Its lines with their ends. -/
  lines : Array Chars

/-- A line of a text. -/
def Side.line (s : Side) (i : Nat) : Chars := s.lines.getD i []

/-- Some lines of a text. -/
def Side.range (s : Side) (start count : Nat) : List Chars :=
  (List.range count).map fun i ↦ s.line (start + i)

/-- What is said behind a line without an end. -/
def endNote : Chars := "\n\\ No newline at end of file\n".toList

/-- A line behind a mark. -/
def marked (mark line : Chars) : Chars :=
  mark ++ line ++ if line.getLast? = some '\n' then [] else endNote

/-- A change, which may be one that does not count. -/
structure Step where
  /-- The change. -/
  change : Change
  /-- Whether it does not count. -/
  isTrivial : Bool

namespace Step

/-- Where it ends in the first text. -/
def firstEnd (s : Step) : Nat := s.change.first + s.change.deleted

/-- Where it ends in the second text. -/
def secondEnd (s : Step) : Nat := s.change.second + s.change.inserted

end Step

/-! ## Change by change -/

/-- The numbers of some lines, or that of the line in front if there are none. -/
def lineRange (start count : Nat) : Chars :=
  if count ≤ 1 then Chars.ofNat (start + count)
  else Chars.ofNat (start + 1) ++ ',' :: Chars.ofNat (start + count)

/-- The letter for a change. -/
def letter (c : Change) : Char :=
  if c.deleted = 0 then 'a' else if c.inserted = 0 then 'd' else 'c'

/-- A change with its lines. -/
def normal (a b : Side) (c : Change) : Chars :=
  Chars.line (lineRange c.first c.deleted ++ letter c :: lineRange c.second c.inserted) ++
    (a.range c.first c.deleted).flatMap (marked "< ".toList) ++
    (if c.deleted = 0 || c.inserted = 0 then [] else "---\n".toList) ++
    (b.range c.second c.inserted).flatMap (marked "> ".toList)

/-- The lines that are put into a text by an editor; a line that would end them is put there in
another way. -/
def editorLines : Bool → List Chars → Chars
  | isOpen, [] => if isOpen then ".\n".toList else []
  | isOpen, l :: ls =>
    (if isOpen then [] else "a\n".toList) ++
      if l = ".\n".toList then "..\n.\ns/.//\n".toList ++ editorLines false ls
      else l ++ (if l.getLast? = some '\n' then [] else ['\n']) ++ editorLines true ls

/-- A change as a command for an editor. -/
def command (b : Side) (c : Change) : Chars :=
  Chars.line (lineRange c.first c.deleted ++ [letter c]) ++
    if c.inserted = 0 then [] else editorLines true (b.range c.second c.inserted)

/-- A change as commands with counts. -/
def countedCommands (b : Side) (c : Change) : Chars :=
  let first := Chars.ofNat (c.first + 1)
  (if c.deleted = 0 then [] else
    Chars.line ('d' :: first ++ ' ' :: Chars.ofNat c.deleted)) ++
  if c.inserted = 0 then [] else
    Chars.line ('a' :: Chars.ofNat (c.first + c.deleted) ++ ' ' :: Chars.ofNat c.inserted) ++
      (b.range c.second c.inserted).flatten

/-! ## Hunks -/

/-- The changes that belong together with one, of which those before it come last first, and those
behind them.  Every step takes a change. -/
def hunkFrom (context : Nat) (last : Step) : List Step → List Step × List Step
  | [] => ([last], [])
  | s :: ss =>
    let distance := if s.isTrivial then context else 2 * context + 1
    if s.change.first - last.firstEnd < distance then
      let (hunk, rest) := hunkFrom context s ss
      (last :: hunk, rest)
    else ([last], s :: ss)

/-- Changes in groups that are shown together.  Every step takes a change. -/
def hunks (context : Nat) : Nat → List Step → List (List Step)
  | 0, _ => []
  | _, [] => []
  | n + 1, s :: ss =>
    let (hunk, rest) := hunkFrom context s ss
    hunk :: hunks context n rest

/-- The lines of a hunk: where they start and end in both texts. -/
structure Extent where
  /-- Where they start in the first text. -/
  firstStart : Nat
  /-- Where they end in the first text. -/
  firstEnd : Nat
  /-- Where they start in the second text. -/
  secondStart : Nat
  /-- Where they end in the second text. -/
  secondEnd : Nat

/-- The lines of a hunk with those around it. -/
def extent (context : Nat) (a b : Side) (hunk : List Step) : Extent :=
  let first := (hunk.head?.map (·.change.first)).getD 0
  let second := (hunk.head?.map (·.change.second)).getD 0
  let firstEnd := (hunk.getLast?.map (·.firstEnd)).getD 0
  let secondEnd := (hunk.getLast?.map (·.secondEnd)).getD 0
  ⟨first - context, min a.lines.size (firstEnd + context), second - context,
    min b.lines.size (secondEnd + context)⟩

/-- Where some lines are, with their number. -/
def countedRange (start stop : Nat) : Chars :=
  match stop - start with
  | 0 => Chars.ofNat start ++ ",0".toList
  | 1 => Chars.ofNat (start + 1)
  | n => Chars.ofNat (start + 1) ++ ',' :: Chars.ofNat n

/-- The lines of a hunk in one column, from a line of the first text on.  Every step takes a
change. -/
def unifiedLines (a b : Side) (stop : Nat) : Nat → List Step → Chars
  | i, [] => (a.range i (stop - i)).flatMap (marked [' '])
  | i, s :: ss =>
    (a.range i (s.change.first - i)).flatMap (marked [' ']) ++
      (a.range s.change.first s.change.deleted).flatMap (marked ['-']) ++
      (b.range s.change.second s.change.inserted).flatMap (marked ['+']) ++
      unifiedLines a b stop s.firstEnd ss

/-- A hunk in one column. -/
def unified (context : Nat) (a b : Side) (hunk : List Step) : Chars :=
  let e := extent context a b hunk
  Chars.line ("@@ -".toList ++ countedRange e.firstStart e.firstEnd ++ " +".toList ++
    countedRange e.secondStart e.secondEnd ++ " @@".toList) ++
    unifiedLines a b e.firstEnd e.firstStart hunk

/-- Where some lines are. -/
def numberedRange (start stop : Nat) : Chars :=
  if stop - start ≤ 1 then Chars.ofNat stop
  else Chars.ofNat (start + 1) ++ ',' :: Chars.ofNat stop

/-- The lines of one text in a hunk, each with the mark of its change. -/
def contextLines (s : Side) (start stop : Nat) (markOf : Nat → Char) : Chars :=
  (List.range (stop - start)).flatMap fun i ↦
    marked [markOf (start + i), ' '] (s.line (start + i))

/-- A hunk with the lines of both texts behind each other. -/
def contextual (context : Nat) (a b : Side) (hunk : List Step) : Chars :=
  let e := extent context a b hunk
  let firstMark := fun (i : Nat) ↦
    match hunk.find? fun s ↦ s.change.first ≤ i && i < s.firstEnd with
    | some s => if s.change.inserted = 0 then '-' else '!'
    | none => ' '
  let secondMark := fun (i : Nat) ↦
    match hunk.find? fun s ↦ s.change.second ≤ i && i < s.secondEnd with
    | some s => if s.change.deleted = 0 then '+' else '!'
    | none => ' '
  "***************\n*** ".toList ++ numberedRange e.firstStart e.firstEnd ++ " ****\n".toList ++
    (if hunk.all (·.change.deleted = 0) then []
      else contextLines a e.firstStart e.firstEnd firstMark) ++
    "--- ".toList ++ numberedRange e.secondStart e.secondEnd ++ " ----\n".toList ++
    if hunk.all (·.change.inserted = 0) then []
    else contextLines b e.secondStart e.secondEnd secondMark

/-! ## Beside each other -/

/-- How texts stand beside each other. -/
structure Columns where
  /-- How wide both are together. -/
  width : Nat
  /-- Tabs are written as blanks. -/
  expandsTabs : Bool
  /-- Lines that are the same are shown at the left only. -/
  isLeftOnly : Bool
  /-- Lines that are the same are not shown. -/
  hidesCommon : Bool

namespace Columns

/-- How wide a column is, and where the second one starts. -/
def halves (o : Columns) : Nat × Nat :=
  let unit := if o.expandsTabs then 1 else 8
  let unaligned := o.width / 2 + (unit + 3) / 2 + (o.width % 2) * ((unit + 3) % 2)
  let start := unaligned - unaligned % unit
  let half := min (start - 3) (o.width - start)
  (half, if half = 0 then o.width else start)

/-- Blanks from one column to another one.  Every step goes on. -/
def blanks (o : Columns) : Nat → Nat → Nat → Chars
  | 0, _, _ => []
  | n + 1, start, stop =>
    let tab := start + 8 - start % 8
    if !o.expandsTabs && tab ≤ stop then '\t' :: blanks o n tab stop
    else if start < stop then ' ' :: blanks o n (start + 1) stop
    else []

/-- The part of a line that fits into a column, where it is to be read and where it is written. -/
def halfLine (o : Columns) (half : Nat) : Nat → Nat → Chars → Chars × Nat
  | _, written, [] => ([], written)
  | read, written, c :: cs =>
    if c = '\n' then ([], written)
    else if c = '\t' then
      let next := read + 8 - read % 8
      let isBehind := read ≠ written
      if !isBehind && o.expandsTabs then
        let stop := min next half
        let (rest, last) := halfLine o half next stop cs
        (List.replicate (stop - written) ' ' ++ rest, last)
      else if !isBehind && next < half then
        let (rest, stop) := halfLine o half next next cs
        ('\t' :: rest, stop)
      else halfLine o half next written cs
    else if read < half then
      let (rest, stop) := halfLine o half (read + 1) (read + 1) cs
      (c :: rest, stop)
    else halfLine o half (read + 1) written cs

/-- Two lines beside each other, with a mark between them. -/
def row (o : Columns) (left : Option Chars) (mark : Char) (right : Option Chars) : Chars :=
  let (half, start) := o.halves
  let isWhole := fun (l : Option Chars) ↦ l.any fun l ↦ l.getLast? = some '\n'
  let (first, column) := (left.map (o.halfLine half 0 0)).getD ([], 0)
  let mark := if mark = '|' && isWhole left ≠ isWhole right then
    if isWhole left then '/' else '\\' else mark
  let middle := (half + start - 1) / 2
  let (between, column) := if mark = ' ' then ([], column)
    else (o.blanks o.width column middle ++ [mark], middle + 1)
  let second := match right with
    | some l => if l.head? = some '\n' then []
      else o.blanks o.width column start ++ (o.halfLine half 0 0 l).1
    | none => []
  first ++ between ++ second ++ if isWhole left || isWhole right then ['\n'] else []

/-- Lines that both texts have, each pair beside each other. -/
def common (o : Columns) (a b : Side) (i j count : Nat) : Chars :=
  if o.hidesCommon then []
  else (List.range count).flatMap fun k ↦
    if o.isLeftOnly then o.row (some (a.line (i + k))) '(' none
    else o.row (some (a.line (i + k))) ' ' (some (b.line (j + k)))

/-- A change beside each other: first as many pairs as there are, then what is left. -/
def change (o : Columns) (a b : Side) (c : Change) : Chars :=
  let pairs := min c.deleted c.inserted
  ((List.range pairs).flatMap fun k ↦
      o.row (some (a.line (c.first + k))) '|' (some (b.line (c.second + k)))) ++
    ((b.range (c.second + pairs) (c.inserted - pairs)).flatMap fun l ↦ o.row none '>' (some l)) ++
    (a.range (c.first + pairs) (c.deleted - pairs)).flatMap fun l ↦ o.row (some l) '<' none

/-- Both texts beside each other, from lines on. -/
def beside (o : Columns) (a b : Side) : Nat → Nat → List Step → Chars
  | i, j, [] => o.common a b i j (a.lines.size - i)
  | i, j, s :: ss =>
    o.common a b i j (s.change.first - i) ++
      (if s.isTrivial then o.common a b s.change.first s.change.second s.change.deleted
        else o.change a b s.change) ++
      beside o a b s.firstEnd s.secondEnd ss

end Columns

/-! ## Styles -/

/-- How differences are shown. -/
inductive Style
  /-- Change by change. -/
  | normal
  /-- Hunks in one column. -/
  | unified
  /-- Hunks with both texts behind each other. -/
  | contextual
  /-- Commands for an editor. -/
  | commands
  /-- Commands with counts. -/
  | counted
  /-- Both texts beside each other. -/
  | columns
  deriving DecidableEq, Repr

/-- A name in the title of a hunk. -/
def Side.heading (mark : String) (s : Side) : Chars :=
  Chars.line (mark.toList ++ ' ' :: s.title ++ if s.note = [] then [] else '\t' :: s.note)

/-- The differences of two texts in a style. -/
def Style.render (style : Style) (context : Nat) (o : Columns) (a b : Side) (steps : List Step) :
    Chars :=
  let groups := (hunks context (steps.length + 1) steps).filter fun hunk ↦
    hunk.any (!·.isTrivial)
  let counting := (steps.filter (!·.isTrivial)).map (·.change)
  match style with
  | .normal => counting.flatMap (Difference.normal a b)
  | .unified => a.heading "---" ++ b.heading "+++" ++
      groups.flatMap (Difference.unified context a b)
  | .contextual => a.heading "***" ++ b.heading "---" ++
      groups.flatMap (Difference.contextual context a b)
  | .commands => counting.reverse.flatMap (command b)
  | .counted => counting.flatMap (countedCommands b)
  | .columns => o.beside a b 0 0 steps

/-- A line that is replaced, in two styles. -/
example :
    let a : Side := ⟨['a'], [], #["x\n".toList]⟩
    let b : Side := ⟨['b'], [], #["y\n".toList]⟩
    let s : Step := ⟨⟨0, 0, 1, 1⟩, false⟩
    let o : Columns := ⟨130, false, false, false⟩
    Style.normal.render 0 o a b [s] = "1c1\n< x\n---\n> y\n".toList ∧
      Style.unified.render 3 o a b [s] = "--- a\n+++ b\n@@ -1 +1 @@\n-x\n+y\n".toList := by
  decide +kernel

end ContractBuild.Utility.Difference
