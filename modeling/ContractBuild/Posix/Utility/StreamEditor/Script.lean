import ContractBuild.Posix.Text.Regex

/-!
# Scripts of a stream editor

A script is a list of commands, each of which is for some of the lines of the input.  Blocks and
jumps are places in that list.
-/

namespace ContractBuild.Utility.StreamEditor

/-- A pattern of a script; nothing stands for the one that was used last. -/
structure Pattern where
  /-- The expression. -/
  regex : Option Regex
  /-- Whether capitals count as small letters. -/
  isFolded : Bool

/-- A line, or the first of several lines. -/
inductive Address
  /-- The line of this number. -/
  | line (number : Nat)
  /-- Every line so many lines after the first one. -/
  | step (first distance : Nat)
  /-- The last line. -/
  | last
  /-- The lines with a match. -/
  | pattern (p : Pattern)

/-- The last of several lines. -/
inductive Bound
  /-- The line of this number. -/
  | line (number : Nat)
  /-- So many lines behind the first one. -/
  | behind (count : Nat)
  /-- The next line whose number is a multiple of this one. -/
  | multiple (number : Nat)
  /-- The last line. -/
  | last
  /-- The next line with a match. -/
  | pattern (p : Pattern)

/-- The lines that a command is for. -/
structure Selection where
  /-- The line, or the first one. -/
  first : Option Address
  /-- The last one. -/
  bound : Option Bound
  /-- Whether all other lines are meant. -/
  isNegated : Bool

/-- How the case of letters changes in a replacement. -/
inductive Casing
  /-- Letters stay as they are from here on. -/
  | plain
  /-- Letters become capital ones from here on. -/
  | upper
  /-- Letters become small ones from here on. -/
  | lower
  /-- The next letter becomes a capital one. -/
  | nextUpper
  /-- The next letter becomes a small one. -/
  | nextLower
  deriving DecidableEq, Repr

/-- A part of a replacement. -/
inductive Piece
  /-- Text. -/
  | text (cs : Chars)
  /-- A part of the match, or all of it for zero. -/
  | group (number : Nat)
  /-- A change of case. -/
  | casing (k : Casing)
  deriving DecidableEq, Repr

/-- What is replaced and by what. -/
structure Substitution where
  /-- The pattern. -/
  pattern : Pattern
  /-- The replacement. -/
  pieces : List Piece
  /-- The number of the first match that is replaced. -/
  number : Nat
  /-- Whether later matches are replaced as well. -/
  isGlobal : Bool
  /-- Whether the result is run as a command, whose output takes its place. -/
  runs : Bool
  /-- Whether the result is written, in front of that and behind it. -/
  prints : Bool × Bool
  /-- The file that the result is written to. -/
  file : Option Chars

/-- When a jump is made. -/
inductive Condition
  /-- In any case. -/
  | always
  /-- If something has been replaced. -/
  | replaced
  /-- If nothing has been replaced. -/
  | notReplaced
  deriving DecidableEq, Repr

/-- What a command does. -/
inductive Verb
  /-- It opens a block. -/
  | opening
  /-- It closes a block. -/
  | closing
  /-- It can be jumped to. -/
  | label (name : Chars)
  /-- It goes on behind a label, or at the end for an empty name. -/
  | jump (c : Condition) (name : Chars)
  /-- It writes the number of the line. -/
  | number
  /-- It writes a text behind the line. -/
  | append (text : Chars)
  /-- It writes a text. -/
  | insert (text : Chars)
  /-- It replaces lines by a text. -/
  | change (text : Chars)
  /-- It deletes the line. -/
  | delete
  /-- It deletes the first part of the line. -/
  | deleteFirst
  /-- It writes the name of the input. -/
  | fileName
  /-- It runs a command; an empty one stands for the line, which is replaced by the output then. -/
  | run (command : Chars)
  /-- It takes what is kept, in the place of the line or behind it. -/
  | get (isBehind : Bool)
  /-- It keeps the line, in the place of what is kept or behind it. -/
  | hold (isBehind : Bool)
  /-- It exchanges the line with what is kept. -/
  | exchange
  /-- It shows the line without ambiguity. -/
  | list (width : Option Nat)
  /-- It goes on with the next line. -/
  | next
  /-- It puts the next line behind the line. -/
  | join
  /-- It writes the line. -/
  | print
  /-- It writes the first part of the line. -/
  | printFirst
  /-- It ends everything, behind the line or at once. -/
  | quit (isSilent : Bool) (code : Nat)
  /-- It writes a file behind the line. -/
  | readFile (file : Chars)
  /-- It writes the next line of a file behind the line. -/
  | readLine (file : Chars)
  /-- It writes the line, or its first part, to a file. -/
  | writeFile (isFirst : Bool) (file : Chars)
  /-- It replaces matches. -/
  | substitute (s : Substitution)
  /-- It replaces characters. -/
  | translate (pairs : List (Char × Char))
  /-- It makes the line empty. -/
  | clear
  /-- It does nothing. -/
  | nothing

/-- A command. -/
structure Command where
  /-- The lines that it is for. -/
  selection : Selection
  /-- What it does. -/
  verb : Verb

/-- The place behind a label. -/
def placeOf? (script : Array Command) (name : Chars) : Option Nat :=
  script.findIdx? fun c ↦ match c.verb with
    | .label n => n = name
    | _ => false

/-- The labels that are jumped to but not there. -/
def missingLabels (script : Array Command) : List Chars :=
  script.toList.filterMap fun c ↦ match c.verb with
    | .jump _ name => if name ≠ [] && (placeOf? script name).isNone then some name else none
    | _ => none

/-- The place of the end of a block, so many blocks deep, from a place on. -/
def closingFrom : List Command → Nat → Nat → Nat
  | [], k, _ => k
  | c :: cs, k, depth =>
    match c.verb, depth with
    | .closing, 0 => k
    | .closing, d + 1 => closingFrom cs (k + 1) d
    | .opening, d => closingFrom cs (k + 1) (d + 1)
    | _, d => closingFrom cs (k + 1) d

/-- The files that a script writes to. -/
def writtenFiles (script : Array Command) : List Chars :=
  script.toList.filterMap fun c ↦ match c.verb with
    | .writeFile _ file => some file
    | .substitute s => s.file
    | _ => none

/-! ## Replacing -/

/-- Text with a change of case; a change for the next letter only goes first. -/
def cased (mode : Casing) (once : Option Casing) (cs : Chars) : Chars :=
  let all := match mode with
    | .upper => cs.map Wide.toUpper
    | .lower => cs.map Wide.toLower
    | _ => cs
  match once, all with
  | some .nextUpper, c :: rest => Wide.toUpper c :: rest
  | some .nextLower, c :: rest => Wide.toLower c :: rest
  | _, all => all

/-- The text of a replacement for a match with these parts. -/
def replacement (whole : Chars) (groups : List (Nat × Chars)) :
    Casing → Option Casing → List Piece → Chars
  | _, _, [] => []
  | mode, once, .casing k :: ps =>
    match k with
    | .nextUpper | .nextLower => replacement whole groups mode (some k) ps
    | k => replacement whole groups k once ps
  | mode, once, .text cs :: ps =>
    cased mode once cs ++ replacement whole groups mode (if cs = [] then once else none) ps
  | mode, once, .group n :: ps =>
    let cs := if n = 0 then whole else (groups.lookup n).getD []
    cased mode once cs ++ replacement whole groups mode (if cs = [] then once else none) ps

/-- A text from a place on with its matches replaced, if there are any.  `count` matches came
before, and the last one ended at `stop`.  Every step takes a character. -/
def Substitution.from' (s : Substitution) (r : Regex) (isFolded : Bool) (text : Chars) :
    Nat → Nat → Nat → Option Nat → Chars × Bool
  | 0, start, _, _ => (text.drop start, false)
  | n + 1, start, count, stop =>
    match if text.length < start then none else Regex.search isFolded r text start with
    | none => (text.drop start, false)
    | some m =>
      let before := (text.drop start).take (m.start - start)
      let whole := (text.drop m.start).take (m.stop - m.start)
      let isEmpty := m.stop = m.start
      let nextChar := if isEmpty then (text.drop m.stop).take 1 else []
      let next := if isEmpty then m.stop + 1 else m.stop
      if isEmpty && stop = some m.start then
        let (rest, isDone) := s.from' r isFolded text n next count none
        (before ++ nextChar ++ rest, isDone)
      else if count + 1 < s.number then
        let (rest, isDone) := s.from' r isFolded text n next (count + 1) (some m.stop)
        (before ++ whole ++ nextChar ++ rest, isDone)
      else
        let new := replacement whole m.groups .plain none s.pieces
        if s.isGlobal then
          let (rest, _) := s.from' r isFolded text n next (count + 1) (some m.stop)
          (before ++ new ++ nextChar ++ rest, true)
        else (before ++ new ++ text.drop m.stop, true)

/-- A text with matches replaced, and whether there were any. -/
def Substitution.apply (s : Substitution) (r : Regex) (isFolded : Bool) (text : Chars) :
    Chars × Bool :=
  s.from' r isFolded text (text.length + 2) 0 0 none

/-- Matches of no text are replaced, but not right behind others. -/
example : (Substitution.apply ⟨⟨none, false⟩, [.text ['x']], 1, true, false, (false, false), none⟩
    (.repeated (.one (.char 'e')) 0 none) false "tee".toList).1 = "xtx".toList := by
  decide +kernel

end ContractBuild.Utility.StreamEditor
