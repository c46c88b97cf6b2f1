import ContractBuild.Posix.Shell.Variables
import ContractBuild.Posix.Text.Glob

/-!
# Fields

What a word becomes once its pieces are replaced: runs of cells.  A cell is a character that may be
quoted, or the place of a quotation mark.  A run knows whether it can be cut into fields: at
separators, which the shell chooses, only between the elements of a list, or nowhere.
-/

namespace ContractBuild.Shell

/-- A character of an expanded word, or the place of a quotation mark. -/
inductive Cell
  /-- A character. -/
  | char (c : Char) (isQuoted : Bool)
  /-- The place of a quotation mark. -/
  | mark
  deriving DecidableEq, Repr

/-- Where a run is cut. -/
inductive Cut
  /-- Nowhere. -/
  | never
  /-- At separators. -/
  | atSeparators
  /-- Between the elements of a list, where a zero character stands. -/
  | betweenElements
  deriving DecidableEq, Repr

/-- A part of an expanded word. -/
structure Run where
  /-- Its cells. -/
  cells : List Cell
  /-- Where it is cut. -/
  cut : Cut

namespace Run

/-- The run of some characters. -/
def ofChars (cs : Chars) (isQuoted : Bool) (cut : Cut) : Run := ⟨cs.map (.char · isQuoted), cut⟩

/-- The characters of some cells. -/
def charsOf (cells : List Cell) : Chars := cells.filterMap fun
  | .char c _ => some c
  | .mark => none

/-- The characters of an expanded word. -/
def text (runs : List Run) : Chars := charsOf (runs.flatMap (·.cells))

/-- The characters of an expanded word as a pattern. -/
def marksOf (cells : List Cell) : List Glob.Mark := cells.filterMap fun
  | .char c isQuoted => some (c, isQuoted)
  | .mark => none

/-- The pattern that an expanded word is. -/
def pattern (runs : List Run) : List Glob.Part := Glob.ofMarks (marksOf (runs.flatMap (·.cells)))

end Run

namespace Fields

/-- A field that is being read and those before it, all in the reverse order. -/
structure Progress where
  /-- The fields that are complete. -/
  done : List (List Cell)
  /-- The cells of the field that is being read. -/
  current : List Cell

/-- Completes the field that is being read. -/
def Progress.close (p : Progress) : Progress := ⟨p.current.reverse :: p.done, []⟩

/-- Whether a character is a separator; the zero character always is one. -/
def isSeparator (separators : Chars) (c : Char) (isQuoted : Bool) : Bool :=
  !isQuoted && (c = '\x00' || separators.contains c)

/-- Whether a separator is a blank, of which any number counts as one. -/
def isBlank (c : Char) : Bool := c = '\x00' || State.usualBlanks.contains c

/-- The rest behind a separator: blanks are skipped, and with them one other separator if only
blanks have been met. -/
def afterSeparator (separators : Chars) : Bool → List Cell → List Cell
  | onlyBlanks, .char c q :: rest =>
    if !isSeparator separators c q then .char c q :: rest
    else if isBlank c then afterSeparator separators onlyBlanks rest
    else if onlyBlanks then afterSeparator separators false rest
    else .char c q :: rest
  | _, cells => cells

/-- Cuts cells at separators.  Every step takes a cell. -/
def cutCells (separators : Chars) : Nat → Progress → List Cell → Progress
  | 0, p, _ => p
  | _, p, [] => p
  | n + 1, p, .char c q :: rest =>
    if !isSeparator separators c q then
      cutCells separators n { p with current := .char c q :: p.current } rest
    else if p.current = [] && isBlank c then cutCells separators n p rest
    else cutCells separators n p.close (afterSeparator separators (isBlank c) rest)
  | n + 1, p, .mark :: rest => cutCells separators n { p with current := .mark :: p.current } rest

/-- Cuts cells between the elements of a list. -/
def cutElements (p : Progress) : List Cell → Progress
  | [] => p
  | .char '\x00' _ :: rest => cutElements p.close rest
  | c :: rest => cutElements { p with current := c :: p.current } rest

/-- Cuts a run behind those that have been cut. -/
def cutRun (separators : Chars) (p : Progress) (r : Run) : Progress :=
  match r.cut with
  | .never => { p with current := r.cells.reverse ++ p.current }
  | .atSeparators => cutCells separators r.cells.length p r.cells
  | .betweenElements => cutElements p r.cells

/-- The fields of a word.  An empty field at the end counts only if it is the element of a list. -/
def cut (separators : Chars) (runs : List Run) : List (List Cell) :=
  let p := runs.foldl (cutRun separators) ⟨[], []⟩
  let endsInList := (runs.filter (·.cut ≠ .never)).getLast?.any (·.cut = .betweenElements)
  (if endsInList || p.current ≠ [] then p.close else p).done.reverse

/-! ## A fixed number of fields -/

/-- The cells without blanks at their start. -/
def withoutBlanks (separators : Chars) (cells : List Cell) : List Cell :=
  cells.dropWhile fun
    | .char c q => isSeparator separators c q && isBlank c
    | .mark => false

/-- The last field of a fixed number: all that is left, without blanks at its end and, if it is
only one field, without the separator behind it. -/
def lastField (separators : Chars) (cells : List Cell) : Chars :=
  match cut separators [⟨cells, .atSeparators⟩] with
  | [] => []
  | [field] => Run.charsOf field
  | _ =>
    let cells := withoutBlanks separators cells
    Run.charsOf (withoutBlanks separators cells.reverse).reverse

/-- So many fields at most, the last of which takes all that is left. -/
def firstFields (separators : Chars) : Nat → List Cell → List Chars
  | 0, _ => []
  | 1, cells => [lastField separators cells]
  | n + 1, cells =>
    let inField := fun
      | Cell.char c q => !isSeparator separators c q
      | .mark => true
    let cells := withoutBlanks separators cells
    let field := cells.takeWhile inField
    match cells.drop field.length with
    | .char c _ :: rest =>
      Run.charsOf field ::
        firstFields separators n (afterSeparator separators (isBlank c) rest)
    | _ => [Run.charsOf field]

/-- Runs that cannot be cut are one field. -/
example : cut [':'] [.ofChars "a:b".toList true .never] =
    [[.char 'a' true, .char ':' true, .char 'b' true]] := by decide +kernel

/-- Two separators that are no blanks have an empty field between them. -/
example : (cut [':', ' '] [.ofChars "a : :b:".toList false .atSeparators]).map Run.charsOf =
    [['a'], [], ['b']] := by decide +kernel

end Fields

end ContractBuild.Shell
