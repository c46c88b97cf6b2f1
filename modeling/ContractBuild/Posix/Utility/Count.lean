import ContractBuild.Posix.Text.Wide
import ContractBuild.Posix.Utility.Basic

/-!
# Counting

The numbers of lines, words and bytes of inputs.
-/

namespace ContractBuild.Utility

/-- What has been counted. -/
structure Counts where
  /-- The lines. -/
  lines : Nat
  /-- The words. -/
  words : Nat
  /-- The characters. -/
  chars : Nat
  /-- The bytes. -/
  bytes : Nat
  /-- The width of the longest line. -/
  longest : Nat

namespace Counts

/-- Nothing. -/
def zero : Counts := ⟨0, 0, 0, 0, 0⟩

/-- What two texts have together. -/
def add (a b : Counts) : Counts :=
  ⟨a.lines + b.lines, a.words + b.words, a.chars + b.chars, a.bytes + b.bytes,
    max a.longest b.longest⟩

/-- How far counting has come. -/
structure Progress where
  /-- The lines. -/
  lines : Nat
  /-- The words that are over. -/
  words : Nat
  /-- The characters. -/
  chars : Nat
  /-- The width of the longest line. -/
  longest : Nat
  /-- Whether a word is entered. -/
  isInWord : Bool
  /-- The width of the line so far. -/
  width : Nat

namespace Progress

/-- Nothing has been counted. -/
def start : Progress := ⟨0, 0, 0, 0, false, 0⟩

/-- Behind a character that ends a word. -/
def leaveWord (p : Progress) : Progress :=
  { p with words := if p.isInWord then p.words + 1 else p.words, isInWord := false }

/-- Behind a character with which the line starts anew. -/
def restart (p : Progress) : Progress :=
  { p.leaveWord with longest := max p.longest p.width, width := 0 }

/-- The blanks that keep words together in print, and separate them here. -/
def firmBlanks : List Nat := [0xA0, 0x2007, 0x202F, 0x2060]

/-- Whether a character of more than a byte separates words. -/
def isWideBlank (c : Char) : Bool :=
  Wide.isSpace c || (Wide.isWide c && firmBlanks.contains (Wide.unplaced c).toNat)

/-- Counts one more character.  A byte that belongs to none is none where text is UTF-8. -/
def step (isWide : Bool) (p : Progress) (c : Char) : Progress :=
  let isLost := isWide && '\x80' ≤ c && !Wide.isWide c
  let p := if isLost then p else { p with chars := p.chars + 1 }
  match c with
  | '\n' => { p.restart with lines := p.lines + 1 }
  | '\r' | '\x0c' => p.restart
  | '\t' => { p.leaveWord with width := p.width + 8 - p.width % 8 }
  | ' ' => { p.leaveWord with width := p.width + 1 }
  | '\x0b' => p.leaveWord
  | c =>
    if !Wide.isPrintable c then p
    else
      let p := { p with width := p.width + Wide.width c }
      if isWideBlank c then p.leaveWord else { p with isInWord := true }

end Progress

/-- What a text has, which may be UTF-8. -/
def ofText (isWide : Bool) (cs : Chars) : Counts :=
  let p := ((if isWide then Wide.read cs else cs).foldl (Progress.step isWide) .start).restart
  ⟨p.lines, p.words, p.chars, cs.length, p.longest⟩

/-- The numbers that are wanted, in their order. -/
def wanted (c : Call) (k : Counts) : List Nat :=
  let all := !(c.has 'l' || c.has 'w' || c.has 'c' || c.has 'm' || c.has 'L')
  (if all || c.has 'l' then [k.lines] else []) ++ (if all || c.has 'w' then [k.words] else []) ++
    (if c.has 'm' then [k.chars] else []) ++ (if all || c.has 'c' then [k.bytes] else []) ++
    if c.has 'L' then [k.longest] else []

/-- A line with numbers. -/
def line (c : Call) (width : Nat) (k : Counts) (title : Chars) : Chars :=
  let numbers := (wanted c k).map fun n ↦
    let ds := Chars.ofNat n
    List.replicate (width - ds.length) ' ' ++ ds
  Chars.line (Chars.join [' '] numbers ++ if title = [] then [] else ' ' :: title)

end Counts

/-- How wide numbers must be at least where sizes are not known before. -/
def unknownWidth : Nat := 7

/-- The size of what is open under a number, if it is a file. -/
def openSize? (n : Nat) : Routine (Option Nat) := Routine.act fun p m ↦
  (match m.openFile? p n with
    | some (_, ⟨.file id, _, _, _, _⟩) => (m.file? id).map (·.content.length)
    | _ => none, m)

/-- The size of an input, if it is a file; an input that is not there counts as empty. -/
def inputSize? (file : Chars) : Routine (Option Nat) :=
  if isStandard file then openSize? 0
  else Routine.look fun h ↦ match h.entry (Chars.toPath file) with
    | .ok (_, .file f) => some f.content.length
    | .ok _ => none
    | .error _ => some 0

/-- How wide the numbers for some inputs are. -/
def numberWidth (c : Call) (files : List Chars) : Routine Nat := do
  if files.length = 1 && (Counts.wanted c .zero).length = 1 then return 1
  let sizes ← files.mapM inputSize?
  let digits := (Chars.ofNat ((sizes.filterMap id).foldl (· + ·) 0)).length
  return if sizes.all (·.isSome) then digits else max digits unknownWidth

/-- Counts in one input and writes the numbers with a title. -/
def countInput (name : Chars) (c : Call) (width : Nat) (title file : Chars) :
    Routine (Counts × Nat) := do
  let isWide := (← Routine.self).isWide
  let title := if title.contains '\n' then render isWide (shown title) else title
  match ← openInput file with
  | .error e =>
    warn name (because (shown file) e)
    return (.zero, 1)
  | .ok n =>
    let content ← Routine.readAll n
    closeInput n
    match content with
    | .ok bs =>
      let k := Counts.ofText isWide (Chars.ofBytes bs)
      emit name (k.line c width title)
      return (k, 0)
    | .error e =>
      warn name (because (shown (if title = [] then "standard input".toList else file)) e)
      emit name (Counts.zero.line c width title)
      return (.zero, 1)

/-- What is wrong with a name among others, in a list or not. -/
def nameFault? (list : Option Chars) (file : Chars) (number : Nat) : Option Chars :=
  if list = some ['-'] && isStandard file then
    some ("when reading file names from stdin, no file name of ".toList ++ quoted file ++
      " allowed".toList)
  else if file = [] then
    let place := match list with
      | some l => shown l ++ ':' :: Chars.ofNat number ++ ": ".toList
      | none => []
    some (place ++ "invalid zero-length file name".toList)
  else none

/-- Counts in some inputs, from a number on; the numbers of all come together with the greatest
status. -/
def countInputs (name : Chars) (c : Call) (list : Option Chars) (width : Nat) :
    Nat → List Chars → Routine (Counts × Nat)
  | _, [] => return (.zero, 0)
  | number, file :: files => do
    let (k, status) ← (match nameFault? list file number with
      | some message => do
        warn name message
        return (.zero, 1)
      | none => countInput name c width file file)
    let (ks, rest) ← countInputs name c list width (number + 1) files
    return (k.add ks, max status rest)

/-- Counts in what a list names. -/
def countListed (name : Chars) (c : Call) (list : Chars) : Routine Nat := do
  if let extra :: _ := c.operands then
    warn name ("extra operand ".toList ++ quoted extra)
    say (Chars.line "file operands cannot be combined with --files0-from".toList)
    pointToHelp name
    Routine.exit 1
  match ← openInput list with
  | .error e =>
    fail name 1 (because ("cannot open ".toList ++ quoted list ++ " for reading".toList) e)
  | .ok n =>
    let size ← openSize? n
    match ← Routine.readAll n with
    | .error e => fail name 1 (because (shown list ++ ": read error".toList) e)
    | .ok bs =>
      let files := Chars.records '\x00' (Chars.ofBytes bs)
      let width ← if size.isSome && files ≠ [] then numberWidth c files else pure 1
      let (k, status) ← countInputs name c (some list) width 1 files
      if 1 < files.length then emit name (k.line c width "total".toList)
      return status

/-- Counts lines, words and bytes. -/
def wc : Program := fun args _ ↦ do
  let name := args.headD []
  let c ← readCall name 1 (plainFlags [('c', "bytes"), ('m', "chars"), ('l', "lines"),
    ('w', "words"), ('L', "max-line-length")] ++ valueFlags [('\x01', "files0-from")])
    true args.tail
  match c.value? '\x01' with
  | some list => countListed name c list
  | none =>
    let files := inputsOf c.operands
    let width ← numberWidth c files
    if c.operands = [] then
      let (_, status) ← countInput name c width [] ['-']
      leaveStandard name 1 "-" files status
    else
      let (k, status) ← countInputs name c none width 1 files
      if 1 < files.length then emit name (k.line c width "total".toList)
      leaveStandard name 1 "-" files status

/-- A text has as many lines as line feeds. -/
example : (Counts.ofText false "a b\n c".toList).lines = 1 ∧
    (Counts.ofText false "a b\n c".toList).words = 3 := by decide +kernel

end ContractBuild.Utility
