import ContractBuild.Posix.Utility.Launch
import ContractBuild.Posix.Utility.Status

/-!
# Facts about entries that have been found

A format says which facts about an entry are written.  It is read before the search starts, so what
is wrong with it is said once.
-/

namespace ContractBuild.Utility.Find

/-- An entry that has been met. -/
structure Found where
  /-- The path that was searched. -/
  start : Chars
  /-- The names that lead from there. -/
  names : Location
  /-- Its path. -/
  path : Chars
  /-- Where it is. -/
  location : Location
  /-- What it is. -/
  node : Node

/-- A part of a format. -/
inductive Piece
  /-- A text. -/
  | text (cs : Chars)
  /-- A fact. -/
  | fact (layout : Layout) (letter : Char)
  /-- A part of the time of the last use or of the last change. -/
  | time (layout : Layout) (byUse : Bool) (letter : Char)

/-- The letters for facts. -/
def factLetters : Chars := "abcdDfFgGhHiklmMnpPsStuUyYZ".toList

/-- The letters for parts of times. -/
def timeLetters : Chars := "@+aAbBcCdDehHIjklmMprSTUVwWxXyYZFgGsu".toList

/-- An escape behind a backslash: a text, what is to be said about it, and what follows; no rest
says that nothing more is written. -/
def readEscape (cs : Chars) : Chars × List Chars × Option Chars :=
  match cs with
  | [] => (['\\'], ["warning: escape \x60\\' followed by nothing at all".toList], some [])
  | 'c' :: _ => ([], [], none)
  | c :: rest =>
    match Escape.octalDigit? c, Escape.letters.lookup c with
    | some _, _ =>
      let (n, rest) := Escape.octal 0 3 cs
      ([Escape.byte n], [], some rest)
    | none, some d => ([d], [], some rest)
    | none, none =>
      (['\\', c], ["warning: unrecognized escape \x60\\".toList ++ [c, '\'']], some rest)

/-- The pieces of a format, with what is to be said about it.  Every step takes a character. -/
def readFormat : Nat → Chars → Except Chars (List Piece × List Chars)
  | 0, _ | _, [] => .ok ([], [])
  | n + 1, '\\' :: cs => do
    let (text, remarks, rest) := readEscape cs
    match rest with
    | none => return ([.text text], remarks)
    | some rest =>
      let (pieces, more) ← readFormat n rest
      return (.text text :: pieces, remarks ++ more)
  | n + 1, '%' :: cs => do
    let goOn := fun (p : Piece) (remarks : List Chars) (rest : Chars) ↦ do
      let (pieces, more) ← readFormat n rest
      return (p :: pieces, remarks ++ more)
    let (layout, rest) := Status.readLayout cs
    match rest with
    | [] => throw "error: % at end of format string".toList
    | '%' :: rest => goOn (.text ['%']) [] rest
    | letter :: rest =>
      let literally := fun (_ : Unit) ↦
        let shown := '%' :: cs.take (cs.length - rest.length)
        goOn (.text shown)
          ["warning: unrecognized format directive \x60".toList ++ shown ++ ['\'']] rest
      if "ABCT".toList.contains letter then
        match rest with
        | part :: more =>
          if timeLetters.contains part then goOn (.time layout (letter = 'A') part) [] more
          else literally ()
        | [] => literally ()
      else if factLetters.contains letter then goOn (.fact layout letter) [] rest
      else literally ()
  | n + 1, c :: cs => do
    let (pieces, remarks) ← readFormat n cs
    return (.text [c] :: pieces, remarks)

/-- The letter of a kind. -/
def kindLetter (n : Node) : Char :=
  match EntryFacts.letterOf n with
  | '-' => 'f'
  | c => c

/-- The letter of the kind of what an entry leads to. -/
def targetLetter (h : Host) (e : Found) : Char :=
  match e.node with
  | .link _ => match h.tree.locate (some []) ⟨true, false⟩ (.ofLocation e.location) with
    | .ok (.entry _ n) => kindLetter n
    | .ok (.vacant _) => 'N'
    | .error x => if x = .tooManyLinks then 'L' else 'N'
  | n => kindLetter n

/-- The nanoseconds of a moment with one digit more. -/
def fractionText (s : Stamp) : Chars := '.' :: Chars.ofNatWide 9 s.fraction ++ ['0']

/-- A moment as a whole. -/
def wholeTime (s : Stamp) : Chars :=
  s.inFormat "%a %b %e %H:%M:%S".toList ++ fractionText s ++ s.inFormat " %Y".toList

/-- A part of a moment. -/
def partOfTime (s : Stamp) (letter : Char) : Chars :=
  match letter with
  | '@' => Chars.ofInt s.seconds ++ fractionText s
  | '+' => s.inFormat "%Y-%m-%d+%H:%M:%S".toList ++ fractionText s
  | 'S' => s.inFormat "%S".toList ++ fractionText s
  | 'T' | 'X' => s.inFormat "%H:%M:%S".toList ++ fractionText s
  | 'c' => wholeTime s
  | letter => s.inFormat ['%', letter]

/-- The fact about an entry that a letter stands for. -/
def factText (h : Host) (zone : Zone) (layout : Layout) (e : Found) (letter : Char) : Chars :=
  let n := e.node
  let bare := { Layout.plain with
    isLeft := layout.isLeft
    width := layout.width
    precision := layout.precision }
  let text := fun (cs : Chars) ↦ bare.text cs
  match letter with
  | 'p' => text e.path
  | 'f' => text (lastName e.path)
  | 'h' => text (directoryPart e.path)
  | 'P' => text (Chars.join ['/'] (e.names.map Chars.ofBytes))
  | 'H' => text e.start
  | 'd' => layout.integer e.names.length
  | 'y' => text [kindLetter n]
  | 'Y' => text [targetLetter h e]
  | 'm' => layout.natural 8 false (modeOf n)
  | 'M' => text (EntryFacts.modeText n)
  | 'l' => text (match n with
      | .link k => Chars.ofPath k.target
      | _ => [])
  | 'n' => text (Chars.ofNat (EntryFacts.namesOf h.tree e.location n))
  | 's' => text (Chars.ofNat (EntryFacts.sizeOf n))
  | 'k' => text (Chars.ofNat (EntryFacts.roomOf n))
  | 'b' => text (Chars.ofNat (2 * EntryFacts.roomOf n))
  | 'S' => text ['1']
  | 'i' => text (Chars.ofNat (EntryFacts.numberOf n))
  | 'u' | 'g' => text "root".toList
  | 'U' | 'G' => text ['0']
  | 'D' => text ['1']
  | 'F' => text "tmpfs".toList
  | 'a' => text (wholeTime (stampOf zone n.accessed))
  | 't' | 'c' => text (wholeTime (stampOf zone n.modified))
  | _ => []

/-- A piece for an entry. -/
def Piece.shown (h : Host) (zone : Zone) (e : Found) : Piece → Chars
  | .text cs => cs
  | .fact layout letter => factText h zone layout e letter
  | .time layout byUse letter =>
    let m := if byUse then e.node.accessed else e.node.modified
    layout.fill (partOfTime (stampOf zone m) letter)

/-- The text that a format makes for an entry. -/
def written (h : Host) (zone : Zone) (e : Found) (pieces : List Piece) : Chars :=
  pieces.flatMap (·.shown h zone e)

/-- An unknown letter stands for itself. -/
example : (readFormat 9 "%q".toList).toOption.map (fun r ↦ r.2.length) = some 1 := by
  decide +kernel

end ContractBuild.Utility.Find
