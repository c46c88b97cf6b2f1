import ContractBuild.Posix.Text.Numeral
import ContractBuild.Posix.Utility.Basic

/-!
# Amounts

Numbers with a suffix that says what they are multiplied with, as arguments of options.  Every
option has suffixes of its own.
-/

namespace ContractBuild.Utility

namespace Amount

/-- How often a thousand is multiplied with itself for a letter. -/
def power? (c : Char) : Option Nat :=
  [['k', 'K'], ['m', 'M'], ['g', 'G'], ['t', 'T'], ['P'], ['E'], ['Z'], ['Y']].findIdx?
    (·.contains c) |>.map (· + 1)

/-- What a suffix multiplies a number with, if it is one of an option with these letters.  A zero
among them says that a letter can have the ending of a unit. -/
def scale? (letters suffix : Chars) : Option Nat :=
  match suffix with
  | [] => some 1
  | c :: ending =>
    if !letters.contains c then none
    else match c, ending, power? c with
      | 'b', [], _ => some 512
      | 'B', [], _ => some 1024
      | 'c', [], _ => some 1
      | 'w', [], _ => some 2
      | _, [], some k | _, ['i', 'B'], some k => some (Nat.pow 1024 k)
      | _, ['B'], some k | _, ['D'], some k =>
        if letters.contains '0' then some (Nat.pow 1000 k) else none
      | _, _, _ => none

/-- The number that an argument spells with a suffix; the reason says why it cannot be taken, if
there is more to say than that it is none. -/
def read (letters cs : Chars) : Except (Option IoError) Nat :=
  let cs := cs.dropWhile Numeral.isBlank
  let cs := match cs with
    | '+' :: rest => rest
    | rest => rest
  let (ds, suffix) := cs.span Char.isDigit
  match scale? letters suffix with
  | none => .error none
  | some k =>
    if ds = [] && suffix = [] then .error none
    else
      let n := ((Chars.toNat? ds).getD 1) * k
      if n < Numeral.wordCount then .ok n else .error (some (.system 75))

/-- Bytes and their multiples. -/
def sizeLetters : Chars := "bkKmMGTPEZY0".toList

end Amount

/-- The number that an argument spells with a suffix, at least `least`; the complaint starts with a
text. -/
def readAmount (name : Chars) (code : Nat) (what : String) (letters : Chars) (least : Nat)
    (w : Chars) : Routine Nat :=
  let wrong := fun (e : Option IoError) ↦
    let message := what.toList ++ ": ".toList ++ cited w
    fail name code (match e with
      | some e => because message e
      | none => message)
  match Amount.read letters w with
  | .ok n => if n < least then wrong (some (.system 34)) else pure n
  | .error e => wrong e

/-- Suffixes of two kinds. -/
example : ((Amount.read Amount.sizeLetters "2kB".toList).toOption,
    (Amount.read Amount.sizeLetters "1K".toList).toOption) = (some 2000, some 1024) := by
  decide +kernel

end ContractBuild.Utility
