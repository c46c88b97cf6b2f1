import ContractBuild.Posix.Text.Chars
import ContractBuild.Posix.Text.Glob
import ContractBuild.Posix.Text.Numeral
import ContractBuild.Posix.Utility.Basic

/-!
# Translating characters

Characters of one set are replaced by those of another, deleted, or written only once where they
follow each other.
-/

namespace ContractBuild.Utility

namespace CharSet

/-- A part of a set as it is written. -/
inductive Item
  /-- Characters, one after the other. -/
  | chars (cs : Chars)
  /-- A character several times; nothing stands for as often as it takes. -/
  | fill (c : Char) (count : Option Nat)

/-- All characters there are. -/
def all : Chars := (List.range 256).map Char.ofNat

/-- The names of the classes of characters. -/
def classNames : List String :=
  ["alnum", "alpha", "blank", "cntrl", "digit", "graph", "lower", "print", "punct", "space",
    "upper", "xdigit"]

/-- The characters of a text with escapes, each with the truth value that it was one. -/
def unescaped : Nat → Chars → List (Char × Bool)
  | 0, _ => []
  | n + 1, cs =>
    match cs with
    | [] => []
    | '\\' :: cs =>
      match Escape.one cs, cs with
      | ('\\', rest), c :: behind =>
        if rest.length = cs.length then (c, true) :: unescaped n behind
        else ('\\', true) :: unescaped n rest
      | (c, rest), _ => (c, true) :: unescaped n rest
    | c :: cs => (c, false) :: unescaped n cs

/-- The name in brackets between two signs, behind the first of them, with what follows it. -/
def named? (sign : Char) (cs : List (Char × Bool)) : Option (Chars × List (Char × Bool)) :=
  let name := cs.takeWhile fun c ↦ c ≠ (sign, false)
  match cs.drop name.length with
  | _ :: (']', false) :: rest => some (name.map (·.1), rest)
  | _ => none

/-- The count in a pair of brackets, behind the star, with what follows it. -/
def count? (cs : List (Char × Bool)) : Option (Option Nat × List (Char × Bool)) :=
  let ds := (cs.takeWhile fun c ↦ c.1.isDigit).map (·.1)
  match cs.drop ds.length with
  | (']', false) :: rest =>
    let n := match ds with
      | '0' :: _ => (Numeral.digits 8 ds).1 |> Numeral.value 8
      | ds => (Chars.toNat? ds).getD 0
    some (if n = 0 then none else some n, rest)
  | _ => none

/-- The parts of a set.  Every step takes a character. -/
def items : Nat → List (Char × Bool) → Except Chars (List Item)
  | 0, _ => .ok []
  | n + 1, cs => do
    let goOn := fun (i : Item) (rest : List (Char × Bool)) ↦ do return i :: (← items n rest)
    let range := fun (low : Char × Bool) (rest : List (Char × Bool)) ↦
      match rest with
      | ('-', false) :: (high, _) :: rest =>
        if high < low.1 then
          Except.error ("range-endpoints of '".toList ++ low.1 :: '-' :: high ::
            "' are in reverse collating sequence order".toList)
        else goOn (.chars (all.filter fun c ↦ low.1 ≤ c && c ≤ high)) rest
      | rest => goOn (.chars [low.1]) rest
    match cs with
    | [] => return []
    | ('[', false) :: (':', false) :: rest =>
      match named? ':' rest with
      | none => range ('[', false) ((':', false) :: rest)
      | some (name, rest) =>
        if classNames.contains (Chars.toString name) then
          goOn (.chars (all.filter (Glob.inClass name))) rest
        else .error ("invalid character class ".toList ++ cited name)
    | ('[', false) :: ('=', false) :: rest =>
      match named? '=' rest with
      | some ([c], rest) => goOn (.chars [c]) rest
      | _ => range ('[', false) (('=', false) :: rest)
    | ('[', false) :: (c, q) :: ('*', false) :: rest =>
      match count? rest with
      | some (count, rest) => goOn (.fill c count) rest
      | none => range ('[', false) ((c, q) :: ('*', false) :: rest)
    | c :: rest => range c rest

/-- The parts of a set as it is written. -/
def read (cs : Chars) : Except Chars (List Item) := items (cs.length + 1) (unescaped cs.length cs)

/-- How many characters a part has as it stands. -/
def Item.length : Item → Nat
  | .chars cs => cs.length
  | .fill _ count => count.getD 0

/-- The characters of a set that is to have a length. -/
def chars (length : Nat) (is : List Item) : Chars :=
  let missing := length - (is.map (·.length)).foldl (· + ·) 0
  is.flatMap fun
    | .chars cs => cs
    | .fill c count => List.replicate (count.getD missing) c

/-- A set with its last character as often as it takes to have a length. -/
def padded (length : Nat) (cs : Chars) : Chars :=
  match cs.getLast? with
  | some c => cs ++ List.replicate (length - cs.length) c
  | none => cs

end CharSet

/-- What becomes of the characters of a stream. -/
structure Translation where
  /-- Whether a character is deleted. -/
  deletes : Char → Bool
  /-- What a character becomes. -/
  image : Char → Char
  /-- Whether a character is written only once where it follows itself. -/
  squeezes : Char → Bool

/-- A table that gives every character what `f` gives it. -/
def tabulated {α : Type} [Inhabited α] (f : Char → α) : Char → α :=
  let table := (CharSet.all.map f).toArray
  fun c ↦ table[c.toNat]!

/-- What becomes of characters behind the last one that was written. -/
def Translation.apply (t : Translation) (last : Option Char) (cs : Chars) :
    Option Char × Chars :=
  let (last, done) := cs.foldl (fun (last, done) c ↦
    if t.deletes c then (last, done)
    else
      let d := t.image c
      if t.squeezes d && last = some d then (last, done) else (some d, d :: done)) (last, [])
  (last, done.reverse)

/-- Complains about the number of sets and ends. -/
def refuseSets {α : Type} (name message remark : Chars) : Routine α := do
  warn name message
  if remark ≠ [] then say (Chars.line remark)
  pointToHelp name
  Routine.exit 1

/-- A set that must be right. -/
def readSet (name : Chars) (w : Chars) : Routine (List CharSet.Item) :=
  match CharSet.read w with
  | .ok is => pure is
  | .error message => fail name 1 message

/-- The translation of one set into another. -/
def translating (name : Chars) (c : Call) (first : Chars) (second : List CharSet.Item) :
    Routine Translation := do
  let images := CharSet.chars first.length second
  if images = [] && first ≠ [] && !c.has 't' then
    fail name 1 "when not truncating set1, string2 must be non-empty".toList
  let first := if c.has 't' then first.take images.length else first
  let pairs := (first.zip (CharSet.padded first.length images)).reverse
  return ⟨fun _ ↦ false, tabulated fun d ↦ (pairs.lookup d).getD d,
    tabulated fun d ↦ c.has 's' && images.contains d⟩

/-- The translation that a call asks for. -/
def translationOf (name : Chars) (c : Call) : Routine Translation := do
  let complete := fun (cs : Chars) ↦
    if c.has 'c' || c.has 'C' then CharSet.all.filter (!cs.contains ·) else cs
  match c.operands with
  | [] => missingOperand name 1
  | [a] =>
    if !c.has 'd' && !c.has 's' then
      refuseSets name ("missing operand after ".toList ++ cited a)
        "Two strings must be given when translating.".toList
    else if c.has 'd' && c.has 's' then
      refuseSets name ("missing operand after ".toList ++ cited a)
        "Two strings must be given when both deleting and squeezing repeats.".toList
    else
      let first := complete (CharSet.chars 0 (← readSet name a))
      let isFirst := tabulated (first.contains ·)
      if c.has 'd' then return ⟨isFirst, id, fun _ ↦ false⟩
      else return ⟨fun _ ↦ false, id, isFirst⟩
  | [a, b] =>
    if c.has 'd' && !c.has 's' then
      refuseSets name ("extra operand ".toList ++ cited b)
        "Only one string may be given when deleting without squeezing repeats.".toList
    else
      let first := complete (CharSet.chars 0 (← readSet name a))
      let second ← readSet name b
      if c.has 'd' then
        let images := CharSet.chars 0 second
        return ⟨tabulated (first.contains ·), id, tabulated (images.contains ·)⟩
      else translating name c first second
  | _ :: _ :: a :: _ => refuseSets name ("extra operand ".toList ++ cited a) []

/-- Translates, deletes or squeezes characters. -/
def tr : Program := fun args _ ↦ do
  let name := args.headD []
  let c ← readCall name 1 (plainFlags [('c', "complement"), ('C', ""), ('d', "delete"),
    ('s', "squeeze-repeats"), ('t', "truncate-set1")]) false args.tail
  let t ← translationOf name c
  let (_, failure) ← foldBlocks 0 (none : Option Char) fun last bs ↦ do
    let (last, cs) := t.apply last (Chars.ofBytes bs)
    emit name cs
    return .inl last
  match failure with
  | none => return 0
  | some e => fail name 1 (because "read error".toList e)

/-- A range and a class. -/
example : ((CharSet.read "a-c[:digit:]".toList).toOption.map (CharSet.chars 0)) =
    some "abc0123456789".toList := by decide +kernel

end ContractBuild.Utility
