import ContractBuild.Posix.Text.Chars

/-!
# Tables

A table gives values to keys, which are whole numbers or texts; a number is the same key as its
digits.  Entries hang in chains, one array of chains for texts and one for numbers.  What is found
comes to the front of its chain, and the chains are split when they become long.  This decides the
order in which the keys are gone through.
-/

namespace ContractBuild.Utility.RecordProgram

/-- A key of a table. -/
inductive Key
  /-- A whole number. -/
  | number (n : Int)
  /-- A text. -/
  | text (cs : Chars)
  deriving DecidableEq, Repr

/-- An entry of a table. -/
structure Entry (α : Type) where
  /-- The text of its key. -/
  key : Chars
  /-- The number of its key, if it has been asked for by a number. -/
  number : Option Int
  /-- The hash of the text, if it hangs in a chain for texts. -/
  hash : Option Nat
  /-- Its value. -/
  value : α

/-- A table. -/
structure Table (α : Type) where
  /-- The entries, each with its place among all that there ever were. -/
  entries : Array (Option (Entry α))
  /-- The number of entries. -/
  size : Nat
  /-- The chains of entries by the hash of the text. -/
  texts : Array (List Nat)
  /-- The chains of entries by the number. -/
  numbers : Array (List Nat)
  /-- Whether every entry hangs in a chain for texts. -/
  hasTexts : Bool
  /-- Whether the keys are the numbers from one on, of which none has been looked for. -/
  isPlain : Bool

namespace Table

variable {α : Type}

/-! ## Chains -/

/-- How many chains there are in the beginning. -/
def firstChains : Nat := 64

/-- How many entries there may be for a chain. -/
def chainLimit : Nat := 12

/-- A table without entries. -/
def empty : Table α :=
  ⟨#[], 0, Array.replicate firstChains [], Array.replicate firstChains [], false, false⟩

/-- The hash of a text. -/
def hash (cs : Chars) : Nat :=
  cs.foldl (fun h c ↦ (h ^^^ c.toNat) * 16777619 % 4294967296) 2166136261

/-- The chain of a hash or of a number. -/
def chainOf (t : Table α) (n : Int) : Nat := (n % t.texts.size).toNat

/-- An entry by its place. -/
def at? (t : Table α) (i : Nat) : Option (Entry α) := (t.entries[i]?).join

/-- Puts an entry to the front of a chain. -/
def toFront (chains : Array (List Nat)) (k i : Nat) : Array (List Nat) :=
  chains.modify k fun is ↦ i :: is.filter (· ≠ i)

/-- Takes an entry out of a chain. -/
def without (chains : Array (List Nat)) (k i : Nat) : Array (List Nat) :=
  chains.modify k (·.filter (· ≠ i))

/-- Changes an entry. -/
def onEntry (t : Table α) (i : Nat) (f : Entry α → Entry α) : Table α :=
  { t with entries := t.entries.modify i (·.map f) }

/-- Splits every chain in two, by what the entries are ordered by. -/
def splitChains (chains : Array (List Nat)) (order : Nat → Int) : Array (List Nat) :=
  let size := 2 * chains.size
  let part := fun (k : Nat) ↦
    (chains.getD (k % chains.size) []).filter fun i ↦ (order i % size).toNat = k
  Array.ofFn fun k : Fin size ↦ part k

/-- Splits the chains in two if there are too many entries. -/
def widened (t : Table α) : Table α :=
  if t.size ≤ t.texts.size * chainLimit then t
  else
    let hashAt := fun i ↦ (((t.at? i).bind (·.hash)).getD 0 : Int)
    let numberAt := fun i ↦ ((t.at? i).bind (·.number)).getD 0
    { t with texts := splitChains t.texts hashAt, numbers := splitChains t.numbers numberAt }

/-- Hangs every entry of the chains for numbers into a chain for texts. -/
def withTexts (t : Table α) : Table α :=
  if t.hasTexts then t
  else
    let t := t.numbers.toList.flatten.foldl (fun t i ↦
      match t.at? i with
      | some e =>
        let h := hash e.key
        { t.onEntry i fun e ↦ { e with hash := some h } with
          texts := toFront t.texts (t.chainOf h) i }
      | none => t) t
    { t with hasTexts := true, isPlain := false }

/-! ## Looking for keys -/

/-- Adds an entry. -/
def added (t : Table α) (e : Entry α) : Table α :=
  { t with entries := t.entries.push (some e), size := t.size + 1 }.widened

/-- The place of the entry of a text, which is made with a value if there is none and one is
wanted. -/
def placeOfText (t : Table α) (new : Option α) (cs : Chars) : Table α × Option Nat :=
  let t := t.withTexts
  let h := hash cs
  let isHere := fun i ↦ (t.at? i).any (·.key = cs)
  match (t.texts.getD (t.chainOf h) []).find? isHere, new with
  | some i, _ => ({ t with texts := toFront t.texts (t.chainOf h) i }, some i)
  | none, none => (t, none)
  | none, some value =>
    let i := t.entries.size
    let t := t.added ⟨cs, none, some h, value⟩
    ({ t with texts := toFront t.texts (t.chainOf h) i }, some i)

/-- The place of the entry of a number, which is made with a value if there is none and one is
wanted. -/
def placeOfNumber (t : Table α) (new : Option α) (n : Int) : Table α × Option Nat :=
  let isHere := fun i ↦ (t.at? i).any (·.number = some n)
  let hang := fun (t : Table α) (i : Nat) ↦
    ({ t with numbers := toFront t.numbers (t.chainOf n) i }, some i)
  match (t.numbers.getD (t.chainOf n) []).find? isHere with
  | some i => hang t i
  | none =>
    if t.hasTexts then
      match t.placeOfText new (Chars.ofInt n) with
      | (t, some i) => hang (t.onEntry i fun e ↦ { e with number := some n }) i
      | (t, none) => (t, none)
    else match new with
      | none => (t, none)
      | some value =>
        let i := t.entries.size
        hang (t.added ⟨Chars.ofInt n, some n, none, value⟩) i

/-- The place of the entry of a key. -/
def placeOf (t : Table α) (new : Option α) (k : Key) : Table α × Option Nat :=
  if t.size = 0 && new.isNone then (t, none)
  else match k with
    | .number n =>
      if t.isPlain && 0 < n && n ≤ t.size then (t, some (n.toNat - 1))
      else { t with isPlain := false }.placeOfNumber new n
    | .text cs => { t with isPlain := false }.placeOfText new cs

/-! ## Values -/

/-- The value of a key, which becomes `start` if there is none. -/
def get (t : Table α) (start : α) (k : Key) : Table α × α :=
  match t.placeOf (some start) k with
  | (t, some i) => (t, ((t.at? i).map (·.value)).getD start)
  | (t, none) => (t, start)

/-- Gives a value to a key. -/
def set (t : Table α) (k : Key) (value : α) : Table α :=
  match t.placeOf (some value) k with
  | (t, some i) => t.onEntry i fun e ↦ { e with value }
  | (t, none) => t

/-- Whether a key has a value. -/
def contains (t : Table α) (k : Key) : Table α × Bool :=
  match t.placeOf none k with
  | (t, i) => (t, i.isSome)

/-- Takes a key out. -/
def erase (t : Table α) (k : Key) : Table α :=
  match { t with isPlain := false }.placeOf none k with
  | (t, none) => t
  | (t, some i) =>
    if t.size ≤ 1 then empty
    else match t.at? i with
      | none => t
      | some e =>
        let texts := match e.hash with
          | some h => without t.texts (t.chainOf h) i
          | none => t.texts
        let numbers := match e.number with
          | some n => without t.numbers (t.chainOf n) i
          | none => t.numbers
        { t with entries := t.entries.setIfInBounds i none, size := t.size - 1, texts, numbers }

/-- The texts of all keys, in the order in which they are gone through. -/
def keys (t : Table α) : Table α × List Chars :=
  if t.size = 0 then (t, [])
  else
    let t := t.withTexts
    (t, t.texts.toList.flatten.filterMap fun i ↦ (t.at? i).map (·.key))

/-- The table with values for the numbers from one on. -/
def ofList (values : List α) : Table α :=
  let add := fun (t : Table α) (n : Nat) (value : α) ↦
    let i := t.entries.size
    let t := t.added ⟨Chars.ofNat n, some (n : Int), none, value⟩
    { t with numbers := toFront t.numbers (t.chainOf n) i }
  { (values.zipIdx 1).foldl (fun t e ↦ add t e.2 e.1) (empty : Table α) with isPlain := true }

/-- What was set is found again, under the digits of a number as well. -/
example : (((empty : Table Nat).set (.number 12) 5).get 0 (.text "12".toList)).2 = 5 := by
  decide +kernel

/-- The order of the keys. -/
example : ((empty : Table Nat).set (.text "x".toList) 0 |>.set (.text "y".toList) 0
    |>.set (.text "z".toList) 0).keys.2 = ["x", "z", "y"].map (·.toList) := by decide +kernel

end Table

end ContractBuild.Utility.RecordProgram
