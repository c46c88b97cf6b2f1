import ContractBuild.Posix.Utility.Basic

/-!
# Orders that respect precedences

Names come in pairs of which the first one is to precede the second one.  They are put into an order
that respects all pairs: names that nothing precedes any more wait in a queue.  Where names precede
each other in a circle, that is said, and one of the pairs is dropped.
-/

namespace ContractBuild.Utility

namespace Precedence

/-- A name among others. -/
structure Item where
  /-- The name. -/
  name : Chars
  /-- How many pairs there are in which it comes second and the first one is still to come. -/
  count : Nat
  /-- The places of the names that it precedes, the latest pair first. -/
  successors : List Nat
  /-- Whether it has been put out. -/
  isDone : Bool
  /-- The place of the name that it leads to on the way back through a circle. -/
  link : Option Nat

/-- The names, in the order of their bytes. -/
abbrev Items := Array Item

/-- The names of some pairs, without relations. -/
def ofNames (names : List Chars) : Items :=
  let sorted := names.mergeSort fun a b ↦ !Chars.isBefore b a
  let distinct := sorted.foldr (fun n ns ↦ if ns.head? = some n then ns else n :: ns) []
  (distinct.map fun n ↦ (⟨n, 0, [], false, none⟩ : Item)).toArray

/-- The place of a name. -/
def placeOf (items : Items) (name : Chars) : Nat := (items.findIdx? (·.name = name)).getD 0

/-- The items with one of them changed. -/
def change (items : Items) (k : Nat) (f : Item → Item) : Items := items.modify k f

/-- The items with one pair more. -/
def withPair (items : Items) (pair : Chars × Chars) : Items :=
  if pair.1 = pair.2 then items
  else
    let first := placeOf items pair.1
    let second := placeOf items pair.2
    change (change items second fun i ↦ { i with count := i.count + 1 }) first fun i ↦
      { i with successors := second :: i.successors }

/-- The places of the items that nothing precedes any more and that have not been put out. -/
def free (items : Items) : List Nat :=
  (List.range items.size).filter fun k ↦
    (items[k]?).any fun i ↦ i.count = 0 && !i.isDone

/-- Takes a pair back, and puts the second name into the queue if nothing precedes it any more. -/
def release (state : Items × List Nat) (k : Nat) : Items × List Nat :=
  let items := change state.1 k fun i ↦ { i with count := i.count - 1 }
  (items, if (items[k]?).any (·.count = 0) then state.2 ++ [k] else state.2)

/-- Puts out the names in the queue, the latest one first in what has been put out.  Every step puts
out one. -/
def drain : Nat → Items → List Nat → List Chars → Items × List Chars
  | 0, items, _, out => (items, out)
  | _, items, [], out => (items, out)
  | n + 1, items, k :: queue, out =>
    match items[k]? with
    | none => drain n items queue out
    | some i =>
      let items := change items k fun i ↦ { i with isDone := true }
      let (items, queue) := i.successors.foldl release (items, queue)
      drain n items queue (i.name :: out)

/-! ## Circles -/

/-- A search for a circle: it goes from a name to one that precedes it, and so on. -/
structure Search where
  /-- The names. -/
  items : Items
  /-- The place where the way is. -/
  place : Option Nat
  /-- The names of the circle, once it is found. -/
  circle : Option (List Chars)

/-- The names on the way from one place back to another one.  Every step follows a link. -/
def wayBack (items : Items) (last : Nat) : Nat → Nat → List Chars
  | 0, _ => []
  | n + 1, k =>
    match items[k]? with
    | none => []
    | some i =>
      i.name :: (if k = last then [] else match i.link with
        | none => []
        | some next => wayBack items last n next)

/-- The items without the pair of two of them. -/
def withoutPair (items : Items) (first second : Nat) : Items :=
  change (change items second fun i ↦ { i with count := i.count - 1 }) first fun i ↦
    { i with successors := i.successors.erase second }

/-- Looks at a name: the way goes on to it if it precedes the one where the way is, and a circle is
closed if it is on the way already. -/
def Search.step (s : Search) (k : Nat) : Search :=
  match s.circle, s.items[k]?, s.place with
  | none, some i, none => if i.count = 0 then s else { s with place := some k }
  | none, some i, some place =>
    if i.count = 0 || !i.successors.contains place then s
    else if i.link.isSome then
      { items := (withoutPair s.items k place).map fun j ↦ { j with link := none }
        place := none
        circle := some (wayBack s.items k s.items.size place) }
    else
      { s with
        items := change s.items k fun j ↦ { j with link := some place }
        place := some k }
  | _, _, _ => s

/-- Finds a circle and drops one of its pairs.  Every step looks at all names. -/
def findCircle : Nat → Search → Items × List Chars
  | 0, s => (s.items, [])
  | n + 1, s =>
    let s := (List.range s.items.size).foldl Search.step s
    match s.circle, s.place with
    | some names, _ => (s.items, names)
    | none, none => (s.items, [])
    | none, some _ => findCircle n s

/-- What is put out, and the circles that were found.  Every step finds a circle, unless it is the
last one. -/
def arrange : Nat → Items → List Chars × List (List Chars)
  | 0, _ => ([], [])
  | n + 1, items =>
    let (items, out) := drain items.size items (free items) []
    if items.all (·.isDone) then (out.reverse, [])
    else
      let (items, circle) := findCircle (items.size + 1) ⟨items, none, none⟩
      let (more, circles) := arrange n items
      (out.reverse ++ more, circle :: circles)

/-- The names of pairs in an order, and the circles among them. -/
def sorted (pairs : List (Chars × Chars)) : List Chars × List (List Chars) :=
  let items := ofNames (pairs.flatMap fun p ↦ [p.1, p.2])
  arrange (pairs.length + 1) (pairs.foldl withPair items)

/-- The words of a text as pairs, unless one is left over. -/
def pairsOf : List Chars → Option (List (Chars × Chars))
  | [] => some []
  | [_] => none
  | a :: b :: ws => (pairsOf ws).map ((a, b) :: ·)

end Precedence

open Precedence in
/-- Puts names into an order. -/
def tsort : Program := fun args _ ↦ do
  let name := args.headD []
  let c ← readCall name 1 [] true args.tail
  let file := c.operands.headD ['-']
  if let _ :: extra :: _ := c.operands then extraOperand name 1 extra
  let n ← match ← openInput file with
    | .ok n => pure n
    | .error e => fail name 1 (because (shown file) e)
  match ← Routine.readAll n with
  | .error e => fail name 1 (because (shown file ++ ": read error".toList) e)
  | .ok bytes =>
    let content := Chars.ofBytes bytes
    let isBlank := fun (c : Char) ↦ c = ' ' || c = '\t' || c = '\n'
    match pairsOf ((Chars.splitOn isBlank content).filter (· ≠ [])) with
    | none => fail name 1 (shown file ++ ": input contains an odd number of tokens".toList)
    | some pairs =>
      let (names, circles) := sorted pairs
      Routine.forEach (fun circle ↦ do
        warn name (shown file ++ ": input contains a loop:".toList)
        Routine.forEach (warn name) circle) circles
      emitLines name names
      return if circles = [] then 0 else 1

end ContractBuild.Utility
