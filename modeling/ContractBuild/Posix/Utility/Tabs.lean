import ContractBuild.Posix.Utility.Field

/-!
# Tabs

A tab goes on to the next tab stop.  Tabs are replaced by blanks, and blanks that end at tab stops
by tabs.
-/

namespace ContractBuild.Utility

/-- Where tab stops are. -/
structure TabStops where
  /-- The columns of the first ones. -/
  columns : List Nat
  /-- The distance of those behind, which lie at its multiples, if there are any. -/
  multiple : Option Nat
  /-- The distance of those behind from the last one given, if there are any. -/
  distance : Option Nat

namespace TabStops

/-- A tab stop every eight columns. -/
def usual : TabStops := ⟨[], some 8, none⟩

/-- The first tab stop behind a column. -/
def next? (t : TabStops) (column : Nat) : Option Nat :=
  match t.columns.find? (column < ·), t.multiple, t.distance with
  | some k, _, _ => some k
  | none, some n, _ => some (column + (n - column % n))
  | none, none, some n => some (column + (n - (column - t.columns.getLast?.getD 0) % n))
  | none, none, none => none

/-- The tab stops that are given one after the other, where a single one stands for its
multiples. -/
def ofColumns (t : TabStops) : TabStops :=
  match t.columns, t.multiple, t.distance with
  | [], none, none => usual
  | [], none, some n => ⟨[], some n, none⟩
  | [n], none, none => ⟨[], some n, none⟩
  | _, _, _ => t

/-- What is wrong with tab stops. -/
def fault? (t : TabStops) : Option String :=
  if t.columns.contains 0 then some "tab size cannot be 0"
  else if (t.columns.zip (t.columns.drop 1)).any fun p ↦ p.2 ≤ p.1 then
    some "tab sizes must be ascending"
  else none

/-- Reads tab stops; the message says what is wrong with them.  Every step takes an element. -/
def readElements (t : TabStops) : List Chars → Except Chars TabStops
  | [] => .ok t
  | [] :: es => readElements t es
  | e :: es =>
    let (sign, digits) := match e with
      | '/' :: ds => (some '/', ds)
      | '+' :: ds => (some '+', ds)
      | ds => (none, ds)
    let isOver := t.multiple.isSome || t.distance.isSome
    match Chars.toNat? digits, sign with
    | none, _ =>
      .error ("tab size contains invalid character(s): ".toList ++
        cited (digits.dropWhile Char.isDigit))
    | some n, some '/' =>
      if isOver then .error "'/' specifier only allowed with the last value".toList
      else readElements { t with multiple := if n = 0 then none else some n } es
    | some n, some _ =>
      if isOver then .error "'+' specifier only allowed with the last value".toList
      else readElements { t with distance := if n = 0 then none else some n } es
    | some n, none =>
      if t.multiple.isSome then .error "'/' specifier only allowed with the last value".toList
      else if t.distance.isSome then
        .error "'+' specifier only allowed with the last value".toList
      else readElements { t with columns := t.columns ++ [n] } es

/-- The tab stops that the arguments of options ask for. -/
def read (name : Chars) (ws : List Chars) : Routine TabStops := do
  let elements := ws.flatMap (Chars.splitOn fun c ↦ c = ',' || c = ' ' || c = '\t')
  match readElements ⟨[], none, none⟩ elements with
  | .error message => fail name 1 message
  | .ok t =>
    match t.fault? with
    | some message => fail name 1 message.toList
    | none => return t.ofColumns

end TabStops

/-! ## From tabs to blanks -/

/-- A line with blanks in the place of tabs from a column on, in which more tabs may be replaced.
The result comes with its last character first. -/
def expanded (t : TabStops) (isWhole : Bool) : Bool → Nat → Chars → Chars → Chars
  | _, _, done, [] => done
  | false, _, done, cs => cs.reverse ++ done
  | true, column, done, c :: cs =>
    let goesOn := isWhole || c = ' ' || c = '\t'
    match c with
    | '\t' =>
      let stop := (t.next? column).getD (column + 1)
      expanded t isWhole goesOn stop (List.replicate (stop - column) ' ' ++ done) cs
    | '\x08' => expanded t isWhole goesOn (column - 1) (c :: done) cs
    | c => expanded t isWhole goesOn (column + 1) (c :: done) cs

/-- The old form of tab stops, digits behind a dash, in the form of today. -/
def withOldStops (args : List Chars) : List Chars := args.map fun a ↦ match a with
  | '-' :: d :: ds =>
    if d.isDigit && ds.all fun c ↦ c.isDigit || c = ',' then '-' :: 't' :: d :: ds else a
  | a => a

/-- Replaces tabs by blanks. -/
def expand : Program := fun args _ ↦ do
  let name := args.headD []
  let c ← readCall name 1 (valueFlags [('t', "tabs")] ++ plainFlags [('i', "initial")]) true
    (withOldStops args.tail)
  let t ← TabStops.read name ((c.flags.filter (·.1 = 't')).map (·.2))
  forRecords name '\n' (inputsOf c.operands) fun line ↦
    emit name (expanded t (!c.has 'i') true 0 [] line).reverse

/-! ## From blanks to tabs -/

/-- How far replacing blanks has come. -/
structure Contraction where
  /-- What has been written, the last character first. -/
  done : Chars
  /-- The blanks that may be replaced, the last one first. -/
  pending : Chars
  /-- The column. -/
  column : Nat
  /-- Whether blanks are still replaced. -/
  isActive : Bool
  /-- Whether the last character was a blank. -/
  isBehindBlank : Bool
  /-- Whether the first of the blanks at hand ends at a tab stop. -/
  isSingle : Bool

namespace Contraction

/-- The start of a line. -/
def start : Contraction := ⟨[], [], 0, true, true, false⟩

/-- Writes the blanks at hand. -/
def flush (s : Contraction) : Contraction :=
  let pending := if 1 < s.pending.length && s.isSingle then s.pending.dropLast ++ ['\t']
    else s.pending
  { s with done := pending ++ s.done, pending := [], isSingle := false }

/-- Writes a character behind the blanks at hand. -/
def put (isWhole : Bool) (s : Contraction) (c : Char) : Contraction :=
  let isBlank := c = ' ' || c = '\t'
  let s := s.flush
  { s with done := c :: s.done, isBehindBlank := isBlank, isActive := isWhole || isBlank }

/-- The blanks at hand once a tab takes their place: only one that ends at a tab stop stays. -/
def keptBlank (s : Contraction) : Contraction :=
  { s with pending := if s.isSingle then ['\t'] else [] }

/-- Takes one more character. -/
def step (t : TabStops) (isWhole : Bool) (s : Contraction) (c : Char) : Contraction :=
  if !s.isActive then { s with done := c :: s.done }
  else match c, t.next? s.column with
    | ' ', none | '\t', none =>
      let s := s.flush
      { s with done := c :: s.done, isActive := false }
    | '\t', some stop =>
      let first := if s.pending = [] then s else { s with pending := s.pending.dropLast ++ ['\t'] }
      ({ first.keptBlank with column := stop }.put isWhole '\t')
    | ' ', some stop =>
      let s := { s with column := s.column + 1 }
      if s.isBehindBlank && s.column = stop then s.keptBlank.put isWhole '\t'
      else { s with
        isSingle := s.isSingle || s.column = stop
        pending := ' ' :: s.pending
        isBehindBlank := true }
    | '\x08', _ => { s with column := s.column - 1 }.put isWhole c
    | c, _ => { s with column := s.column + 1 }.put isWhole c

/-- A line with tabs in the place of blanks. -/
def line (t : TabStops) (isWhole : Bool) (cs : Chars) : Chars :=
  (cs.foldl (step t isWhole) start).flush.done.reverse

end Contraction

/-- Replaces blanks by tabs. -/
def unexpand : Program := fun args _ ↦ do
  let name := args.headD []
  let c ← readCall name 1 (valueFlags [('t', "tabs")] ++ plainFlags [('a', "all"),
    ('\x01', "first-only")]) true (withOldStops args.tail)
  let t ← TabStops.read name ((c.flags.filter (·.1 = 't')).map (·.2))
  let isWhole := (c.has 'a' || c.has 't') && !c.has '\x01'
  forRecords name '\n' (inputsOf c.operands) fun line ↦
    emit name (Contraction.line t isWhole line)

/-- Blanks that end at a tab stop become a tab. -/
example : Contraction.line .usual false "        a       b".toList = "\ta       b".toList ∧
    (expanded .usual true true 0 [] "a\tb".toList).reverse = "a       b".toList := by
  decide +kernel

end ContractBuild.Utility
