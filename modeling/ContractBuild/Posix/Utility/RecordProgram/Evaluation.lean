import ContractBuild.Posix.Utility.RecordProgram.State
import ContractBuild.Posix.Utility.Times

/-!
# Running record programs

Expressions and statements are worked off with fuel for the parts in them, so that the definition is
structural; no program gets as deep as that.  Every turn of a loop and every call lets other
processes go on.
-/

namespace ContractBuild.Utility.RecordProgram

/-! ## Functions on numbers and texts -/

/-- What is calculated from two numbers. -/
def Calculation.apply (c : Calculation) (x y : Float) : Float :=
  match c with
  | .sum => x + y
  | .difference => x - y
  | .product => x * y
  | .quotient => x / y
  | .remainder => Floating.remainder x y
  | .power => Float.pow x y

/-- Whether values that compare in a way are in a relation. -/
def Relation.holds (r : Relation) (o : Ordering) : Bool :=
  match r with
  | .less => o = .lt
  | .atMost => o ≠ .gt
  | .equal => o = .eq
  | .unequal => o ≠ .eq
  | .atLeast => o ≠ .lt
  | .greater => o = .gt

/-- A part of a text: so many characters from a place on, which is counted from one. -/
def substring (cs : Chars) (start : Int) (count : Option Int) : Chars :=
  let first := max 1 start
  match count with
  | none => cs.drop (first - 1).toNat
  | some n => (cs.drop (first - 1).toNat).take (start + n - first).toNat

/-- Where a text starts in another one, counted from one; zero if it does not. -/
def indexOf (word : Chars) : Nat → Chars → Nat
  | k, cs =>
    if word.isPrefixOf cs then k
    else match cs with
      | [] => 0
      | _ :: cs => indexOf word (k + 1) cs

/-- A piece of the text that takes the place of a match. -/
inductive Piece
  /-- A character. -/
  | char (c : Char)
  /-- The match. -/
  | found
  deriving DecidableEq, Repr

/-- The pieces of a text behind so many backslashes.  An ampersand stands for the match unless an
odd number of backslashes is in front of it; half of these stay. -/
def pieces : Nat → Chars → List Piece
  | k, '\\' :: cs => pieces (k + 1) cs
  | k, '&' :: cs =>
    List.replicate (k / 2) (.char '\\') ++
      (if k % 2 = 0 then .found else .char '&') :: pieces 0 cs
  | k, c :: cs => List.replicate k (.char '\\') ++ .char c :: pieces 0 cs
  | k, [] => List.replicate k (.char '\\')

/-- The text that takes the place of a match. -/
def filled (ps : List Piece) (found : Chars) : Chars := ps.flatMap fun
  | .char c => [c]
  | .found => found

/-- The text in which matches have been replaced, and how many were; so many are at most.  A match
of nothing behind another match does not count.  Every step takes a character or a match. -/
def replaceFrom (r : Regex) (ps : List Piece) :
    Nat → Nat → Nat → Bool → Chars → Chars → Chars × Nat
  | 0, _, _, _, done, cs => (done.reverse ++ cs, 0)
  | n + 1, limit, k, isBehind, done, cs =>
    let spot : Regex.Spot := ⟨k, if k = 0 then none else some ' ', cs, []⟩
    let pass := fun (limit : Nat) (done : Chars) ↦ match cs with
      | [] => (done.reverse, 0)
      | c :: cs => replaceFrom r ps n limit (k + 1) false (c :: done) cs
    if limit = 0 then (done.reverse ++ cs, 0)
    else match Regex.matchAt? false r spot with
      | none => pass limit done
      | some m =>
        let new := filled ps (cs.take (m.stop - k))
        if m.stop = k then
          if isBehind then pass limit done
          else
            let (text, count) := pass (limit - 1) (new.reverse ++ done)
            (text, count + 1)
        else
          let (text, count) :=
            replaceFrom r ps n (limit - 1) m.stop true (new.reverse ++ done) m.rest
          (text, count + 1)

/-- The text in which matches have been replaced, and how many were. -/
def replaced (r : Regex) (new cs : Chars) (limit : Nat) : Chars × Nat :=
  replaceFrom r (pieces 0 new) (2 * cs.length + 2) limit 0 false [] cs

/-! ### Random numbers -/

/-- How many numbers the next random number comes from. -/
def randomCount : Nat := 31

/-- The next number of a sequence, and the numbers that the next ones come from, the latest first.
-/
def nextRandom (numbers : List Nat) : Nat × List Nat :=
  let new := ((numbers.getD 2 0) + (numbers.getD (randomCount - 1) 0)) % 4294967296
  (new >>> 1, new :: numbers.take (randomCount - 1))

/-- The numbers of a sequence behind so many. -/
def passRandom : Nat → List Nat → List Nat
  | 0, numbers => numbers
  | n + 1, numbers => passRandom n (nextRandom numbers).2

/-- The first numbers of a sequence from one on, the latest first. -/
def startRandom : Nat → Nat → List Nat → List Nat
  | 0, _, numbers => numbers
  | n + 1, last, numbers =>
    let new := 16807 * last % 2147483647
    startRandom n new (new :: numbers)

/-- The numbers that random numbers come from, for a seed. -/
def seeded (seed : Nat) : List Nat :=
  let first := if seed % 4294967296 = 0 then 1 else seed % 4294967296
  let numbers := startRandom (randomCount - 1) (first % 2147483647) [first]
  passRandom (10 * randomCount)
    ((numbers.reverse.take 3).reverse ++ numbers.take (randomCount - 3))

/-! ## Evaluation -/

/-- What gets a value, with the parts that are needed to find it worked off. -/
inductive Target
  /-- A variable. -/
  | variable (v : Variable)
  /-- An element of a table. -/
  | element (id : Nat) (k : Key)
  /-- A field. -/
  | field (n : Int)

/-- The value of a target. -/
def Target.value (x : Setting) : Target → Action Value
  | .variable v => valueOf v
  | .element id k => fromTable id (·.get .unset k)
  | .field n => RecordProgram.field x n

/-- Gives a target a value. -/
def Target.set (x : Setting) (new : Value) : Target → Action Unit
  | .variable v => assign x v new
  | .element id k => onTable id (·.set k new)
  | .field n => setField x n new

/-- Gives a record to a target. -/
def Target.receive (x : Setting) (cs : Chars) (t : Target) : Action Unit := t.set x (.input cs)

/-- The slot for an argument that is a variable alone. -/
def sharedSlot (v : Variable) : Action Slot := do
  match ← slotOf v, v with
  | .value .unset, .shared i =>
    if i < specialNames.length then return .value (← valueOf v)
    setSlot v (.undecided i)
    return .undecided i
  | .value .unset, .own _ => do
    let id ← Action.modifyGet fun s ↦ (s.tables.size, { s with tables := s.tables.push .empty })
    setSlot v (.undecided id)
    return .undecided id
  | .value _, _ => return .value (← valueOf v)
  | slot, _ => return slot

/-- Notes a match, and gives the place where it starts. -/
def noteMatch (start : Nat) (length : Int) : Action Value := do
  setShared matchStart (.ofNat start)
  setShared matchLength (.number (Floating.ofInt length))
  return .ofNat start

/-- Whether a pattern is found in a text. -/
def isFound (r : Regex) (cs : Chars) : Bool := (Regex.search false r cs 0).isSome

/-- The next random number, between zero and one. -/
def drawRandom : Action Value := do
  let (seed, numbers) ← Action.look (·.random)
  let numbers ← (if numbers = [] then do
    let time := (← Routine.now) / 1000
    return seeded time
  else return numbers : Action (List Nat))
  let (new, numbers) := nextRandom numbers
  Action.modify fun s ↦ { s with random := (seed, numbers) }
  return .number (Float.ofNat new / 2147483647)

/-- Takes another seed for random numbers; the value is the one before. -/
def plantSeed (seed : Float) : Action Value := do
  let (old, _) ← Action.look (·.random)
  Action.modify fun s ↦ { s with random := (seed, seeded (integerOf seed % 4294967296).toNat) }
  return .number old

/-- Runs a command; the value is its code. -/
def runCommand (x : Setting) (command : Chars) : Action Value := do
  flushAll
  let child ← startCommand x.programs Image.shellPath command x.env (pure ())
  return .number (Floating.ofInt (Sink.close.codeOfStatus (← waitFor child)))

/-- The seconds of a date and a time of day in numbers. -/
def secondsOf (zone : Zone) (cs : Chars) : Int :=
  match (Chars.splitOn (· = ' ') cs |>.filter (· ≠ [])).map fun w ↦
      (Numeral.read 10 w).map (·.1) with
  | some y :: some mo :: some d :: some h :: some mi :: some s :: _ =>
    let months := y * 12 + (mo - 1)
    Civil.dayNumber (months.fdiv 12) ((months.fmod 12).toNat + 1) d * Civil.daySeconds +
      (h * 60 + mi) * 60 + s - zone.offset
  | _ => -1

/-- The value of a function of texts and numbers. -/
def Builtin.ofValues (x : Setting) (f : Builtin) (vs : List Value) : Action Value := do
  let at0 := vs.headD .unset
  let at1 := vs.getD 1 .unset
  let onNumber := fun (g : Float → Float) ↦ (pure (.number (g at0.toNumber)) : Action Value)
  match f with
  | .substring =>
    let cs ← textOf at0
    let count := (vs[2]?).map fun v ↦ integerOf v.toNumber
    return .text (RecordProgram.substring cs (integerOf at1.toNumber) count)
  | .index => return .ofNat (indexOf (← textOf at1) 1 (← textOf at0))
  | .format =>
    let format ← textOf at0
    let shown := shownIn (← Action.look textFormatOf) "sprintf" format (vs.drop 1)
    match shown.complaint with
    | some message => fault x message
    | none => return .text shown.output
  | .sine => onNumber Float.sin
  | .cosine => onNumber Float.cos
  | .arctangent => return .number (Float.atan2 at0.toNumber at1.toNumber)
  | .exponential => onNumber Float.exp
  | .logarithm => onNumber Float.log
  | .root => onNumber Float.sqrt
  | .whole => onNumber fun y ↦ if y < 0 then Float.ceil y else Float.floor y
  | .random => drawRandom
  | .seed =>
    if vs.isEmpty then plantSeed (Float.ofNat ((← Routine.now) / 1000))
    else plantSeed at0.toNumber
  | .run => runCommand x (← textOf at0)
  | .close => return .number (Floating.ofInt (← closeAll (← textOf at0)))
  | .flush => do
    let name ← textOf at0
    let sinks ← Action.look (·.sinks)
    flushAll
    let isOpen := name = [] || sinks.any (·.name = name)
    return .number (if isOpen then 0 else -1)
  | .lower => return .text ((← textOf at0).map Char.toLower)
  | .upper => return .text ((← textOf at0).map Char.toUpper)
  | .time => return .ofNat ((← Routine.now) / 1000)
  | .timeOf => return .number (Floating.ofInt (secondsOf (zoneIn x.env) (← textOf at0)))
  | .timeText =>
    let format ← if vs.length = 0 then pure "%c".toList else textOf at0
    let seconds ← match vs[1]? with
      | some v => pure (integerOf v.toNumber)
      | none => do pure (((← Routine.now) / 1000 : Nat) : Int)
    let zone := if (vs.getD 2 .unset).isTrue then .universal else zoneIn x.env
    return .text ((Stamp.mk seconds 0 zone).inFormat format)
  | _ => return .unset

mutual

/-- The value of an expression.  Every step goes one part further in. -/
def evaluate (x : Setting) : Nat → Expression → Action Value
  | 0, _ => Action.stop .fail
  | n + 1, e => do
    match e with
    | .number y => return .number y
    | .text cs => return .text cs
    | .pattern r => return .ofBool (isFound r (← textOf (← record)))
    | .value p => do (← target x n p).value x
    | .assign p e =>
      let t ← target x n p
      let v ← evaluate x n e
      t.set x v
      return v
    | .update c p e =>
      let t ← target x n p
      let y := (← evaluate x n e).toNumber
      let v := .number (c.apply (← t.value x).toNumber y)
      t.set x v
      return v
    | .step isUp isBefore p =>
      let t ← target x n p
      let old := (← t.value x).toNumber
      let new := if isUp then old + 1 else old - 1
      t.set x (.number new)
      return .number (if isBefore then old else new)
    | .choice condition first second =>
      if (← evaluate x n condition).isTrue then evaluate x n first else evaluate x n second
    | .disjunction first second =>
      if (← evaluate x n first).isTrue then return .ofBool true
      return .ofBool (← evaluate x n second).isTrue
    | .conjunction first second =>
      if !(← evaluate x n first).isTrue then return .ofBool false
      return .ofBool (← evaluate x n second).isTrue
    | .contains keys t =>
      let k ← key x n keys
      let id ← tableOf t
      return .ofBool (← fromTable id (·.contains k))
    | .found isNegated text pattern =>
      let cs ← textOf (← evaluate x n text)
      let r ← regex x n pattern
      return .ofBool (isFound r cs != isNegated)
    | .compared r first second =>
      let a ← evaluate x n first
      let b ← evaluate x n second
      return .ofBool (r.holds (Value.compare (← Action.look textFormatOf) a b))
    | .joined first second =>
      let a ← textOf (← evaluate x n first)
      let b ← textOf (← evaluate x n second)
      return .text (a ++ b)
    | .calculated c first second =>
      let a := (← evaluate x n first).toNumber
      let b := (← evaluate x n second).toNumber
      return .number (c.apply a b)
    | .negative e => return .number (-(← evaluate x n e).toNumber)
    | .positive e => return .number (← evaluate x n e).toNumber
    | .negation e => return .ofBool !(← evaluate x n e).isTrue
    | .nextRecord p =>
      let t ← place? x n p
      match ← nextMain x, t with
      | none, _ => return .number 0
      | some cs, some t =>
        t.receive x cs
        return .number 1
      | some cs, none =>
        setRecord cs
        return .number 1
    | .nextOfFile file p =>
      let t ← place? x n p
      received x t (← nextRecordFrom x false (← textOf (← evaluate x n file)))
    | .nextOfCommand command p =>
      let command ← textOf (← evaluate x n command)
      let t ← place? x n p
      received x t (← nextRecordFrom x true command)
    | .call function args => call x n function args
    | .builtin f args => builtin x n f args

/-- Gives a record that was asked for to a target, or makes it the record. -/
def received (x : Setting) (t : Option Target) (cs : Option (Option Chars)) : Action Value := do
  match cs, t with
  | none, _ => return .number (-1)
  | some none, _ => return .number 0
  | some (some cs), some t =>
    t.receive x cs
    return .number 1
  | some (some cs), none =>
    setRecord cs
    return .number 1

/-- The target that a place is. -/
def target (x : Setting) : Nat → Place → Action Target
  | 0, _ => Action.stop .fail
  | n + 1, p => do
    match p with
    | .whole v => return .variable v
    | .element t keys =>
      let k ← key x n keys
      return .element (← tableOf t) k
    | .field e => return .field (integerOf (← evaluate x n e).toNumber)

/-- The target that a place is, if there is one. -/
def place? (x : Setting) : Nat → Option Place → Action (Option Target)
  | 0, _ => Action.stop .fail
  | _, none => return none
  | n + 1, some p => some <$> target x n p

/-- The values of expressions. -/
def evaluateAll (x : Setting) : Nat → List Expression → Action (List Value)
  | 0, _ => Action.stop .fail
  | _, [] => return []
  | n + 1, e :: es => do
    let v ← evaluate x n e
    return v :: (← evaluateAll x n es)

/-- The key that expressions stand for. -/
def key (x : Setting) : Nat → List Expression → Action Key
  | 0, _ => Action.stop .fail
  | n + 1, es => do
    match ← evaluateAll x n es with
    | [v] => keyOf v
    | vs =>
      let texts ← Action.forAll textOf vs
      return .text (Chars.join (← sharedText keySeparator) texts)

/-- The pattern that an expression stands for. -/
def regex (x : Setting) : Nat → Expression → Action Regex
  | 0, _ => Action.stop .fail
  | n + 1, e => do
    match e with
    | .pattern r => return r
    | e => patternOf x (← textOf (← evaluate x n e))

/-- What a function gets for its parameters. -/
def parameterSlots (x : Setting) : Nat → List Expression → Action (List Slot)
  | 0, _ => Action.stop .fail
  | _, [] => return []
  | n + 1, e :: es => do
    let slot ← match e with
      | .value (.whole v) => sharedSlot v
      | e => .value <$> evaluate x n e
    return slot :: (← parameterSlots x n es)

/-- The value of a function of the program. -/
def call (x : Setting) : Nat → Nat → List Expression → Action Value
  | 0, _, _ => Action.stop .fail
  | n + 1, k, args => do
    match x.script.functions[k]? with
    | none => return .unset
    | some f =>
      let given := (← parameterSlots x n args).toArray
      let slots := given ++ Array.replicate (f.parameters - given.size) default
      let mark ← Action.look (·.tables.size)
      let before ← Action.look (·.own)
      Action.modify fun s ↦ { s with own := slots }
      (Routine.rest : Routine Unit)
      let result ← Action.attempt (execute x n f.body)
      Action.modify fun s ↦ { s with own := before, tables := s.tables.shrink mark }
      match result with
      | .ok () => return .unset
      | .error (.giveBack v) => return v
      | .error i => Action.stop i

/-- The value of a function that every program has. -/
def builtin (x : Setting) : Nat → Builtin → List Expression → Action Value
  | 0, _, _ => Action.stop .fail
  | n + 1, f, args => do
    match f, args with
    | .length, [] => return .ofNat (← textOf (← record)).length
    | .length, [.value (.whole v)] =>
      match ← slotOf v with
      | .table id => return .ofNat (← Action.look fun s ↦ (s.tables.getD id .empty).size)
      | _ => return .ofNat (← textOf (← valueOf v)).length
    | .length, e :: _ => return .ofNat (← textOf (← evaluate x n e)).length
    | .split, text :: .value (.whole t) :: rest =>
      let cs ← textOf (← evaluate x n text)
      let fieldEnd ← match rest with
        | [] => Action.look (·.fieldEnd)
        | .pattern r :: _ => pure (.pattern r)
        | e :: _ => fieldEndOf x (← textOf (← evaluate x n e))
      let parts := fieldEnd.fields cs
      let id ← tableOf t
      onTable id fun _ ↦ Table.ofList (parts.map Value.input)
      return .ofNat parts.length
    | .search, text :: pattern :: _ =>
      let cs ← textOf (← evaluate x n text)
      let r ← regex x n pattern
      match Regex.search false r cs 0 with
      | some m => noteMatch (m.start + 1) ((m.stop : Int) - m.start)
      | none => noteMatch 0 (-1)
    | .substitute, [pattern, new, .value p] => substitution x n pattern new p 1
    | .substituteAll, [pattern, new, .value p] => do
      substitution x n pattern new p Routine.turnLimit
    | f, es => f.ofValues x (← evaluateAll x n es)

/-- Replaces matches in the text of a place, so many at most; the value is how many were. -/
def substitution (x : Setting) :
    Nat → Expression → Expression → Place → Nat → Action Value
  | 0, _, _, _, _ => Action.stop .fail
  | n + 1, pattern, new, p, limit => do
    let r ← regex x n pattern
    let new ← textOf (← evaluate x n new)
    let t ← target x n p
    let (cs, count) := replaced r new (← textOf (← t.value x)) limit
    if count ≠ 0 then t.set x (.text cs)
    return .ofNat count

/-- Writes a text to a destination. -/
def send (x : Setting) : Nat → Destination → Chars → Action Unit
  | 0, _, _ => Action.stop .fail
  | _, none, cs => writeOut cs
  | n + 1, some (kind, e), cs => do
    write x kind (← textOf (← evaluate x n e)) cs

/-- Does a statement.  Every step goes one part further in. -/
def execute (x : Setting) : Nat → Statement → Action Unit
  | 0, _ => Action.stop .fail
  | n + 1, st => do
    match st with
    | .nothing => return
    | .block body => executeAll x n body
    | .effect e =>
      let _ ← evaluate x n e
    | .print values target =>
      let vs ← if values.isEmpty then do pure [← record] else evaluateAll x n values
      let format ← sharedText writtenFormat
      let texts := vs.map (·.toText format)
      let between ← sharedText valueSeparator
      let last ← sharedText lineSeparator
      send x n target (Chars.join between texts ++ last)
    | .printf values target =>
      match ← evaluateAll x n values with
      | [] => return
      | v :: vs =>
        let format ← textOf v
        let shown := shownIn (← Action.look textFormatOf) "printf" format vs
        send x n target shown.output
        match shown.complaint with
        | some message => fault x message
        | none => return
    | .branch condition first second =>
      if (← evaluate x n condition).isTrue then execute x n first else execute x n second
    | .loop isDoneFirst condition step body =>
      Action.loop isDoneFirst fun isSure ↦ do
        (Routine.rest : Routine Unit)
        let goesOn ← match isSure, condition with
          | false, some e => do pure (← evaluate x n e).isTrue
          | _, _ => pure true
        if !goesOn then return .inr ()
        match ← Action.attempt (execute x n body) with
        | .error .leave => return .inr ()
        | .ok () | .error .again =>
          match step with
          | some e =>
            let _ ← evaluate x n e
          | none => pure ()
          return .inl false
        | .error i => Action.stop i
    | .each v t body =>
      let id ← tableOf t
      let keys ← fromTable id (·.keys)
      Action.loop keys fun
        | [] => return .inr ()
        | k :: keys => do
          (Routine.rest : Routine Unit)
          assign x v (.text k)
          match ← Action.attempt (execute x n body) with
          | .error .leave => return .inr ()
          | .ok () | .error .again => return .inl keys
          | .error i => Action.stop i
    | .leave => Action.stop .leave
    | .again => Action.stop .again
    | .next => Action.stop .next
    | .nextInput => Action.stop .nextInput
    | .exit none => Action.stop (.exit none)
    | .exit (some e) =>
      Action.stop (.exit (some (integerOf (← evaluate x n e).toNumber % 256).toNat))
    | .giveBack none => Action.stop (.giveBack .unset)
    | .giveBack (some e) => Action.stop (.giveBack (← evaluate x n e))
    | .delete t keys =>
      let k ← key x n keys
      onTable (← tableOf t) (·.erase k)
    | .deleteAll t => onTable (← tableOf t) fun _ ↦ .empty

/-- Does statements one after the other. -/
def executeAll (x : Setting) : Nat → List Statement → Action Unit
  | 0, _ => Action.stop .fail
  | _, [] => return
  | n + 1, st :: sts => do
    execute x n st
    executeAll x n sts

end

/-! ## Rules -/

/-- How deep the parts of a program can be within each other. -/
def depthLimit : Nat := Routine.turnLimit

/-- Whether a rule is for the record. -/
def isMeant (x : Setting) (k : Nat) (r : Rule) : Action Bool := do
  match r.condition with
  | .always => return true
  | .when e => return (← evaluate x depthLimit e).isTrue
  | .between first last =>
    let isInside ← Action.look (·.ranges.contains k)
    let starts ← if isInside then pure true else do
      pure (← evaluate x depthLimit first).isTrue
    if !starts then return false
    let isLast := (← evaluate x depthLimit last).isTrue
    Action.modify fun s ↦ { s with
      ranges := if isLast then s.ranges.filter (· ≠ k) else k :: s.ranges.filter (· ≠ k) }
    return true

/-- Does what the rules ask for with the record, from one on. -/
def applyRules (x : Setting) : Nat → List Rule → Action Unit
  | _, [] => pure ()
  | k, r :: rs => do
    if ← isMeant x k r then execute x depthLimit r.body
    applyRules x (k + 1) rs

/-- Does what the rules ask for with every record. -/
def applyToRecords (x : Setting) : Action Unit :=
  Action.loop () fun () ↦ do
    match ← nextMain x with
    | none => return .inr ()
    | some cs =>
      setRecord cs
      match ← Action.attempt (applyRules x 0 x.script.rules.toList) with
      | .ok () | .error .next => return .inl ()
      | .error .nextInput =>
        leaveMain
        return .inl ()
      | .error i => Action.stop i

/-- Matches are replaced. -/
example : replaced (.repeated (.one (.char 'l')) 1 none) "<&\\&>".toList "hello".toList 9 =
    ("he<ll&>o".toList, 1) := by decide +kernel

end ContractBuild.Utility.RecordProgram
