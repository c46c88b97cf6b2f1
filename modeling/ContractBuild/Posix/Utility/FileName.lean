import ContractBuild.Posix.Utility.Basic

/-!
# Names of files

Taking paths apart, and following links to where they lead.
-/

namespace ContractBuild.Utility

/-! ## Parts of paths -/

/-- A path without the slashes at its end; one that consists of slashes becomes a single one. -/
def withoutSlashes (cs : Chars) : Chars :=
  match cs.reverse.dropWhile (· = '/') with
  | [] => cs.take 1
  | kept => kept.reverse

/-- The last name of a path. -/
def lastName (cs : Chars) : Chars :=
  let cs := withoutSlashes cs
  if cs = ['/'] then cs else (cs.reverse.takeWhile (· ≠ '/')).reverse

/-- What stands in front of the last name of a path. -/
def directoryPart (cs : Chars) : Chars :=
  match (withoutSlashes cs).reverse.dropWhile (· ≠ '/') with
  | [] => ['.']
  | kept => withoutSlashes kept.reverse

/-- A name without an ending, unless it consists of that. -/
def withoutEnding (ending name : Chars) : Chars :=
  if ending.isSuffixOf name && ending ≠ name then name.take (name.length - ending.length)
  else name

/-- A name in a directory. -/
def inDirectory (dir name : Chars) : Chars :=
  if dir.getLast? = some '/' then dir ++ name else dir ++ '/' :: name

/-- How the end of an output line is marked. -/
def lineEnd (c : Call) (letter : Char) : Chars := if c.has letter then ['\x00'] else ['\n']

/-- Writes the last names of paths. -/
def basename : Program := fun args _ ↦ do
  let name := args.headD []
  let c ← readCall name 1 (plainFlags [('a', "multiple"), ('z', "zero")] ++
    valueFlags [('s', "suffix")]) false args.tail
  let isMany := c.has 'a' || c.has 's'
  match c.operands with
  | [] => missingOperand name 1
  | paths@(path :: rest) =>
    match isMany, rest with
    | false, _ :: extra :: _ => extraOperand name 1 extra
    | false, ending =>
      emit name (withoutEnding (ending.headD []) (lastName path) ++ lineEnd c 'z')
      return 0
    | true, _ =>
      emit name (paths.flatMap fun p ↦
        withoutEnding ((c.value? 's').getD []) (lastName p) ++ lineEnd c 'z')
      return 0

/-- Writes what stands in front of the last names of paths. -/
def dirname : Program := fun args _ ↦ do
  let name := args.headD []
  let c ← readCall name 1 (plainFlags [('z', "zero")]) false args.tail
  if c.operands = [] then missingOperand name 1
  emit name (c.operands.flatMap fun p ↦ directoryPart p ++ lineEnd c 'z')
  return 0

/-! ## Following links -/

/-- Which names of a path must exist. -/
inductive Demand
  /-- All of them. -/
  | all
  /-- All but the last one. -/
  | allButLast
  /-- None. -/
  | none
  deriving DecidableEq, Repr

/-- The location of a path of which names may be missing.  Every step goes to a shorter path. -/
def locationOf (h : Host) : Nat → Path → Except IoError Location
  | 0, _ => .error .notFound
  | n + 1, p =>
    match h.locate p with
    | .ok (.entry l _) | .ok (.vacant l) => .ok l
    | .error e =>
      match p.parent?, p.lastStep? with
      | some above, some (.enter name) =>
        if above.raw = [] then .error e else do return (← locationOf h n above) ++ [name]
      | some above, some .up => do return (← locationOf h n above).dropLast
      | _, _ => .error e

/-- The path without links to where a path leads. -/
def resolved (h : Host) (demand : Demand) (file : Chars) : Except IoError Chars := do
  let p := Chars.toPath file
  let l ← match demand, h.locate p with
    | .all, .ok (.entry l _) => .ok l
    | .all, .ok (.vacant _) => .error .notFound
    | .allButLast, .ok (.entry l _) | .allButLast, .ok (.vacant l) => .ok l
    | .none, _ => if p.raw = [] then .error .notFound else locationOf h (p.raw.length + 1) p
    | _, .error e => .error e
  return Chars.ofPath (.ofLocation l)

/-- The demand that the last of some options makes. -/
def demandOf (c : Call) (usual : Demand) : Demand :=
  match c.lastOf? ['e', 'f', 'm', 'E'] with
  | some 'e' => .all
  | some 'm' => .none
  | some _ => .allButLast
  | none => usual

/-- The target of a link. -/
def linkTarget (h : Host) (file : Chars) : Except IoError Chars := do
  match ← h.locateLink (Chars.toPath file) with
  | .entry _ (.link k) => .ok (Chars.ofPath k.target)
  | .entry .. => .error .invalid
  | .vacant _ => .error .notFound

/-- Writes a result for every path.  The value is the status. -/
def writeEach (name : Chars) (isQuiet : Bool) (terminator : Chars)
    (result : Host → Chars → Except IoError Chars) (paths : List Chars) : Routine Nat :=
  forStatus (fun path ↦ do
    match ← Routine.look fun h ↦ result h path with
    | .ok cs =>
      emit name (cs ++ terminator)
      return 0
    | .error e =>
      if !isQuiet then warn name (because (shown path) e)
      return 1) paths

/-- Writes the targets of links, or where paths lead. -/
def readlink : Program := fun args _ ↦ do
  let name := args.headD []
  let c ← readCall name 1 (plainFlags [('f', "canonicalize"), ('e', "canonicalize-existing"),
    ('m', "canonicalize-missing"), ('n', "no-newline"), ('q', "quiet"), ('s', "silent"),
    ('v', "verbose"), ('z', "zero")]) true args.tail
  if c.operands = [] then missingOperand name 1
  let isPlain := (c.lastOf? ['e', 'f', 'm']).isNone
  let terminator := if c.has 'n' && c.operands.length = 1 then [] else lineEnd c 'z'
  let isQuiet := !c.has 'v'
  if isPlain then writeEach name isQuiet terminator linkTarget c.operands
  else writeEach name isQuiet terminator (resolved · (demandOf c .allButLast)) c.operands

/-- The names by which one location is reached from another. -/
def relativeTo (base l : Location) : Chars :=
  let common := ((base.zip l).takeWhile fun (a, b) ↦ a = b).length
  let names := List.replicate (base.length - common) "..".toList ++
    (l.drop common).map Chars.ofBytes
  if names = [] then ['.'] else Chars.join ['/'] names

/-- Whether what stands before some steps of a path must be a directory, where slashes may end the
path. -/
def needsDirectory (endsInSlash : Bool) : List Step → Bool
  | [] => endsInSlash
  | .stay :: rest => rest = [] || needsDirectory endsInSlash rest
  | .up :: _ => true
  | .enter _ :: _ => false

/-- The location that some steps lead to from another one, where links are taken as what they are.
-/
def steppedFrom (h : Host) (demand : Demand) (endsInSlash : Bool) :
    Location → List Step → Except IoError Location
  | l, [] => .ok l
  | l, .stay :: rest => steppedFrom h demand endsInSlash l rest
  | l, .up :: rest => steppedFrom h demand endsInSlash l.dropLast rest
  | l, .enter n :: rest =>
    let m := l ++ [n]
    let next := steppedFrom h demand endsInSlash m rest
    let isLenient := fun (e : IoError) ↦
      demand = .allButLast && e = .notFound && rest.all (· = .stay)
    let found := h.entry (.ofLocation m)
    if demand = .none then next
    else if needsDirectory endsInSlash rest then
      match found with
      | .ok (_, .directory _) => next
      | .ok _ => .error .notADirectory
      | .error e => if isLenient e && rest = [] then next else .error e
    else if rest ≠ [] then next
    else match found with
      | .ok _ => next
      | .error e => if isLenient e then next else .error e

/-- The location of a path where links are taken as what they are. -/
def steppedLocation (h : Host) (demand : Demand) (file : Chars) : Except IoError Location := do
  let p := Chars.toPath file
  if file = [] then .error .notFound
  let start ← if file.head? = some '/' then .ok [] else match h.here? with
    | some l => .ok l
    | none => .error .notFound
  steppedFrom h demand p.endsInSlash start p.steps

/-- How the links of a path are taken. -/
inductive LinkReading
  /-- They are followed. -/
  | physical
  /-- They are taken as what they are, and followed in what comes of that. -/
  | logical
  /-- They are taken as what they are. -/
  | plain
  deriving DecidableEq

/-- The location that a path leads to. -/
def LinkReading.location (r : LinkReading) (h : Host) (demand : Demand) (file : Chars) :
    Except IoError Location := do
  let names := fun (cs : Chars) ↦ (Chars.toPath cs).steps.filterMap fun
    | .enter n => some n
    | _ => none
  match r with
  | .physical => return names (← resolved h demand file)
  | .logical => do
    let l ← steppedLocation h demand file
    return names (← resolved h demand (Chars.ofPath (.ofLocation l)))
  | .plain => steppedLocation h demand file

/-- Writes where paths lead. -/
def realpath : Program := fun args _ ↦ do
  let name := args.headD []
  let c ← readCall name 1 (plainFlags [('e', "canonicalize-existing"),
    ('m', "canonicalize-missing"), ('L', "logical"), ('P', "physical"),
    ('q', "quiet"), ('s', "no-symlinks"), ('\x01', "strip"), ('z', "zero")] ++
    valueFlags [('\x02', "relative-to"), ('\x03', "relative-base")]) true args.tail
  if c.operands = [] then missingOperand name 1
  let demand := demandOf c .allButLast
  let reading : LinkReading := match c.lastOf? ['s', '\x01', 'L', 'P'] with
    | some 'L' => .logical
    | some 's' | some '\x01' => .plain
    | _ => .physical
  let place := fun (path : Chars) ↦ do
    match ← Routine.look fun h ↦ do
        let l ← reading.location h demand path
        if demand == Demand.all && !h.isDirectory (.ofLocation l) then .error .notADirectory
        else .ok l with
    | .ok l => pure (some l)
    | .error e => fail name 1 (because (shown path) e)
  let base ← match c.value? '\x03' with
    | some path => place path
    | none => pure none
  let start ← match c.value? '\x02' with
    | some path => place path
    | none => pure base
  let (base, start) : Option Location × Option Location := match base, start with
    | some b, some s => if b.isPrefixOf s then (some b, some s) else (some s, none)
    | _, _ => (base, start)
  writeEach name (c.has 'q') (lineEnd c 'z') (fun h path ↦ do
    let l ← reading.location h demand path
    match start with
    | some s =>
      if base.all (·.isPrefixOf l) then return relativeTo s l
      else return Chars.ofPath (.ofLocation l)
    | none => return Chars.ofPath (.ofLocation l)) c.operands

/-- Writes the path of the current directory. -/
def pwd : Program := fun args env ↦ do
  let name := args.headD []
  let c ← readCall name 1 (plainFlags [('L', "logical"), ('P', "physical")]) true args.tail
  if c.operands ≠ [] then warn name "ignoring non-option arguments".toList
  let said := Image.valueIn? env "PWD".toList
  let isRight := fun (h : Host) (cs : Chars) ↦
    cs.head? = some '/' && h.sameEntry (Chars.toPath cs) (Chars.toPath ['.'])
  match c.lastOf? ['L', 'P'], said, ← Routine.look fun h ↦ (h.currentDir, said.any (isRight h)) with
  | some 'L', some cs, (_, true) =>
    emit name (Chars.line cs)
    return 0
  | _, _, (.ok p, _) =>
    emit name (Chars.line (Chars.ofPath p))
    return 0
  | _, _, (.error e, _) => fail name 1 (because "couldn't find directory entry".toList e)

/-- The parts of a path with slashes at its end. -/
example : (lastName "a/b//".toList, directoryPart "a/b//".toList, directoryPart "/a".toList) =
    (['b'], ['a'], ['/']) := by decide +kernel

end ContractBuild.Utility
