import ContractBuild.Posix.Utility.Find.Expression
import ContractBuild.Posix.Utility.Listing

/-!
# Finding entries

The entries below some paths are met one after the other, and an expression is decided for each of
them.
-/

namespace ContractBuild.Utility

namespace Find

/-! ## Conditions -/

/-- What has come of the search so far. -/
structure Progress where
  /-- Whether what the entry holds is left out. -/
  isPruned : Bool
  /-- Whether the search is over. -/
  isOver : Bool
  /-- The paths for programs that are run for all, each with the number of the program. -/
  collected : List (Nat × Chars)
  /-- The status. -/
  status : Nat

/-- Whether the age of a moment is as it is asked for, in units of so many seconds. -/
def isAged (now m : Moment) (unit : Nat) (a : Amount) : Bool :=
  let window := Moment.ofSeconds unit
  let isDay := unit = Civil.daySeconds
  let origin := now - (if isDay then window else 0) - Moment.ofSeconds (unit * a.number : Nat)
  match a.order with
  | .eq => origin < m && m ≤ origin + window
  | .lt => origin + (if isDay then Moment.ofSeconds (unit - 1 : Nat) else 0) < m
  | .gt => m < origin

/-- Whether a condition holds for an entry. -/
def holds (x : Surroundings) (h : Host) (e : Found) : Primary → Bool
  | .always value => value
  | .name isFolded p =>
    let name := lastName e.path
    Glob.matchesText p (if isFolded then name.map Char.toLower else name)
  | .path isFolded p =>
    Glob.matchesText p (if isFolded then e.path.map Char.toLower else e.path)
  | .target isFolded p => match e.node with
    | .link k =>
      let path := Chars.ofPath k.target
      Glob.matchesText p (if isFolded then path.map Char.toLower else path)
    | _ => false
  | .expression isFolded r =>
    (Regex.ways isFolded r.hasReferences r (Regex.Spot.start e.path)).any (·.rest.isEmpty)
  | .kind letters => letters.contains (kindLetter e.node)
  | .targetKind letters =>
    let letter := targetLetter h e
    letters.contains (if letter = 'N' || letter = 'L' then 'l' else letter)
  | .isEmpty => match e.node with
    | .file f => f.content.isEmpty
    | .directory _ => (h.tree.names e.location).isEmpty
    | _ => false
  | .size unit a => a.holds ((EntryFacts.sizeOf e.node + unit - 1) / unit)
  | .names a => a.holds (EntryFacts.namesOf h.tree e.location e.node)
  | .identity a => a.holds (EntryFacts.numberOf e.node)
  | .age byUse unit a => isAged x.now (timeOf byUse e.node) unit a
  | .mode sign bits =>
    let mode := modeOf e.node &&& PermissionChange.allBits
    match sign with
    | none => mode = bits
    | some '-' => mode &&& bits = bits
    | some _ => bits = 0 || mode &&& bits ≠ 0
  | .newer byUse m => m < timeOf byUse e.node
  | .same l n => isSame (.ok (e.location, e.node)) (.ok (l, n))
  | .allows what => match h.tree.locate (some []) ⟨true, false⟩ (.ofLocation e.location) with
    | .ok (.entry _ n) => n.allows what
    | _ => false
  | _ => true
where
  /-- The time of an entry that counts. -/
  timeOf (byUse : Bool) (n : Node) : Moment := if byUse then n.accessed else n.modified

/-! ## Actions -/

/-- The words of a program with a path in the place of braces. -/
def withPath (path : Chars) (words : List Chars) : List Chars :=
  words.map fun w ↦ go path (w.length + 1) w
where
  /-- A word with a path in the place of braces.  Every step takes a character. -/
  go (path : Chars) : Nat → Chars → Chars
    | 0, _ => []
    | _, [] => []
    | n + 1, '\x7b' :: '\x7d' :: cs => path ++ go path n cs
    | n + 1, c :: cs => c :: go path n cs

/-- Runs a program for paths; the value says whether it succeeded. -/
def runFor (programs : Chars → Option Program) (name : Chars) (env words : List Chars)
    (dir : Option Chars) : Routine Bool := do
  let prepare : Routine Unit := match dir with
    | none => pure ()
    | some d => do
      let _ ← Routine.changeDirectory (Chars.toPath d)
  match ← runToEnd programs words env prepare with
  | .ok status => return status = 0
  | .error e =>
    warn name (because (cited (words.headD [])) e)
    return false

/-- How actions are done. -/
structure Acting where
  /-- The name of the program. -/
  name : Chars
  /-- The programs that can be run. -/
  programs : Chars → Option Program
  /-- The environment. -/
  env : List Chars
  /-- What conditions compare with. -/
  around : Surroundings
  /-- The files that are written, each with its number. -/
  files : List (Chars × Nat)

/-- Writes to a file or else to the output. -/
def Acting.put (k : Acting) (file : Option Chars) (cs : Chars) : Routine Unit :=
  match file.bind fun f ↦ k.files.lookup f with
  | some n => do let _ ← Routine.print n cs
  | none => emit k.name cs

/-- An entry with everything that is known about it. -/
def listed (h : Host) (zone : Zone) (now : Moment) (e : Found) : Chars :=
  let n := e.node
  let m := n.modified
  let isNear := m ≤ now && now - Moment.ofSeconds Listing.halfYear < m
  let right := fun (width : Nat) (k : Nat) ↦ Listing.rightIn width (Chars.ofNat k)
  let left := fun (cs : Chars) ↦ cs ++ List.replicate (8 - cs.length) ' '
  let name := NameStyle.escape.apply false false [' ']
  Chars.line (right 9 (EntryFacts.numberOf n) ++ ' ' :: right 6 (EntryFacts.roomOf n) ++
    ' ' :: EntryFacts.modeText n ++ ' ' :: right 3 (EntryFacts.namesOf h.tree e.location n) ++
    ' ' :: left "root".toList ++ ' ' :: left "root".toList ++ ' ' ::
    right 8 (EntryFacts.sizeOf n) ++ ' ' ::
    (stampOf zone m).inFormat (if isNear then "%b %e %H:%M" else "%b %e  %Y").toList ++
    ' ' :: name e.path ++ match n with
      | .link t => " -> ".toList ++ name (Chars.ofPath t.target)
      | _ => [])

/-- Does an action, or decides a condition. -/
def Acting.perform (k : Acting) (e : Found) (s : Progress) (p : Primary) :
    Routine (Progress × Bool) := do
  match p with
  | .print last file =>
    k.put file (e.path ++ [last])
    return (s, true)
  | .facts format file =>
    k.put file (← Routine.look fun h ↦ written h k.around.zone e format)
    return (s, true)
  | .list file =>
    k.put file (← Routine.look fun h ↦ listed h k.around.zone k.around.now e)
    return (s, true)
  | .run words isInside asks =>
    let path := if isInside then inDirectory ['.'] (lastName e.path) else e.path
    let dir := if isInside then some (directoryPart e.path) else none
    if ← isRefused asks ("< ".toList ++ words.headD [] ++ " ... ".toList ++ e.path ++
        " > ? ".toList) then return (s, false)
    return (s, ← runFor k.programs k.name k.env (withPath path words) dir)
  | .runAll number _ => return ({ s with collected := s.collected ++ [(number, e.path)] }, true)
  | .delete =>
    if e.path = ['.'] then return (s, true)
    let path := Chars.toPath e.path
    match ← Routine.change fun h ↦ match e.node with
        | .directory _ => h.removeEmpty path
        | _ => h.unlink path with
    | .ok () => return (s, true)
    | .error cause =>
      warn k.name (because ("cannot delete ".toList ++ cited e.path) cause)
      return ({ s with status := 1 }, false)
  | .prune => return ({ s with isPruned := true }, true)
  | .quit => return ({ s with isOver := true }, true)
  | p => return (s, ← Routine.look (holds k.around · e p))

/-- Decides an expression for an entry. -/
def Acting.decide (k : Acting) (e : Found) : Expr → Progress → Routine (Progress × Bool)
  | .one p, s => if s.isOver then return (s, false) else k.perform e s p
  | .not a, s => do
    let (s, b) ← k.decide e a s
    return (s, !b)
  | .both a b, s => do
    let (s, isFirst) ← k.decide e a s
    if isFirst then k.decide e b s else return (s, false)
  | .either a b, s => do
    let (s, isFirst) ← k.decide e a s
    if isFirst then return (s, true) else k.decide e b s
  | .last a b, s => do
    let (s, _) ← k.decide e a s
    k.decide e b s

/-! ## Searching -/

/-- Deals with what is visited below a path. -/
def Acting.visit (k : Acting) (e : Expr) (limits : Limits) (start : Chars) (v : Visit)
    (s : Progress) : Routine (Progress × Bool) := do
  if s.isOver then return (s, false)
  let depth := v.names.length
  let found : Found := ⟨start, v.names, pathBelow start v.names, v.place, v.node⟩
  let decided := fun (s : Progress) ↦ do
    let s := { s with isPruned := false }
    if limits.most.any (· < depth) || depth < limits.least then return s
    return (← k.decide found e s).1
  let complain := fun (x : IoError) (s : Progress) ↦ do
    warn k.name (because (cited found.path) x)
    return { s with status := 1 }
  let isBounded := limits.most.any (· ≤ depth)
  match v.event with
  | .meet => return (← decided s, false)
  | .enter =>
    if limits.isDepthFirst then
      if isBounded then return (← decided s, false) else return (s, true)
    let s ← decided s
    return (s, !s.isPruned && !isBounded && !s.isOver)
  | .leave => if limits.isDepthFirst then return (← decided s, false) else return (s, false)
  | .blocked x =>
    let s ← complain x s
    if limits.isDepthFirst then return (← decided s, false) else return (s, false)
  | .unreachable x => return (← complain x s, false)
  | .loop names =>
    warn k.name ("File system loop detected; ".toList ++ cited found.path ++
      " is part of the same file system loop as ".toList ++ cited (pathBelow start names) ++ ['.'])
    return ({ s with status := 1 }, false)

/-- Whether a word starts an expression. -/
def startsExpression (w : Chars) : Bool :=
  (w.head? = some '-' && 1 < w.length) || w = ['('] || w = ['!']

/-- The options in front of the paths. -/
def isOption (w : Chars) : Bool :=
  ["-L", "-H", "-P"].contains (Chars.toString w) || "-O".toList.isPrefixOf w

/-- Opens the files that are written. -/
def openFiles (name : Chars) : List Chars → Routine (List (Chars × Nat))
  | [] => return []
  | f :: fs => do
    let rest ← openFiles name fs
    match ← Routine.openPath (Chars.toPath f) .forWriting Routine.usualMode with
    | .ok n => return (f, n) :: rest
    | .error e => fail name 1 (because (cited f) e)

end Find

open Find in
/-- Finds entries. -/
def find (programs : Chars → Option Program) : Program := fun args env ↦ do
  let name := args.headD []
  let options := args.tail.takeWhile isOption
  let words := args.tail.drop options.length
  let paths := words.takeWhile (!startsExpression ·)
  let following := (options.filter fun w ↦ w.take 2 ≠ "-O".toList).getLast?
  let words := words.drop paths.length
  let followsAll := following = some "-L".toList || words.contains "-follow".toList
  let followsStart := followsAll || following = some "-H".toList
  let now := Moment.ofMilliseconds (← Routine.now)
  let zone := zoneIn env
  match ← Routine.look fun h ↦ read ⟨h, zone, now, followsStart⟩ words with
  | .error message => fail name 1 message
  | .ok (e, limits) =>
    Routine.forEach (warn name) limits.remarks
    let files ← openFiles name e.files.eraseDups
    let around ← Routine.look fun h ↦ (⟨h, zone, now, followsStart⟩ : Surroundings)
    let k : Acting := ⟨name, programs, env, around, files⟩
    let s ← (if paths = [] then [['.']] else paths).foldlM (fun s path ↦ do
      if s.isOver then return s
      let p := Chars.toPath path
      match ← Routine.look fun h ↦ (if followsStart then h.entry p else h.linkEntry p,
          h.linkEntry p) with
      | (.ok (l, _), _) => walk followsAll (k.visit e limits path) l s
      | (.error cause, exact) =>
        match followsStart, exact with
        | true, .ok (l, _) => walk false (k.visit e limits path) l s
        | _, _ =>
          warn name (because (cited path) cause)
          return { s with status := 1 }) (⟨false, false, [], 0⟩ : Progress)
    let status ← forStatus (fun (number, words) ↦ do
      let paths := (s.collected.filter (·.1 = number)).map (·.2)
      if paths = [] then return 0
      return if ← runFor programs name env (words ++ paths) none then 0 else 1) e.runs
    return max s.status status

/-- Braces are replaced also within words. -/
example : Find.withPath ['p'] ["a\x7b\x7db".toList] = ["apb".toList] := by decide +kernel

end ContractBuild.Utility
