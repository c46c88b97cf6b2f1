import ContractBuild.FileSystem.Error
import ContractBuild.FileSystem.Tree

/-!
# Finding the place of a path

A path is followed name by name from the root or from the current directory.  Symbolic links on
the way are expanded where they stand, at most `linkLimit` of them, and the last name may be free:
then the path names a place where an entry can be created.
-/

namespace ContractBuild

/-- One step on the way that a path describes. -/
inductive Step
  /-- `.`: the directory itself. -/
  | stay
  /-- `..`: the directory above. -/
  | up
  /-- A name in the directory. -/
  | enter (n : Name)
  deriving DecidableEq, Repr

namespace Path

/-- The step of a piece between slashes; an empty piece is none. -/
def step? (q : Bytes) : Option Step :=
  if q = [] then none
  else if q = [dot] then some .stay
  else if q = [dot, dot] then some .up
  else some (.enter q)

/-- The steps of a path. -/
def steps (p : Path) : List Step := (pieces p.raw).filterMap step?

/-- Whether the path ends in a slash, which only a directory's may. -/
def endsInSlash (p : Path) : Bool := p.raw.getLast? = some slash

/-- The path without the slashes at its end, unless it consists of slashes. -/
def trimSlashes (p : Path) : Path :=
  match p.raw.reverse.dropWhile (· = slash) with
  | [] => if p.raw = [] then p else ⟨[slash]⟩
  | kept => ⟨kept.reverse⟩

/-- What a path ends in, for an operation that needs a name to work on. -/
def lastStep? (p : Path) : Option Step := p.steps.getLast?

/-- The absolute path of a location. -/
def ofLocation : Location → Path
  | [] => ⟨[slash]⟩
  | l => ⟨l.flatMap fun n ↦ slash :: n⟩

end Path

/-- Where a path leads. -/
inductive Place
  /-- To an entry. -/
  | entry (l : Location) (n : Node)
  /-- To a name that is still free, in a directory that exists. -/
  | vacant (l : Location)
  deriving DecidableEq, Repr

/-- How the end of a path is looked up. -/
structure Manner where
  /-- A symbolic link at the end is followed. -/
  follow : Bool
  /-- The entry is created if need be, so the path must not end in a slash. -/
  create : Bool
  deriving DecidableEq, Repr

/-- The longest name. -/
def nameLimit : Nat := 255

/-- The longest path, with the byte that ends it. -/
def pathLimit : Nat := 4096

/-- How many symbolic links one path may lead through. -/
def linkLimit : Nat := 40

namespace Tree

/-- What is left to follow once a link has been met. -/
structure Detour where
  /-- How the end is looked up. -/
  manner : Manner
  /-- Whether the path ends in a slash. -/
  slashed : Bool
  /-- The directory that holds the link. -/
  dir : Location
  /-- The path in the link. -/
  target : Path
  /-- The steps behind the link. -/
  rest : List Step

/-- Follows steps from directory `dir`; `detour` goes on where a link must be expanded. -/
def scan (t : Tree) (detour : Detour → Except IoError Place) (m : Manner) (slashed : Bool) :
    Location → List Step → Except IoError Place
  | dir, [] =>
    match t.node? dir with
    | some n => .ok (.entry dir n)
    | none => .error .notFound
  | dir, .stay :: rest =>
    if !t.allows dir .run then .error .notPermitted else scan t detour m slashed dir rest
  | dir, .up :: rest =>
    if !t.allows dir .run then .error .notPermitted else scan t detour m slashed dir.dropLast rest
  | dir, .enter n :: rest =>
    if !t.allows dir .run then .error .notPermitted
    else if rest = [] ∧ slashed ∧ m.create then .error .isADirectory
    else if nameLimit < n.length then .error .nameTooLong
    else match t.node? (dir ++ [n]) with
      | none => if rest = [] then .ok (.vacant (dir ++ [n])) else .error .notFound
      | some (.directory _) => scan t detour m slashed (dir ++ [n]) rest
      | some (.link k) =>
        if rest = [] ∧ ¬ m.follow ∧ ¬ slashed then .ok (.entry (dir ++ [n]) (.link k))
        else detour ⟨m, slashed, dir, k.target, rest⟩
      | some node =>
        if rest = [] ∧ ¬ slashed then .ok (.entry (dir ++ [n]) node)
        else .error .notADirectory

/-- Follows steps with a budget of links to expand. -/
def walk (t : Tree) : Nat → Manner → Bool → Location → List Step → Except IoError Place
  | 0 => t.scan fun _ ↦ .error .tooManyLinks
  | budget + 1 => t.scan fun d ↦
    let last := d.rest = []
    t.walk budget
      { d.manner with follow := d.manner.follow || last }
      (d.slashed || (last && d.target.endsInSlash))
      (if d.target.isAbsolute then [] else d.dir)
      (d.target.steps ++ d.rest)

/-- What is wrong with a path that holds a zero byte, which would end it. -/
def zeroByteInPath : IoError := .refused "file name contained an unexpected NUL byte"

/-- The place of a path, seen from directory `dir`; a relative path leads nowhere if that has been
removed. -/
def locate (t : Tree) (dir : Option Location) (m : Manner) (p : Path) : Except IoError Place :=
  if 0 ∈ p.raw then .error zeroByteInPath
  else if p.raw = [] then .error .notFound
  else if pathLimit ≤ p.raw.length then .error .nameTooLong
  else match if p.isAbsolute then some [] else dir with
    | some start => t.walk linkLimit m p.endsInSlash start p.steps
    | none => .error .notFound

end Tree

end ContractBuild
