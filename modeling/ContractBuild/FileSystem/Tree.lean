import ContractBuild.FileSystem.Attributes
import ContractBuild.Path.Basic

/-!
# File trees

A tree holds every directory entry of a system under its location, the list of names that leads
to it from the root.  Locations are free of `.`, `..` and symbolic links, so an entry has one
location.  Files and directories have identities besides: two entries with one identity are two
names of the same file, and a directory keeps its identity when it is moved.

The view of a tree is `node?`; the lemmas say what each operation does to it.
-/

namespace ContractBuild

/-- The place of an entry: the names that lead to it from the root. -/
abbrev Location := List Name

/-- A regular file. -/
structure File extends Attributes where
  /-- Its identity. -/
  id : Nat
  /-- Its content. -/
  content : Bytes
  deriving DecidableEq, Repr

/-- A file with other content from a moment on. -/
def File.withContent (f : File) (content : Bytes) (time : Moment) : File :=
  { f with content, modified := time }

/-- A directory, apart from its entries. -/
structure Directory extends Attributes where
  /-- Its identity. -/
  id : Nat
  deriving DecidableEq, Repr

/-- A symbolic link. -/
structure Link where
  /-- The path that it holds. -/
  target : Path
  /-- When it was made. -/
  modified : Moment
  deriving DecidableEq, Repr

/-- A device. -/
inductive Device
  /-- It takes everything and gives nothing. -/
  | null
  /-- It takes everything and gives zero bytes without end. -/
  | zero
  /-- It has no room for anything. -/
  | full
  /-- It takes everything and gives bytes of no meaning without end. -/
  | random
  /-- The terminal of a process that has none. -/
  | terminal
  deriving DecidableEq, Repr

/-- What an entry is. -/
inductive Node
  /-- A regular file. -/
  | file (f : File)
  /-- A directory. -/
  | directory (d : Directory)
  /-- A symbolic link. -/
  | link (l : Link)
  /-- A device. -/
  | device (d : Device)
  /-- What a process has open under a number, with what was written to it by this name. -/
  | descriptor (number : Nat) (written : Bytes)
  deriving DecidableEq, Repr

namespace Node

/-- The attributes of a file or a directory. -/
def attributes? : Node → Option Attributes
  | .file f => some f.toAttributes
  | .directory d => some d.toAttributes
  | _ => none

/-- Whether the user may do something with an entry. -/
def allows (n : Node) (what : Access) : Bool := n.attributes?.all (·.allows what)

/-- When an entry was changed. -/
def modified : Node → Moment
  | .file f => f.modified
  | .directory d => d.modified
  | .link l => l.modified
  | _ => 0

/-- When an entry was used. -/
def accessed (n : Node) : Moment := ((n.attributes?).map (·.accessed)).getD n.modified

/-- A node with other attributes, if it has any. -/
def withAttributes (n : Node) (change : Attributes → Attributes) : Node :=
  match n with
  | .file f => .file { f with toAttributes := change f.toAttributes }
  | .directory d => .directory { d with toAttributes := change d.toAttributes }
  | n => n

/-- A node with `f` applied to it, if it is the file of this identity. -/
def onFile (id : Nat) (f : File → File) : Node → Node
  | .file a => .file (if a.id = id then f a else a)
  | n => n

/-- Another file stays as it is. -/
theorem onFile_of_ne {id : Nat} {a : File} (h : a.id ≠ id) (f : File → File) :
    onFile id f (.file a) = .file a := by simp [onFile, h]

/-- The file itself is changed. -/
theorem onFile_self (a : File) (f : File → File) : onFile a.id f (.file a) = .file (f a) := by
  simp [onFile]

end Node

/-- The permissions of a new file that is no program. -/
def fileMode : Nat := 0o644

/-- The permissions of a new file that is a program, and of a directory. -/
def programMode : Nat := 0o755

/-- Whether permissions let anybody run a file. -/
def permitsRunning (mode : Nat) : Bool := mode &&& 0o111 ≠ 0

/-- The entries of a system.  The root is always there and is not listed. -/
structure Tree where
  /-- Each entry with its location. -/
  entries : List (Location × Node)
  /-- The identity that the next new file or directory gets. -/
  nextId : Nat
  /-- The time, in milliseconds after the start of the year 1970. -/
  clock : Nat
  deriving Repr

namespace Tree

/-- The time at which a system starts. -/
def firstTime : Nat := 1750000000000

/-- The root directory. -/
def root : Directory where
  id := 0
  mode := programMode
  isForeign := true
  modified := .ofMilliseconds firstTime
  accessed := .ofMilliseconds firstTime

/-- The system that holds only its root. -/
def empty : Tree := ⟨[], 1, firstTime⟩

/-- The moment of a system. -/
def now (t : Tree) : Moment := .ofMilliseconds t.clock

/-- The entry at a location. -/
def find : List (Location × Node) → Location → Option Node
  | [], _ => none
  | (k, n) :: es, l => if k = l then some n else find es l

/-- What stands at a location. -/
def node? (t : Tree) (l : Location) : Option Node :=
  if l = [] then some (.directory root) else find t.entries l

/-! ## Changing entries -/

/-- The tree with `n` at location `l`, whatever stood there. -/
def set (t : Tree) (l : Location) (n : Node) : Tree :=
  { t with entries := (l, n) :: t.entries.filter fun e ↦ e.1 ≠ l }

/-- The tree without the entry at `l`. -/
def erase (t : Tree) (l : Location) : Tree :=
  { t with entries := t.entries.filter fun e ↦ e.1 ≠ l }

/-- Whether a location lies below another. -/
def isBelow (l k : Location) : Bool := l.isPrefixOf k && l ≠ k

/-- The tree without everything below `l`. -/
def eraseInside (t : Tree) (l : Location) : Tree :=
  { t with entries := t.entries.filter fun e ↦ !isBelow l e.1 }

/-- The next new file. -/
def newFile (t : Tree) (content : Bytes) (mode : Nat) : File :=
  { Attributes.fresh mode t.now with id := t.nextId, content }

/-- The next new directory. -/
def newDirectory (t : Tree) (mode : Nat) : Directory :=
  { Attributes.fresh mode t.now with id := t.nextId }

/-- The tree with a new file of its own identity at `l`. -/
def addFile (t : Tree) (l : Location) (content : Bytes) (mode : Nat) : Tree :=
  { t.set l (.file (t.newFile content mode)) with nextId := t.nextId + 1 }

/-- The tree with a new directory of its own identity at `l`. -/
def addDirectory (t : Tree) (l : Location) (mode : Nat) : Tree :=
  { t.set l (.directory (t.newDirectory mode)) with nextId := t.nextId + 1 }

/-- The tree with a symbolic link at `l`. -/
def addLink (t : Tree) (l : Location) (target : Path) : Tree := t.set l (.link ⟨target, t.now⟩)

/-- The tree with `f` applied to the node at `l`. -/
def adjust (t : Tree) (l : Location) (f : Node → Node) : Tree :=
  { t with entries := t.entries.map fun e ↦ if e.1 = l then (e.1, f e.2) else e }

/-- The tree in which the directory at `l` has just been changed. -/
def noteChange (t : Tree) (l : Location) : Tree :=
  t.adjust l (·.withAttributes fun a ↦ { a with modified := t.now })

/-- The tree in which everything belongs to the system. -/
def foreign (t : Tree) : Tree :=
  { t with
    entries := t.entries.map fun e ↦
      (e.1, e.2.withAttributes fun a ↦ { a with isForeign := true }) }

/-- Whether the user may do something with what stands at `l`. -/
def allows (t : Tree) (l : Location) (what : Access) : Bool := (t.node? l).all (·.allows what)

/-- The tree with `f` applied to the file of an identity, under all its names. -/
def onFile (t : Tree) (id : Nat) (f : File → File) : Tree :=
  { t with entries := t.entries.map fun e ↦ (e.1, e.2.onFile id f) }

/-- What was written to the entries that stand for a descriptor. -/
def written (t : Tree) (number : Nat) : Bytes :=
  t.entries.flatMap fun e ↦ match e.2 with
    | .descriptor k w => if k = number then w else []
    | _ => []

/-- What was written to a descriptor, and the tree without it. -/
def takeWritten (t : Tree) (number : Nat) : Bytes × Tree :=
  if t.written number = [] then ([], t)
  else (t.written number, { t with entries := t.entries.map fun e ↦ match e.2 with
    | .descriptor k w => (e.1, .descriptor k (if k = number then [] else w))
    | _ => e })

/-- The location of what lay at `k`, once everything at and below `l` is moved to `m`. -/
def movedTo (l m k : Location) : Location := if l <+: k then m ++ k.drop l.length else k

/-- The tree with everything at and below `l` moved to `m`. -/
def move (t : Tree) (l m : Location) : Tree :=
  { t with entries := t.entries.map fun e ↦ (movedTo l m e.1, e.2) }

/-- The location of the directory with an identity, unless it has been removed. -/
def directory? (t : Tree) (id : Nat) : Option Location :=
  if id = root.id then some []
  else (t.entries.find? fun e ↦ match e.2 with
    | .directory d => d.id = id
    | _ => false).map (·.1)

/-! ## Listing a directory -/

/-- The name of an entry, if it lies directly in directory `l`. -/
def nameIn? (l : Location) (k : Location) : Option Name :=
  match l, k with
  | [], [n] => some n
  | a :: l, b :: k => if a = b then nameIn? l k else none
  | _, _ => none

/-- Puts a name into an ascending list of names, unless it is there. -/
def insertName (n : Name) : List Name → List Name
  | [] => [n]
  | m :: ms =>
    if n < m then n :: m :: ms
    else if n = m then m :: ms
    else m :: insertName n ms

/-- The names in directory `l`, in ascending order of their bytes and each once. -/
def names (t : Tree) (l : Location) : List Name :=
  t.entries.foldr (fun e ns ↦ match nameIn? l e.1 with
    | some n => insertName n ns
    | none => ns) []

/-- The names in directory `l`, the oldest one first. -/
def namesByAge (t : Tree) (l : Location) : List Name :=
  t.entries.reverse.filterMap fun e ↦ nameIn? l e.1

/-! ## The view -/

@[simp] theorem node?_root (t : Tree) : t.node? [] = some (.directory root) := by simp [node?]

theorem find_filter_self (es : List (Location × Node)) (l : Location) :
    find (es.filter fun e ↦ e.1 ≠ l) l = none := by
  induction es with
  | nil => rfl
  | cons e es ih =>
    by_cases h : e.1 = l
    · simpa [h] using ih
    · simpa [h, find] using ih

theorem find_filter_of_true {p : Location × Node → Bool} {l : Location}
    (h : ∀ n, p (l, n) = true) (es : List (Location × Node)) :
    find (es.filter p) l = find es l := by
  induction es with
  | nil => rfl
  | cons e es ih =>
    obtain ⟨k, n⟩ := e
    by_cases hk : k = l
    · subst hk; simp [h, find]
    · by_cases hp : p (k, n) = true
      · simp [hp, find, hk, ih]
      · simp [hp, find, hk, ih]

/-- What was set is found. -/
@[simp] theorem node?_set_self {l : Location} (h : l ≠ []) (t : Tree) (n : Node) :
    (t.set l n).node? l = some n := by simp [node?, set, find, h]

/-- Setting an entry changes no other. -/
theorem node?_set_of_ne {l k : Location} (h : k ≠ l) (t : Tree) (n : Node) :
    (t.set l n).node? k = t.node? k := by
  unfold node? set
  split
  · rfl
  · rw [find, if_neg (Ne.symm h)]
    exact find_filter_of_true (fun _ ↦ by simpa using h) t.entries

/-- A new file is found. -/
@[simp] theorem node?_addFile_self {l : Location} (h : l ≠ []) (t : Tree) (content : Bytes)
    (mode : Nat) : (t.addFile l content mode).node? l = some (.file (t.newFile content mode)) :=
  node?_set_self h t _

/-- A new file changes no other entry. -/
theorem node?_addFile_of_ne {l k : Location} (h : k ≠ l) (t : Tree) (content : Bytes)
    (mode : Nat) : (t.addFile l content mode).node? k = t.node? k := node?_set_of_ne h t _

/-- A new directory is found. -/
@[simp] theorem node?_addDirectory_self {l : Location} (h : l ≠ []) (t : Tree) (mode : Nat) :
    (t.addDirectory l mode).node? l = some (.directory (t.newDirectory mode)) :=
  node?_set_self h t _

/-- A new directory changes no other entry. -/
theorem node?_addDirectory_of_ne {l k : Location} (h : k ≠ l) (t : Tree) (mode : Nat) :
    (t.addDirectory l mode).node? k = t.node? k := node?_set_of_ne h t _

/-- What was erased is gone. -/
@[simp] theorem node?_erase_self {l : Location} (h : l ≠ []) (t : Tree) :
    (t.erase l).node? l = none := by
  simp only [node?, erase, if_neg h]
  exact find_filter_self t.entries l

/-- Erasing an entry changes no other. -/
theorem node?_erase_of_ne {l k : Location} (h : k ≠ l) (t : Tree) :
    (t.erase l).node? k = t.node? k := by
  unfold node? erase
  split
  · rfl
  · exact find_filter_of_true (fun _ ↦ by simpa using h) t.entries

/-- Emptying a directory changes nothing elsewhere, nor the directory itself. -/
theorem node?_eraseInside_of_not {l k : Location} (h : isBelow l k = false) (t : Tree) :
    (t.eraseInside l).node? k = t.node? k := by
  unfold node? eraseInside
  split
  · rfl
  · exact find_filter_of_true (fun _ ↦ by simp [h]) t.entries

/-- Emptying a directory leaves nothing in it. -/
theorem node?_eraseInside_of_isBelow {l k : Location} (h : isBelow l k = true) (t : Tree) :
    (t.eraseInside l).node? k = none := by
  have hne : k ≠ [] := by
    rintro rfl
    cases l <;> simp [isBelow] at h
  simp only [node?, if_neg hne, eraseInside]
  generalize t.entries = es
  induction es with
  | nil => rfl
  | cons e es ih =>
    cases hp : isBelow l e.1 with
    | true => simpa [hp] using ih
    | false =>
      have he : e.1 ≠ k := fun he ↦ by rw [he, h] at hp; cases hp
      simpa [hp, find, he] using ih

theorem find_map (g : Node → Node) (es : List (Location × Node)) (l : Location) :
    find (es.map fun e ↦ (e.1, g e.2)) l = (find es l).map g := by
  induction es with
  | nil => rfl
  | cons e es ih =>
    by_cases h : e.1 = l
    · simp [find, h]
    · simpa [find, h] using ih

/-- Adjusting an entry changes no other. -/
theorem node?_adjust_of_ne {l k : Location} (h : k ≠ l) (t : Tree) (f : Node → Node) :
    (t.adjust l f).node? k = t.node? k := by
  unfold node? adjust
  split
  · rfl
  · generalize t.entries = es
    induction es with
    | nil => rfl
    | cons e es ih =>
      obtain ⟨a, n⟩ := e
      by_cases ha : a = l
      · subst ha
        simpa [find, Ne.symm h] using ih
      · by_cases hk : a = k
        · subst hk; simp [find, ha]
        · simpa [find, ha, hk] using ih

/-- A change to a file shows wherever the file has a name, and nowhere else. -/
theorem node?_onFile (t : Tree) (id : Nat) (f : File → File) (l : Location) :
    (t.onFile id f).node? l = (t.node? l).map (Node.onFile id f) := by
  unfold node? onFile
  split
  · rfl
  · exact find_map (Node.onFile id f) t.entries l

end Tree

end ContractBuild
