import ContractBuild.Path.Basic

/-!
# File names

The file name of a path is its last component, if that is a name: slashes and `.` after it do not
count, and `..`, `/` and the empty path have none.  A file name splits at its last dot into stem
and extension, except where that dot starts it.
-/

namespace ContractBuild.Path

/-! ## The last name -/

/-- The file name of a path. -/
def fileName? (p : Path) : Option Name :=
  match p.components.getLast? with
  | some (.name n) => some n
  | _ => none

/-- A piece that changes nothing behind another. -/
def isIdle (q : Bytes) : Bool := q = [] || q = [dot]

/-- Pieces without the idle ones at their end. -/
def trimIdle (qs : List Bytes) : List Bytes := (qs.reverse.dropWhile isIdle).reverse

/-- The path without its last component; the root and the empty path have no parent. -/
def parent? (p : Path) : Option Path :=
  match pieces p.raw with
  | [] => none
  | first :: rest =>
    match (trimIdle rest).reverse with
    | [] => if first = [] then none else some ⟨[]⟩
    | _ :: before =>
      match trimIdle before.reverse with
      | [] => some (if first = [] then ⟨[slash]⟩ else ⟨first⟩)
      | kept => some ⟨unpieces (first :: kept)⟩

/-! ## Stem and extension -/

/-- Some bytes before and after their last dot, if they hold one. -/
def splitLastDot? : Bytes → Option (Bytes × Bytes)
  | [] => none
  | b :: bs =>
    match splitLastDot? bs with
    | some (stem, ext) => some (b :: stem, ext)
    | none => if b = dot then some ([], bs) else none

/-- Stem and extension of a file name; a name that starts with its last dot is all stem. -/
def splitName (n : Name) : Bytes × Option Bytes :=
  match splitLastDot? n with
  | none => (n, none)
  | some ([], _) => (n, none)
  | some (stem, ext) => (stem, some ext)

/-- The extension of a path, without its dot. -/
def extension? (p : Path) : Option Bytes := p.fileName?.bind fun n ↦ (splitName n).2

/-- The path cut behind its stem, with `ext` as its extension.  A path without a file name stays as
it is. -/
def setExtension (p : Path) (ext : Bytes) : Path :=
  match p.fileName? with
  | none => p
  | some n =>
    let name := (splitName n).1 ++ dot :: ext
    ⟨unpieces ((trimIdle (pieces p.raw)).dropLast ++ [name])⟩

/-- The path without as many bytes at its end as its extension has. -/
def dropExtension (p : Path) : Path :=
  match p.extension? with
  | none => p
  | some old => ⟨p.raw.take (p.raw.length - old.length)⟩

/-- The path with its extension replaced by `ext`, or with `ext` added where it has none.  The old
extension is dropped first; a name that is `..` by then is none, and the path stays so. -/
def withExtension (p : Path) (ext : Bytes) : Path := p.dropExtension.setExtension ext

@[simp] theorem splitLastDot?_nil : splitLastDot? [] = none := rfl

/-- Stem, dot and extension together are the name. -/
theorem eq_of_splitLastDot? {n stem ext : Bytes} (h : splitLastDot? n = some (stem, ext)) :
    n = stem ++ dot :: ext := by
  induction n generalizing stem with
  | nil => simp at h
  | cons b bs ih =>
    unfold splitLastDot? at h
    split at h
    · next hs => cases h; simp [ih hs]
    · split at h
      · next hb => cases h; simp [hb]
      · cases h

end ContractBuild.Path
