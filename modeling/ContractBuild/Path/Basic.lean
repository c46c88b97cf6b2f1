import ContractBuild.Text.Utf8

/-!
# Paths

A path is any bytes; a slash separates its names.  Two paths that differ in spelling only, by
doubled or trailing slashes or by `.` where it changes nothing, have the same `components`, and
comparing paths by name means comparing those.
-/

namespace ContractBuild

/-- The name of a directory entry. -/
abbrev Name := Bytes

/-- A path as written. -/
structure Path where
  /-- The bytes of the path. -/
  raw : Bytes
  deriving DecidableEq, Repr

namespace Path

/-- The byte that separates names. -/
def slash : UInt8 := 0x2F

/-- The byte that starts an extension. -/
def dot : UInt8 := 0x2E

/-- The path that a text spells. -/
def ofString (s : String) : Path := ⟨Bytes.ofString s⟩

/-- The path that is one name. -/
def ofName (n : Name) : Path := ⟨n⟩

/-- The text that stands for a path in a message. -/
def display (p : Path) : String := p.raw.display

/-- The path `.`. -/
def here : Path := ⟨[dot]⟩

/-! ## Pieces and components -/

/-- The pieces of some bytes between slashes; there is always at least one. -/
def pieces : Bytes → List Bytes
  | [] => [[]]
  | b :: bs =>
    if b = slash then [] :: pieces bs
    else match pieces bs with
      | [] => [[b]]
      | q :: qs => (b :: q) :: qs

/-- The bytes of some pieces with slashes between them. -/
def unpieces : List Bytes → Bytes
  | [] => []
  | [q] => q
  | q :: qs => q ++ slash :: unpieces qs

/-- One step of a path. -/
inductive Component
  /-- The root directory, at the start of an absolute path. -/
  | root
  /-- The directory itself, kept only where it starts a path. -/
  | here
  /-- The parent directory. -/
  | up
  /-- An entry of the directory. -/
  | name (n : Name)
  deriving DecidableEq, Repr

/-- The component of a piece that is not the first, if it means anything. -/
def Component.ofPiece? (q : Bytes) : Option Component :=
  if q = [] then none
  else if q = [dot] then none
  else if q = [dot, dot] then some .up
  else some (.name q)

/-- The components of a path. -/
def components (p : Path) : List Component :=
  match pieces p.raw with
  | [] => []
  | first :: rest =>
    let lead :=
      if first = [] then (if rest = [] then [] else [.root])
      else if first = [dot] then [.here]
      else (Component.ofPiece? first).toList
    lead ++ rest.filterMap Component.ofPiece?

/-- Whether the path starts at the root directory. -/
def isAbsolute (p : Path) : Bool := p.raw.head? = some slash

/-- The path that leads to `p` from `base`: `p` itself if it is absolute, else both with a slash
between them. -/
def join (base p : Path) : Path :=
  if p.isAbsolute then p
  else if base.raw = [] ∨ base.raw.getLast? = some slash then ⟨base.raw ++ p.raw⟩
  else ⟨base.raw ++ slash :: p.raw⟩

/-! ## Equations -/

@[simp] theorem pieces_nil : pieces [] = [[]] := rfl

@[simp] theorem pieces_slash (bs : Bytes) : pieces (slash :: bs) = [] :: pieces bs := by
  simp [pieces]

/-- Some bytes always have a piece. -/
theorem pieces_ne_nil (bs : Bytes) : pieces bs ≠ [] := by
  cases bs with
  | nil => simp
  | cons b bs =>
    unfold pieces
    split
    · simp
    · split <;> simp

/-- Joining the pieces gives the bytes back. -/
@[simp] theorem unpieces_pieces (bs : Bytes) : unpieces (pieces bs) = bs := by
  induction bs with
  | nil => rfl
  | cons b bs ih =>
    by_cases hb : b = slash
    · subst hb
      rw [pieces_slash]
      cases hp : pieces bs with
      | nil => exact absurd hp (pieces_ne_nil bs)
      | cons q qs =>
        rw [hp] at ih
        simp [unpieces, ih]
    · unfold pieces
      rw [ite_cond_eq_false _ _ (by simp [hb])]
      cases hp : pieces bs with
      | nil => exact absurd hp (pieces_ne_nil bs)
      | cons q qs =>
        rw [hp] at ih
        cases qs with
        | nil => simpa [unpieces] using ih
        | cons r rs => simpa [unpieces] using ih

/-- An absolute path stands for itself wherever it is joined. -/
@[simp] theorem join_of_isAbsolute {base p : Path} (h : p.isAbsolute) : base.join p = p := by
  simp [join, h]

end Path

end ContractBuild
