import ContractBuild.FileSystem.Locate
import ContractBuild.Path.Basic
import ContractBuild.Text.Utf8

/-!
# Joined paths

Two spellings are the same path if they have the same components.  Behind an absolute directory a
path adds its own components, so a relative path means the same behind two directories exactly if
these are the same path.  A name behind a directory is one more step, and a path that ends in a name
does not end in a slash.
-/

/-!
## Text of one-byte characters

A character below `0x80` is one byte, and different ones are different bytes.
-/

namespace ContractBuild.Utf8

theorem encodeChar_of_lt {c : Char} (h : c.toNat < 0x80) : encodeChar c = [c.toNat.toUInt8] :=
  if_pos h

theorem eq_of_toUInt8_eq {c d : Char} (hc : c.toNat < 0x80) (hd : d.toNat < 0x80)
    (h : c.toNat.toUInt8 = d.toNat.toUInt8) : c = d := by
  have byte : c.toNat = d.toNat := by
    have := congrArg UInt8.toNat h
    simp only [Nat.toUInt8_eq, UInt8.toNat_ofNat'] at this
    omega
  rw [← Char.ofNat_toNat c, ← Char.ofNat_toNat d, byte]

/-- Texts of characters below `0x80` are as different as their bytes. -/
theorem eq_of_encode_eq {s t : List Char} (hs : ∀ c ∈ s, c.toNat < 0x80)
    (ht : ∀ c ∈ t, c.toNat < 0x80) (h : encode s = encode t) : s = t := by
  induction s generalizing t with
  | nil =>
    cases t with
    | nil => rfl
    | cons d t => simp [encodeChar_of_lt (ht d (by simp))] at h
  | cons c s ih =>
    have hc := hs c (by simp)
    cases t with
    | nil => simp [encodeChar_of_lt hc] at h
    | cons d t =>
      have hd := ht d (by simp)
      simp only [encode_cons, encodeChar_of_lt hc, encodeChar_of_lt hd, List.singleton_append,
        List.cons.injEq] at h
      have rest : s = t :=
        ih (fun x hx ↦ hs x (by simp [hx])) (fun x hx ↦ ht x (by simp [hx])) h.2
      rw [rest, eq_of_toUInt8_eq hc hd h.1]

/-- The bytes of a text are those of its characters. -/
theorem exists_of_mem_encode {s : List Char} (hs : ∀ c ∈ s, c.toNat < 0x80) {b : UInt8}
    (hb : b ∈ encode s) : ∃ c ∈ s, b = c.toNat.toUInt8 := by
  obtain ⟨c, hc, hb⟩ := List.mem_flatMap.mp hb
  rw [encodeChar_of_lt (hs c hc), List.mem_singleton] at hb
  exact ⟨c, hc, hb⟩

end ContractBuild.Utf8

namespace ContractBuild.Path

/-- Whether two spellings are the same path. -/
def Same (p q : Path) : Prop := p.components = q.components

instance (p q : Path) : Decidable (Same p q) := inferInstanceAs (Decidable (_ = _))

@[refl] theorem Same.refl (p : Path) : Same p p := rfl

/-- The components that a path adds behind another. -/
def tail (p : Path) : List Component := (pieces p.raw).filterMap Component.ofPiece?

/-- Any other byte belongs to the piece that starts with it. -/
theorem pieces_cons_of_ne {b : UInt8} (hb : b ≠ slash) {bs q : Bytes} {qs : List Bytes}
    (h : pieces bs = q :: qs) : pieces (b :: bs) = (b :: q) :: qs := by
  unfold pieces
  rw [if_neg hb, h]

/-- A slash separates the pieces before it from those behind it. -/
theorem pieces_append_slash (xs ys : Bytes) :
    pieces (xs ++ slash :: ys) = pieces xs ++ pieces ys := by
  induction xs with
  | nil => rw [List.nil_append, pieces_slash, pieces_nil, List.singleton_append]
  | cons x xs ih =>
    rw [List.cons_append]
    by_cases hx : x = slash
    · rw [hx, pieces_slash, pieces_slash, ih, List.cons_append]
    · cases hxs : pieces xs with
      | nil => exact absurd hxs (pieces_ne_nil xs)
      | cons q qs =>
        rw [hxs, List.cons_append] at ih
        rw [pieces_cons_of_ne hx ih, pieces_cons_of_ne hx hxs, List.cons_append]

/-- An absolute path starts with a slash. -/
theorem eq_slash_cons {p : Path} (h : p.isAbsolute) : ∃ bs, p.raw = slash :: bs := by
  unfold isAbsolute at h
  cases hraw : p.raw with
  | nil => simp [hraw] at h
  | cons b bs => exact ⟨bs, by simpa [hraw] using h⟩

/-- The components of an absolute path are the root and the pieces behind it. -/
theorem components_slash_cons (bs : Bytes) :
    components ⟨slash :: bs⟩ = .root :: (pieces bs).filterMap Component.ofPiece? := by
  simp [components, pieces_ne_nil]

/-- Behind an absolute path, a relative one adds its components. -/
theorem components_join {base p : Path} (hbase : base.isAbsolute) (hp : p.isAbsolute = false) :
    (base.join p).components = base.components ++ p.tail := by
  obtain ⟨base⟩ := base
  obtain ⟨bs, rfl : base = slash :: bs⟩ := eq_slash_cons hbase
  have idle : [([] : Bytes)].filterMap Component.ofPiece? = [] := rfl
  rw [components_slash_cons, join, hp, if_neg Bool.false_ne_true]
  split
  next hlast =>
    rcases List.eq_nil_or_concat bs with rfl | ⟨cs, c, rfl⟩
    · simp [components_slash_cons, tail, idle]
    · have last : (slash :: cs.concat c).getLast? = some c := by
        rw [List.concat_eq_append, ← List.cons_append, List.getLast?_concat]
      have hc : c = slash :=
        Option.some.inj (last.symm.trans (hlast.resolve_left (List.cons_ne_nil _ _)))
      simp [components_slash_cons, tail, hc, pieces_append_slash, idle]
  next => simp [components_slash_cons, tail, pieces_append_slash]

/-- What is joined to an absolute path is absolute. -/
theorem isAbsolute_join {base : Path} (hbase : base.isAbsolute) (p : Path) :
    (base.join p).isAbsolute := by
  by_cases hp : p.isAbsolute
  · rw [join_of_isAbsolute hp]
    exact hp
  · obtain ⟨bs, hbs⟩ := eq_slash_cons hbase
    rw [join, if_neg hp]
    split <;> simp [isAbsolute, hbs]

/-- Behind a relative path nothing that is relative becomes absolute. -/
theorem isAbsolute_join_iff {base p : Path} (hp : p.isAbsolute = false) :
    (base.join p).isAbsolute ↔ base.isAbsolute := by
  refine ⟨fun h ↦ ?_, fun h ↦ isAbsolute_join h p⟩
  rw [join, hp, if_neg Bool.false_ne_true] at h
  obtain ⟨base⟩ := base
  cases base with
  | nil => exact absurd h (by simpa using hp)
  | cons b bs => split at h <;> simpa [isAbsolute] using h

/-- A path means the same behind two absolute directories if it is absolute itself or they are the
same path, and else it does not. -/
theorem same_join_iff {d e p : Path} (hd : d.isAbsolute) (he : e.isAbsolute) :
    Same (d.join p) (e.join p) ↔ p.isAbsolute ∨ Same d e := by
  by_cases hp : p.isAbsolute
  · rw [join_of_isAbsolute hp, join_of_isAbsolute hp]
    exact ⟨fun _ ↦ .inl hp, fun _ ↦ .refl p⟩
  · have relative : p.isAbsolute = false := by simpa using hp
    rw [Same, components_join hd relative, components_join he relative, List.append_left_inj]
    exact ⟨.inr, fun h ↦ h.resolve_left hp⟩

/-! ## The steps of a path -/

variable {base p : Path}

/-- Whether a path is the name of an entry and nothing else. -/
def IsName (p : Path) : Prop := slash ∉ p.raw ∧ step? p.raw = some (.enter p.raw)

theorem IsName.ne_nil (hp : p.IsName) : p.raw ≠ [] := fun h ↦ by simp [IsName, h, step?] at hp

theorem IsName.isAbsolute (hp : p.IsName) : p.isAbsolute = false := by
  unfold Path.isAbsolute
  rw [decide_eq_false_iff_not]
  exact fun h ↦ hp.1 (List.mem_of_mem_head? h)

/-- What holds no slash is one piece. -/
theorem pieces_of_not_mem {bs : Bytes} (h : slash ∉ bs) : pieces bs = [bs] := by
  induction bs with
  | nil => rfl
  | cons b bs ih =>
    obtain ⟨hb, hbs⟩ : slash ≠ b ∧ slash ∉ bs := by simpa using h
    exact pieces_cons_of_ne (Ne.symm hb) (ih hbs)

theorem IsName.filterMap_pieces (hp : p.IsName) :
    (pieces p.raw).filterMap step? = [.enter p.raw] := by
  rw [pieces_of_not_mem hp.1, List.filterMap_cons_some hp.2, List.filterMap_nil]

theorem filterMap_step?_nil : [([] : Bytes)].filterMap step? = [] := rfl

/-- A name behind a directory is written behind it. -/
theorem raw_prefix_join (hp : p.isAbsolute = false) : base.raw <+: (base.join p).raw := by
  rw [join, hp, if_neg Bool.false_ne_true]
  split
  · exact List.prefix_append _ _
  · exact List.prefix_append _ _

/-- A name behind a directory is one more step. -/
theorem steps_join (hp : p.IsName) : (base.join p).steps = base.steps ++ [.enter p.raw] := by
  rw [join, hp.isAbsolute, if_neg Bool.false_ne_true]
  split
  next hbase =>
    rcases List.eq_nil_or_concat base.raw with hnil | ⟨bs, b, hbs⟩
    · simp [steps, hnil, hp.filterMap_pieces, filterMap_step?_nil]
    · have hb : b = slash := by
        rw [hbs, List.concat_eq_append, List.getLast?_concat] at hbase
        exact Option.some.inj (hbase.resolve_left (by simp))
      rw [List.concat_eq_append] at hbs
      simp only [steps, hbs, hb, List.append_assoc, List.singleton_append, pieces_append_slash,
        List.filterMap_append, hp.filterMap_pieces, pieces_nil, filterMap_step?_nil,
        List.append_nil]
  next => simp only [steps, pieces_append_slash, List.filterMap_append, hp.filterMap_pieces]

/-- A path ends in the name that is joined to it. -/
theorem lastStep?_join (hp : p.IsName) : (base.join p).lastStep? = some (.enter p.raw) := by
  rw [lastStep?, steps_join hp, List.getLast?_concat]

theorem endsInSlash_join (hp : p.IsName) : (base.join p).endsInSlash = false := by
  have last (xs : Bytes) : (xs ++ p.raw).getLast? ≠ some slash := by
    obtain ⟨bs, b, hbs⟩ := (List.eq_nil_or_concat p.raw).resolve_left hp.ne_nil
    have hb : b ≠ slash := fun hb ↦ hp.1 (by simp [hbs, hb])
    rw [hbs, List.concat_eq_append, ← List.append_assoc, List.getLast?_concat]
    exact fun h ↦ hb (Option.some.inj h)
  unfold endsInSlash
  rw [decide_eq_false_iff_not, join, hp.isAbsolute, if_neg Bool.false_ne_true]
  split
  · exact last base.raw
  · have := last (base.raw ++ [slash])
    rwa [List.append_assoc, List.singleton_append] at this

theorem trimSlashes_of_endsInSlash (hp : p.endsInSlash = false) : p.trimSlashes = p := by
  obtain ⟨bs⟩ := p
  rcases List.eq_nil_or_concat bs with rfl | ⟨cs, c, rfl⟩
  · rfl
  · have hc : c ≠ slash := by simpa [endsInSlash] using hp
    simp [trimSlashes, hc]

/-! ## Names as text -/

/-- Whether a character is one byte, and none that separates names. -/
def isPlain (c : Char) : Bool := c.toNat < 0x80 && c ≠ '/'

theorem toNat_lt_of_isPlain {c : Char} (h : isPlain c) : c.toNat < 0x80 := by
  simp only [isPlain, Bool.and_eq_true, decide_eq_true_eq] at h
  exact h.1

theorem isPlain_of_isAlphanum {c : Char} (h : c.isAlphanum) : isPlain c := by
  have hlt : c.toNat < 0x80 := by
    unfold Char.isAlphanum Char.isAlpha Char.isUpper Char.isLower Char.isDigit at h
    simp only [Bool.or_eq_true, Bool.and_eq_true, decide_eq_true_eq, ge_iff_le,
      UInt32.le_iff_toNat_le] at h
    change c.val.toNat < 0x80
    have bounds : 'A'.val.toNat = 65 ∧ 'Z'.val.toNat = 90 ∧ 'a'.val.toNat = 97 ∧
      'z'.val.toNat = 122 ∧ '0'.val.toNat = 48 ∧ '9'.val.toNat = 57 := by decide
    omega
  have hne : c ≠ '/' := by
    rintro rfl
    exact absurd h (by decide)
  simp [isPlain, hlt, hne]

theorem isPlain_of_isDigit {c : Char} (h : c.isDigit) : isPlain c :=
  isPlain_of_isAlphanum (by simp [Char.isAlphanum, h])

/-- A text of plain characters is a name unless it starts with a dot. -/
theorem isName_ofString {s : String} {c : Char} {r : List Char} (hs : s.toList = c :: r)
    (hplain : ∀ d ∈ s.toList, isPlain d) (hc : c ≠ '.') : (ofString s).IsName := by
  have hlt (d : Char) (hd : d ∈ s.toList) : d.toNat < 0x80 := toNat_lt_of_isPlain (hplain d hd)
  have hc' : c.toNat < 0x80 := hlt c (by simp [hs])
  refine ⟨fun h ↦ ?_, ?_⟩
  · obtain ⟨d, hd, hslash⟩ := Utf8.exists_of_mem_encode hlt h
    obtain rfl : '/' = d := Utf8.eq_of_toUInt8_eq (by decide) (hlt d hd) hslash
    exact absurd (hplain '/' hd) (by decide)
  · have raw : (ofString s).raw = c.toNat.toUInt8 :: Utf8.encode r := by
      rw [ofString, Bytes.ofString, hs, Utf8.encode_cons, Utf8.encodeChar_of_lt hc',
        List.singleton_append]
    have hdot : c.toNat.toUInt8 ≠ dot :=
      fun h ↦ hc (Utf8.eq_of_toUInt8_eq hc' (by decide) h)
    rw [raw]
    simp [step?, hdot]

end ContractBuild.Path
