import ContractBuild.Text.Utf8

/-!
# Text survives its bytes

What is written as UTF-8 reads back as it was, and nothing else reads without a malformed part.  The
reader takes the bytes of one character at a time, so the statements for a text are inductions over its
characters, and those for a character have one case for each number of bytes.
-/

namespace ContractBuild.Utf8

/-- A number below 256 survives a byte. -/
theorem toNat_toUInt8 {n : Nat} (h : n < 256) : n.toUInt8.toNat = n := by
  simp [Nat.toUInt8, UInt8.toNat_ofNat', Nat.mod_eq_of_lt h]

/-- A byte that a character can go on with is taken into it. -/
theorem readFrom_inside_next {bits owed n : Nat} {least greatest : UInt8} (bs : Bytes)
    (h : least.toNat ≤ n ∧ n ≤ greatest.toNat) :
    readFrom (.inside bits (owed + 1) least greatest) (n.toUInt8 :: bs) =
      readFrom (.inside (bits * 64 + (n - 0x80)) owed 0x80 0xBF) bs := by
  have hn : n.toUInt8.toNat = n := toNat_toUInt8 (by have := greatest.toNat_lt; omega)
  have hb : least ≤ n.toUInt8 ∧ n.toUInt8 ≤ greatest := by
    simpa only [UInt8.le_iff_toNat_le, hn] using h
  simp [readFrom, step, hb, hn]

/-- The last byte of a character ends it. -/
theorem readFrom_inside_last {bits n : Nat} {least greatest : UInt8} (bs : Bytes)
    (h : least.toNat ≤ n ∧ n ≤ greatest.toNat) :
    readFrom (.inside bits 0 least greatest) (n.toUInt8 :: bs) =
      some (Char.ofNat (bits * 64 + (n - 0x80))) :: readFrom .ready bs := by
  have hn : n.toUInt8.toNat = n := toNat_toUInt8 (by have := greatest.toNat_lt; omega)
  have hb : least ≤ n.toUInt8 ∧ n.toUInt8 ≤ greatest := by
    simpa only [UInt8.le_iff_toNat_le, hn] using h
  simp [readFrom, step, hb, hn]

/-- A byte that starts a character is read as such. -/
theorem readFrom_ready (b : UInt8) (bs : Bytes) :
    readFrom .ready (b :: bs) = (start b).1 ++ readFrom (start b).2 bs := rfl

/-! ## First bytes -/

/-- A byte below 128 is a character. -/
theorem start_one {n : Nat} (h : n < 0x80) : start n.toUInt8 = ([some (Char.ofNat n)], .ready) := by
  have hn : n.toUInt8.toNat = n := toNat_toUInt8 (by omega)
  simp [start, UInt8.lt_iff_toNat_lt, hn, h]

/-- The first of two bytes. -/
theorem start_two {n : Nat} (h : 0xC2 ≤ n ∧ n < 0xE0) :
    start n.toUInt8 = ([], .inside (n - 0xC0) 0 0x80 0xBF) := by
  have hn : n.toUInt8.toNat = n := toNat_toUInt8 (by omega)
  have h₁ : ¬ n < 0x80 := by omega
  have h₂ : ¬ n < 0xC2 := by omega
  simp [start, UInt8.lt_iff_toNat_lt, hn, h₁, h₂, h.2]

/-- The first of three bytes. -/
theorem start_three {n : Nat} (h : 0xE0 ≤ n ∧ n < 0xF0) :
    start n.toUInt8 = ([], .inside (n - 0xE0) 1 (if n = 0xE0 then 0xA0 else 0x80)
      (if n = 0xED then 0x9F else 0xBF)) := by
  have hn : n.toUInt8.toNat = n := toNat_toUInt8 (by omega)
  have h₁ : ¬ n < 0x80 := by omega
  have h₂ : ¬ n < 0xC2 := by omega
  have h₃ : ¬ n < 0xE0 := by omega
  simp [start, UInt8.lt_iff_toNat_lt, ← UInt8.toNat_inj, hn, h₁, h₂, h₃, h.2]

/-- The first of four bytes. -/
theorem start_four {n : Nat} (h : 0xF0 ≤ n ∧ n < 0xF5) :
    start n.toUInt8 = ([], .inside (n - 0xF0) 2 (if n = 0xF0 then 0x90 else 0x80)
      (if n = 0xF4 then 0x8F else 0xBF)) := by
  have hn : n.toUInt8.toNat = n := toNat_toUInt8 (by omega)
  have h₁ : ¬ n < 0x80 := by omega
  have h₂ : ¬ n < 0xC2 := by omega
  have h₃ : ¬ n < 0xE0 := by omega
  have h₄ : ¬ n < 0xF0 := by omega
  simp [start, UInt8.lt_iff_toNat_lt, ← UInt8.toNat_inj, hn, h₁, h₂, h₃, h₄, h.2]

/-! ## Characters and texts -/

/-- The codes of characters leave out those that stand for half a character elsewhere. -/
theorem toNat_valid (c : Char) :
    c.toNat < 0xD800 ∨ 0xDFFF < c.toNat ∧ c.toNat < 0x110000 := c.valid

/-- The bytes of a character read as that character, whatever follows. -/
theorem readFrom_encodeChar (c : Char) (bs : Bytes) :
    readFrom .ready (encodeChar c ++ bs) = some c :: readFrom .ready bs := by
  have hvalid := toNat_valid c
  have hback {m : Nat} (hm : m = c.toNat) : Char.ofNat m = c := hm ▸ Char.ofNat_toNat c
  unfold encodeChar
  generalize c.toNat = n at hvalid hback
  dsimp only
  split
  case isTrue h₁ => simp [readFrom_ready, start_one h₁, hback rfl]
  case isFalse h₁ =>
    split
    case isTrue h₂ =>
      simp only [List.cons_append, List.nil_append, readFrom_ready]
      rw [start_two (by omega)]
      dsimp only
      rw [readFrom_inside_last _ (by simp; omega), hback (by omega), List.nil_append]
    case isFalse h₂ =>
      split
      case isTrue h₃ =>
        simp only [List.cons_append, List.nil_append, readFrom_ready]
        rw [start_three (by omega)]
        dsimp only
        rw [readFrom_inside_next _ (by split <;> split <;> simp <;> omega),
          readFrom_inside_last _ (by simp; omega), hback (by omega), List.nil_append]
      case isFalse h₃ =>
        simp only [List.cons_append, List.nil_append, readFrom_ready]
        rw [start_four (by omega)]
        dsimp only
        rw [readFrom_inside_next _ (by split <;> split <;> simp <;> omega),
          readFrom_inside_next _ (by simp; omega), readFrom_inside_last _ (by simp; omega),
          hback (by omega), List.nil_append]

/-- A text reads back without a malformed part. -/
theorem read_encode (s : List Char) : read (encode s) = s.map some := by
  induction s with
  | nil => rfl
  | cons c s ih =>
    rw [read] at ih ⊢
    rw [encode_cons, readFrom_encodeChar, ih, List.map_cons]

/-- The bytes of a text are well-formed and stand for that text. -/
theorem decode?_encode (s : List Char) : decode? (encode s) = some s := by
  rw [decode?, read_encode]
  induction s with
  | nil => rfl
  | cons c s ih => simp [wellFormed?, ih]

/-! ## What reads well is a text -/

variable {bits owed : Nat} {least greatest : UInt8} {bs : Bytes} {s : List Char}

/-- A reading without malformed parts is that of its characters. -/
theorem eq_map_of_wellFormed? {r : List (Option Char)} (h : wellFormed? r = some s) :
    r = s.map some := by
  induction r generalizing s with
  | nil =>
    cases h
    rfl
  | cons c r ih =>
    cases c with
    | none => cases h
    | some c =>
      obtain ⟨t, ht, rfl⟩ := Option.map_eq_some_iff.mp h
      rw [ih ht, List.map_cons]

/-- A well-formed character goes on with a byte within the bounds. -/
theorem exists_of_readFrom_inside
    (h : readFrom (.inside bits owed least greatest) bs = s.map some) :
    ∃ b bs', bs = b :: bs' ∧ least ≤ b ∧ b ≤ greatest := by
  cases bs with
  | nil => cases s <;> cases h
  | cons b bs =>
    by_cases hb : least ≤ b ∧ b ≤ greatest
    case pos => exact ⟨b, bs, rfl, hb⟩
    case neg =>
      rw [readFrom, step, if_neg hb] at h
      cases s <;> cases h

theorem exists_of_readFrom_next
    (h : readFrom (.inside bits (owed + 1) least greatest) bs = s.map some) :
    ∃ b bs', bs = b :: bs' ∧ least ≤ b ∧ b ≤ greatest ∧
      readFrom (.inside (bits * 64 + (b.toNat - 0x80)) owed 0x80 0xBF) bs' = s.map some := by
  obtain ⟨b, bs', rfl, hb⟩ := exists_of_readFrom_inside h
  refine ⟨b, bs', rfl, hb.1, hb.2, ?_⟩
  simpa only [readFrom, step, if_pos hb, List.nil_append] using h

theorem exists_of_readFrom_last
    (h : readFrom (.inside bits 0 least greatest) bs = s.map some) :
    ∃ b bs' t, bs = b :: bs' ∧ least ≤ b ∧ b ≤ greatest ∧
      s = Char.ofNat (bits * 64 + (b.toNat - 0x80)) :: t ∧ readFrom .ready bs' = t.map some := by
  obtain ⟨b, bs', rfl, hb⟩ := exists_of_readFrom_inside h
  simp only [readFrom, step, if_pos hb, List.singleton_append] at h
  obtain ⟨c, t, rfl, hc, ht⟩ := List.map_eq_cons_iff.mp h.symm
  exact ⟨b, bs', t, rfl, hb.1, hb.2, by rw [Option.some.inj hc], ht.symm⟩

theorem toNat_ofNat {n : Nat} (h : n < 0xD800 ∨ 0xDFFF < n ∧ n < 0x110000) :
    (Char.ofNat n).toNat = n := by
  have valid : n.isValidChar := h
  rw [Char.ofNat, dif_pos valid]
  rfl

theorem toUInt8_eq {n : Nat} {b : UInt8} (h : n = b.toNat) : n.toUInt8 = b := by
  subst h
  simp

theorem encodeChar_one {b : UInt8} (hb : b.toNat < 0x80) : encodeChar (Char.ofNat b.toNat) = [b] := by
  rw [encodeChar, toNat_ofNat (by omega), if_pos hb, toUInt8_eq rfl]

theorem encodeChar_two {b c : UInt8} (hb : 0xC2 ≤ b.toNat ∧ b.toNat < 0xE0)
    (hc : 0x80 ≤ c.toNat ∧ c.toNat ≤ 0xBF) :
    encodeChar (Char.ofNat ((b.toNat - 0xC0) * 64 + (c.toNat - 0x80))) = [b, c] := by
  rw [encodeChar, toNat_ofNat (by omega), if_neg (by omega), if_pos (by omega),
    toUInt8_eq (b := b) (by omega), toUInt8_eq (b := c) (by omega)]

theorem encodeChar_three {b c d : UInt8} (hb : 0xE0 ≤ b.toNat ∧ b.toNat < 0xF0)
    (hc : 0x80 ≤ c.toNat ∧ c.toNat ≤ 0xBF) (hleast : b.toNat = 0xE0 → 0xA0 ≤ c.toNat)
    (hgreatest : b.toNat = 0xED → c.toNat ≤ 0x9F) (hd : 0x80 ≤ d.toNat ∧ d.toNat ≤ 0xBF) :
    encodeChar (Char.ofNat
      (((b.toNat - 0xE0) * 64 + (c.toNat - 0x80)) * 64 + (d.toNat - 0x80))) = [b, c, d] := by
  rw [encodeChar, toNat_ofNat (by omega), if_neg (by omega), if_neg (by omega), if_pos (by omega),
    toUInt8_eq (b := b) (by omega), toUInt8_eq (b := c) (by omega), toUInt8_eq (b := d) (by omega)]

theorem encodeChar_four {b c d e : UInt8} (hb : 0xF0 ≤ b.toNat ∧ b.toNat < 0xF5)
    (hc : 0x80 ≤ c.toNat ∧ c.toNat ≤ 0xBF) (hleast : b.toNat = 0xF0 → 0x90 ≤ c.toNat)
    (hgreatest : b.toNat = 0xF4 → c.toNat ≤ 0x8F) (hd : 0x80 ≤ d.toNat ∧ d.toNat ≤ 0xBF)
    (he : 0x80 ≤ e.toNat ∧ e.toNat ≤ 0xBF) :
    encodeChar (Char.ofNat ((((b.toNat - 0xF0) * 64 + (c.toNat - 0x80)) * 64 +
      (d.toNat - 0x80)) * 64 + (e.toNat - 0x80))) = [b, c, d, e] := by
  rw [encodeChar, toNat_ofNat (by omega), if_neg (by omega), if_neg (by omega), if_neg (by omega),
    toUInt8_eq (b := b) (by omega), toUInt8_eq (b := c) (by omega), toUInt8_eq (b := d) (by omega),
    toUInt8_eq (b := e) (by omega)]

/-- The bounds on a second byte are those on any further byte, and one more for each of two first
bytes. -/
theorem bounds_of_second {b c low high least greatest : UInt8}
    (h : (if b = low then least else 0x80) ≤ c ∧ c ≤ if b = high then greatest else 0xBF)
    (hleast : 0x80 ≤ least) (hgreatest : greatest ≤ 0xBF) :
    (0x80 ≤ c.toNat ∧ c.toNat ≤ 0xBF) ∧ (b.toNat = low.toNat → least.toNat ≤ c.toNat) ∧
      (b.toNat = high.toNat → c.toNat ≤ greatest.toNat) := by
  obtain ⟨hl, hg⟩ := h
  simp only [UInt8.le_iff_toNat_le, UInt8.toNat_inj] at *
  refine ⟨⟨?_, ?_⟩, fun hb ↦ by rwa [if_pos hb] at hl, fun hb ↦ by rwa [if_pos hb] at hg⟩
  · split at hl
    · exact Nat.le_trans hleast hl
    · exact hl
  · split at hg
    · exact Nat.le_trans hg hgreatest
    · exact hg

/-- Bytes that read well start with the form of the first character. -/
theorem exists_of_readFrom_ready {b : UInt8} (h : readFrom .ready (b :: bs) = s.map some) :
    ∃ c t bs', s = c :: t ∧ b :: bs = encodeChar c ++ bs' ∧ readFrom .ready bs' = t.map some := by
  rw [readFrom_ready, start] at h
  simp only [UInt8.lt_iff_toNat_lt] at h
  split at h
  case isTrue h₁ =>
    obtain ⟨c, t, rfl, hc, ht⟩ := List.map_eq_cons_iff.mp h.symm
    obtain rfl := Option.some.inj hc
    exact ⟨_, t, bs, rfl, by rw [encodeChar_one h₁]; rfl, ht.symm⟩
  split at h
  case isTrue => cases s <;> cases h
  split at h
  case isTrue h₂ h₃ =>
    obtain ⟨c, bs, t, rfl, hl, hg, rfl, ht⟩ := exists_of_readFrom_last h
    exact ⟨_, t, bs, rfl, by rw [encodeChar_two ⟨Nat.le_of_not_lt h₂, h₃⟩ ⟨hl, hg⟩]; rfl, ht⟩
  split at h
  case isTrue h₃ h₄ =>
    obtain ⟨c, bs, rfl, hl, hg, h⟩ := exists_of_readFrom_next h
    obtain ⟨d, bs, t, rfl, hl', hg', rfl, ht⟩ := exists_of_readFrom_last h
    obtain ⟨hc, hleast, hgreatest⟩ := bounds_of_second ⟨hl, hg⟩ (by decide) (by decide)
    exact ⟨_, t, bs, rfl, by
      rw [encodeChar_three ⟨Nat.le_of_not_lt h₃, h₄⟩ hc hleast hgreatest ⟨hl', hg'⟩]; rfl, ht⟩
  split at h
  case isTrue h₄ h₅ =>
    obtain ⟨c, bs, rfl, hl, hg, h⟩ := exists_of_readFrom_next h
    obtain ⟨d, bs, rfl, hl', hg', h⟩ := exists_of_readFrom_next h
    obtain ⟨e, bs, t, rfl, hl'', hg'', rfl, ht⟩ := exists_of_readFrom_last h
    obtain ⟨hc, hleast, hgreatest⟩ := bounds_of_second ⟨hl, hg⟩ (by decide) (by decide)
    exact ⟨_, t, bs, rfl, by
      rw [encodeChar_four ⟨Nat.le_of_not_lt h₄, h₅⟩ hc hleast hgreatest ⟨hl', hg'⟩ ⟨hl'', hg''⟩]
      rfl, ht⟩
  case isFalse => cases s <;> cases h

/-- Bytes that read as a text without malformed parts are its encoding: there is no other form. -/
theorem eq_encode_of_readFrom (h : readFrom .ready bs = s.map some) : bs = encode s := by
  induction s generalizing bs with
  | nil =>
    cases bs with
    | nil => rfl
    | cons =>
      obtain ⟨_, _, _, hs, -⟩ := exists_of_readFrom_ready h
      cases hs
  | cons c s ih =>
    cases bs with
    | nil => cases h
    | cons b bs =>
      obtain ⟨_, _, bs', hs, hbs, ht⟩ := exists_of_readFrom_ready h
      cases hs
      rw [hbs, ih ht, encode_cons]

/-- Bytes stand for a text exactly if they are its encoding. -/
theorem decode?_eq_some_iff : decode? bs = some s ↔ bs = encode s := by
  constructor
  · exact fun h ↦ eq_encode_of_readFrom (eq_map_of_wellFormed? h)
  · rintro rfl
    exact decode?_encode s

end ContractBuild.Utf8

namespace ContractBuild.Bytes

@[simp] theorem toString?_ofString (s : String) : toString? (ofString s) = some s := by
  simp [toString?, ofString, Utf8.decode?_encode]

/-- Bytes stand for a text exactly if they are those of the text. -/
theorem toString?_eq_some_iff {bs : Bytes} {s : String} : toString? bs = some s ↔ bs = ofString s := by
  constructor
  · intro h
    obtain ⟨t, ht, rfl⟩ := Option.map_eq_some_iff.mp h
    rw [ofString, String.toList_ofList, Utf8.decode?_eq_some_iff.mp ht]
  · rintro rfl
    exact toString?_ofString s

@[simp] theorem display_ofString (s : String) : display (ofString s) = s := by
  simp [display, ofString, Utf8.decodeLossy_eq_of_decode? (Utf8.decode?_encode _)]

end ContractBuild.Bytes
