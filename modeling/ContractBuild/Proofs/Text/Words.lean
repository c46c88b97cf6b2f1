import ContractBuild.Text.Blank
import Mathlib.Data.List.Sort

/-!
# The words of a text

Words are described here by where they stand: a run is a part of a text without white space that no
longer one encloses, and the words of a text are its runs from left to right.  Everything follows from
what a white-space character does: it belongs to no run, and both the words and the runs of a text are
those before it and then those behind it.
-/

namespace ContractBuild.Text

/-- Whether a text can stand as a word: there is something in it, and no white space. -/
def IsWord (s : List Char) : Prop := s ≠ [] ∧ ∀ c ∈ s, ¬ isBlank c

/-- Whether a text can stand between words: there is something in it, and only white space. -/
def IsGap (s : List Char) : Prop := s ≠ [] ∧ ∀ c ∈ s, isBlank c

instance (s : List Char) : Decidable (IsGap s) :=
  decidable_of_iff (s ≠ [] ∧ s.all isBlank) (by simp [IsGap])

/-- What holds of texts without white space, and of two texts with a white-space character between
them where it holds of both, holds of every text. -/
@[elab_as_elim]
theorem blank_induction {P : List Char → Prop} (free : ∀ s, (∀ c ∈ s, ¬ isBlank c) → P s)
    (cut : ∀ a c b, isBlank c → P a → P b → P (a ++ c :: b)) (s : List Char) : P s := by
  -- along the text, with the characters since the last white space in front of what is left
  suffices h : ∀ s a, (∀ c ∈ a, ¬ isBlank c) → P (a ++ s) from h s [] (List.forall_mem_nil _)
  intro s
  induction s with
  | nil =>
    intro a ha
    rw [List.append_nil]
    exact free a ha
  | cons c s ih =>
    intro a ha
    by_cases hc : isBlank c
    · exact cut a c s hc (free a ha) (ih [] (List.forall_mem_nil _))
    · rw [List.append_cons]
      refine ih (a ++ [c]) fun d hd ↦ ?_
      rcases List.mem_append.mp hd with hd | hd
      · exact ha d hd
      · exact List.mem_singleton.mp hd ▸ hc

/-! ## Words -/

/-- The first piece between white space is empty where the text starts with that. -/
theorem startsBlank_iff {s piece : List Char} {pieces : List (List Char)}
    (h : s.splitOnP isBlank = piece :: pieces) : startsBlank s ↔ piece = [] := by
  cases s with
  | nil =>
    obtain ⟨rfl, -⟩ := List.cons.inj h
    exact ⟨fun _ ↦ rfl, fun _ ↦ rfl⟩
  | cons c s =>
    obtain ⟨first, others, hs⟩ := List.exists_cons_of_ne_nil (List.splitOnP_ne_nil isBlank s)
    rw [List.splitOnP_cons_eq_if_modifyHead, hs] at h
    by_cases hc : isBlank c <;> simp_all [startsBlank]
    simp [← h.1]

/-- The words of a text are what stands between its white-space characters, where that is anything. -/
theorem words_eq_filter_splitOnP (s : List Char) :
    words s = (s.splitOnP isBlank).filter (· ≠ []) := by
  induction s with
  | nil => rfl
  | cons c s ih =>
    obtain ⟨piece, pieces, hs⟩ := List.exists_cons_of_ne_nil (List.splitOnP_ne_nil isBlank s)
    have starts := startsBlank_iff hs
    rw [List.splitOnP_cons_eq_if_modifyHead, hs]
    rw [hs] at ih
    by_cases hc : isBlank c
    · simp [words, hc, ih]
    · by_cases hpiece : piece = []
      · simp [words, hc, starts, ih, hpiece]
      · simp [words, hc, starts, ih, hpiece, attach]

/-- White space ends a word and starts none. -/
theorem words_append_cons {c : Char} (hc : isBlank c) (a b : List Char) :
    words (a ++ c :: b) = words a ++ words b := by
  simp only [words_eq_filter_splitOnP, List.splitOnP_append_cons a b hc, List.filter_append]

theorem words_append_of_isBlank {gap : List Char} (hgap : ∀ c ∈ gap, isBlank c) (b : List Char) :
    words (gap ++ b) = words b := by
  induction gap with
  | nil => rfl
  | cons c gap ih =>
    obtain ⟨hc, hgap⟩ := List.forall_mem_cons.mp hgap
    rw [List.cons_append, words_cons_of_isBlank hc, ih hgap]

/-- A gap of any length parts the words before it from those behind it. -/
theorem words_append_gap {gap : List Char} (hgap : IsGap gap) (a b : List Char) :
    words (a ++ (gap ++ b)) = words a ++ words b := by
  obtain ⟨c, rest, rfl⟩ := List.exists_cons_of_ne_nil hgap.1
  obtain ⟨hc, hrest⟩ := List.forall_mem_cons.mp hgap.2
  rw [List.cons_append, words_append_cons hc, words_append_of_isBlank hrest]

theorem words_of_isWord {w : List Char} (h : IsWord w) : words w = [w] := by
  rw [words_eq_filter_splitOnP, List.splitOnP_eq_singleton fun c hc ↦ by simpa using h.2 c hc]
  simp [h.1]

/-- A text without white space is a word or nothing. -/
theorem eq_nil_or_isWord {s : List Char} (h : ∀ c ∈ s, ¬ isBlank c) : s = [] ∨ IsWord s := by
  by_cases hs : s = []
  · exact .inl hs
  · exact .inr ⟨hs, h⟩

theorem isWord_of_mem_words {s w : List Char} (hw : w ∈ words s) : IsWord w := by
  induction s using blank_induction with
  | free s h =>
    obtain rfl | hs := eq_nil_or_isWord h
    · simp at hw
    · rw [words_of_isWord hs, List.mem_singleton] at hw
      exact hw ▸ hs
  | cut a c b hc iha ihb =>
    rw [words_append_cons hc, List.mem_append] at hw
    exact hw.elim iha ihb

/-- Between words there is nothing but white space. -/
theorem flatten_words (s : List Char) : (words s).flatten = s.filter fun c ↦ !isBlank c := by
  induction s using blank_induction with
  | free s h =>
    have kept : (s.filter fun c ↦ !isBlank c) = s :=
      List.filter_eq_self.mpr fun c hc ↦ by simpa using h c hc
    obtain rfl | hs := eq_nil_or_isWord h
    · rfl
    · simp [words_of_isWord hs, kept]
  | cut a c b hc iha ihb => simp [words_append_cons hc, hc, iha, ihb]

/-! ## Runs -/

/-- A part of a text, with what stands before and behind it. -/
structure Occurrence where
  /-- What stands before the part. -/
  before : List Char
  /-- The part. -/
  word : List Char
  /-- What stands behind the part. -/
  after : List Char
  deriving DecidableEq, Repr

namespace Occurrence

/-- The text that a part belongs to. -/
def text (o : Occurrence) : List Char := o.before ++ (o.word ++ o.after)

/-- Whether a part lies within another one of the same text. -/
def Within (o o' : Occurrence) : Prop := o'.before <+: o.before ∧ o'.after <:+ o.after

/-- Whether a part starts before another one of the same text. -/
def Precedes (o o' : Occurrence) : Prop := o.before.length < o'.before.length

instance : Std.Irrefl Precedes := ⟨fun _ h ↦ Nat.lt_irrefl _ h⟩

instance : Std.Antisymm Precedes := ⟨fun _ _ h h' ↦ absurd h' (Nat.lt_asymm h)⟩

/-- The same part where more text is before it. -/
def precededBy (s : List Char) (o : Occurrence) : Occurrence := { o with before := s ++ o.before }

/-- The same part where more text is behind it. -/
def followedBy (s : List Char) (o : Occurrence) : Occurrence := { o with after := o.after ++ s }

@[simp] theorem word_precededBy (s : List Char) (o : Occurrence) : (o.precededBy s).word = o.word :=
  rfl

@[simp] theorem word_followedBy (s : List Char) (o : Occurrence) : (o.followedBy s).word = o.word :=
  rfl

theorem text_precededBy (s : List Char) (o : Occurrence) : (o.precededBy s).text = s ++ o.text := by
  simp [text, precededBy]

theorem text_followedBy (s : List Char) (o : Occurrence) : (o.followedBy s).text = o.text ++ s := by
  simp [text, followedBy]

end Occurrence

/-- Whether a part of a text is a run: a word that lies within no other one. -/
structure IsRun (s : List Char) (o : Occurrence) : Prop where
  /-- It is a part of the text. -/
  text_eq : o.text = s
  /-- It is a word. -/
  isWord : IsWord o.word
  /-- No other word of the text encloses it. -/
  eq_of_within : ∀ o' : Occurrence, o'.text = s → IsWord o'.word → o.Within o' → o' = o

/-- Whether white space is all that stands next to a part. -/
def Occurrence.IsClosed (o : Occurrence) : Prop :=
  (∀ c ∈ o.before.getLast?, isBlank c) ∧ ∀ c ∈ o.after.head?, isBlank c

theorem Occurrence.IsClosed.eq_of_within {o o' : Occurrence} (h : o.IsClosed)
    (htext : o'.text = o.text) (hword : IsWord o'.word) (hwithin : o.Within o') : o' = o := by
  obtain ⟨before, word, after⟩ := o
  obtain ⟨before', word', after'⟩ := o'
  obtain ⟨⟨left, rfl⟩, right, rfl⟩ := hwithin
  -- what the other word has more stands next to this one, and is no white space there
  have htext : word' ++ after' = (left ++ (word ++ right)) ++ after' := by simpa [text] using htext
  obtain rfl := List.append_cancel_right htext
  obtain rfl : left = [] := by
    obtain rfl | ⟨rest, c, rfl⟩ := List.eq_nil_or_concat' left
    · rfl
    · exact absurd (h.1 c (by simp)) (hword.2 c (by simp))
  obtain rfl : right = [] := by
    cases right with
    | nil => rfl
    | cons c rest => exact absurd (h.2 c (by simp)) (hword.2 c (by simp))
  simp

theorem IsRun.isClosed {s : List Char} {o : Occurrence} (h : IsRun s o) : o.IsClosed := by
  obtain ⟨before, word, after⟩ := o
  constructor
  · intro c hc
    obtain ⟨rest, rfl⟩ := List.getLast?_eq_some_iff.mp hc
    by_contra hblank
    have longer := h.eq_of_within ⟨rest, c :: word, after⟩
      (by simpa [Occurrence.text] using h.text_eq)
      ⟨List.cons_ne_nil _ _, List.forall_mem_cons.mpr ⟨hblank, h.isWord.2⟩⟩
      ⟨List.prefix_append _ _, List.suffix_refl _⟩
    simpa using congrArg (·.word) longer
  · intro c hc
    obtain ⟨rest, rfl⟩ := List.head?_eq_some_iff.mp hc
    by_contra hblank
    have longer := h.eq_of_within ⟨before, word ++ [c], rest⟩
      (by simpa [Occurrence.text] using h.text_eq)
      ⟨by simp, fun d hd ↦ (List.mem_append.mp hd).elim (h.isWord.2 d) fun hd ↦
        List.mem_singleton.mp hd ▸ hblank⟩
      ⟨List.prefix_refl _, List.suffix_cons _ _⟩
    simpa using congrArg (·.word) longer

/-- A run is a word with white space next to it, or an end of the text. -/
theorem isRun_iff {s : List Char} {o : Occurrence} :
    IsRun s o ↔ o.text = s ∧ IsWord o.word ∧ o.IsClosed := by
  refine ⟨fun h ↦ ⟨h.text_eq, h.isWord, h.isClosed⟩, ?_⟩
  rintro ⟨rfl, hword, hclosed⟩
  exact ⟨rfl, hword, fun o' htext hword' ↦ hclosed.eq_of_within htext hword'⟩

/-- The only run of a word is the word. -/
theorem isRun_iff_of_isWord {s : List Char} (hs : IsWord s) {o : Occurrence} :
    IsRun s o ↔ o = ⟨[], s, []⟩ := by
  constructor
  · intro h
    exact (h.eq_of_within ⟨[], s, []⟩ (by simp [Occurrence.text]) hs
      ⟨List.nil_prefix, List.nil_suffix⟩).symm
  · rintro rfl
    exact isRun_iff.mpr ⟨by simp [Occurrence.text], hs, by simp [Occurrence.IsClosed]⟩

theorem not_isRun_nil {o : Occurrence} : ¬ IsRun [] o := by
  intro h
  obtain ⟨-, empty, -⟩ : o.before = [] ∧ o.word = [] ∧ o.after = [] := by
    simpa [Occurrence.text] using h.text_eq
  exact h.isWord.1 empty

section

variable {c : Char} (hc : isBlank c) (a b : List Char)
include hc

theorem isClosed_precededBy {o : Occurrence} :
    (o.precededBy (a ++ [c])).IsClosed ↔ o.IsClosed := by
  obtain ⟨before, word, after⟩ := o
  obtain rfl | ⟨rest, d, rfl⟩ := List.eq_nil_or_concat' before
  · simp [Occurrence.IsClosed, Occurrence.precededBy, hc]
  · simp [Occurrence.IsClosed, Occurrence.precededBy, List.getLast?_cons]

theorem isClosed_followedBy {o : Occurrence} :
    (o.followedBy (c :: b)).IsClosed ↔ o.IsClosed := by
  obtain ⟨before, word, after⟩ := o
  cases after <;> simp [Occurrence.IsClosed, Occurrence.followedBy, hc]

/-- A word of a text lies before a white-space character of it or behind that. -/
theorem exists_part {o : Occurrence} (htext : o.text = a ++ c :: b) (hword : IsWord o.word) :
    (∃ l : Occurrence, l.text = a ∧ l.followedBy (c :: b) = o) ∨
      ∃ r : Occurrence, r.text = b ∧ r.precededBy (a ++ [c]) = o := by
  obtain ⟨before, word, after⟩ := o
  have outside : c ∉ word := fun hmem ↦ hword.2 c hmem hc
  obtain ⟨rest, rfl, hrest⟩ | ⟨rest, rfl, hrest⟩ := List.append_eq_append_iff.mp htext
  · -- the character does not stand before the word
    obtain ⟨gap, rfl, rfl⟩ | ⟨tail, rfl, htail⟩ := List.append_eq_append_iff.mp hrest
    · exact .inl ⟨⟨before, word, gap⟩, rfl, rfl⟩
    · obtain ⟨rfl, rfl⟩ | ⟨tail, rfl, -⟩ := List.cons_eq_append_iff.mp htail
      · exact .inl ⟨⟨before, rest, []⟩, by simp [Occurrence.text], by simp [Occurrence.followedBy]⟩
      · exact absurd (by simp) outside
  · obtain ⟨rfl, hword'⟩ | ⟨rest, rfl, rfl⟩ := List.cons_eq_append_iff.mp hrest
    · obtain ⟨rfl, -⟩ | ⟨tail, rfl, -⟩ := List.append_eq_cons_iff.mp hword'
      · exact absurd rfl hword.1
      · exact absurd (by simp) outside
    · exact .inr ⟨⟨rest, word, after⟩, rfl, by simp [Occurrence.precededBy]⟩

theorem isRun_append_cons {o : Occurrence} : IsRun (a ++ c :: b) o ↔
    (∃ l, IsRun a l ∧ l.followedBy (c :: b) = o) ∨ ∃ r, IsRun b r ∧ r.precededBy (a ++ [c]) = o := by
  simp only [isRun_iff]
  constructor
  · rintro ⟨htext, hword, hclosed⟩
    obtain ⟨l, rfl, rfl⟩ | ⟨r, rfl, rfl⟩ := exists_part hc a b htext hword
    · exact .inl ⟨l, ⟨rfl, hword, (isClosed_followedBy hc b).mp hclosed⟩, rfl⟩
    · exact .inr ⟨r, ⟨rfl, hword, (isClosed_precededBy hc a).mp hclosed⟩, rfl⟩
  · rintro (⟨l, ⟨rfl, hword, hclosed⟩, rfl⟩ | ⟨r, ⟨rfl, hword, hclosed⟩, rfl⟩)
    · exact ⟨l.text_followedBy _, hword, (isClosed_followedBy hc b).mpr hclosed⟩
    · exact ⟨by simp [Occurrence.text_precededBy], hword, (isClosed_precededBy hc a).mpr hclosed⟩

end

/-- Whether words are the runs of a text, from left to right. -/
def AreRuns (s : List Char) (ws : List (List Char)) : Prop :=
  ∃ runs : List Occurrence, runs.Pairwise Occurrence.Precedes ∧ (∀ o, o ∈ runs ↔ IsRun s o) ∧
    runs.map (·.word) = ws

theorem AreRuns.unique {s : List Char} {ws vs : List (List Char)} (hw : AreRuns s ws)
    (hv : AreRuns s vs) : ws = vs := by
  obtain ⟨runs, sorted, mem, rfl⟩ := hw
  obtain ⟨runs', sorted', mem', rfl⟩ := hv
  rw [sorted.eq_of_mem_iff sorted' fun o ↦ (mem o).trans (mem' o).symm]

theorem Occurrence.precedes_precededBy_iff {s : List Char} {o o' : Occurrence} :
    (o.precededBy s).Precedes (o'.precededBy s) ↔ o.Precedes o' := by
  simp [Precedes, precededBy]

/-- A run of a text starts before whatever stands behind that text and one more character. -/
theorem IsRun.precedes {a : List Char} {l : Occurrence} (h : IsRun a l) (c : Char) (s : List Char)
    (r : Occurrence) : (l.followedBy s).Precedes (r.precededBy (a ++ [c])) := by
  have inside : l.before.length ≤ a.length := by
    rw [← h.text_eq, Occurrence.text, List.length_append]
    exact Nat.le_add_right _ _
  simp only [Occurrence.Precedes, Occurrence.precededBy, Occurrence.followedBy,
    List.length_append, List.length_singleton]
  omega

theorem AreRuns.append_cons {c : Char} (hc : isBlank c) {a b : List Char} {ws vs : List (List Char)}
    (ha : AreRuns a ws) (hb : AreRuns b vs) : AreRuns (a ++ c :: b) (ws ++ vs) := by
  obtain ⟨lefts, sortedLefts, memLefts, rfl⟩ := ha
  obtain ⟨rights, sortedRights, memRights, rfl⟩ := hb
  refine ⟨lefts.map (·.followedBy (c :: b)) ++ rights.map (·.precededBy (a ++ [c])),
    List.pairwise_append.mpr ⟨?_, ?_, ?_⟩, fun o ↦ ?_, ?_⟩
  · exact List.pairwise_map.mpr sortedLefts
  · exact List.pairwise_map.mpr (sortedRights.imp Occurrence.precedes_precededBy_iff.mpr)
  · intro l hl r hr
    obtain ⟨o, ho, rfl⟩ := List.mem_map.mp hl
    obtain ⟨o', -, rfl⟩ := List.mem_map.mp hr
    exact ((memLefts o).mp ho).precedes c (c :: b) o'
  · simp only [isRun_append_cons hc, List.mem_append, List.mem_map, memLefts, memRights]
  · simp [Function.comp_def]

/-- The words of a text are its runs. -/
theorem areRuns_words (s : List Char) : AreRuns s (words s) := by
  induction s using blank_induction with
  | free s h =>
    obtain rfl | hs := eq_nil_or_isWord h
    · exact ⟨[], .nil, fun o ↦ by simp [not_isRun_nil], rfl⟩
    · rw [words_of_isWord hs]
      exact ⟨[⟨[], s, []⟩], List.pairwise_singleton _ _,
        fun o ↦ by rw [isRun_iff_of_isWord hs, List.mem_singleton], rfl⟩
  | cut a c b hc iha ihb =>
    rw [words_append_cons hc]
    exact iha.append_cons hc ihb

theorem areRuns_iff {s : List Char} {ws : List (List Char)} : AreRuns s ws ↔ ws = words s :=
  ⟨fun h ↦ h.unique (areRuns_words s), fun h ↦ h ▸ areRuns_words s⟩

end ContractBuild.Text
