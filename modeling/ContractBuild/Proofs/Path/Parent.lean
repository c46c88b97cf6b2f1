import ContractBuild.Path.FileName
import ContractBuild.Proofs.Path.Join
import Mathlib.Data.List.Induction

/-!
# The directory of a path

The file name of a path is its last component, however the path goes on behind it, and the parent of
the path has the components before that.  So what is put beside a path below a directory lies below
that directory as well.
-/

namespace ContractBuild.Path

variable {base p : Path} {q : Bytes} {qs : List Bytes} {m n : Name}

/-! ## Pieces -/

/-- No piece holds a slash. -/
theorem not_mem_of_mem_pieces {bs : Bytes} (hq : q ∈ pieces bs) : slash ∉ q := by
  induction bs generalizing q with
  | nil =>
    obtain rfl := List.mem_singleton.mp hq
    exact List.not_mem_nil
  | cons b bs ih =>
    by_cases hb : b = slash
    · rw [hb, pieces_slash] at hq
      rcases List.mem_cons.mp hq with rfl | hq
      · exact List.not_mem_nil
      · exact ih hq
    · cases hbs : pieces bs with
      | nil => exact absurd hbs (pieces_ne_nil bs)
      | cons r rs =>
        rw [pieces_cons_of_ne hb hbs] at hq
        rcases List.mem_cons.mp hq with rfl | hq
        · have hr : slash ∉ r := ih (by simp [hbs])
          simp [Ne.symm hb, hr]
        · exact ih (by simp [hbs, hq])

/-- Pieces come back from the bytes that they are joined to. -/
theorem pieces_unpieces (hne : qs ≠ []) (hqs : ∀ q ∈ qs, slash ∉ q) :
    pieces (unpieces qs) = qs := by
  induction qs with
  | nil => exact absurd rfl hne
  | cons q qs ih =>
    have first : pieces q = [q] := pieces_of_not_mem (hqs q List.mem_cons_self)
    cases qs with
    | nil => exact first
    | cons r rs =>
      have rest := ih (List.cons_ne_nil r rs) fun a ha ↦ hqs a (List.mem_cons_of_mem _ ha)
      rw [unpieces, pieces_append_slash, first, rest, List.singleton_append]
      simp

/-! ## Components of pieces -/

/-- A piece that is not idle is a step up or a name. -/
theorem ofPiece?_eq (q : Bytes) : (isIdle q = true ∧ Component.ofPiece? q = none) ∨
    (isIdle q = false ∧ (Component.ofPiece? q = some .up ∨ Component.ofPiece? q = some (.name q))) := by
  unfold isIdle Component.ofPiece?
  by_cases hnil : q = []
  · exact .inl ⟨by simp [hnil], if_pos hnil⟩
  · by_cases hdot : q = [dot]
    · exact .inl ⟨by simp [hdot], by simp [hdot]⟩
    · refine .inr ⟨by simp [hnil, hdot], ?_⟩
      simp only [hnil, hdot, if_false]
      split
      · exact .inl rfl
      · exact .inr rfl

/-- A name among the components of pieces is one of the pieces. -/
theorem isName_of_ofPiece? (hslash : slash ∉ q) (hq : Component.ofPiece? q = some (.name n)) :
    n = q ∧ (ofName n).IsName := by
  unfold Component.ofPiece? at hq
  split at hq
  · cases hq
  split at hq
  · cases hq
  split at hq
  · cases hq
  next hnil hdot hup =>
    obtain rfl := Component.name.inj (Option.some.inj hq)
    exact ⟨rfl, hslash, by simp [ofName, step?, hnil, hdot, hup]⟩

/-- A name behind a directory is one more component. -/
theorem tail_ofName (hm : (ofName m).IsName) : (ofName m).tail = [.name m] := by
  obtain ⟨hslash, hstep⟩ := hm
  have component : Component.ofPiece? m = some (.name m) := by
    unfold step? ofName at hstep
    unfold Component.ofPiece?
    split at hstep
    · cases hstep
    split at hstep
    · cases hstep
    split at hstep
    · cases hstep
    next hnil hdot hup => simp [hnil, hdot, hup]
  rw [tail, pieces_of_not_mem hslash]
  exact List.filterMap_cons_some component

theorem eq_up_or_name_of_mem_tail {c : Component} (hc : c ∈ p.tail) :
    c = .up ∨ ∃ n, c = .name n ∧ (ofName n).IsName := by
  obtain ⟨q, hq, hqc⟩ := List.mem_filterMap.mp hc
  rcases ofPiece?_eq q with ⟨-, none⟩ | ⟨-, up | name⟩
  · cases none.symm.trans hqc
  · exact .inl (Option.some.inj (hqc.symm.trans up))
  · obtain rfl := Option.some.inj (hqc.symm.trans name)
    exact .inr ⟨q, rfl, (isName_of_ofPiece? (not_mem_of_mem_pieces hq) name).2⟩

/-- The components of a path are those that it adds behind another, but for the start. -/
theorem components_eq (p : Path) : p.components = p.tail ∨
    ∃ c, (c = .root ∨ c = .here) ∧ p.components = c :: p.tail := by
  unfold components tail
  cases hp : pieces p.raw with
  | nil => exact absurd hp (pieces_ne_nil p.raw)
  | cons first rest =>
    by_cases hnil : first = []
    · by_cases hrest : rest = []
      · simp [hnil, hrest, Component.ofPiece?]
      · exact .inr ⟨.root, .inl rfl, by simp [hnil, hrest, Component.ofPiece?]⟩
    · by_cases hdot : first = [dot]
      · exact .inr ⟨.here, .inr rfl, by simp [hdot, Component.ofPiece?]⟩
      · left
        cases hfirst : Component.ofPiece? first <;> simp [hnil, hdot, hfirst]

theorem mem_components_of_mem_tail {c : Component} (hc : c ∈ p.tail) : c ∈ p.components := by
  rcases components_eq p with same | ⟨b, -, more⟩
  · rwa [same]
  · rw [more]
    exact List.mem_cons_of_mem b hc

/-- A path that never goes up adds names only. -/
theorem exists_tail_eq_map (hup : .up ∉ p.components) : ∃ ns : List Name, p.tail = ns.map .name := by
  have names (cs : List Component) (hcs : ∀ c ∈ cs, ∃ n, c = .name n) :
      ∃ ns : List Name, cs = ns.map .name := by
    induction cs with
    | nil => exact ⟨[], rfl⟩
    | cons c cs ih =>
      obtain ⟨n, rfl⟩ := hcs c List.mem_cons_self
      obtain ⟨ns, rfl⟩ := ih fun c' hc' ↦ hcs c' (List.mem_cons_of_mem _ hc')
      exact ⟨n :: ns, rfl⟩
  refine names p.tail fun c hc ↦ ?_
  rcases eq_up_or_name_of_mem_tail hc with rfl | ⟨n, rfl, -⟩
  · exact absurd (mem_components_of_mem_tail hc) hup
  · exact ⟨n, rfl⟩

theorem fileName?_eq_some_iff : p.fileName? = some n ↔ p.tail.getLast? = some (.name n) := by
  have last : p.fileName? = some n ↔ p.components.getLast? = some (.name n) := by
    unfold fileName?
    split
    next a ha => simp [ha]
    next hother => simpa using hother n
  rw [last]
  rcases components_eq p with same | ⟨c, hc, more⟩
  · rw [same]
  · rw [more]
    cases p.tail with
    | nil => rcases hc with rfl | rfl <;> simp
    | cons b bs => rw [List.getLast?_cons_cons]

/-- The file name of a path is the name of an entry. -/
theorem isName_of_fileName? (hn : p.fileName? = some n) : (ofName n).IsName := by
  rcases eq_up_or_name_of_mem_tail (List.mem_of_getLast? (fileName?_eq_some_iff.mp hn)) with up | name
  · cases up
  · obtain ⟨a, ha, isName⟩ := name
    rwa [Component.name.inj ha]

/-! ## Without the last component -/

theorem trimIdle_concat (qs : List Bytes) (q : Bytes) :
    trimIdle (qs ++ [q]) = if isIdle q then trimIdle qs else qs ++ [q] := by
  unfold trimIdle
  rw [List.reverse_append, List.reverse_singleton, List.singleton_append, List.dropWhile_cons]
  split
  · rfl
  · rw [List.reverse_cons, List.reverse_reverse]

/-- Idle pieces at the end stand for nothing, and what stands before them does not. -/
theorem trimIdle_cases (qs : List Bytes) :
    (trimIdle qs = [] ∧ qs.filterMap Component.ofPiece? = []) ∨
      ∃ ks q c, trimIdle qs = ks ++ [q] ∧ Component.ofPiece? q = some c ∧
        qs.filterMap Component.ofPiece? = ks.filterMap Component.ofPiece? ++ [c] := by
  induction qs using List.reverseRecOn with
  | nil => exact .inl ⟨rfl, rfl⟩
  | append_singleton qs q ih =>
    rw [trimIdle_concat, List.filterMap_append]
    rcases ofPiece?_eq q with ⟨idle, none⟩ | ⟨busy, some⟩
    · simpa [idle, none] using ih
    · right
      rcases some with some | some <;>
        exact ⟨qs, q, _, by simp [busy], some, by simp [some]⟩

theorem filterMap_trimIdle (qs : List Bytes) :
    (trimIdle qs).filterMap Component.ofPiece? = qs.filterMap Component.ofPiece? := by
  rcases trimIdle_cases qs with ⟨hnil, none⟩ | ⟨ks, q, c, hks, hq, some⟩
  · rw [hnil, none, List.filterMap_nil]
  · rw [hks, some, List.filterMap_append, List.filterMap_cons_some hq, List.filterMap_nil]

theorem mem_of_mem_trimIdle (hq : q ∈ trimIdle qs) : q ∈ qs :=
  List.mem_reverse.mp ((List.dropWhile_sublist _).mem (List.mem_reverse.mp hq))

/-- The parent of an absolute path that ends in a name has the components before that. -/
theorem components_parent? (hp : p.isAbsolute) (hn : p.fileName? = some n) :
    ∃ above, p.parent? = some above ∧ above.isAbsolute ∧
      p.components = above.components ++ [.name n] := by
  obtain ⟨p⟩ := p
  obtain ⟨bs, rfl : p = slash :: bs⟩ := eq_slash_cons hp
  rw [components_slash_cons]
  have last : ((pieces bs).filterMap Component.ofPiece?).getLast? = some (.name n) := by
    rw [fileName?_eq_some_iff, tail, pieces_slash] at hn
    exact hn
  unfold parent?
  rw [pieces_slash]
  dsimp only
  rcases trimIdle_cases (pieces bs) with ⟨-, none⟩ | ⟨ks, q, c, hks, -, some⟩
  · rw [none] at last
    cases last
  · rw [some, List.getLast?_concat] at last
    obtain rfl := Option.some.inj last
    rw [hks, some, List.reverse_append, List.reverse_singleton, List.singleton_append]
    dsimp only
    rw [List.reverse_reverse]
    have plain : ∀ a ∈ trimIdle ks, slash ∉ a := by
      intro a ha
      have inside : a ∈ trimIdle (pieces bs) := by
        rw [hks]
        exact List.mem_append_left _ (mem_of_mem_trimIdle ha)
      exact not_mem_of_mem_pieces (mem_of_mem_trimIdle inside)
    rw [← filterMap_trimIdle ks]
    cases htrim : trimIdle ks with
    | nil => exact ⟨⟨[slash]⟩, rfl, rfl, rfl⟩
    | cons a as =>
      rw [htrim] at plain
      have back : pieces (unpieces ([] :: a :: as)) = [] :: a :: as :=
        pieces_unpieces (List.cons_ne_nil _ _) fun b hb ↦ by
          rcases List.mem_cons.mp hb with rfl | hb
          · exact List.not_mem_nil
          · exact plain b hb
      refine ⟨⟨unpieces ([] :: a :: as)⟩, rfl, rfl, ?_⟩
      rw [components, back]
      simp

/-- What is put beside a path below a directory lies below that, where the path lies. -/
theorem components_beside (hbase : base.isAbsolute) (hp : p.isAbsolute = false)
    (hn : p.fileName? = some n) (hm : (ofName m).IsName) :
    (((base.join p).parent?.getD .here).join (ofName m)).components =
      base.components ++ p.tail.dropLast ++ [.name m] := by
  have joined := components_join hbase hp
  have ends : p.tail = p.tail.dropLast ++ [.name n] := by
    obtain ⟨before, hbefore⟩ := List.getLast?_eq_some_iff.mp (fileName?_eq_some_iff.mp hn)
    rw [hbefore, List.dropLast_concat]
  have name : (base.join p).fileName? = some n := by
    unfold fileName?
    rw [joined, ends, ← List.append_assoc, List.getLast?_concat]
  obtain ⟨above, habove, absolute, components⟩ :=
    components_parent? (isAbsolute_join hbase p) name
  have before : above.components = base.components ++ p.tail.dropLast := by
    rw [joined, ends, ← List.append_assoc] at components
    exact (List.append_inj_left' components rfl).symm
  rw [habove, Option.getD_some, components_join absolute hm.isAbsolute, before, tail_ofName hm]

end ContractBuild.Path

/-!
## Paths beside a path

Whatever a path starts from, its file name is the last of its components and its parent has those
before it.  So a path and the paths of other names behind its parent differ in their last component
only.  On the way that the path describes, nothing but `.` comes behind its file name.
-/

namespace ContractBuild.Path

variable {base p : Path} {m n : Name} {first : Bytes} {rest qs : List Bytes}

/-! ### Components -/

/-- The components that the first piece of a path stands for, if other pieces come behind it. -/
def start (first : Bytes) : List Component :=
  if first = [] then [.root]
  else if first = [dot] then [.here]
  else (Component.ofPiece? first).toList

theorem components_of_pieces (hp : pieces p.raw = first :: rest) (hrest : rest ≠ []) :
    p.components = start first ++ rest.filterMap Component.ofPiece? := by
  simp [components, hp, hrest, start]

theorem components_of_piece (hp : pieces p.raw = [first]) (hfirst : first ≠ []) :
    p.components = start first := by
  simp [components, hp, hfirst, start]

theorem start_of_isName (hm : (ofName m).IsName) : start m = [.name m] := by
  have hslash : pieces m = [m] := pieces_of_not_mem hm.1
  have component : [m].filterMap Component.ofPiece? = [.name m] := hslash ▸ tail_ofName hm
  have hstep : step? m = some (.enter m) := hm.2
  have hnil : m ≠ [] := hm.ne_nil
  have hdot : m ≠ [dot] := by
    rintro rfl
    cases hstep
  rw [List.filterMap_cons] at component
  unfold start
  rw [if_neg hnil, if_neg hdot]
  split at component
  next none => cases component
  next c some =>
    rw [some]
    exact component

/-- The components of a path that ends in a name are those of its parent and the name. -/
theorem components_of_fileName? (hn : p.fileName? = some n) :
    ∃ above, p.parent? = some above ∧ p.components = above.components ++ [.name n] := by
  cases hp : pieces p.raw with
  | nil => exact absurd hp (pieces_ne_nil p.raw)
  | cons first rest =>
    have plain (a : Bytes) (ha : a ∈ first :: rest) : slash ∉ a := not_mem_of_mem_pieces (hp ▸ ha)
    unfold parent?
    rw [hp]
    dsimp only
    rcases trimIdle_cases rest with ⟨hnil, none⟩ | ⟨ks, q, c, hks, -, some⟩
    · -- the name is the only component
      have last := fileName?_eq_some_iff.mp hn
      rw [tail, hp, List.filterMap_cons, none] at last
      split at last
      next => cases last
      next c hc =>
        obtain rfl := Option.some.inj last
        have hfirst : first ≠ [] := by
          rintro rfl
          cases hc
        have hdot : first ≠ [dot] := by
          rintro rfl
          cases hc
        rw [hnil, List.reverse_nil]
        dsimp only
        rw [if_neg hfirst]
        exact ⟨_, rfl, by simp [components, hp, none, hfirst, hdot, hc]⟩
    · have hrest : rest ≠ [] := by
        rintro rfl
        simp [trimIdle] at hks
      have here := components_of_pieces hp hrest
      rw [some, ← List.append_assoc] at here
      obtain rfl : c = .name n := by
        unfold fileName? at hn
        rw [here, List.getLast?_concat] at hn
        split at hn
        next a ha => rw [← Option.some.inj hn, Option.some.inj ha]
        next => cases hn
      rw [hks, List.reverse_append, List.reverse_singleton, List.singleton_append]
      dsimp only
      rw [List.reverse_reverse, here, ← filterMap_trimIdle ks]
      cases htrim : trimIdle ks with
      | nil =>
        refine ⟨_, rfl, ?_⟩
        rw [List.filterMap_nil, List.append_nil, List.append_left_inj]
        split
        next hfirst =>
          rw [hfirst]
          rfl
        next hfirst =>
          exact (components_of_piece (pieces_of_not_mem (plain first List.mem_cons_self)) hfirst).symm
      | cons a as =>
        have inside (b : Bytes) (hb : b ∈ a :: as) : b ∈ rest := by
          have before : b ∈ ks := mem_of_mem_trimIdle (htrim ▸ hb)
          exact mem_of_mem_trimIdle (hks ▸ List.mem_append_left _ before)
        have back : pieces (unpieces (first :: a :: as)) = first :: a :: as :=
          pieces_unpieces (List.cons_ne_nil _ _) fun b hb ↦ by
            rcases List.mem_cons.mp hb with rfl | hb
            · exact plain b List.mem_cons_self
            · exact plain b (List.mem_cons_of_mem _ (inside b hb))
        refine ⟨_, rfl, ?_⟩
        rw [components_of_pieces (p := ⟨unpieces (first :: a :: as)⟩) back (List.cons_ne_nil _ _)]

/-- A name behind a path is one more component. -/
theorem components_join_name (hm : (ofName m).IsName) :
    (base.join (.ofName m)).components = base.components ++ [.name m] := by
  have hslash : pieces m = [m] := pieces_of_not_mem hm.1
  have name : [m].filterMap Component.ofPiece? = [.name m] := hslash ▸ tail_ofName hm
  by_cases hnil : base.raw = []
  · have alone : base.join (.ofName m) = .ofName m := by simp [join, hnil, ofName]
    have single : (ofName m).components = start m := components_of_piece hslash hm.ne_nil
    have empty : base.components = [] := by simp [components, hnil]
    rw [alone, single, start_of_isName hm, empty, List.nil_append]
  -- the pieces of the path are those of the directory, and the name
  obtain ⟨first, rest, joined, before⟩ : ∃ first rest,
      pieces (base.join (.ofName m)).raw = first :: (rest ++ [m]) ∧
        base.components = start first ++ rest.filterMap Component.ofPiece? := by
    rw [join, hm.isAbsolute, if_neg Bool.false_ne_true]
    split
    next hlast =>
      obtain ⟨xs, hxs⟩ := List.getLast?_eq_some_iff.mp (hlast.resolve_left hnil)
      cases hfirst : pieces xs with
      | nil => exact absurd hfirst (pieces_ne_nil xs)
      | cons first rest =>
        have hbase : pieces base.raw = first :: (rest ++ [[]]) := by
          rw [hxs, pieces_append_slash, hfirst, pieces_nil, List.cons_append]
        refine ⟨first, rest, ?_, ?_⟩
        · simp [hxs, pieces_append_slash, hfirst, ofName, hslash]
        · rw [components_of_pieces hbase (by simp), List.filterMap_append]
          simp [Component.ofPiece?]
    next =>
      cases hfirst : pieces base.raw with
      | nil => exact absurd hfirst (pieces_ne_nil base.raw)
      | cons first rest =>
        refine ⟨first, rest, by simp [pieces_append_slash, hfirst, ofName, hslash], ?_⟩
        by_cases hrest : rest = []
        · subst hrest
          have hne : first ≠ [] := by
            rintro rfl
            refine hnil ?_
            rw [← unpieces_pieces base.raw, hfirst]
            rfl
          rw [components_of_piece hfirst hne, List.filterMap_nil, List.append_nil]
        · exact components_of_pieces hfirst hrest
  rw [components_of_pieces joined (by simp), before, List.filterMap_append, name, List.append_assoc]

/-! ### File names -/

theorem fileName?_of_components {cs : List Component} (h : p.components = cs ++ [.name n]) :
    p.fileName? = some n := by
  unfold fileName?
  rw [h, List.getLast?_concat]

/-- A path ends in the same name behind a directory. -/
theorem fileName?_join (hn : p.fileName? = some n) : (base.join p).fileName? = some n := by
  obtain ⟨front, tails⟩ : ∃ front, (base.join p).tail = front ++ p.tail := by
    unfold join
    split
    next => exact ⟨[], rfl⟩
    next =>
      split
      next hlast =>
        by_cases hnil : base.raw = []
        · exact ⟨[], by simp [hnil]⟩
        · obtain ⟨xs, hxs⟩ := List.getLast?_eq_some_iff.mp (hlast.resolve_left hnil)
          exact ⟨(pieces xs).filterMap Component.ofPiece?, by
            simp [tail, hxs, pieces_append_slash]⟩
      next =>
        exact ⟨(pieces base.raw).filterMap Component.ofPiece?, by simp [tail, pieces_append_slash]⟩
  obtain ⟨before, hbefore⟩ := List.getLast?_eq_some_iff.mp (fileName?_eq_some_iff.mp hn)
  refine fileName?_eq_some_iff.mpr ?_
  rw [tails, hbefore, ← List.append_assoc, List.getLast?_concat]

/-- The way that a path describes enters its file name, and then stays where it is. -/
theorem steps_of_fileName? (hn : p.fileName? = some n) :
    ∃ ss k, p.steps = ss ++ .enter n :: List.replicate k .stay := by
  have last := fileName?_eq_some_iff.mp hn
  unfold tail at last
  unfold steps
  generalize pieces p.raw = qs at last ⊢
  induction qs using List.reverseRecOn with
  | nil => cases last
  | append_singleton qs q ih =>
    rw [List.filterMap_append] at last ⊢
    by_cases hnil : q = []
    · rw [hnil] at last ⊢
      simpa [step?, Component.ofPiece?] using ih (by simpa [Component.ofPiece?] using last)
    by_cases hdot : q = [dot]
    · rw [hdot] at last ⊢
      obtain ⟨ss, k, before⟩ := ih (by simpa [Component.ofPiece?] using last)
      exact ⟨ss, k + 1, by simp [before, step?, List.replicate_succ']⟩
    by_cases hup : q = [dot, dot]
    · rw [hup] at last
      simp [Component.ofPiece?] at last
    · have hq : [q].filterMap Component.ofPiece? = [.name q] := by
        simp [Component.ofPiece?, hnil, hdot, hup]
      rw [hq, List.getLast?_concat] at last
      obtain rfl := Component.name.inj (Option.some.inj last)
      exact ⟨qs.filterMap step?, 0, by simp [step?, hnil, hdot, hup]⟩

end ContractBuild.Path
