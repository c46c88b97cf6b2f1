import ContractBuild.Proofs.Build.InputErrors
import ContractBuild.Proofs.Text.Utf8

/-!
# Classified inputs

An input is accepted by the end of its file name: one of the texts that the message for an unsupported
input lists, with something in front of it.  A file name ends in at most one of them, since each text
has one dot and starts with it.

Sorting inputs by kind loses nothing: each list is the command line without the inputs of all other
kinds, and merging the lists by position gives the command line back.
-/

namespace ContractBuild

namespace Path

variable {n stem ext : Bytes}

/-! ## The last dot of a name -/

theorem splitLastDot?_eq_none_iff : splitLastDot? n = none ↔ dot ∉ n := by
  induction n with
  | nil => simp
  | cons b bs ih =>
    unfold splitLastDot?
    rw [List.mem_cons, not_or, ← ih]
    cases splitLastDot? bs with
    | none => by_cases hb : b = dot <;> simp [hb, eq_comm]
    | some parts => simp

theorem not_mem_of_splitLastDot? (h : splitLastDot? n = some (stem, ext)) : dot ∉ ext := by
  induction n generalizing stem with
  | nil => cases h
  | cons b bs ih =>
    unfold splitLastDot? at h
    split at h
    next hbs =>
      cases h
      exact ih hbs
    next hnone =>
      split at h
      · cases h
        exact splitLastDot?_eq_none_iff.mp hnone
      · cases h

/-- Bytes are cut at a dot that no other one follows. -/
theorem splitLastDot?_append (h : dot ∉ ext) (stem : Bytes) :
    splitLastDot? (stem ++ dot :: ext) = some (stem, ext) := by
  induction stem with
  | nil => simp [splitLastDot?, splitLastDot?_eq_none_iff.mpr h]
  | cons b bs ih => simp [splitLastDot?, ih]

/-- The extension of a name is what follows its last dot, if something comes before that dot. -/
theorem splitName_snd_eq_some_iff : (splitName n).2 = some ext ↔
    ∃ stem, stem ≠ [] ∧ dot ∉ ext ∧ n = stem ++ dot :: ext := by
  constructor
  · intro h
    unfold splitName at h
    split at h
    next => cases h
    next => cases h
    next stem after hne hcut =>
      obtain rfl := Option.some.inj h
      exact ⟨stem, hne, not_mem_of_splitLastDot? hcut,
        eq_of_splitLastDot? hcut⟩
  · rintro ⟨stem, hne, hext, rfl⟩
    obtain ⟨b, bs, rfl⟩ := List.exists_cons_of_ne_nil hne
    rw [splitName, splitLastDot?_append hext]

end Path

namespace InputKind

variable {p : Path} {kind : InputKind} {n stem ext : Bytes}

/-! ## Kinds by the end of a name -/

/-- What the names of the inputs of a kind end in. -/
def endings : InputKind → List String
  | .cxx => [".cc", ".cpp", ".cxx"]
  | .c => [".c"]
  | .irText => [".ll"]
  | .irBinary => [".bc"]
  | .assembly => [".s", ".S"]

/-- The endings of all kinds are those that the message for an unsupported input lists. -/
theorem mem_extensionTexts_iff {e : String} :
    e ∈ extensionTexts ↔ ∃ kind : InputKind, e ∈ kind.endings := by
  constructor
  · have each : ∀ e ∈ extensionTexts,
        e ∈ InputKind.c.endings ∨ e ∈ InputKind.cxx.endings ∨ e ∈ InputKind.irText.endings ∨
          e ∈ InputKind.irBinary.endings ∨ e ∈ InputKind.assembly.endings := by decide
    intro he
    obtain he | he | he | he | he := each e he <;> exact ⟨_, he⟩
  · rintro ⟨kind, he⟩
    have each : ∀ e ∈ kind.endings, e ∈ extensionTexts := by cases kind <;> decide
    exact each e he

/-- Each ending is a dot with an accepted extension behind it, which holds no dot. -/
theorem exists_of_mem_endings {e : String} (he : e ∈ kind.endings) :
    ∃ ext, Bytes.ofString e = Path.dot :: Bytes.ofString ext ∧ Path.dot ∉ Bytes.ofString ext ∧
      ofExtension? ext = some kind := by
  have each : ∀ e ∈ kind.endings, ∃ ext ∈ ["c", "cc", "cpp", "cxx", "ll", "bc", "s", "S"],
      Bytes.ofString e = Path.dot :: Bytes.ofString ext ∧ Path.dot ∉ Bytes.ofString ext ∧
        ofExtension? ext = some kind := by
    cases kind <;> decide
  obtain ⟨ext, -, h⟩ := each e he
  exact ⟨ext, h⟩

/-- Each accepted extension is an ending without its dot. -/
theorem exists_mem_endings {ext : String} (h : ofExtension? ext = some kind) :
    ∃ e ∈ kind.endings, Bytes.ofString e = Path.dot :: Bytes.ofString ext := by
  unfold ofExtension? at h
  split at h <;> cases h <;> decide

/-- The file name decides about the kind. -/
theorem ofPath?_eq_bind (p : Path) :
    ofPath? p = p.fileName?.bind fun n ↦ (Path.splitName n).2.bind fun ext ↦
      (Bytes.toString? ext).bind ofExtension? := by
  rw [ofPath?, Path.extension?, Option.bind_eq_bind, Option.bind_assoc]
  rfl

/-- A path has a kind exactly if its file name ends so, with something in front. -/
theorem ofPath?_eq_some_iff : ofPath? p = some kind ↔
    ∃ n stem e, p.fileName? = some n ∧ stem ≠ [] ∧ e ∈ kind.endings ∧
      n = stem ++ Bytes.ofString e := by
  simp only [ofPath?_eq_bind, Option.bind_eq_some_iff, Path.splitName_snd_eq_some_iff,
    Bytes.toString?_eq_some_iff]
  constructor
  · rintro ⟨n, hn, _, ⟨stem, hstem, -, rfl⟩, ext, rfl, hkind⟩
    obtain ⟨e, he, hdot⟩ := exists_mem_endings hkind
    exact ⟨_, stem, e, hn, hstem, he, hdot ▸ rfl⟩
  · rintro ⟨n, stem, e, hn, hstem, he, rfl⟩
    obtain ⟨ext, hdot, hext, hkind⟩ := exists_of_mem_endings he
    exact ⟨_, hn, _, ⟨stem, hstem, hext, hdot ▸ rfl⟩, ext, rfl, hkind⟩

/-- No name ends in two of the endings. -/
theorem eq_of_endings {kind' : InputKind} {stem' : Bytes} {e e' : String} (he : e ∈ kind.endings)
    (he' : e' ∈ kind'.endings) (h : stem ++ Bytes.ofString e = stem' ++ Bytes.ofString e') :
    e = e' := by
  obtain ⟨ext, hdot, hext, -⟩ := exists_of_mem_endings he
  obtain ⟨ext', hdot', hext', -⟩ := exists_of_mem_endings he'
  have cut := Path.splitLastDot?_append hext stem
  rw [← hdot, h, hdot', Path.splitLastDot?_append hext'] at cut
  obtain ⟨-, same⟩ := Prod.mk.inj (Option.some.inj cut)
  have distinct : ∀ e ∈ extensionTexts, ∀ e' ∈ extensionTexts,
      Bytes.ofString e = Bytes.ofString e' → e = e' := by decide
  exact distinct e (mem_extensionTexts_iff.mpr ⟨_, he⟩) e' (mem_extensionTexts_iff.mpr ⟨_, he'⟩)
    (by rw [hdot, hdot', same])

/-- An input is accepted exactly if its file name ends in one of the texts that the message for an
unsupported input lists, with something in front of it.  There is one such text only, its kind is that
of the input, and nothing but the file name counts. -/
theorem accepted_by_ending (p : Path) :
    extensionTexts = [".c", ".cc", ".cpp", ".cxx", ".ll", ".bc", ".s", ".S"] ∧
    ((ofPath? p).isSome ↔ ∃ n stem e, p.fileName? = some n ∧ stem ≠ [] ∧ e ∈ extensionTexts ∧
      n = stem ++ Bytes.ofString e) ∧
    (∀ n stem e, p.fileName? = some n → stem ≠ [] → e ∈ extensionTexts →
      n = stem ++ Bytes.ofString e →
        (∀ kind, ofPath? p = some kind ↔ e ∈ kind.endings) ∧
        ∀ stem' e', e' ∈ extensionTexts → n = stem' ++ Bytes.ofString e' → e' = e) ∧
    ∀ q, q.fileName? = p.fileName? → ofPath? q = ofPath? p := by
  refine ⟨rfl, ?_, fun n stem e hn hstem he heq ↦ ⟨fun kind ↦ ?_, fun stem' e' he' heq' ↦ ?_⟩,
    fun q hq ↦ by rw [ofPath?_eq_bind, ofPath?_eq_bind, hq]⟩
  · simp only [Option.isSome_iff_exists, ofPath?_eq_some_iff, mem_extensionTexts_iff]
    constructor
    · rintro ⟨kind, n, stem, e, hn, hstem, he, heq⟩
      exact ⟨n, stem, e, hn, hstem, ⟨kind, he⟩, heq⟩
    · rintro ⟨n, stem, e, hn, hstem, ⟨kind, he⟩, heq⟩
      exact ⟨kind, n, stem, e, hn, hstem, he, heq⟩
  · refine ⟨fun hkind ↦ ?_, fun hkind ↦ ofPath?_eq_some_iff.mpr ⟨n, stem, e, hn, hstem, hkind, heq⟩⟩
    obtain ⟨kind', he'⟩ := mem_extensionTexts_iff.mp he
    obtain ⟨m, stem', e', hm, -, hkind', rfl⟩ := ofPath?_eq_some_iff.mp hkind
    obtain rfl := Option.some.inj (hm.symm.trans hn)
    exact eq_of_endings hkind' he' heq ▸ hkind'
  · obtain ⟨kind, he⟩ := mem_extensionTexts_iff.mp he
    obtain ⟨kind', he'⟩ := mem_extensionTexts_iff.mp he'
    exact eq_of_endings he' he (heq'.symm.trans heq)

/-- Dots in front, more dots and what changes nothing at the end of a path do not matter. -/
theorem accepted_by_ending_sample :
    let p := Path.ofString "src/..v1.2.cc/./"
    p.fileName? = some (Bytes.ofString "..v1.2" ++ Bytes.ofString ".cc") ∧ ofPath? p = some .cxx := by
  intro p
  have hn : p.fileName? = some (Bytes.ofString "..v1.2" ++ Bytes.ofString ".cc") := by decide
  obtain ⟨kind, -⟩ := (accepted_by_ending p).2.2.1 _ _ ".cc" hn (by decide) (by decide) rfl
  exact ⟨hn, (kind .cxx).mpr (by decide)⟩

end InputKind

/-! ## Inputs by kind -/

namespace ClassifiedInputs

/-- All inputs in ascending order of position, merged from the lists of their kinds. -/
def merged (i : ClassifiedInputs) : List InputFile :=
  [i.cxx, i.c, i.irText, i.irBinary, i.assembly].foldr
    (fun fs rest ↦ fs.merge rest fun f g ↦ f.position ≤ g.position) []

/-- Whether inputs by kind are those of a command line. -/
structure Partitions (i : ClassifiedInputs) (paths : List Path) : Prop where
  /-- Every input stands in the list of the kind that its path has. -/
  kinds : ∀ kind, ∀ f ∈ i.ofKind kind, f.kind = kind ∧ InputKind.ofPath? f.path = some kind
  /-- In each list, positions ascend. -/
  ascending : ∀ kind, (i.ofKind kind).Pairwise fun f g ↦ f.position < g.position
  /-- No position is taken in two lists. -/
  apart : ∀ kind kind', kind ≠ kind' →
    ∀ f ∈ i.ofKind kind, ∀ g ∈ i.ofKind kind', f.position ≠ g.position
  /-- There are as many inputs as paths. -/
  size_eq : i.size = paths.length
  /-- Merging the lists by position gives each path at its position. -/
  merged_eq : i.merged.map (fun f ↦ (f.path, f.position)) = paths.zipIdx

variable {i : ClassifiedInputs} {f : InputFile} {files : List InputFile}

/-! ## Merging -/

theorem perm_merged (i : ClassifiedInputs) : i.merged.Perm i.all := by
  have step (fs : List InputFile) {rest rest' : List InputFile} (h : rest.Perm rest') :
      (fs.merge rest fun f g ↦ f.position ≤ g.position).Perm (fs ++ rest') :=
    (List.merge_perm_append _).trans (h.append_left fs)
  have merged : i.merged.Perm (i.cxx ++ (i.c ++ (i.irText ++ (i.irBinary ++ (i.assembly ++ []))))) :=
    step i.cxx (step i.c (step i.irText (step i.irBinary (step i.assembly (.refl [])))))
  simpa only [ClassifiedInputs.all, List.append_assoc, List.append_nil] using merged

/-- Merging ascending lists gives an ascending one. -/
theorem pairwise_merged
    (h : ∀ kind, (i.ofKind kind).Pairwise fun f g ↦ f.position < g.position) :
    i.merged.Pairwise fun f g ↦ f.position ≤ g.position := by
  have step (kind : InputKind) {rest : List InputFile}
      (hrest : rest.Pairwise fun f g ↦ f.position ≤ g.position) :
      ((i.ofKind kind).merge rest fun f g ↦ f.position ≤ g.position).Pairwise
        fun f g ↦ f.position ≤ g.position := by
    have sorted := @List.pairwise_merge _ (fun f g : InputFile ↦ f.position ≤ g.position)
      (fun a b c hab hbc ↦ by simp only [decide_eq_true_eq] at *; omega)
      (fun a b ↦ by simp only [Bool.or_eq_true, decide_eq_true_eq]; omega) (i.ofKind kind) rest
      ((h kind).imp fun h ↦ by simpa using Nat.le_of_lt h)
      (hrest.imp fun h ↦ by simpa using h)
    exact sorted.imp fun h ↦ by simpa using h
  exact step .cxx (step .c (step .irText (step .irBinary (step .assembly .nil))))

/-- The inputs of all kinds are the one in front and the others. -/
theorem perm_all_cons (f : InputFile) (i : ClassifiedInputs) :
    (i.cons f).all.Perm (f :: i.all) := by
  refine List.perm_iff_count.mpr fun g ↦ ?_
  unfold ClassifiedInputs.all cons
  cases f.kind <;> simp [List.count_cons] <;> omega

/-! ## Inputs in line -/

/-- Whether inputs are those of a command line whose first position is given, each with the kind of
its path. -/
structure InLine (n : Nat) (paths : List Path) (files : List InputFile) : Prop where
  /-- They have the paths of the command line and their positions. -/
  eq_zipIdx : files.map (fun f ↦ (f.path, f.position)) = paths.zipIdx n
  /-- They have the kinds of their paths. -/
  kinds : ∀ f ∈ files, InputKind.ofPath? f.path = some f.kind

theorem InLine.pairwise {n : Nat} {paths : List Path} (h : InLine n paths files) :
    files.Pairwise fun f g ↦ f.position < g.position := by
  have positions : files.map (·.position) = List.range' n paths.length := by
    rw [← List.zipIdx_map_snd n paths, ← h.eq_zipIdx, List.map_map]
    rfl
  exact List.pairwise_map.mp (positions ▸ List.pairwise_lt_range')

/-- Sorting by kind keeps of the inputs in line those of each kind. -/
theorem exists_inLine {n : Nat} {paths : List Path} (h : classifyFrom n paths = .ok i) :
    ∃ files, InLine n paths files ∧ i.all.Perm files ∧
      ∀ kind, i.ofKind kind = files.filter (·.kind = kind) := by
  induction paths generalizing n i with
  | nil =>
    obtain rfl := Except.ok.inj h
    exact ⟨[], ⟨rfl, fun _ hf ↦ (List.not_mem_nil hf).elim⟩, .refl _, fun kind ↦ by cases kind <;> rfl⟩
  | cons p ps ih =>
    obtain ⟨kind, rest, hkind, hrest, rfl⟩ := Plan.classifyFrom_cons h
    obtain ⟨files, inLine, perm, ofKind⟩ := ih hrest
    refine ⟨⟨p, kind, n⟩ :: files, ⟨?_, ?_⟩, ?_, fun kind' ↦ ?_⟩
    · simp [inLine.eq_zipIdx, List.zipIdx_cons]
    · exact List.forall_mem_cons.mpr ⟨hkind, inLine.kinds⟩
    · exact (perm_all_cons _ rest).trans (perm.cons _)
    · rw [ofKind_cons, List.filter_cons, ofKind kind']
      simp only [decide_eq_true_eq]

/-- Inputs in line, kept kind by kind, are those of the command line. -/
theorem InLine.partitions {paths : List Path} (h : InLine 0 paths files) (hall : i.all.Perm files)
    (hkind : ∀ kind, i.ofKind kind = files.filter (·.kind = kind)) : i.Partitions paths := by
  have mem {kind : InputKind} {f : InputFile} (hf : f ∈ i.ofKind kind) :
      f ∈ files ∧ f.kind = kind := by simpa [hkind] using hf
  have ascending (kind : InputKind) :
      (i.ofKind kind).Pairwise fun f g ↦ f.position < g.position :=
    hkind kind ▸ h.pairwise.sublist List.filter_sublist
  have at_position {f g : InputFile} (hf : f ∈ files) (hg : g ∈ files)
      (same : f.position = g.position) : f = g :=
    List.inj_on_of_nodup_map
      (List.pairwise_map.mpr (h.pairwise.imp Nat.ne_of_lt)) hf hg same
  have merged : i.merged = files :=
    List.Perm.eq_of_pairwise
      (fun f g hf hg hfg hgf ↦ at_position (hall.subset ((perm_merged i).subset hf)) hg
        (Nat.le_antisymm hfg hgf))
      (pairwise_merged ascending) (h.pairwise.imp Nat.le_of_lt) ((perm_merged i).trans hall)
  exact {
    kinds := fun kind f hf ↦ ⟨(mem hf).2, (mem hf).2 ▸ h.kinds f (mem hf).1⟩
    ascending
    apart := fun kind kind' hne f hf g hg same ↦ by
      obtain rfl := at_position (mem hf).1 (mem hg).1 same
      exact hne ((mem hf).2.symm.trans (mem hg).2)
    size_eq := by
      have length := congrArg List.length h.eq_zipIdx
      rw [List.length_map, List.length_zipIdx] at length
      exact hall.length_eq.trans length
    merged_eq := merged ▸ h.eq_zipIdx }

end ClassifiedInputs

/-! ## Whole command lines -/

variable {paths : List Path} {inputs : ClassifiedInputs}

theorem partitions_of_classify (h : classify paths = .ok inputs) : inputs.Partitions paths := by
  obtain ⟨_, inLine, perm, ofKind⟩ := ClassifiedInputs.exists_inLine h
  exact inLine.partitions perm ofKind

/-- A command line is refused if it has a path that is not accepted, with the first of these. -/
theorem classify_eq_error_iff {e : BuildError} : classify paths = .error e ↔
    ∃ before p after, paths = before ++ p :: after ∧
      (∀ q ∈ before, (InputKind.ofPath? q).isSome) ∧ InputKind.ofPath? p = none ∧
        e = .unsupportedInput p := by
  refine classifyFrom_eq_error_iff.trans ?_
  simp only [firstUnsupported?, List.find?_eq_some_iff_append, Option.isNone_iff_eq_none,
    Bool.not_eq_eq_eq_not, Bool.not_true, Option.isNone_eq_false_iff]
  constructor
  · rintro ⟨p, ⟨hp, before, after, heq, hbefore⟩, rfl⟩
    exact ⟨before, p, after, heq, hbefore, hp, rfl⟩
  · rintro ⟨before, p, after, heq, hbefore, hp, rfl⟩
    exact ⟨p, ⟨hp, before, after, heq, hbefore⟩, rfl⟩

/-- A command line is sorted by kind if all its paths are accepted. -/
theorem exists_classify_eq_ok_iff : (∃ inputs, classify paths = .ok inputs) ↔
    ∀ p ∈ paths, (InputKind.ofPath? p).isSome := by
  have accepted : firstUnsupported? paths = none ↔ ∀ p ∈ paths, (InputKind.ofPath? p).isSome := by
    simp [firstUnsupported?, Option.isSome_iff_ne_none]
  constructor
  · rintro ⟨inputs, h⟩
    refine accepted.mp ?_
    cases hfirst : firstUnsupported? paths with
    | none => rfl
    | some p => cases h.symm.trans (classifyFrom_eq_error_iff.mpr ⟨p, hfirst, rfl⟩)
  · exact fun hall ↦ exists_classify_eq_ok (accepted.mpr hall)

/-- A command line is sorted by kind exactly if all its paths are accepted, and then nothing is lost;
otherwise the first path that is not accepted is the error. -/
theorem classify_partitions (paths : List Path) :
    ((∃ inputs, classify paths = .ok inputs) ↔ ∀ p ∈ paths, (InputKind.ofPath? p).isSome) ∧
    (∀ inputs, classify paths = .ok inputs → inputs.Partitions paths) ∧
    ∀ e, classify paths = .error e ↔ ∃ before p after, paths = before ++ p :: after ∧
      (∀ q ∈ before, (InputKind.ofPath? q).isSome) ∧ InputKind.ofPath? p = none ∧
        e = .unsupportedInput p :=
  ⟨exists_classify_eq_ok_iff, fun _ ↦ partitions_of_classify, fun _ ↦ classify_eq_error_iff⟩

/-- Two C++ inputs with one path, and textual IR between them, keep their positions. -/
theorem classify_partitions_sample :
    let paths := [Path.ofString "b.cpp", .ofString "x.ll", .ofString "b.cpp"]
    ∃ inputs, classify paths = .ok inputs ∧ inputs.Partitions paths ∧
      inputs.cxx.map (·.position) = [0, 2] := by
  intro paths
  obtain ⟨inputs, h, positions⟩ : ∃ inputs, classify paths = .ok inputs ∧
      inputs.cxx.map (·.position) = [0, 2] := exists_of_map_decide (by decide +kernel)
  exact ⟨inputs, h, (classify_partitions paths).2.1 inputs h, positions⟩

end ContractBuild
