import ContractBuild.Options.ToolPaths
import ContractBuild.Proofs.Build.StageOrder

/-!
# Where the parts of the toolchain come from

Three sources can offer a place for a part: the option of the command line, the variable of the
environment, the installation.  The toolchain is found exactly if each part is offered a place, and each
place is that of the first source.  What the command line or the environment says of one part decides
about no other, but for the root that follows the LLVM tools where nothing is installed.
-/

namespace ContractBuild

/-- The parts in the order in which they are looked for. -/
def ToolPart.inOrder : List ToolPart := [.llvmBin, .linker, .stdlib, .includeDir]

/-- Where a part of the toolchain comes from and where it ends up. -/
structure PartSources where
  /-- The option of the command line. -/
  option : String
  /-- What that option gives. -/
  given : ToolOverrides → Option Path
  /-- The variable of the environment. -/
  variableName : String
  /-- The place in an installation, seen from the directory of its programs. -/
  installed : Path → Path
  /-- The place among those of the whole toolchain. -/
  place : ToolPaths → Path

/-- The sources that the documentation names for each part. -/
def ToolPart.sources : ToolPart → PartSources
  | .llvmBin => {
      option := "--llvm-bin", given := (·.llvmBin), variableName := "TVM_LLVM_BINARY_DIR"
      installed := id, place := (·.llvmBin) }
  | .linker => {
      option := "--linker", given := (·.linker), variableName := "TVM_LINKER"
      installed := (·.join (.ofString "tvm_linker")), place := (·.linker) }
  | .stdlib => {
      option := "--stdlib", given := (·.stdlib), variableName := "TVM_LIBRARY_PATH"
      installed := (·.join (.ofString "../lib")), place := (·.stdlib) }
  | .includeDir => {
      option := "--include", given := (·.includeDir), variableName := "TVM_INCLUDE_PATH"
      installed := (·.join (.ofString "../include")), place := (·.includeDir) }

section

variable (part : ToolPart)

theorem ToolPart.option_eq : part.option = part.sources.option := by cases part <;> rfl

theorem ToolPart.variableName_eq : part.variableName = part.sources.variableName := by
  cases part <;> rfl

theorem ToolPart.installed_eq (dir : Path) : part.installed dir = part.sources.installed dir := by
  cases part <;> rfl

theorem ToolOverrides.get_eq (o : ToolOverrides) : o.get part = part.sources.given o := by
  cases part <;> rfl

end

/-- What can offer a place for a part of the toolchain. -/
inductive ToolSource
  /-- The option of the command line. -/
  | option
  /-- The variable of the environment. -/
  | variableValue
  /-- The installation. -/
  | installation
  deriving DecidableEq, Repr

/-- A source comes before those of higher rank. -/
def ToolSource.rank : ToolSource → Nat
  | .option => 0
  | .variableValue => 1
  | .installation => 2

theorem ToolSource.eq_of_rank_eq {s s' : ToolSource} (h : s.rank = s'.rank) : s = s' := by
  cases s <;> cases s' <;> first | rfl | cases h

namespace ToolPaths

/-! ## Sources -/

section

variable (o : ToolOverrides) (env : Environment) (h : Host) (bin : Option Path) (part : ToolPart)

/-- Whether a source offers a place for a part. -/
inductive Offers : ToolSource → Path → Prop
  /-- The option is given. -/
  | option {p : Path} : part.sources.given o = some p → Offers .option p
  /-- The variable is set to something that is not empty. -/
  | variableValue {value : String} : env.lookup part.sources.variableName = some value →
      value ≠ "" → Offers .variableValue (.ofString value)
  /-- There is an installation, and it holds the part. -/
  | installation {dir : Path} : bin = some dir →
      h.pathExists (part.sources.installed dir) = true →
      Offers .installation (part.sources.installed dir)

/-- Whether any source offers a place for a part. -/
def IsOffered : Prop := ∃ source p, Offers o env h bin part source p

/-- Whether a place for a part is that of the first source that offers one. -/
def IsFirstOffer (p : Path) : Prop :=
  ∃ source, Offers o env h bin part source p ∧
    ∀ source' p', Offers o env h bin part source' p' → source.rank ≤ source'.rank

end

variable {o o' : ToolOverrides} {env env' : Environment} {h : Host} {bin : Option Path}
  {part : ToolPart} {source : ToolSource} {p q : Path}

/-- A source offers one place only. -/
theorem Offers.unique (hp : Offers o env h bin part source p) (hq : Offers o env h bin part source q) :
    p = q := by
  cases hp with
  | option hp =>
    cases hq with
    | option hq => exact Option.some.inj (hp.symm.trans hq)
  | variableValue hp =>
    cases hq with
    | variableValue hq => rw [Option.some.inj (hp.symm.trans hq)]
  | installation hp =>
    cases hq with
    | installation hq => rw [Option.some.inj (hp.symm.trans hq)]

theorem IsFirstOffer.unique (hp : IsFirstOffer o env h bin part p)
    (hq : IsFirstOffer o env h bin part q) : p = q := by
  obtain ⟨source, offers, least⟩ := hp
  obtain ⟨source', offers', least'⟩ := hq
  obtain rfl : source = source' :=
    ToolSource.eq_of_rank_eq (Nat.le_antisymm (least _ _ offers') (least' _ _ offers))
  exact offers.unique offers'

/-! ## The place of a part -/

theorem nonEmptyVariable?_eq_some_iff {name value : String} :
    nonEmptyVariable? env name = some value ↔ env.lookup name = some value ∧ value ≠ "" := by
  unfold nonEmptyVariable?
  split
  next hempty => simp [hempty]
  next hother => exact ⟨fun hv ↦ ⟨hv, fun hnil ↦ hother (hnil ▸ hv)⟩, And.left⟩

theorem installed?_eq_some_iff : installed? h bin part = some p ↔
    ∃ dir, bin = some dir ∧ part.sources.installed dir = p ∧ h.pathExists p = true := by
  unfold installed?
  simp only [ToolPart.installed_eq]
  cases bin with
  | none => simp
  | some dir =>
    simp only [Option.map_some, Option.some.injEq, exists_eq_left']
    split
    next there =>
      simp only [Option.some.injEq]
      exact ⟨fun heq ↦ ⟨heq, heq ▸ there⟩, And.left⟩
    next missing =>
      simp only [reduceCtorEq, false_iff]
      rintro ⟨rfl, there⟩
      exact missing there

/-- What is found is offered, and by no source before. -/
theorem isFirstOffer_of_find? (hp : find? o env h bin part = some p) :
    IsFirstOffer o env h bin part p := by
  rw [find?, ToolOverrides.get_eq, ToolPart.variableName_eq] at hp
  split at hp
  next q hq =>
    obtain rfl := Option.some.inj hp
    exact ⟨.option, .option hq, fun _ _ _ ↦ Nat.zero_le _⟩
  next hoption =>
    split at hp
    next value hvalue =>
      obtain rfl := Option.some.inj hp
      obtain ⟨set, nonEmpty⟩ := nonEmptyVariable?_eq_some_iff.mp hvalue
      refine ⟨.variableValue, .variableValue set nonEmpty, fun _ _ other ↦ ?_⟩
      cases other with
      | option given => cases hoption.symm.trans given
      | variableValue => exact Nat.le_refl _
      | installation => exact Nat.le_succ _
    next hvariable =>
      obtain ⟨dir, hdir, rfl, there⟩ := installed?_eq_some_iff.mp hp
      refine ⟨.installation, .installation hdir there, fun _ _ other ↦ ?_⟩
      cases other with
      | option given => cases hoption.symm.trans given
      | variableValue set nonEmpty =>
        cases hvariable.symm.trans (nonEmptyVariable?_eq_some_iff.mpr ⟨set, nonEmpty⟩)
      | installation => exact Nat.le_refl _

/-- A part that is offered a place is found. -/
theorem exists_find?_of_offers (offers : Offers o env h bin part source p) :
    ∃ q, find? o env h bin part = some q := by
  rw [find?, ToolOverrides.get_eq, ToolPart.variableName_eq]
  cases hoption : part.sources.given o with
  | some q => exact ⟨q, rfl⟩
  | none =>
    cases hvariable : nonEmptyVariable? env part.sources.variableName with
    | some value => exact ⟨.ofString value, rfl⟩
    | none =>
      cases offers with
      | option given => cases hoption.symm.trans given
      | variableValue set nonEmpty =>
        cases hvariable.symm.trans (nonEmptyVariable?_eq_some_iff.mpr ⟨set, nonEmpty⟩)
      | installation hdir there =>
        exact ⟨_, installed?_eq_some_iff.mpr ⟨_, hdir, rfl, there⟩⟩

theorem find?_eq_some_iff : find? o env h bin part = some p ↔ IsFirstOffer o env h bin part p := by
  refine ⟨isFirstOffer_of_find?, fun first ↦ ?_⟩
  obtain ⟨source, offers, -⟩ := id first
  obtain ⟨q, hq⟩ := exists_find?_of_offers offers
  rw [hq, first.unique (isFirstOffer_of_find? hq)]

theorem isSome_find?_iff : (find? o env h bin part).isSome ↔ IsOffered o env h bin part := by
  rw [Option.isSome_iff_exists]
  constructor
  · rintro ⟨p, hp⟩
    obtain ⟨source, offers, -⟩ := isFirstOffer_of_find? hp
    exact ⟨source, p, offers⟩
  · rintro ⟨source, p, offers⟩
    exact exists_find?_of_offers offers

/-- What is said about other parts decides nothing. -/
theorem find?_congr (hoption : part.sources.given o' = part.sources.given o)
    (hvariable : env'.lookup part.sources.variableName = env.lookup part.sources.variableName) :
    find? o' env' h bin part = find? o env h bin part := by
  simp only [find?, nonEmptyVariable?, ToolOverrides.get_eq, ToolPart.variableName_eq, hoption,
    hvariable]

/-! ## The whole toolchain -/

theorem findPart_eq_ok_iff :
    findPart o env h bin part = .ok p ↔ find? o env h bin part = some p := by
  unfold findPart
  cases find? o env h bin part <;> simp

/-- The toolchain is found if each part is, and its root lies above the directory of the programs. -/
theorem resolve_eq_ok_iff {t : ToolPaths} : resolve o env h bin = .ok t ↔
    (∀ part, find? o env h bin part = some (part.sources.place t)) ∧
      t.sysroot = (bin.getD t.llvmBin).join (.ofString "..") := by
  constructor
  · intro ht
    obtain ⟨llvmBin, hllvmBin, ht⟩ := exists_of_bind_eq_ok ht
    obtain ⟨linker, hlinker, ht⟩ := exists_of_bind_eq_ok ht
    obtain ⟨stdlib, hstdlib, ht⟩ := exists_of_bind_eq_ok ht
    obtain ⟨includeDir, hincludeDir, ht⟩ := exists_of_bind_eq_ok ht
    obtain rfl := Except.ok.inj ht
    refine ⟨fun part ↦ findPart_eq_ok_iff.mp ?_, rfl⟩
    cases part with
    | llvmBin => exact hllvmBin
    | linker => exact hlinker
    | stdlib => exact hstdlib
    | includeDir => exact hincludeDir
  · rintro ⟨parts, root⟩
    have found (part : ToolPart) : findPart o env h bin part = .ok (part.sources.place t) :=
      findPart_eq_ok_iff.mpr (parts part)
    simp only [resolve, found, bind, Except.bind, pure, Except.pure, ToolPart.sources, ← root]

/-- The first part that is not found is the error. -/
theorem resolve_eq_error_iff {e : BuildError} : resolve o env h bin = .error e ↔
    ∃ part, ToolPart.inOrder.find? (fun part ↦ (find? o env h bin part).isNone) = some part ∧
      .unresolvedTool part.sources.option part.sources.variableName = e := by
  simp only [ToolPart.inOrder, List.find?_cons, resolve, findPart, ToolPart.option_eq,
    ToolPart.variableName_eq]
  cases find? o env h bin .llvmBin <;> cases find? o env h bin .linker <;>
    cases find? o env h bin .stdlib <;> cases find? o env h bin .includeDir <;>
    simp [bind, Except.bind, pure, Except.pure]

/-- The toolchain is found exactly if each of its parts is offered a place, and then each place is that
of the first source; otherwise the first part without an offer is the error.  Two configurations that
differ in what the command line or the environment says of one part agree about all others. -/
theorem resolve_by_precedence (o : ToolOverrides) (env : Environment) (h : Host)
    (bin : Option Path) :
    ((∃ t, resolve o env h bin = .ok t) ↔ ∀ part, IsOffered o env h bin part) ∧
    (∀ t, resolve o env h bin = .ok t → (∀ part, IsFirstOffer o env h bin part (part.sources.place t)) ∧
      t.sysroot = (bin.getD t.llvmBin).join (.ofString "..")) ∧
    (∀ e, resolve o env h bin = .error e ↔ ∃ before part after,
      ToolPart.inOrder = before ++ part :: after ∧
      (∀ earlier ∈ before, IsOffered o env h bin earlier) ∧ ¬ IsOffered o env h bin part ∧
        e = .unresolvedTool part.sources.option part.sources.variableName) ∧
    ∀ o' env' (part : ToolPart) t t',
      (∀ other, other ≠ part → other.sources.given o' = other.sources.given o ∧
        env'.lookup other.sources.variableName = env.lookup other.sources.variableName) →
      resolve o env h bin = .ok t → resolve o' env' h bin = .ok t' →
        (∀ other, other ≠ part → other.sources.place t' = other.sources.place t) ∧
          (t'.sysroot = t.sysroot ∨ part = .llvmBin ∧ bin = none) := by
  refine ⟨⟨?_, fun offered ↦ ?_⟩, fun t ht ↦ ?_, fun e ↦ ?_, fun o' env' part t t' same ht ht' ↦ ?_⟩
  · rintro ⟨t, ht⟩ part
    exact isSome_find?_iff.mp (by rw [(resolve_eq_ok_iff.mp ht).1 part]; rfl)
  · cases hresolve : resolve o env h bin with
    | ok t => exact ⟨t, rfl⟩
    | error e =>
      obtain ⟨part, hpart, -⟩ := resolve_eq_error_iff.mp hresolve
      have missing := List.find?_some hpart
      have found := isSome_find?_iff.mpr (offered part)
      simp [Option.isNone_iff_eq_none.mp missing] at found
  · obtain ⟨parts, root⟩ := resolve_eq_ok_iff.mp ht
    exact ⟨fun part ↦ find?_eq_some_iff.mp (parts part), root⟩
  · simp only [resolve_eq_error_iff, List.find?_eq_some_iff_append, ← isSome_find?_iff]
    constructor
    · rintro ⟨part, ⟨missing, before, after, heq, hbefore⟩, rfl⟩
      exact ⟨before, part, after, heq, by simpa using hbefore, by simpa using missing, rfl⟩
    · rintro ⟨before, part, after, heq, hbefore, missing, rfl⟩
      exact ⟨part, ⟨by simpa using missing, before, after, heq, by simpa using hbefore⟩, rfl⟩
  · obtain ⟨parts, root⟩ := resolve_eq_ok_iff.mp ht
    obtain ⟨parts', root'⟩ := resolve_eq_ok_iff.mp ht'
    have agree (other : ToolPart) (hne : other ≠ part) :
        other.sources.place t' = other.sources.place t := by
      obtain ⟨hoption, hvariable⟩ := same other hne
      exact Option.some.inj
        ((parts' other).symm.trans ((find?_congr hoption hvariable).trans (parts other)))
    refine ⟨agree, ?_⟩
    cases bin with
    | some dir => exact .inl (root'.trans root.symm)
    | none =>
      by_cases hpart : part = .llvmBin
      · exact .inr ⟨hpart, rfl⟩
      · have llvmBin : t'.llvmBin = t.llvmBin := agree .llvmBin (Ne.symm hpart)
        exact .inl (by rw [root', root, llvmBin])

/-- A host on which programs are installed in `/t/bin` and headers beside them. -/
def headersInstalled : Host where
  tree :=
    ((Tree.empty.addDirectory [Bytes.ofString "t"] programMode).addDirectory
      [Bytes.ofString "t", Bytes.ofString "bin"] programMode).addDirectory
        [Bytes.ofString "t", Bytes.ofString "include"] programMode
  cwd := 1
  tempDir := .ofString "/t"

/-- The headers are the installed ones if their variable is empty, whichever linker is asked for. -/
theorem resolve_by_precedence_sample :
    let o : ToolOverrides := ⟨none, some (.ofString "/a/linker"), none, none⟩
    let o' : ToolOverrides := { o with linker := some (.ofString "/b/linker") }
    let env := [("TVM_LIBRARY_PATH", "/l"), ("TVM_INCLUDE_PATH", "")]
    let bin := some (Path.ofString "/t/bin")
    ∃ t t', resolve o env headersInstalled bin = .ok t ∧
      resolve o' env headersInstalled bin = .ok t' ∧
      IsFirstOffer o env headersInstalled bin .includeDir (.ofString "/t/bin/../include") ∧
      t'.includeDir = t.includeDir ∧ t'.sysroot = t.sysroot := by
  intro o o' env bin
  obtain ⟨t, ht, headers⟩ : ∃ t, resolve o env headersInstalled bin = .ok t ∧
      t.includeDir = .ofString "/t/bin/../include" := exists_of_map_decide (by decide +kernel)
  obtain ⟨t', ht', -⟩ : ∃ t', resolve o' env headersInstalled bin = .ok t' ∧
      t'.linker = .ofString "/b/linker" := exists_of_map_decide (by decide +kernel)
  obtain ⟨-, first, -, others⟩ := resolve_by_precedence o env headersInstalled bin
  have same (other : ToolPart) (hne : other ≠ .linker) :
      other.sources.given o' = other.sources.given o ∧
        env.lookup other.sources.variableName = env.lookup other.sources.variableName := by
    cases other with
    | linker => exact absurd rfl hne
    | llvmBin | stdlib | includeDir => exact ⟨by simp only [ToolPart.sources, o'], rfl⟩
  obtain ⟨agree, root⟩ := others o' env .linker t t' same ht ht'
  have offered : IsFirstOffer o env headersInstalled bin .includeDir t.includeDir :=
    (first t ht).1 .includeDir
  rw [headers] at offered
  exact ⟨t, t', ht, ht', offered, agree .includeDir (by decide),
    root.resolve_right fun h ↦ by cases h.1⟩

end ToolPaths

end ContractBuild
