import ContractBuild.Build.Session
import ContractBuild.Proofs.FileSystem.Confined
import ContractBuild.Proofs.FileSystem.Contents
import ContractBuild.Proofs.FileSystem.Operations
import ContractBuild.Proofs.Path.Join

/-!
# The output of a tool

A tool is told by `-o` which file to write; where it is told so twice, the last one counts.  Every
command but those of the final link names its output in this way.
-/

namespace ContractBuild

namespace Invocation

/-- What follows the last occurrence of a value. -/
def lastAfter? (a : Bytes) : List Bytes → Option Bytes
  | [] => none
  | b :: bs => (lastAfter? a bs).or (if b = a then bs.head? else none)

/-- The file that the tool is told to write, as it is told. -/
def told? (i : Invocation) : Option Path := (lastAfter? (Bytes.ofString "-o") i.args).map Path.mk

/-- The file that the tool is told to write, seen from where the tool was called. -/
def written? (i : Invocation) : Option Path :=
  (lastAfter? (Bytes.ofString "-o") i.args).map fun raw ↦ match i.dir with
    | some dir => dir.join ⟨raw⟩
    | none => ⟨raw⟩

/-- Whether it asks for a contract. -/
def asksToLink (i : Invocation) : Prop := i.args.head? = some (Bytes.ofString "compile")

instance (i : Invocation) : Decidable i.asksToLink := inferInstanceAs (Decidable (_ = _))

theorem lastAfter?_eq_none {a : Bytes} {bs : List Bytes} (h : a ∉ bs) : lastAfter? a bs = none := by
  induction bs with
  | nil => rfl
  | cons b bs ih =>
    have hb : b ≠ a := fun hb ↦ h (hb ▸ List.mem_cons_self)
    have hbs : a ∉ bs := fun hbs ↦ h (List.mem_cons_of_mem b hbs)
    simp [lastAfter?, hb, ih hbs]

theorem lastAfter?_append {a b : Bytes} {rest : List Bytes} (h : a ∉ b :: rest)
    (before : List Bytes) : lastAfter? a (before ++ a :: b :: rest) = some b := by
  induction before with
  | nil => rw [List.nil_append, lastAfter?, lastAfter?_eq_none h, if_pos rfl, Option.none_or]; rfl
  | cons c before ih => rw [List.cons_append, lastAfter?, ih, Option.some_or]

end Invocation

namespace Command

/-- Whether a command tells its tool which file to write, and does not tell it to write another one
after that. -/
def NamesOutput (command : Path → Invocation) : Prop :=
  ∃ before rest, (∀ out : Path,
      (command out).args = before ++ Bytes.ofString "-o" :: out.raw :: rest) ∧
    Bytes.ofString "-o" ∉ rest

/-- The tool is told so in two words. -/
theorem NamesOutput.told {command : Path → Invocation} (hcommand : NamesOutput command) (out : Path) :
    [Bytes.ofString "-o", out.raw] <:+: (command out).args := by
  obtain ⟨before, rest, hargs, -⟩ := hcommand
  exact ⟨before, rest, by simp [hargs]⟩

/-- They are the last that tell it so, unless the path looks like an option. -/
theorem NamesOutput.lastAfter?_args {command : Path → Invocation} (hcommand : NamesOutput command)
    {out : Path} (hout : out.raw ≠ Bytes.ofString "-o") :
    Invocation.lastAfter? (Bytes.ofString "-o") (command out).args = some out.raw := by
  obtain ⟨before, rest, hargs, hrest⟩ := hcommand
  rw [hargs]
  refine Invocation.lastAfter?_append (fun h ↦ ?_) before
  exact (List.mem_cons.mp h).elim (fun h ↦ hout h.symm) hrest

/-- An absolute path does not look like an option. -/
theorem ne_option_of_isAbsolute {out : Path} (hout : out.isAbsolute) :
    out.raw ≠ Bytes.ofString "-o" := by
  obtain ⟨bs, hbs⟩ := Path.eq_slash_cons hout
  intro h
  have first : (Bytes.ofString "-o").head? = some Path.slash := by rw [← h, hbs]; rfl
  exact absurd first (by decide)

/-- Called in any directory, the tool is told to write a file with an absolute path. -/
theorem NamesOutput.written?_inDir {command : Path → Invocation} (hcommand : NamesOutput command)
    {out : Path} (hout : out.isAbsolute) (dir : Path) :
    ((command out).inDir dir).written? = some out := by
  simp [Invocation.written?, Invocation.inDir,
    hcommand.lastAfter?_args (ne_option_of_isAbsolute hout), hout]

/-- Two texts that differ in their second byte. -/
theorem ofString_ne_append {a b : String} (rest : Bytes)
    (h : (Bytes.ofString a)[1]? ≠ (Bytes.ofString b)[1]?) (hb : 1 < (Bytes.ofString b).length) :
    Bytes.ofString a ≠ Bytes.ofString b ++ rest := by
  intro heq
  rw [heq, List.getElem?_append_left hb] at h
  exact h rfl

variable (o : BuildOptions) (input : Path)

theorem namesOutput_cxx : NamesOutput (cxx o input) := by
  refine ⟨texts ["-target", target] ++ texts o.cxxflags ++ texts ["-S", "-emit-llvm"] ++ [input.raw],
    [Bytes.ofString "--sysroot=" ++ o.tools.sysroot.raw], fun out ↦ ?_, ?_⟩
  · simp [cxx, texts, Invocation.ofProgram]
  · rw [List.mem_singleton]
    exact ofString_ne_append _ (by decide) (by decide)

theorem namesOutput_c : NamesOutput (c o input) := by
  refine ⟨texts ["-target", target, "-isystem"] ++ [o.tools.includeDir.raw] ++ texts o.cflags ++
    texts ["-S", "-emit-llvm"] ++ [input.raw], [], fun out ↦ ?_, by simp⟩
  simp [c, texts, Invocation.ofProgram]

theorem namesOutput_assemble : NamesOutput (assemble o input) :=
  ⟨[input.raw], [], fun _ ↦ rfl, by simp⟩

theorem namesOutput_linkModules (modules : List IrModule) :
    NamesOutput (linkModules o modules) := by
  refine ⟨modules.map (·.path.raw) ++ texts ["-S"], [], fun out ↦ ?_, by simp⟩
  simp [linkModules, texts, Invocation.ofProgram]

theorem namesOutput_internalize : NamesOutput (internalize o input) := by
  refine ⟨[input.raw] ++ texts ["-S"],
    texts (if o.inlineLoadsStores then ["-tvm-load-store-replace"] else []) ++
      texts ["-internalize", "-internalize-public-api-list=" ++ ",".intercalate entryPoints],
    fun out ↦ ?_, ?_⟩
  · simp [internalize, texts, Invocation.ofProgram]
  · cases o.inlineLoadsStores <;> decide

theorem namesOutput_optimize : NamesOutput (optimize o input) := by
  refine ⟨texts o.optFlags ++ texts ["-S"] ++ [input.raw], [], fun out ↦ ?_, by simp⟩
  simp [optimize, texts, Invocation.ofProgram]

theorem namesOutput_generate : NamesOutput (generate o input) :=
  ⟨texts ["-march", target] ++ [input.raw], [], fun _ ↦ rfl, by simp⟩

theorem asksToLink_compile (asm abi : Path) (out : Option Path) (dir : Path) :
    ((compile o asm abi out).inDir dir).asksToLink := rfl

/-- A report on a contract is not told to write anything. -/
theorem written?_decode {contract : Path} (h : contract.raw ≠ Bytes.ofString "-o") (dir : Path) :
    ((decode o contract).inDir dir).written? = none := by
  have none : Bytes.ofString "-o" ∉ ((decode o contract).inDir dir).args := by
    change Bytes.ofString "-o" ∉ [Bytes.ofString "decode", contract.raw, Bytes.ofString "--tvc"]
    simp only [List.mem_cons, List.not_mem_nil, or_false, not_or]
    exact ⟨by decide, h.symm, by decide⟩
  rw [Invocation.written?, Invocation.lastAfter?_eq_none none]
  rfl

end Command

/-! ## What toolchains may do -/

namespace Toolchain

variable {σ : Type}

/-- Whether the calls of a toolchain change nothing but the file that each names by its own `-o`:
the change is one at any location that this file may have, so that it is none where a call does
not name a file that it can write. -/
def WritesOutputOnly (tc : Toolchain σ) : Prop :=
  ∀ (i : Invocation) (st : σ) (h : Host), h.tree.Sound → ∀ l : Location,
    (∀ p place, i.written? = some p → h.locate p = .ok place → place.location = l) →
      h.tree.WritesOnly (tc.run i st h).tree l

/-- Whether the tools leave sound trees. -/
def KeepsSound (tc : Toolchain σ) : Prop :=
  ∀ (i : Invocation) (st : σ) (h : Host), h.tree.Sound → (tc.run i st h).tree.Sound

theorem WritesOutputOnly.exists_writesOnly {tc : Toolchain σ} (htools : tc.WritesOutputOnly)
    (i : Invocation) (st : σ) {h : Host} (ht : h.tree.Sound) :
    ∃ l, h.tree.WritesOnly (tc.run i st h).tree l := by
  by_cases hp : ∃ p place, i.written? = some p ∧ h.locate p = .ok place
  · obtain ⟨p, place, hp, hplace⟩ := hp
    refine ⟨_, htools i st h ht place.location fun q place' hq hplace' ↦ ?_⟩
    obtain rfl := Option.some.inj (hp.symm.trans hq)
    exact congrArg _ (Except.ok.inj (hplace'.symm.trans hplace))
  · exact ⟨_, htools i st h ht [] fun p place hp' hplace ↦ absurd ⟨p, place, hp', hplace⟩ hp⟩

/-- Tools that write nothing but their outputs leave sound trees. -/
theorem WritesOutputOnly.keepsSound {tc : Toolchain σ} (htools : tc.WritesOutputOnly) :
    tc.KeepsSound := by
  intro i st h ht
  obtain ⟨l, change⟩ := htools.exists_writesOnly i st ht
  exact change.sound

/-- A toolchain whose tools succeed and write the same bytes to their outputs. -/
def writing (content : Bytes) : Toolchain Unit where
  run i st h := ⟨.ok "", st, match i.written? with
    | some p => match h.write p content with
      | .ok h' => h'.tree
      | .error _ => h.tree
    | none => h.tree⟩
  echo _ st := st

theorem writesOutputOnly_writing (content : Bytes) : (writing content).WritesOutputOnly := by
  intro i st h ht l hl
  unfold writing
  dsimp only
  split
  next p hp =>
    split
    next h' hwrite =>
      obtain ⟨place, hplace, changed⟩ := Host.writesOnly_write ht hwrite
      rw [← hl p place hp (Tree.locate_of_create hplace)]
      exact changed.tree
    next => exact .refl ht l
  next => exact .refl ht l

end Toolchain

end ContractBuild

/-!
## What a linker does in its own directory

A linker may run in a directory that was made for it and put any files there.  One that links in
place touches nothing else, and if it succeeds it has written the file that it was told to write.
-/

namespace ContractBuild

namespace Tree

variable {t₀ t t' : Tree} {d k : Location} {n : Name}

theorem WritesOnly.isSome_of_ne {l : Location} (h : WritesOnly t t' l) (hk : k ≠ l)
    (hn : (t'.node? k).isSome) : (t.node? k).isSome := by
  rcases h.elsewhere k hk with same | ⟨file, name, -⟩
  · rwa [← isSome_shape, same, isSome_shape] at hn
  · obtain ⟨id, hid⟩ := Option.isSome_iff_exists.mp file
    obtain ⟨f, hf, -⟩ := fileId?_eq_some.mp (name.trans hid)
    rw [hf]
    rfl

/-- Whether a directory, which was not there in an earlier tree, holds nothing but new files, each
under the name of an entry, while everything else is as it was. -/
structure Private (t₀ : Tree) (d : Location) (t : Tree) : Prop extends
    Houses t₀ d t, Confined t₀ d t where
  /-- It holds nothing but files. -/
  files : ∀ k a, d <+: k → k ≠ d → t.node? k = some a → ∃ f, a = .file f
  /-- What lies in it has a name. -/
  named : ∀ n, (t.node? (d ++ [n])).isSome → (Path.ofName n).IsName

/-- A file that is written in the directory changes nothing else. -/
theorem Private.writesOnly (hp : Private t₀ d t) (ht₀ : t₀.Sound)
    (hw : WritesOnly t t' (d ++ [n])) (hn : (Path.ofName n).IsName) {f : File}
    (hf : t'.node? (d ++ [n]) = some (.file f)) : Private t₀ d t' where
  toHouses := hp.toHouses.writesOnly hw
  toConfined := hp.toConfined.writesOnly ht₀ hw (List.prefix_append _ _)
  files k a hk hne ha := by
    by_cases here : k = d ++ [n]
    · exact ⟨f, Option.some.inj (ha.symm.trans (here ▸ hf))⟩
    · obtain ⟨b, hb⟩ := Option.isSome_iff_exists.mp (hw.isSome_of_ne here (by simp [ha]))
      obtain ⟨g, rfl⟩ := hp.files k b hk hne hb
      have id : t'.fileId? k = some g.id :=
        (hw.fileId?_of_ne here).trans (fileId?_eq_some.mpr ⟨g, hb, rfl⟩)
      obtain ⟨g', hg', -⟩ := fileId?_eq_some.mp id
      exact ⟨g', Option.some.inj (ha.symm.trans hg')⟩
  named m hm := by
    by_cases here : d ++ [m] = d ++ [n]
    · obtain rfl : m = n := by simpa using here
      exact hn
    · exact hp.named m (hw.isSome_of_ne here hm)

end Tree

/-- A new temporary directory is empty, and everything else is as it was. -/
theorem Host.private_makeTemporary {h h' : Host} {p : Path} {stem : String} (ht : h.tree.Sound)
    (hstem : stem ∈ temporaryStems) (hmade : h.makeTemporary stem = .ok (p, h')) :
    ∃ d, h.HasFree p d ∧ h.tree.Private d h'.tree ∧ h'.cwd = h.cwd := by
  obtain ⟨d, free, houses, confined, hcwd⟩ := houses_makeTemporary ht hstem hmade
  have empty (k : Location) (hk : d <+: k) (hne : k ≠ d) : h'.tree.node? k = none := by
    rw [free.node?_of_makeTemporary hmade hk, if_neg hne]
  refine ⟨d, free, ⟨houses, confined, fun k a hk hne ha ↦ ?_, fun n hn ↦ ?_⟩, hcwd⟩
  · cases (empty k hk hne).symm.trans ha
  · simp [empty (d ++ [n]) (List.prefix_append _ _) (by simp)] at hn

namespace Toolchain

variable {σ : Type}

/-- Whether every call for a contract that is told, at its end, to write a file in the directory made
for it keeps that directory its own, and leads to a file there if it succeeds. -/
def LinksInPlace (tc : Toolchain σ) : Prop :=
  ∀ (i : Invocation) (st : σ) (h₀ h : Host) (dir : Path) (d : Location) (n : Name),
    i.asksToLink → i.dir = some dir → (Path.ofName n).IsName →
    [Bytes.ofString "-o", n] <:+ i.args → h₀.HasFree dir d → h₀.tree.Private d h.tree →
    h₀.tree.Private d (tc.run i st h).tree ∧ ∀ text, (tc.run i st h).outcome = .ok text →
      (h.withTree (tc.run i st h).tree).isFile (dir.join (.ofName n)) = true

/-- A toolchain whose tools write the same bytes to their outputs, which are called `contract.tvc` if
they are not told otherwise, and fail if they cannot. -/
def linking (content : Bytes) : Toolchain Unit where
  run i st h :=
    let default := (i.dir.getD .here).join (.ofString "contract.tvc")
    match h.write (i.written?.getD default) content with
    | .ok h' => ⟨.ok "", st, h'.tree⟩
    | .error cause => ⟨.error (.toolNotStarted i.toolName cause), st, h.tree⟩
  echo _ st := st

/-- What a tool is told last to write, it writes in the directory that it runs in. -/
theorem written?_of_suffix {i : Invocation} {dir : Path} {n : Name} (hdir : i.dir = some dir)
    (hargs : [Bytes.ofString "-o", n] <:+ i.args) : i.written? = some (dir.join (.ofName n)) := by
  obtain ⟨before, hbefore⟩ := hargs
  have told : Invocation.lastAfter? (Bytes.ofString "-o") i.args = some n := by
    rw [← hbefore]
    clear hbefore
    induction before with
    | nil => simp [Invocation.lastAfter?]
    | cons b bs ih => rw [List.cons_append, Invocation.lastAfter?, ih, Option.some_or]
  rw [Invocation.written?, told, hdir]
  rfl

theorem linksInPlace_linking (content : Bytes) : (linking content).LinksInPlace := by
  intro i st h₀ h dir d n _ hdir hn hargs free kept
  unfold linking
  dsimp only
  rw [written?_of_suffix hdir hargs, Option.getD_some]
  split
  next h' hwrite =>
    obtain ⟨⟨l, h₁⟩, hcreate, happend⟩ := exists_of_bind_eq_ok hwrite
    obtain ⟨place, hplace, change⟩ := Host.writesOnly_write kept.sound hwrite
    obtain ⟨⟨place', hplace', rfl⟩, -, -⟩ := Host.writesOnly_create kept.sound hcreate
    obtain rfl := Except.ok.inj (hplace.symm.trans hplace')
    have there : place.location = d ++ [n] := free.location_of_join kept.toHouses hn hplace
    rw [there] at hcreate happend change
    have file : ∀ a, h.tree.node? (d ++ [n]) = some a → ∃ g, a = .file g :=
      fun a ↦ kept.files _ a (List.prefix_append _ _) (by simp)
    obtain ⟨g, hg, -⟩ := Host.file_of_create kept.sound hcreate file
    obtain ⟨g', hg', -⟩ := Host.file_of_append hg happend
    rw [← there] at hg'
    have sound : (h.withTree h'.tree).tree.Sound := change.tree.sound
    have ways : h.tree.KeepsWays (h.withTree h'.tree).tree := change.tree.keepsWays
    have entry : (h.withTree h'.tree).entry (dir.join (.ofName n)) =
        .ok (place.location, .file g') :=
      Host.entry_of_locateNew kept.sound sound ways rfl hplace hg'
    refine ⟨kept.writesOnly free.sound change.tree hn (there ▸ hg'), fun text _ ↦ ?_⟩
    rw [Host.isFile, entry]
  next => exact ⟨kept, fun text ht ↦ by cases ht⟩

end Toolchain

end ContractBuild
