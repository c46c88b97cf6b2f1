import ContractBuild.CommandLine.Parser
import ContractBuild.Proofs.Text.Utf8

/-!
# Command lines that say the same

What the arguments of a build say can be written in many ways: every option has several spellings,
the options stand in any order and between the inputs, and behind `--` an input may look like an
option.  This module writes arguments as groups of words and shows that reading takes each group
for what it says, so that all these command lines are read as the same arguments.

Reading a group leaves its last part unsettled.  What is carried from group to group is therefore
not what has been read but what it settles to.
-/

namespace ContractBuild.CommandLine

/-! ## Arguments as lists -/

/-- The settings of a build. -/
def Setting.all : List Setting :=
  [.abi, .output, .cflags, .cxxflags, .linkerFlags, .optFlags, .llvmBin, .linker, .stdlib,
    .includeDir]

theorem Setting.mem_all (s : Setting) : s ∈ Setting.all := by cases s <;> decide

/-- The switches of a build. -/
def Switch.all : List Switch := [.verbose, .saveTemps, .asmOnly, .inlineLoadsStores]

namespace Arguments

/-- The value that a setting has. -/
def value? (a : Arguments) : Setting → Option Bytes
  | .abi => some a.abi.raw
  | .output => a.output.map (·.raw)
  | .cflags => a.cflags.map Bytes.ofString
  | .cxxflags => a.cxxflags.map Bytes.ofString
  | .linkerFlags => a.linkerFlags.map Bytes.ofString
  | .optFlags => a.optFlags.map Bytes.ofString
  | .llvmBin => a.tools.llvmBin.map (·.raw)
  | .linker => a.tools.linker.map (·.raw)
  | .stdlib => a.tools.stdlib.map (·.raw)
  | .includeDir => a.tools.includeDir.map (·.raw)

/-- Whether a switch is on. -/
def isOn (a : Arguments) : Switch → Bool
  | .verbose => a.verbose
  | .saveTemps => a.saveTemps
  | .asmOnly => a.asmOnly
  | .inlineLoadsStores => a.inlineLoadsStores
  | .help | .version => false

/-- The settings that have a value. -/
def settings (a : Arguments) : List (Setting × Bytes) :=
  Setting.all.filterMap fun s ↦ (a.value? s).map (s, ·)

/-- The switches that are on. -/
def switches (a : Arguments) : List Switch := Switch.all.filter a.isOn

/-- Whether all paths are given by words, and there is an input. -/
structure Complete (a : Arguments) : Prop where
  /-- No path is empty. -/
  values : ∀ s v, a.value? s = some v → s.takesFlags = false → v ≠ []
  /-- No input is empty. -/
  inputs : ∀ p ∈ a.inputs, p.raw ≠ []
  /-- There is an input. -/
  some_input : a.inputs ≠ []

theorem mem_settings {a : Arguments} {s : Setting} {v : Bytes} :
    (s, v) ∈ a.settings ↔ a.value? s = some v := by
  simp [settings, Setting.mem_all]

theorem mem_switches {a : Arguments} {s : Switch} : s ∈ a.switches ↔ a.isOn s = true := by
  cases s <;> simp [switches, Switch.all, isOn]

theorem nodup_switches (a : Arguments) : a.switches.Nodup :=
  List.Nodup.sublist List.filter_sublist (by decide)

/-- Each setting has one value. -/
theorem nodup_settings (a : Arguments) : (a.settings.map (·.1)).Nodup := by
  have hkeys (l : List Setting) :
      (l.filterMap fun s ↦ (a.value? s).map (s, ·)).map (·.1) =
        l.filter fun s ↦ (a.value? s).isSome := by
    induction l with
    | nil => rfl
    | cons s l ih => cases hs : a.value? s <;> simp [hs, ih]
  rw [settings, hkeys]
  exact List.Nodup.sublist List.filter_sublist (by decide)

/-- A text of flags is given by well-formed bytes. -/
theorem toString?_of_value {a : Arguments} {s : Setting} {v : Bytes} (hv : a.value? s = some v)
    (hs : s.takesFlags = true) : (Bytes.toString? v).isNone = false := by
  cases s <;> first
    | exact absurd hs (by decide)
    | (obtain ⟨text, -, rfl⟩ := Option.map_eq_some_iff.1 hv; simp)

end Arguments

/-! ## Groups of words -/

/-- Whether a word could be taken for an option. -/
def startsWithDash (word : Bytes) : Bool := word.head? = some dash

/-- The long form of an option. -/
def longWord (n : Named) : Bytes := dash :: dash :: Bytes.ofString n.long

/-- The ways to write a setting and its value. -/
inductive Spelling
  /-- `--name=value`. -/
  | longJoined
  /-- `--name value`. -/
  | longApart
  /-- `-n=value`. -/
  | shortJoined
  /-- `-n value`. -/
  | shortApart
  /-- `-nvalue`. -/
  | shortAttached
  deriving DecidableEq, Repr

namespace Spelling

/-- The words of a setting whose letter is `letter`. -/
def words (s : Setting) (letter : UInt8) (value : Bytes) : Spelling → List Bytes
  | .longJoined => [longWord (.setting s) ++ equals :: value]
  | .longApart => [longWord (.setting s), value]
  | .shortJoined => [dash :: letter :: equals :: value]
  | .shortApart => [[dash, letter], value]
  | .shortAttached => [dash :: letter :: value]

/-- Whether the setting is written with its letter. -/
def isShort : Spelling → Bool
  | .longJoined | .longApart => false
  | .shortJoined | .shortApart | .shortAttached => true

/-- Whether the value is a word of its own. -/
def isApart : Spelling → Bool
  | .longApart | .shortApart => true
  | .longJoined | .shortJoined | .shortAttached => false

end Spelling

/-- Words of a command line that belong together. -/
inductive Group
  /-- A switch, with its letter or with its name. -/
  | switch (s : Switch) (isShort : Bool)
  /-- A setting and its value. -/
  | setting (s : Setting) (value : Bytes) (spelling : Spelling)
  /-- An input. -/
  | input (value : Bytes)
  deriving DecidableEq, Repr

namespace Group

/-- The byte of the letter of an option; the dash, which is nobody's letter, where it has none. -/
def letter (n : Named) : UInt8 := (n.letter?.map fun c ↦ c.toNat.toUInt8).getD dash

/-- The words of a group. -/
def words : Group → List Bytes
  | .switch s isShort => [if isShort then [dash, letter (.switch s)] else longWord (.switch s)]
  | .setting s value spelling => spelling.words s (letter (.setting s)) value
  | .input value => [value]

/-- Whether a group can be written as it says: a letter must exist, a value in a word of its own
must not look like an option unless it is a text of flags, an attached value must not start with
the mark that would join it, and neither may an input look like an option. -/
def Fits : Group → Prop
  | .switch s isShort => isShort = true → (Named.switch s).letter?.isSome
  | .setting s value spelling =>
    (spelling.isShort = true → (Named.setting s).letter?.isSome) ∧
    (spelling.isApart = true → s.takesFlags = true ∨ startsWithDash value = false) ∧
    (spelling = .shortAttached → value ≠ [] ∧ value.head? ≠ some equals)
  | .input value => startsWithDash value = false

instance (g : Group) : Decidable g.Fits := by
  cases g <;> unfold Fits <;> infer_instance

/-- The switch of a group. -/
def switch? : Group → Option Switch
  | .switch s _ => some s
  | _ => none

/-- The setting of a group. -/
def setting? : Group → Option (Setting × Bytes)
  | .setting s value _ => some (s, value)
  | _ => none

/-- The input of a group. -/
def input? : Group → Option Bytes
  | .input value => some value
  | _ => none

end Group

/-- The words of a command line: groups, and behind `--`, if that is there, any inputs. -/
def commandLine (groups : List Group) (rest : Option (List Bytes)) : List Bytes :=
  groups.flatMap Group.words ++ (rest.map ([dash, dash] :: ·)).getD []

/-- Whether groups in this order, and the inputs behind `--`, say what the arguments say. -/
structure Spells (groups : List Group) (rest : Option (List Bytes)) (a : Arguments) : Prop where
  /-- Each group can be written. -/
  fits : ∀ g ∈ groups, g.Fits
  /-- Each switch that is on has one group. -/
  switches : (groups.filterMap Group.switch?).Perm a.switches
  /-- Each setting that has a value has one group. -/
  settings : (groups.filterMap Group.setting?).Perm a.settings
  /-- The inputs stand in their order. -/
  inputs : groups.filterMap Group.input? ++ rest.getD [] = a.inputs.map (·.raw)

/-! ## Reading a group -/

section Reading

variable {p q : Progress} {s : Setting} {v : Bytes}

/-- Settled progress has nothing waiting, so settling it again changes nothing. -/
theorem Progress.settle_of_none (h : p.pending = none) : p.settle = .ok p := by
  obtain ⟨_, _, _, _⟩ := p
  cases h
  rfl

/-- What settles is not waiting for the value of a setting. -/
theorem Progress.pending_ne (h : p.settle = .ok q) (s : Setting) :
    p.pending ≠ some (.setting s none) := by
  intro hp
  simp [Progress.settle, hp] at h

theorem awaitsFlags_of_settle (h : p.settle = .ok q) : awaitsFlags p = false := by
  unfold awaitsFlags
  split
  · next s hp => exact absurd hp (Progress.pending_ne h s)
  · rfl

/-- Whether a value is fit for a setting that has none yet. -/
structure Progress.Takes (q : Progress) (s : Setting) (v : Bytes) : Prop where
  /-- The setting has no value. -/
  free : q.hasSetting s = false
  /-- A text of flags is well-formed. -/
  text : s.takesFlags = true → (Bytes.toString? v).isNone = false
  /-- A path is not empty. -/
  path : s.takesFlags = false → v ≠ []

/-- The progress with one more setting. -/
def Progress.withSetting (q : Progress) (s : Setting) (v : Bytes) : Progress :=
  { q with settings := q.settings ++ [(s, v)] }

theorem Progress.Takes.set (h : q.Takes s v) : q.set s v = .ok (q.withSetting s v) := by
  unfold Progress.set
  cases hs : s.takesFlags
  · simp [h.free, h.path hs, Progress.withSetting]
  · simp [h.free, h.text hs, Progress.withSetting]

/-- What is settled waits for nothing. -/
theorem Progress.pending_of_settle (h : p.settle = .ok q) : q.pending = none := by
  unfold Progress.settle at h
  dsimp only at h
  split at h
  · cases h; rfl
  · cases h
  · unfold Progress.set at h
    split at h
    · cases h
    · split at h
      · split at h <;> cases h
        rfl
      · split at h <;> cases h
        rfl
  · split at h <;> cases h
    rfl

/-- A switch that is not on yet is taken. -/
theorem turnOn_of_settle (h : p.settle = .ok q) {s : Switch} (hs : s ∈ Switch.all)
    (hfree : s ∉ q.switches) : p.turnOn s = .ok { q with switches := q.switches ++ [s] } := by
  rw [Progress.turnOn, h]
  cases s <;> first | exact absurd hs (by decide) | simp [hfree, bind, Except.bind]

/-- A setting with its value in the same word is taken. -/
theorem take_joined (h : p.settle = .ok q) (ht : q.Takes s v) :
    p.take s (some v) = .ok (q.withSetting s v) := by
  rw [Progress.take, h]
  exact ht.set

/-- A setting without a value waits for it. -/
theorem take_apart (h : p.settle = .ok q) :
    p.take s none = .ok { q with pending := some (.setting s none) } := by
  rw [Progress.take, h]
  rfl

/-- The value in the next word is taken, whatever it looks like if it is a text of flags. -/
theorem readWord_value (h : p.pending = some (.setting s none))
    (hv : s.takesFlags = true ∨ startsWithDash v = false) :
    readWord p v = .ok { p with pending := some (.setting s (some v)) } := by
  have hplain : readPlain p v = .ok { p with pending := some (.setting s (some v)) } := by
    simp [readPlain, h]
  cases hs : s.takesFlags
  · have hdash : startsWithDash v = false := by simpa [hs] using hv
    match v with
    | [] => simp [readWord, awaitsFlags, h, hs, hplain]
    | [_] => simp [readWord, awaitsFlags, h, hs, hplain]
    | b :: _ :: _ =>
      have hb : b ≠ dash := by simpa [startsWithDash] using hdash
      simp [readWord, awaitsFlags, h, hs, hplain, hb]
  · simp [readWord, awaitsFlags, h, hs, hplain]

/-- A value that waits is settled as one that is read at once. -/
theorem settle_value (hq : q.pending = none) (ht : q.Takes s v) :
    { q with pending := some (.setting s (some v)) : Progress }.settle =
      .ok (q.withSetting s v) := by
  obtain ⟨_, _, _, _⟩ := q
  cases hq
  exact ht.set

/-- An input is put with those that wait. -/
theorem addInput_of_settle (h : p.settle = .ok q) (hv : v ≠ []) :
    ∃ p', p.addInput v = .ok p' ∧ p'.settle = .ok { q with inputs := q.inputs ++ [v] } := by
  unfold Progress.addInput
  split
  · next values hp =>
    refine ⟨_, rfl, ?_⟩
    simp only [Progress.settle, hp] at h ⊢
    split at h
    · cases h
    · next hvalues =>
      cases h
      simp [hvalues, hv.symm]
  · refine ⟨{ q with pending := some (.inputs [v]) }, by rw [h]; rfl, ?_⟩
    have hq := Progress.pending_of_settle h
    obtain ⟨_, _, _, _⟩ := q
    cases hq
    simp [Progress.settle, hv.symm]

theorem addInputs_of_settle (h : p.settle = .ok q) {values : List Bytes} (hv : [] ∉ values) :
    ∃ p', p.addInputs values = .ok p' ∧ p'.settle = .ok { q with inputs := q.inputs ++ values } := by
  induction values generalizing p q with
  | nil => exact ⟨p, rfl, by simpa using h⟩
  | cons v values ih =>
    obtain ⟨hv, hvalues⟩ := List.ne_and_not_mem_of_not_mem_cons hv
    obtain ⟨p₁, hp₁, h₁⟩ := addInput_of_settle h (Ne.symm hv)
    obtain ⟨p₂, hp₂, h₂⟩ := ih h₁ hvalues
    refine ⟨p₂, ?_, by simpa using h₂⟩
    rw [Progress.addInputs, hp₁]
    exact hp₂

/-- A word that is no option is read as an input, unless a value is waited for. -/
theorem readWord_input (h : p.settle = .ok q) (hv : startsWithDash v = false) :
    readWord p v = p.addInput v := by
  have hplain : readPlain p v = p.addInput v := by
    unfold readPlain
    split
    · next s hp => exact absurd hp (Progress.pending_ne h s)
    · rfl
  match v with
  | [] => simp [readWord, awaitsFlags_of_settle h, hplain]
  | [_] => simp [readWord, awaitsFlags_of_settle h, hplain]
  | b :: _ :: _ =>
    have hb : b ≠ dash := by simpa [startsWithDash] using hv
    simp [readWord, awaitsFlags_of_settle h, hplain, hb]

/-! ## Names and letters -/

/-- What stands before the first mark is split off. -/
theorem splitValue_append {name : Bytes} (h : equals ∉ name) (v : Bytes) :
    splitValue (name ++ equals :: v) = (name, some v) := by
  induction name with
  | nil => simp [splitValue]
  | cons b name ih =>
    obtain ⟨hb, hname⟩ := List.ne_and_not_mem_of_not_mem_cons h
    simp [splitValue, Ne.symm hb, ih hname]

theorem splitValue_of_not_mem {name : Bytes} (h : equals ∉ name) : splitValue name = (name, none) := by
  induction name with
  | nil => rfl
  | cons b name ih =>
    obtain ⟨hb, hname⟩ := List.ne_and_not_mem_of_not_mem_cons h
    simp [splitValue, Ne.symm hb, ih hname]

theorem equals_not_mem_long (n : Named) : equals ∉ Bytes.ofString n.long := by
  cases n with
  | switch s => cases s <;> decide +kernel
  | setting s => cases s <;> decide +kernel

theorem long_ne_nil (n : Named) : Bytes.ofString n.long ≠ [] := by
  cases n with
  | switch s => cases s <;> decide +kernel
  | setting s => cases s <;> decide +kernel

/-- The letter of an option stands for it, and is no dash. -/
theorem ofLetter?_letter {n : Named} (h : n.letter?.isSome) :
    Named.ofLetter? (Group.letter n) = some n ∧ Group.letter n ≠ dash := by
  cases n with
  | switch s => cases s <;> first | exact absurd h (by decide) | decide +kernel
  | setting s => cases s <;> first | exact absurd h (by decide) | decide +kernel

theorem readWord_long (h : p.settle = .ok q) (n : Named) (tail : Bytes) :
    readWord p (longWord n ++ tail) = readLong p (Bytes.ofString n.long ++ tail) := by
  simp [readWord, awaitsFlags_of_settle h, longWord]

theorem readWord_short (h : p.settle = .ok q) {n : Named} (hn : n.letter?.isSome) (tail : Bytes) :
    readWord p (dash :: Group.letter n :: tail) = readLetters p (Group.letter n :: tail) := by
  simp [readWord, awaitsFlags_of_settle h, (ofLetter?_letter hn).2]

/-! ## Words and groups -/

/-- One word is read before the others. -/
theorem readWords_cons {p' : Progress} {word : Bytes} {words : List Bytes}
    (hword : word ≠ [dash, dash] ∨ awaitsFlags p = true) (h : readWord p word = .ok p') :
    readWords p (word :: words) = readWords p' words := by
  have hgo : ¬ (word = [dash, dash] ∧ ¬ awaitsFlags p = true) := by
    rintro ⟨rfl, hawaits⟩
    exact hword.elim (absurd rfl) hawaits
  rw [readWords, if_neg hgo, h]
  rfl

/-- A switch is read in either form. -/
theorem reads_switch (h : p.settle = .ok q) {s : Switch} {isShort : Bool}
    (hfits : (Group.switch s isShort).Fits) (hs : s ∈ Switch.all) (hfree : s ∉ q.switches) :
    ∃ p', (∀ ws, readWords p ((Group.switch s isShort).words ++ ws) = readWords p' ws) ∧
      p'.settle = .ok { q with switches := q.switches ++ [s] } := by
  have hq := Progress.pending_of_settle h
  refine ⟨_, fun ws ↦ ?_, Progress.settle_of_none hq⟩
  cases isShort
  · have hlong := long_ne_nil (.switch s)
    refine readWords_cons (.inl (by simpa [longWord] using hlong)) ?_
    have hread := readWord_long h (.switch s) []
    rw [List.append_nil, List.append_nil] at hread
    simp [hread, readLong, splitValue_of_not_mem (equals_not_mem_long _), Named.ofLong?_long,
      turnOn_of_settle h hs hfree]
  · obtain ⟨hletter, hdash⟩ := ofLetter?_letter (hfits rfl)
    refine readWords_cons (.inl (by simpa using hdash)) ?_
    simp [readWord_short h (hfits rfl), readLetters, hletter, turnOn_of_settle h hs hfree, bind,
      Except.bind]

/-- The word of a setting that holds its value is read. -/
theorem reads_joined (h : p.settle = .ok q) (ht : q.Takes s v) {word : Bytes}
    (hword : word ≠ [dash, dash]) (hread : readWord p word = p.take s (some v)) :
    ∃ p', (∀ ws, readWords p ([word] ++ ws) = readWords p' ws) ∧
      p'.settle = .ok (q.withSetting s v) :=
  have hq : q.pending = none := Progress.pending_of_settle h
  ⟨q.withSetting s v, fun _ ↦ readWords_cons (.inl hword) (hread.trans (take_joined h ht)),
    Progress.settle_of_none hq⟩

/-- The word of a setting and the word of its value are read. -/
theorem reads_apart (h : p.settle = .ok q) (ht : q.Takes s v) {word : Bytes}
    (hword : word ≠ [dash, dash]) (hread : readWord p word = p.take s none)
    (hv : s.takesFlags = true ∨ startsWithDash v = false) :
    ∃ p', (∀ ws, readWords p ([word, v] ++ ws) = readWords p' ws) ∧
      p'.settle = .ok (q.withSetting s v) := by
  refine ⟨_, fun ws ↦ ?_, settle_value (Progress.pending_of_settle h) ht⟩
  refine (readWords_cons (.inl hword) (hread.trans (take_apart h))).trans ?_
  refine readWords_cons ?_ (readWord_value rfl hv)
  -- a text of flags may even be the word that ends the options
  cases hs : s.takesFlags
  · refine .inl fun hdashes ↦ ?_
    subst hdashes
    simp [hs, startsWithDash] at hv
  · exact .inr (by simp [awaitsFlags, hs])

/-- A setting is read in each of its forms. -/
theorem reads_setting (h : p.settle = .ok q) {f : Spelling} (hfits : (Group.setting s v f).Fits)
    (ht : q.Takes s v) :
    ∃ p', (∀ ws, readWords p ((Group.setting s v f).words ++ ws) = readWords p' ws) ∧
      p'.settle = .ok (q.withSetting s v) := by
  obtain ⟨hletter, hapart, hattached⟩ := hfits
  have hlong := long_ne_nil (.setting s)
  have hmarks := equals_not_mem_long (.setting s)
  cases f with
  | longJoined =>
    refine reads_joined h ht (by simp [longWord]) ?_
    rw [readWord_long h, readLong, splitValue_append hmarks]
    simp [Named.ofLong?_long]
  | longApart =>
    refine reads_apart h ht (by simpa [longWord] using hlong) ?_ (hapart rfl)
    have hread := readWord_long h (.setting s) []
    rw [List.append_nil, List.append_nil] at hread
    rw [hread, readLong, splitValue_of_not_mem hmarks]
    simp [Named.ofLong?_long]
  | shortJoined =>
    obtain ⟨hname, hdash⟩ := ofLetter?_letter (hletter rfl)
    refine reads_joined h ht (by simp) ?_
    rw [readWord_short h (hletter rfl), readLetters, hname]
    simp [attachedValue?]
  | shortApart =>
    obtain ⟨hname, hdash⟩ := ofLetter?_letter (hletter rfl)
    refine reads_apart h ht (by simpa using hdash) ?_ (hapart rfl)
    rw [readWord_short h (hletter rfl), readLetters, hname]
    rfl
  | shortAttached =>
    obtain ⟨hname, hdash⟩ := ofLetter?_letter (hletter rfl)
    obtain ⟨hne, hmark⟩ := hattached rfl
    obtain ⟨b, bs, rfl⟩ := List.exists_cons_of_ne_nil hne
    have hb : b ≠ equals := by simpa using hmark
    refine reads_joined h ht (by simp) ?_
    rw [readWord_short h (hletter rfl), readLetters, hname]
    simp [attachedValue?, hb]

/-- An input is read. -/
theorem reads_input (h : p.settle = .ok q) (hfits : (Group.input v).Fits) (hv : v ≠ []) :
    ∃ p', (∀ ws, readWords p ((Group.input v).words ++ ws) = readWords p' ws) ∧
      p'.settle = .ok { q with inputs := q.inputs ++ [v] } := by
  obtain ⟨p', hp', hsettle⟩ := addInput_of_settle h hv
  refine ⟨p', fun ws ↦ readWords_cons (.inl ?_) ((readWord_input h hfits).trans hp'), hsettle⟩
  rintro rfl
  simp [Group.Fits, startsWithDash] at hfits

/-! ## Runs of groups -/

/-- The progress with what a group says. -/
def Progress.adding (q : Progress) : Group → Progress
  | .switch s _ => { q with switches := q.switches ++ [s] }
  | .setting s value _ => q.withSetting s value
  | .input value => { q with inputs := q.inputs ++ [value] }

/-- Whether a group says something new and fit. -/
def Progress.Admits (q : Progress) : Group → Prop
  | .switch s _ => s ∈ Switch.all ∧ s ∉ q.switches
  | .setting s value _ => q.Takes s value
  | .input value => value ≠ []

/-- A group is read as what it says. -/
theorem reads_group (h : p.settle = .ok q) {g : Group} (hfits : g.Fits) (hg : q.Admits g) :
    ∃ p', (∀ ws, readWords p (g.words ++ ws) = readWords p' ws) ∧
      p'.settle = .ok (q.adding g) := by
  cases g with
  | switch s isShort => exact reads_switch h hfits hg.1 hg.2
  | setting s value f => exact reads_setting h hfits hg
  | input value => exact reads_input h hfits hg

/-- What groups say is new and fit for the progress: no switch and no setting twice, and every
value fit. -/
structure Progress.AdmitsAll (q : Progress) (groups : List Group) : Prop where
  /-- No switch is on twice. -/
  switches : (q.switches ++ groups.filterMap Group.switch?).Nodup
  /-- All switches are those of a build. -/
  known : ∀ s ∈ groups.filterMap Group.switch?, s ∈ Switch.all
  /-- No setting has two values. -/
  settings : ((q.settings ++ groups.filterMap Group.setting?).map (·.1)).Nodup
  /-- Texts of flags are well-formed. -/
  texts : ∀ c ∈ groups.filterMap Group.setting?,
    c.1.takesFlags = true → (Bytes.toString? c.2).isNone = false
  /-- Paths are not empty. -/
  paths : ∀ c ∈ groups.filterMap Group.setting?, c.1.takesFlags = false → c.2 ≠ []
  /-- Inputs are not empty. -/
  inputs : ∀ v ∈ groups.filterMap Group.input?, v ≠ []

/-- A setting that no entry names has no value. -/
theorem Progress.hasSetting_eq_false (hs : s ∉ q.settings.map (·.1)) : q.hasSetting s = false := by
  unfold Progress.hasSetting
  generalize q.settings = l at hs
  induction l with
  | nil => rfl
  | cons c l ih =>
    obtain ⟨hne, hl⟩ := List.ne_and_not_mem_of_not_mem_cons hs
    have hc : (s == c.1) = false := by simpa using hne
    rw [List.lookup_cons, hc]
    exact ih hl

/-- The first group is admitted, and the others once it has been read. -/
theorem Progress.AdmitsAll.cons {g : Group} {groups : List Group} (h : q.AdmitsAll (g :: groups)) :
    q.Admits g ∧ (q.adding g).AdmitsAll groups := by
  obtain ⟨hswitches, hknown, hsettings, htexts, hpaths, hinputs⟩ := h
  cases g with
  | switch s isShort =>
    simp only [List.filterMap_cons, Group.switch?, Group.setting?, Group.input?] at *
    refine ⟨⟨hknown s (by simp), ?_⟩, ?_, fun t ht ↦ hknown t (by simp [ht]), hsettings, htexts,
      hpaths, hinputs⟩
    · have := List.nodup_append.1 hswitches
      exact fun hs ↦ this.2.2 s hs s (by simp) rfl
    · simpa [Progress.adding] using hswitches
  | setting s value f =>
    simp only [List.filterMap_cons, Group.switch?, Group.setting?, Group.input?] at *
    refine ⟨⟨?_, htexts (s, value) (by simp), hpaths (s, value) (by simp)⟩, hswitches, hknown, ?_,
      fun c hc ↦ htexts c (by simp [hc]), fun c hc ↦ hpaths c (by simp [hc]), hinputs⟩
    · rw [List.map_append] at hsettings
      have := List.nodup_append.1 hsettings
      exact Progress.hasSetting_eq_false fun hs ↦ this.2.2 s hs s (by simp) rfl
    · simpa [Progress.adding, Progress.withSetting] using hsettings
  | input value =>
    simp only [List.filterMap_cons, Group.switch?, Group.setting?, Group.input?] at *
    exact ⟨hinputs value (by simp), hswitches, hknown, hsettings, htexts, hpaths,
      fun v hv ↦ hinputs v (by simp [hv])⟩

/-- Groups are read, one after the other, as what they say together. -/
theorem reads_groups {groups : List Group} (h : p.settle = .ok q) (hfits : ∀ g ∈ groups, g.Fits)
    (hall : q.AdmitsAll groups) :
    ∃ p', (∀ ws, readWords p (groups.flatMap Group.words ++ ws) = readWords p' ws) ∧
      p'.settle = .ok {
        switches := q.switches ++ groups.filterMap Group.switch?
        settings := q.settings ++ groups.filterMap Group.setting?
        inputs := q.inputs ++ groups.filterMap Group.input?
        pending := none } := by
  induction groups generalizing p q with
  | nil =>
    refine ⟨p, fun _ ↦ rfl, ?_⟩
    have hq := Progress.pending_of_settle h
    obtain ⟨_, _, _, _⟩ := q
    cases hq
    simpa using h
  | cons g groups ih =>
    obtain ⟨hg, hgroups⟩ := hall.cons
    obtain ⟨p₁, hread, h₁⟩ := reads_group h (hfits g (by simp)) hg
    obtain ⟨p₂, hreads, h₂⟩ := ih h₁ (fun g' hg' ↦ hfits g' (by simp [hg'])) hgroups
    refine ⟨p₂, fun ws ↦ ?_, ?_⟩
    · rw [List.flatMap_cons, List.append_assoc, hread, hreads]
    · rw [h₂]
      cases g <;>
        simp [Progress.adding, Progress.withSetting, List.filterMap_cons, Group.switch?,
          Group.setting?, Group.input?]

end Reading

/-! ## Arguments from what was read -/

/-- Of entries with different keys, one that is there is what its key leads to. -/
theorem lookup_eq_some_iff {l : List (Setting × Bytes)} (hl : (l.map (·.1)).Nodup) {s : Setting}
    {v : Bytes} : l.lookup s = some v ↔ (s, v) ∈ l := by
  induction l with
  | nil => simp
  | cons c l ih =>
    obtain ⟨k, w⟩ := c
    rw [List.map_cons, List.nodup_cons] at hl
    by_cases hk : s = k
    · subst hk
      have hnot : (s, v) ∉ l := fun hmem ↦ hl.1 (List.mem_map.2 ⟨_, hmem, rfl⟩)
      simp [hnot, eq_comm]
    · have hne : (s == k) = false := by simpa using hk
      rw [List.lookup_cons, hne]
      simp [ih hl.2, hk]

/-- Progress that has the settings, the switches and the inputs of complete arguments, in some
order, gives those arguments. -/
theorem toArguments_eq {a : Arguments} (ha : a.Complete) {q : Progress}
    (hswitches : q.switches.Perm a.switches) (hsettings : q.settings.Perm a.settings)
    (hinputs : q.inputs = a.inputs.map (·.raw)) : q.toArguments = .ok a := by
  have hkeys : (q.settings.map (·.1)).Nodup :=
    (hsettings.map _).nodup_iff.2 a.nodup_settings
  have hlookup (s : Setting) : q.settings.lookup s = a.value? s :=
    Option.ext fun v ↦ by
      rw [lookup_eq_some_iff hkeys, hsettings.mem_iff, Arguments.mem_settings]
  have hon (s : Switch) : s ∈ q.switches ↔ a.isOn s = true :=
    hswitches.mem_iff.trans Arguments.mem_switches
  obtain ⟨input, inputs, hlist⟩ := List.exists_cons_of_ne_nil ha.some_input
  rw [hlist, List.map_cons] at hinputs
  obtain ⟨abi, ainputs, verbose, saveTemps, output, cflags, cxxflags, linkerFlags, optFlags,
    asmOnly, inlineLoadsStores, llvmBin, linker, stdlib, includeDir⟩ := a
  cases hlist
  simp only [Progress.toArguments, Progress.path?, Progress.flags?, hlookup, hinputs, hon,
    Arguments.value?, Arguments.isOn]
  simp [Function.comp_def]

/-! ## The round trip -/

/-- Every way to write complete arguments, by groups in any order and with some of the inputs
behind `--`, is read as those arguments. -/
theorem parse_commandLine {a : Arguments} (ha : a.Complete) {groups : List Group}
    {rest : Option (List Bytes)} (h : Spells groups rest a) :
    parse (commandLine groups rest) = .ok a := by
  have hinput (v : Bytes) (hv : v ∈ groups.filterMap Group.input? ++ rest.getD []) : v ≠ [] := by
    rw [h.inputs] at hv
    obtain ⟨p, hp, rfl⟩ := List.mem_map.1 hv
    exact ha.inputs p hp
  have hvalue {c : Setting × Bytes} (hc : c ∈ groups.filterMap Group.setting?) :
      a.value? c.1 = some c.2 :=
    Arguments.mem_settings.1 (h.settings.mem_iff.1 hc)
  have hall : Progress.start.AdmitsAll groups := {
    switches := h.switches.nodup_iff.2 a.nodup_switches
    known := fun s hs ↦ (List.mem_filter.1 (h.switches.mem_iff.1 hs)).1
    settings := (h.settings.map _).nodup_iff.2 a.nodup_settings
    texts := fun c hc hs ↦ Arguments.toString?_of_value (hvalue hc) hs
    paths := fun c hc hs ↦ ha.values c.1 c.2 (hvalue hc) hs
    inputs := fun v hv ↦ hinput v (List.mem_append_left _ hv) }
  obtain ⟨p, hread, hsettle⟩ := reads_groups (p := .start) rfl h.fits hall
  replace hsettle : p.settle = .ok ⟨groups.filterMap Group.switch?,
      groups.filterMap Group.setting?, groups.filterMap Group.input?, none⟩ := by
    simpa [Progress.start] using hsettle
  have hwords : ∃ q, readWords .start (commandLine groups rest) = .ok q ∧
      q.switches = groups.filterMap Group.switch? ∧
      q.settings = groups.filterMap Group.setting? ∧
      q.inputs = groups.filterMap Group.input? ++ rest.getD [] := by
    rw [commandLine, hread]
    cases rest with
    | none => exact ⟨_, hsettle, rfl, rfl, (List.append_nil _).symm⟩
    | some values =>
      have hvalues : [] ∉ values := fun hmem ↦ hinput [] (List.mem_append_right _ hmem) rfl
      obtain ⟨p', hadd, hsettle'⟩ := addInputs_of_settle hsettle hvalues
      refine ⟨⟨_, _, groups.filterMap Group.input? ++ values, none⟩, ?_, rfl, rfl, rfl⟩
      simp only [Option.map_some, Option.getD_some, readWords, awaitsFlags_of_settle hsettle,
        Bool.false_eq_true, not_false_eq_true, and_self, if_true, hadd]
      exact hsettle'
  obtain ⟨q, hq, hswitches, hsettings, hinputs⟩ := hwords
  rw [parse, hq]
  exact toArguments_eq ha (hswitches ▸ h.switches) (hsettings ▸ h.settings)
    (hinputs.trans h.inputs)

/-- Arguments whose flags look like options, with an input that does. -/
def Arguments.sample : Arguments where
  abi := .ofString "wallet.abi"
  inputs := [.ofString "main.c", .ofString "util.ll", .ofString "-v"]
  verbose := true
  saveTemps := true
  output := some (.ofString "-out")
  cflags := some "--"
  cxxflags := some ""
  linkerFlags := some "--abi x"
  optFlags := none
  asmOnly := true
  inlineLoadsStores := false
  tools := ⟨some (.ofString "/llvm"), none, none, none⟩

/-- One way to write the sample: `-S main.c --cxxflags= --cflags -- -o=-out util.ll -v
--linkerflags "--abi x" --llvm-bin /llvm -Awallet.abi --save-temps`, before `-- -v`. -/
def Group.sample : List Group :=
  [.switch .asmOnly true, .input (Bytes.ofString "main.c"), .setting .cxxflags [] .longJoined,
    .setting .cflags [dash, dash] .longApart,
    .setting .output (Bytes.ofString "-out") .shortJoined, .input (Bytes.ofString "util.ll"),
    .switch .verbose true, .setting .linkerFlags (Bytes.ofString "--abi x") .longApart,
    .setting .llvmBin (Bytes.ofString "/llvm") .longApart,
    .setting .abi (Bytes.ofString "wallet.abi") .shortAttached, .switch .saveTemps false]

theorem Arguments.complete_sample : Arguments.sample.Complete where
  values := by
    intro s v hv hs
    cases s <;> first
      | exact absurd hs (by decide)
      | (cases hv <;> decide +kernel)
  inputs := by decide +kernel
  some_input := by decide

theorem parse_commandLine_sample :
    Arguments.sample.Complete ∧ Spells Group.sample (some [Bytes.ofString "-v"]) .sample ∧
      parse (commandLine Group.sample (some [Bytes.ofString "-v"])) = .ok .sample := by
  have hspells : Spells Group.sample (some [Bytes.ofString "-v"]) .sample :=
    ⟨by decide +kernel, by decide +kernel, by decide +kernel, by decide +kernel⟩
  exact ⟨Arguments.complete_sample, hspells, parse_commandLine Arguments.complete_sample hspells⟩

end ContractBuild.CommandLine
