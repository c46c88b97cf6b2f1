import ContractBuild.Proofs.FileSystem.Destinations
import ContractBuild.Proofs.FileSystem.Overwriting

/-!
# Writing the same once more

Files are written on one host, and then the same is written once more on the host that this has led
to.  At any time the second host holds, for each file, what the first one holds at that time or what
it holds in the end, so that both agree once the second has caught up.
-/

namespace ContractBuild

/-! ## What writing makes of a host -/

/-- What writing makes of what is stored at a location, if new files have identities from some
number on. -/
inductive Node.Becomes (next : Nat) : Option Node → Option Node → Prop
  /-- It stays as it is. -/
  | same (n : Option Node) : Becomes next n n
  /-- A file of the user comes where nothing was. -/
  | made {f : File} (hnew : next ≤ f.id) (hown : f.isForeign = false)
      (hwrite : f.allows .write = true) : Becomes next none (some (.file f))
  /-- A file that may be written is written, and may be written once more. -/
  | rewritten {f : File} {c : Bytes} {m : Nat} (hwrite : f.allows .write = true)
      (hwrite' : (f.having c m).allows .write = true) :
      Becomes next (some (.file f)) (some (.file (f.having c m)))

/-- A file stays one, and one that may not be written stays as it is. -/
theorem Node.Becomes.file {next : Nat} {f : File} {n : Option Node}
    (w : Becomes next (some (.file f)) n) :
    ∃ c m, n = some (.file (f.having c m)) ∧ (f.having c m).allows .write = f.allows .write ∧
      (f.allows .write = false → c = f.content ∧ m = f.mode) := by
  cases w with
  | same => exact ⟨f.content, f.mode, rfl, rfl, fun _ ↦ ⟨rfl, rfl⟩⟩
  | @rewritten _ c m hwrite hwrite' =>
    refine ⟨c, m, rfl, hwrite'.trans hwrite.symm, fun hclosed ↦ ?_⟩
    rw [hwrite] at hclosed
    cases hclosed

/-- A file was there before and belonged to the same, or it is new and belongs to the user. -/
theorem Node.Becomes.of_file {next : Nat} {f : File} {n : Option Node}
    (w : Becomes next n (some (.file f))) :
    f.isForeign = false ∨ ∃ g, n = some (.file g) ∧ g.isForeign = f.isForeign ∧
      (f.allows .write = true → g.allows .write = true) := by
  generalize hx : some (Node.file f) = x at w
  cases w with
  | same => exact .inr ⟨f, hx.symm, rfl, id⟩
  | made _ mine _ => exact .inl (Node.file.inj (Option.some.inj hx) ▸ mine)
  | @rewritten g c m hwrite _ =>
    obtain rfl := Node.file.inj (Option.some.inj hx)
    exact .inr ⟨g, rfl, rfl, fun _ ↦ hwrite⟩

theorem Node.Becomes.trans {next next' : Nat} {n n' n'' : Option Node}
    (first : Becomes next n n') (second : Becomes next' n' n'') (hle : next ≤ next') :
    Becomes next n n'' := by
  cases first with
  | same =>
    cases second with
    | same => exact .same _
    | made hnew hown hwrite => exact .made (Nat.le_trans hle hnew) hown hwrite
    | rewritten hwrite hwrite' => exact .rewritten hwrite hwrite'
  | made hnew hown hwrite =>
    cases second with
    | same => exact .made hnew hown hwrite
    | rewritten _ hwrite' => exact .made hnew hown hwrite'
  | rewritten hwrite hwrite' =>
    cases second with
    | same => exact .rewritten hwrite hwrite'
    | rewritten _ hwrite'' => exact .rewritten hwrite hwrite''

namespace Host

variable {h h' h'' : Host} {l k : Location} {p : Path} {b c c' : Bytes} {m m' : Nat} {f : File}
  {n : Node} {place : Place}

/-- What writing makes of a host. -/
structure Becomes (h h' : Host) : Prop where
  /-- Only files have been written. -/
  written : h.Written h'
  /-- No file has got a second name. -/
  names : h.KeepsNames h'
  /-- Files have been written that may be written, and files of the user are new. -/
  nodes : ∀ k, Node.Becomes h.tree.nextId (h.tree.stored k) (h'.tree.stored k)
  /-- A new file lies in a directory that may be changed. -/
  room : ∀ k, h.tree.stored k = none → h'.tree.stored k ≠ none →
    h.tree.allows k.dropLast .write = true

namespace Becomes

theorem refl (ht : h.tree.Sound) : h.Becomes h :=
  ⟨.refl ht, .refl h, fun _ ↦ .same _, fun _ hk hk' ↦ absurd hk hk'⟩

/-- The directory that a new file lies in was there before. -/
theorem leads_dropLast (w : h.Becomes h') (hk : h.tree.stored k = none)
    (hk' : h'.tree.stored k ≠ none) : h.tree.leads k.dropLast = true := by
  have hne : k ≠ [] := by
    rintro rfl
    rw [Tree.stored_eq_none] at hk
    simp at hk
  have some : (h'.tree.node? k).isSome := by
    rw [Option.isSome_iff_ne_none]
    exact fun hnone ↦ hk' (Tree.stored_eq_none.mpr hnone)
  rw [← w.written.ways.leads_eq]
  exact Tree.leads_of_directoryId? (w.written.sound.parent hne some)

theorem trans (w : h.Becomes h') (w' : h'.Becomes h'') : h.Becomes h'' where
  written := w.written.trans w'.written
  names k k' id hne hk hk' := by
    obtain ⟨before, before'⟩ := w'.names k k' id hne hk hk'
    exact w.names k k' id hne before before'
  nodes k := (w.nodes k).trans (w'.nodes k) w.written.nextId_le
  room k hk hk'' := by
    by_cases hk' : h'.tree.stored k = none
    · have allows := w'.room k hk' hk''
      rwa [Tree.allows_of_shape_eq (w.written.ways.back _ (w'.leads_dropLast hk' hk'')).symm]
        at allows
    · exact w.room k hk hk'

end Becomes

theorem mode_newFile (t : Tree) (c : Bytes) (m : Nat) : (t.newFile c m).stored.mode = m := rfl

/-- The user may write a file that the user has just made. -/
theorem allows_write_newFile (t : Tree) (c : Bytes) :
    (t.newFile c fileMode).stored.allows .write = true := by
  change fileMode.testBit 7 = true
  decide

/-- Overwriting a file that may be written, with permissions that let it be written again, is
writing. -/
theorem Overwrites.becomes (ow : h.Overwrites l c m h') (ht : h.tree.Coherent)
    (hopen : h.refusal? l b = none) (hwrite : ((h.tree.fileAt l).having c m).allows .write = true) :
    h.Becomes h' where
  written := ow.change.written
  names := (KeepsNames.refl h).writesOnly ht.toSound ow.change
  nodes k := by
    by_cases hk : h.tree.Shares l k
    · rw [ow.shown k hk]
      rcases h.tree.stored_cases l with hl | ⟨f, hl⟩ | ⟨n, hl, hn⟩
      · obtain rfl := hk.eq_of_free hl
        rw [hl]
        refine .made ?_ ?_ hwrite
        · rw [Tree.fileAt_of_free hl]
          exact Nat.le_refl _
        · rw [Tree.fileAt_of_free hl]
          rfl
      · rw [ht.stored_of_shares hk hl]
        rw [Tree.fileAt_of_stored hl] at hwrite ⊢
        refine .rewritten ?_ hwrite
        by_contra hclosed
        rw [refusal?_of_file hl, if_neg hclosed] at hopen
        cases hopen
      · exact absurd hk (Tree.not_shares hl hn)
    · rw [ow.kept k hk]
      exact .same _
  room k hk hk' := by
    have shares : h.tree.Shares l k := by
      by_contra hshares
      exact hk' ((ow.kept k hshares).trans hk)
    rcases h.tree.stored_cases l with hl | ⟨f, hl⟩ | ⟨n, hl, hn⟩
    · obtain rfl := shares.eq_of_free hl
      rw [refusal?_of_free hl] at hopen
      by_contra hclosed
      rw [if_neg hclosed] at hopen
      cases hopen
    · cases hk.symm.trans (ht.stored_of_shares shares hl)
    · exact absurd shares (Tree.not_shares hl hn)

/-- The permissions of a file that may be written let it be written again. -/
theorem allows_write_having (hopen : h.refusal? l b = none) (c : Bytes) :
    ((h.tree.fileAt l).having c (h.tree.fileAt l).mode).allows .write = true := by
  rw [File.allows_having]
  rcases h.tree.stored_cases l with hl | ⟨f, hl⟩ | ⟨n, hl, hn⟩
  · rw [Tree.fileAt_of_free hl]
    exact allows_write_newFile _ _
  · rw [Tree.fileAt_of_stored hl]
    by_contra hclosed
    rw [refusal?_of_file hl, if_neg hclosed] at hopen
    cases hopen
  · rw [Tree.fileAt_of_other hl hn]
    exact allows_write_newFile _ _

end Host

namespace Host

variable {h h' h'' : Host} {l k : Location} {p q : Path} {b : Bytes} {f : File} {n : Node}
  {P Q : Path → Prop}

/-- What may be appended to may be appended to after files have been written. -/
theorem Becomes.appendTarget (w : h.Becomes h') (ht : h.tree.Sound)
    (hp : h.appendTarget p = .ok l) : h'.appendTarget p = .ok l := by
  obtain ⟨n, hentry, lead, there, hopen⟩ := exists_of_appendTarget ht hp
  have W := w.nodes l
  rw [there] at W
  by_cases hother : n.stored.fileId? = none
  · have same : h'.tree.stored l = h.tree.stored l := by
      rw [there]
      generalize h'.tree.stored l = a at W
      generalize n.stored = x at W hother
      cases W with
      | same => rfl
      | rewritten _ _ => cases hother
    obtain ⟨n', hn', stored⟩ := Option.map_eq_some_iff.mp (same.trans there)
    have lead' : n'.leads = false := by
      rw [← Node.leads_stored, stored, Node.leads_stored, lead]
    refine appendTarget_eq_ok.mpr ⟨n', w.written.entry_after ht hentry hn' lead', ?_⟩
    rw [refusal?_of_stored_eq same (.inl (by simp [there])), hopen]
  · obtain ⟨f, hf⟩ : ∃ f, n.stored = .file f := by
      cases hn : n.stored with
      | file f => exact ⟨f, rfl⟩
      | _ =>
        rw [hn] at hother
        exact absurd rfl hother
    rw [hf] at W there
    obtain ⟨c, m, hg, hwrite, -⟩ := W.file
    obtain ⟨g, hg', -⟩ := Tree.exists_node?_of_stored hg
    refine appendTarget_eq_ok.mpr ⟨_, w.written.entry_after ht hentry hg' rfl, ?_⟩
    rw [refusal?_of_file hg, hwrite, ← refusal?_of_file there, hopen]

/-- A path that leads to a file of somebody else led there before. -/
theorem Becomes.withholds (w : h.Becomes h') (ht : h.tree.Sound) (hf : h'.Withholds p f) :
    ∃ g, h.Withholds p g := by
  obtain ⟨l, hentry, hwrite, foreign⟩ := hf
  have hplace := locateNew_of_entry w.written.sound hentry rfl
  obtain ⟨place, hlocation, hplace⟩ := w.written.locateNew_before ht hplace
  have N := w.nodes l
  rw [Tree.stored_of_file (node?_of_entry hentry)] at N
  rcases N.of_file with mine | ⟨g, hg, same, writes⟩
  · cases foreign.symm.trans mine
  obtain ⟨a, ha, rfl⟩ := Tree.exists_node?_of_stored hg
  have shows := Tree.shows_of_locate hplace
  cases place with
  | vacant k =>
    obtain rfl : k = l := hlocation
    cases shows.symm.trans ha
  | entry k n =>
    obtain rfl : k = l := hlocation
    obtain rfl := Option.some.inj (shows.symm.trans ha)
    have hentry' := entry_of_locate (Tree.locate_of_create hplace)
    exact ⟨a, k, hentry', writes hwrite, same.trans foreign⟩

/-- What a host develops into while files are written under some paths. -/
structure Develops (P : Path → Prop) (h h' : Host) : Prop where
  /-- The tree stays coherent. -/
  coherent : h'.tree.Coherent
  /-- Files have been written. -/
  becomes : h.Becomes h'
  /-- What none of the paths leads to is as it was. -/
  elsewhere : ∀ k, (∀ q, P q → h.Misses q k) → h'.tree.stored k = h.tree.stored k

namespace Develops

theorem refl (ht : h.tree.Coherent) : h.Develops P h :=
  ⟨ht, .refl ht.toSound, fun _ _ ↦ rfl⟩

theorem mono (w : h.Develops P h') (hPQ : ∀ q, P q → Q q) : h.Develops Q h' :=
  ⟨w.coherent, w.becomes, fun k hk ↦ w.elsewhere k fun q hq ↦ hk q (hPQ q hq)⟩

theorem trans (w : h.Develops P h') (w' : h'.Develops P h'') (ht : h.tree.Sound) :
    h.Develops P h'' where
  coherent := w'.coherent
  becomes := w.becomes.trans w'.becomes
  elsewhere k hk := by
    have missed q hq := (hk q hq).after w.becomes.written ht w.becomes.names
    exact (w'.elsewhere k missed).trans (w.elsewhere k hk)

end Develops

/-- Overwriting what a path leads to develops a host. -/
theorem Overwrites.develops {place : Place} {c : Bytes} {m : Nat} (ht : h.tree.Coherent)
    (hplace : h.locateNew p = .ok place) (hopen : h.refusal? place.location b = none)
    (ow : h.Overwrites place.location c m h')
    (hwrite : ((h.tree.fileAt place.location).having c m).allows .write = true) (hp : P p) :
    h.Develops P h' where
  coherent := ow.coherent ht
  becomes := ow.becomes ht hopen hwrite
  elsewhere _ hk := Tree.stored_of_shape_eq ((hk p hp).shape_eq hplace ow.change)

theorem develops_write (ht : h.tree.Coherent) (hh : h.write p b = .ok h') (hp : P p) :
    h.Develops P h' := by
  have hr := attempts_write ht p b
  rw [hh] at hr
  cases hr with
  | written hplace hopen ow => exact ow.develops ht hplace hopen (allows_write_having hopen b) hp

/-- What has been written may be appended to. -/
theorem exists_appendTarget_of_write (ht : h.tree.Coherent) (hh : h.write p b = .ok h') :
    ∃ l, h'.appendTarget p = .ok l := by
  have becomes := (develops_write ht hh (P := fun _ ↦ True) trivial).becomes
  have hr := attempts_write ht p b
  rw [hh] at hr
  cases hr with
  | @written place _ hplace hopen ow =>
    have shows := Tree.shows_of_locate hplace
    cases place with
    | entry l n =>
      have hentry := entry_of_locate (Tree.locate_of_create hplace)
      exact ⟨l, becomes.appendTarget ht.toSound (appendTarget_eq_ok.mpr ⟨n, hentry, refusal?_nil hopen⟩)⟩
    | vacant l =>
      have there := ow.shown l (Tree.shares_self_of_free (Tree.stored_eq_none.mpr shows))
      obtain ⟨f, hf, -⟩ := Tree.exists_node?_of_stored there
      refine ⟨l, appendTarget_eq_ok.mpr ⟨_, entry_of_locateNew ht.toSound becomes.written.sound
        becomes.written.ways.forth becomes.written.cwd_eq hplace hf, ?_⟩⟩
      rw [refusal?_of_file there]
      exact if_pos (allows_write_having hopen b)

theorem develops_append (ht : h.tree.Coherent) (hl : h.appendTarget p = .ok l)
    (hh : h.append l b = .ok h') (hp : P p) : h.Develops P h' := by
  obtain ⟨n, hentry, lead, there, hopen⟩ := exists_of_appendTarget ht.toSound hl
  exact (overwrites_append ht (by simp [there]) hh).develops ht
    (locateNew_of_entry ht.toSound hentry lead) hopen (allows_write_having hopen _) hp

theorem isForeign_fileAt (own : h.isOwn l = true) : (h.tree.fileAt l).isForeign = false := by
  rw [isOwn_eq_all_stored] at own
  rcases h.tree.stored_cases l with free | ⟨f, hf⟩ | ⟨n, hn, hother⟩
  · rw [Tree.fileAt_of_free free]
    rfl
  · rw [hf] at own
    rw [Tree.fileAt_of_stored hf]
    have mine : (!f.isForeign) = true := own
    simpa using mine
  · rw [Tree.fileAt_of_other hn hother]
    rfl

/-- A copy of a file that belongs to the user and may be written develops a host, also if it
fails. -/
theorem develops_copy (ht : h.tree.Coherent) (hl : h.appendTarget p = .ok l)
    (own : h.isOwn l = true) (hq : P q) : h.Develops P (h.copy p q).2 := by
  cases hsource : h.copySource p with
  | error e =>
    rw [copy, hsource]
    exact .refl ht
  | ok read =>
    obtain ⟨k, f⟩ := read
    obtain ⟨hentry, hread⟩ := copySource_eq_ok.mp hsource
    have hr := copies ht hentry hread q
    generalize h.copy p q = r at hr
    cases hr with
    | refused _ => exact .refl ht
    | withheld _ hr =>
      cases hr with
      | written hplace hopen ow => exact ow.develops ht hplace hopen (allows_write_having hopen []) hq
    | written mine hr =>
      cases hr with
      | @written place _ hplace hopen ow =>
        refine ow.develops ht hplace hopen ?_ hq
        obtain ⟨_, hentry', -, -, hopen'⟩ := exists_of_appendTarget ht.toSound hl
        obtain ⟨rfl, -⟩ := Prod.mk.inj (Except.ok.inj (hentry.symm.trans hentry'))
        have stored := Tree.stored_of_file (node?_of_entry hentry)
        have hwrite : f.stored.allows .write = true := by
          by_contra hclosed
          rw [refusal?_of_file stored, if_neg hclosed] at hopen'
          cases hopen'
        rw [withholds_iff ht.toSound hplace (refusal?_nil hopen), Bool.not_eq_false] at mine
        have source := isForeign_fileAt own
        rw [Tree.fileAt_of_stored stored] at source
        rw [← hwrite]
        refine File.allows_congr ?_ ?_ _
        · rfl
        · rw [source, File.isForeign_having, isForeign_fileAt mine]

end Host

/-! ## Two hosts on the same way -/

/-- What is stored in the end, on the first host and on the second one: the second has, in each
respect, what the first has or what there is in the end. -/
inductive Node.Follows : Option Node → Option Node → Option Node → Prop
  /-- The first host has nothing yet. -/
  | free (n : Option Node) : Follows n none n
  /-- There is a file. -/
  | file {f : File} {c c' : Bytes} {m m' : Nat} (hc : c' = f.content ∨ c' = c)
      (hm : m' = f.mode ∨ m' = m) :
      Follows (some (.file (f.having c m))) (some (.file f)) (some (.file (f.having c' m')))
  /-- There is something else. -/
  | other {n : Node} (hn : n.fileId? = none) : Follows (some n) (some n) (some n)

namespace Node.Follows

variable {g f a : Option Node}

/-- What has become of something is on its way. -/
theorem of_becomes {next : Nat} (w : Node.Becomes next f g) : Follows g f g := by
  cases w with
  | same =>
    rcases g with _ | n
    · exact .free none
    · cases n with
      | file f => exact .file (f := f) (.inl rfl) (.inl rfl)
      | _ => exact .other rfl
  | made _ _ _ => exact .free _
  | rewritten _ _ => exact .file (.inr rfl) (.inr rfl)

/-- Once the first has come to its end, the second has it. -/
theorem eq_of_end (F : Follows g f a) (hg : g = f) : a = f := by
  cases F with
  | free => exact hg
  | @file f c c' m m' hc hm =>
    have same := Node.file.inj (Option.some.inj hg)
    have content : c = f.content := congrArg (·.content) same
    have mode : m = f.mode := congrArg (·.mode) same
    have hc : c' = f.content := hc.elim id (·.trans content)
    have hm : m' = f.mode := hm.elim id (·.trans mode)
    rw [hc, hm, File.having_self]
  | other _ => rfl

/-- Where the first has nothing, the second has what there is in the end. -/
theorem of_free (F : Follows g none a) : a = g := by
  cases F
  rfl

/-- Where the first has something, the second has something. -/
theorem exists_of_some {n : Node} (F : Follows g (some n) a) : ∃ n', a = some n' := by
  cases F with
  | file _ _ => exact ⟨_, rfl⟩
  | other _ => exact ⟨_, rfl⟩

/-- Where the first has no file but something else, so has the second. -/
theorem of_other {n : Node} (F : Follows g (some n) a) (hn : n.fileId? = none) : a = some n := by
  cases F with
  | file _ _ => cases hn
  | other _ => rfl

/-- Where the first has a file, the second has it. -/
theorem of_file {f : File} (F : Follows g (some (.file f)) a) :
    ∃ c m c' m', g = some (.file (f.having c m)) ∧ a = some (.file (f.having c' m')) ∧
      (c' = f.content ∨ c' = c) ∧ (m' = f.mode ∨ m' = m) := by
  cases F with
  | file hc hm => exact ⟨_, _, _, _, rfl, rfl, hc, hm⟩
  | other hn => cases hn

theorem fileId?_eq (F : Follows g f a) : a.bind Node.fileId? = g.bind Node.fileId? := by
  cases F <;> rfl

end Node.Follows

namespace Host

variable {e s s' t t' : Host} {l k : Location} {p : Path} {b c : Bytes} {m m' : Nat} {f : File}
  {n : Node} {place : Place}

/-- Whether the file that is written under a path holds the same bytes on two hosts. -/
def Agrees (s s' : Host) (p : Path) : Prop :=
  ∀ place, s.locateNew p = .ok place →
    s'.tree.content? place.location = s.tree.content? place.location

/-- Whether what holds the same bytes on two hosts does so after both have changed. -/
def Alter (s s' t t' : Host) : Prop :=
  ∀ k, s'.tree.content? k = s.tree.content? k → t'.tree.content? k = t.tree.content? k

/-- A file that holds the same bytes on both hosts does so while files are written to both. -/
theorem Agrees.alter (hp : s.Agrees s' p) (hs : s.tree.Sound) (w : s.Written t)
    (change : s.Alter s' t t') : t.Agrees t' p := by
  intro place hplace
  obtain ⟨place₀, hlocation, hplace₀⟩ := w.locateNew_before hs hplace
  rw [← hlocation]
  exact change _ (hp _ hplace₀)

/-- The second host holds what the first one holds, or what there is in the end. -/
structure Follows (e s s' : Host) : Prop where
  /-- The second tree is coherent. -/
  coherent : s'.tree.Coherent
  /-- The process is in the same directory. -/
  cwd_eq : s'.cwd = s.cwd
  /-- So it is at every location. -/
  nodes : ∀ k, Node.Follows (e.tree.stored k) (s.tree.stored k) (s'.tree.stored k)

/-- The host that something becomes in the end is on the way. -/
theorem Becomes.follows (w : s.Becomes e) (he : e.tree.Coherent) : e.Follows s e :=
  ⟨he, w.written.cwd_eq, fun k ↦ .of_becomes (w.nodes k)⟩

namespace Follows

variable (F : e.Follows s s') (w : s.Becomes e)

include F

/-- Once the first host has come to its end, the second one is like it. -/
theorem alike (hs : s.tree.Sound) (hend : e = s) : s.Alike s' where
  sound := hs
  sound' := F.coherent.toSound
  tree k := (F.nodes k).eq_of_end (by rw [hend])
  cwd_eq := F.cwd_eq

/-- A file has the name that it has in the end. -/
theorem fileId?_eq (k : Location) : s'.tree.fileId? k = e.tree.fileId? k := by
  rw [Tree.fileId?_eq_bind_stored, (F.nodes k).fileId?_eq, ← Tree.fileId?_eq_bind_stored]

/-- What is a name of a file on the first host is one on the second. -/
theorem fileId?_of_some {id : Nat} (hk : s.tree.fileId? k = some id) :
    s'.tree.fileId? k = some id := by
  obtain ⟨f, hf, rfl⟩ := Tree.exists_stored_of_fileId? hk
  have N := F.nodes k
  rw [hf] at N
  obtain ⟨_, _, _, _, -, ha, -, -⟩ := N.of_file
  rw [Tree.fileId?_of_stored ha, File.id_having]

/-- The file that is written on the second host is the one that is written on the first, whatever it
holds. -/
theorem fileAt_eq (w' : t.Becomes e) (hk : s.tree.Shares l k)
    (hl : t.tree.stored l = some (.file ((s.tree.fileAt l).having c m))) :
    ∃ c₀ m₀, s'.tree.fileAt l = (s.tree.fileAt l).having c₀ m₀ := by
  have N := F.nodes l
  cases hs : s.tree.stored l with
  | none =>
    have W := w'.nodes l
    rw [hl] at W
    rw [hs] at N
    obtain ⟨c₀, m₀, hg, -, -⟩ := W.file
    exact ⟨c₀, m₀, Tree.fileAt_of_stored (N.of_free.trans hg)⟩
  | some n =>
    obtain ⟨f, rfl⟩ := hk.1 n hs
    rw [hs] at N
    obtain ⟨_, _, c₀, m₀, -, ha, -, -⟩ := N.of_file
    rw [Tree.fileAt_of_stored hs]
    exact ⟨c₀, m₀, Tree.fileAt_of_stored ha⟩

/-- The file that is written on the second host has the permissions that it has on the first, or in
the end. -/
theorem mode_fileAt (l : Location) : (s'.tree.fileAt l).mode = (s.tree.fileAt l).mode ∨
    ∃ g, e.tree.stored l = some (.file g) ∧ (s'.tree.fileAt l).mode = g.mode := by
  have N := F.nodes l
  rcases s.tree.stored_cases l with free | ⟨f, hf⟩ | ⟨n, hn, hother⟩
  · rw [free] at N
    rcases s'.tree.stored_cases l with free' | ⟨f', hf'⟩ | ⟨n', hn', hother'⟩
    · rw [Tree.fileAt_of_free free, Tree.fileAt_of_free free', mode_newFile, mode_newFile]
      exact .inl rfl
    · exact .inr ⟨f', N.of_free ▸ hf', by rw [Tree.fileAt_of_stored hf']⟩
    · rw [Tree.fileAt_of_free free, Tree.fileAt_of_other hn' hother', mode_newFile, mode_newFile]
      exact .inl rfl
  · rw [hf] at N
    obtain ⟨c, m, c', m', hg, ha, -, hm⟩ := N.of_file
    rw [Tree.fileAt_of_stored hf, Tree.fileAt_of_stored ha]
    exact hm.imp_right fun hm ↦ ⟨_, hg, hm⟩
  · rw [hn] at N
    rw [Tree.fileAt_of_other hn hother, Tree.fileAt_of_other (N.of_other hother) hother, mode_newFile,
      mode_newFile]
    exact .inl rfl

include w

/-- Directories and links are the same. -/
theorem stored_of_leads (hk : s.tree.leads k = true ∨ s'.tree.leads k = true) :
    s'.tree.stored k = s.tree.stored k := by
  have N := F.nodes k
  have W := w.nodes k
  rw [Tree.leads_eq_any_stored, Tree.leads_eq_any_stored] at hk
  revert N W hk
  generalize e.tree.stored k = g
  generalize s.tree.stored k = f
  generalize s'.tree.stored k = a
  intro hk N W
  cases N with
  | free =>
    cases W with
    | same => rfl
    | made _ _ _ => simp [Node.leads] at hk
  | file _ _ => simp [Node.leads] at hk
  | other _ => rfl

theorem sameWays : s.tree.SameWays s'.tree where
  forth _ hk := Tree.shape_of_stored_eq (F.stored_of_leads w (.inl hk)) hk
  back _ hk := Tree.shape_of_stored_eq (F.stored_of_leads w (.inr hk)).symm hk

theorem leads_eq (k : Location) : s'.tree.leads k = s.tree.leads k := (F.sameWays w).leads_eq k

/-- What is written shows at the same locations on both hosts. -/
theorem shares_iff : s'.tree.Shares l k ↔ s.tree.Shares l k := by
  have N := F.nodes l
  constructor
  · rintro ⟨takes, names⟩
    refine ⟨fun n hn ↦ ?_, ?_⟩
    · rw [hn] at N
      cases n with
      | file f => exact ⟨f, rfl⟩
      | _ => exact takes _ (N.of_other rfl)
    · by_cases hne : k = l
      · exact .inl hne
      · obtain ⟨id, hid, hid'⟩ := names.resolve_left hne
        rw [F.fileId?_eq] at hid hid'
        obtain ⟨there, here⟩ := w.names k l id hne hid' hid
        exact .inr ⟨id, here, there⟩
  · rintro ⟨takes, names⟩
    refine ⟨fun n hn ↦ ?_, names.imp_right <| .imp fun id ids ↦
      ⟨F.fileId?_of_some ids.1, F.fileId?_of_some ids.2⟩⟩
    rw [hn] at N
    cases hl : s.tree.stored l with
    | none =>
      have W := w.nodes l
      rw [hl] at N W
      rw [← N.of_free] at W
      cases W
      exact ⟨_, rfl⟩
    | some n' =>
      obtain ⟨f, rfl⟩ := takes n' hl
      rw [hl] at N
      obtain ⟨_, _, _, _, -, ha, -, -⟩ := N.of_file
      exact ⟨_, Option.some.inj ha⟩

/-- What refuses to be written is the same on both. -/
theorem stored_of_refusal? (hb : s.refusal? l b ≠ none) : s'.tree.stored l = s.tree.stored l := by
  have N := F.nodes l
  have W := w.nodes l
  rcases s.tree.stored_cases l with free | ⟨f, hf⟩ | ⟨n, hn, hother⟩
  · rw [free] at N ⊢
    rw [N.of_free]
    by_contra hnew
    rw [refusal?_of_free free, if_pos (w.room _ free hnew)] at hb
    exact hb rfl
  · have closed : f.allows .write = false := by
      by_contra hwrite
      rw [refusal?_of_file hf, if_pos (by simpa using hwrite)] at hb
      exact hb rfl
    rw [hf] at N W
    obtain ⟨c, m, hg, -, kept⟩ := W.file
    obtain ⟨rfl, rfl⟩ := kept closed
    exact (N.eq_of_end hg).trans hf.symm
  · rw [hn] at N ⊢
    exact N.of_other hother

/-- Where both hosts store the same, they refuse the same. -/
theorem refusal?_of_same (hroom : s.tree.stored l = none → s.tree.leads l.dropLast = true)
    (same : s'.tree.stored l = s.tree.stored l) (b : Bytes) :
    s'.refusal? l b = s.refusal? l b :=
  refusal?_of_keepsWays (F.sameWays w).forth hroom same b

/-- What takes some bytes on the first host takes them on the second. -/
theorem refusal?_eq_none (hroom : s.tree.stored l = none → s.tree.leads l.dropLast = true)
    (hb : s.refusal? l b = none) : s'.refusal? l b = none := by
  have N := F.nodes l
  have W := w.nodes l
  rcases s.tree.stored_cases l with free | ⟨f, hf⟩ | ⟨n, hn, hother⟩
  · rw [free] at N W
    rw [← N.of_free] at W
    cases hnew : s'.tree.stored l with
    | none => rw [F.refusal?_of_same w hroom (hnew.trans free.symm), hb]
    | some n =>
      rw [hnew] at W
      cases W with
      | made _ _ hwrite => rw [refusal?_of_file hnew, if_pos hwrite]
  · rw [hf] at N W
    rw [refusal?_of_file hf] at hb
    have hopen : f.allows .write = true := by
      by_contra hclosed
      rw [if_neg hclosed] at hb
      cases hb
    obtain ⟨c, m, hg, hwrite, -⟩ := W.file
    obtain ⟨c₀, m₀, c', m', hg', ha, -, hm⟩ := N.of_file
    have mode : m₀ = m := congrArg (·.mode) (Node.file.inj (Option.some.inj (hg'.symm.trans hg)))
    rw [refusal?_of_file ha, if_pos]
    rcases hm with rfl | rfl
    · exact hopen
    · rw [mode]
      exact hwrite.trans hopen
  · rw [hn] at N
    rw [F.refusal?_of_same w hroom ((N.of_other hother).trans hn.symm), hb]

/-- A path under which a file can be written leads to the same place on both hosts. -/
theorem exists_locateNew (hs : s.tree.Sound) (hp : s.locateNew p = .ok place) :
    ∃ place', place'.location = place.location ∧ s'.locateNew p = .ok place' :=
  exists_locateNew_of_keepsWays hs F.coherent.toSound (F.sameWays w).forth F.cwd_eq hp
    fun hend ↦ (F.leads_eq w _).trans hend

theorem exists_locateNew_before (hs : s.tree.Sound) (hp : s'.locateNew p = .ok place) :
    ∃ place', place'.location = place.location ∧ s.locateNew p = .ok place' :=
  exists_locateNew_of_keepsWays F.coherent.toSound hs (F.sameWays w).back F.cwd_eq.symm hp
    fun hend ↦ (F.leads_eq w _).symm.trans hend

variable (ow : s.Overwrites l c m t) (ow' : s'.Overwrites l c m' t')

include ow ow'

/-- What holds the same bytes on both hosts does so after both have been written. -/
theorem alter : s.Alter s' t t' := by
  intro k hk
  by_cases shares : s.tree.Shares l k
  · rw [Tree.content?_of_stored (ow.shown k shares),
      Tree.content?_of_stored (ow'.shown k ((F.shares_iff w).mpr shares))]
    rfl
  · rw [Tree.content?_of_stored_eq (ow'.kept k (mt (F.shares_iff w).mp shares)), hk,
      Tree.content?_of_stored_eq (ow.kept k shares)]

/-- What has been written holds the same bytes on both hosts. -/
theorem content?_eq_at : t'.tree.content? l = t.tree.content? l := by
  by_cases shares : s.tree.Shares l l
  · rw [Tree.content?_of_stored (ow.shown l shares),
      Tree.content?_of_stored (ow'.shown l ((F.shares_iff w).mpr shares))]
    rfl
  · refine F.alter w ow ow' l ?_
    rcases s.tree.stored_cases l with hl | ⟨f, hl⟩ | ⟨n, hl, hn⟩
    · exact absurd (Tree.shares_self_of_free hl) shares
    · exact absurd (Tree.shares_of_stored hl hl rfl) shares
    · have N := F.nodes l
      rw [hl] at N
      exact Tree.content?_of_stored_eq ((N.of_other hn).trans hl.symm)

/-- The second host keeps following the first when the same bytes are written to both. -/
theorem overwrites (he : e.tree.Coherent) (w' : t.Becomes e)
    (hm : m' = m ∨ ∃ g, e.tree.stored l = some (.file g) ∧ m' = g.mode) : e.Follows t t' where
  coherent := ow'.coherent F.coherent
  cwd_eq := by rw [ow'.change.cwd_eq, ow.change.cwd_eq, F.cwd_eq]
  nodes k := by
    by_cases shares : s.tree.Shares l k
    · have here := ow.shown l ⟨shares.1, .inl rfl⟩
      have there := ow.shown k shares
      have W := w'.nodes l
      have W' := w'.nodes k
      rw [here] at W
      rw [there] at W'
      obtain ⟨_, _, hl, -, -⟩ := W.file
      obtain ⟨c₁, m₁, hk, -, -⟩ := W'.file
      obtain ⟨c₀, m₀, hfile⟩ := F.fileAt_eq w' shares here
      rw [hk, there, ow'.shown k ((F.shares_iff w).mpr shares), hfile]
      refine .file (f := (s.tree.fileAt l).having c m) (.inl rfl) (hm.imp_right ?_)
      rintro ⟨g, hg, rfl⟩
      have hid : g.id = (s.tree.fileAt l).id :=
        congrArg (·.id) (Node.file.inj (Option.some.inj (hg.symm.trans hl)))
      obtain rfl := he.one hg hk hid
      rfl
    · rw [ow.kept k shares, ow'.kept k (mt (F.shares_iff w).mp shares)]
      exact F.nodes k

omit ow ow'

variable {b b' : Location → Bytes} {m m' : Location → Nat} {r : Except IoError Host}

/-- What is written on the first host is written on the second. -/
theorem attempts (hs : s.tree.Coherent) (he : e.tree.Coherent) (w' : t.Becomes e)
    (hr : s.Attempts p b m (.ok t)) (hr' : s'.Attempts p b' m' r) (hb : ∀ l, b' l = b l)
    (hm : ∀ l, m' l = m l ∨ ∃ g, e.tree.stored l = some (.file g) ∧ m' l = g.mode) :
    ∃ t', r = .ok t' ∧ e.Follows t t' ∧ s.Alter s' t t' ∧ t.Agrees t' p := by
  cases hr with
  | @written place _ hplace hopen ow =>
  obtain ⟨place', hlocation, hplace'⟩ := F.exists_locateNew w hs.toSound hplace
  have hopen' := F.refusal?_eq_none w (leads_dropLast_of_locateNew hs.toSound hplace) hopen
  rw [← hb, ← hlocation] at hopen'
  cases hr' with
  | lost hp => cases hp.symm.trans hplace'
  | refused hp hrefused =>
    obtain rfl := Except.ok.inj (hp.symm.trans hplace')
    cases hrefused.symm.trans hopen'
  | @written _ t' hp _ ow' =>
    obtain rfl := Except.ok.inj (hp.symm.trans hplace')
    rw [hlocation] at ow'
    rw [hb] at ow'
    refine ⟨t', rfl, F.overwrites w ow ow' he w' (hm _), F.alter w ow ow', fun q hq ↦ ?_⟩
    obtain ⟨q', hlocation, hq'⟩ := ow.change.written.locateNew_before hs.toSound hq
    obtain rfl := Except.ok.inj (hplace.symm.trans hq')
    rw [← hlocation]
    exact F.content?_eq_at w ow ow'

/-- What is not written on the first host is not written on the second. -/
theorem attempts_error {x : IoError} (hs : s.tree.Sound) (hr : s.Attempts p b m (.error x))
    (hr' : s'.Attempts p b' m' r) (hb : ∀ l, b' l = b l) :
    (∃ y, r = .error y) ∧ s.Agrees s' p := by
  cases hr with
  | lost hp =>
    refine ⟨?_, fun q hq ↦ by cases hp.symm.trans hq⟩
    have lost {place' : Place} (hp' : s'.locateNew p = .ok place') : False := by
      obtain ⟨q, -, hq⟩ := F.exists_locateNew_before w hs hp'
      cases hp.symm.trans hq
    cases hr' with
    | lost _ => exact ⟨_, rfl⟩
    | refused hp' _ => exact (lost hp').elim
    | written hp' _ _ => exact (lost hp').elim
  | @refused place _ hp hrefused =>
    have same := F.stored_of_refusal? w (l := place.location) (b := b place.location) (by
      rw [hrefused]
      exact Option.some_ne_none _)
    obtain ⟨place', hlocation, hplace'⟩ := F.exists_locateNew w hs hp
    have hrefused' := (F.refusal?_of_same w (leads_dropLast_of_locateNew hs hp) same _).trans hrefused
    rw [← hlocation, ← hb] at hrefused'
    refine ⟨?_, fun q hq ↦ ?_⟩
    · cases hr' with
      | lost _ => exact ⟨_, rfl⟩
      | refused _ _ => exact ⟨_, rfl⟩
      | written hp' htaken _ =>
        obtain rfl := Except.ok.inj (hp'.symm.trans hplace')
        cases htaken.symm.trans hrefused'
    · obtain rfl := Except.ok.inj (hp.symm.trans hq)
      exact Tree.content?_of_stored_eq same

/-- What is written under a path on the first host is written on the second. -/
theorem write {c : Bytes} (hs : s.tree.Coherent) (he : e.tree.Coherent) (w' : t.Becomes e)
    (hwrite : s.write p c = .ok t) :
    ∃ t', s'.write p c = .ok t' ∧ e.Follows t t' ∧ s.Alter s' t t' ∧ t.Agrees t' p := by
  have hr := attempts_write hs p c
  rw [hwrite] at hr
  exact F.attempts w hs he w' hr (attempts_write F.coherent p c) (fun _ ↦ rfl) F.mode_fileAt

/-- A path leads to a file with the same bytes on both hosts if the file that is written under it
holds the same on both. -/
theorem content?_eq (hs : s.tree.Sound) (hp : s.Agrees s' p) : s'.content? p = s.content? p := by
  refine Option.ext fun c ↦ ?_
  rw [content?_eq_some F.coherent.toSound, content?_eq_some hs]
  constructor
  · rintro ⟨place', hplace', hc⟩
    obtain ⟨place, hlocation, hplace⟩ := F.exists_locateNew_before w hs hplace'
    exact ⟨place, hplace, by rw [← hp place hplace, hlocation, hc]⟩
  · rintro ⟨place, hplace, hc⟩
    obtain ⟨place', hlocation, hplace'⟩ := F.exists_locateNew w hs hplace
    exact ⟨place', hplace', by rw [hlocation, hp place hplace, hc]⟩

/-- A path that leads to an entry on the first host leads there on the second. -/
theorem exists_entry (hs : s.tree.Sound) (hentry : s.entry p = .ok (l, n)) :
    ∃ n', s'.entry p = .ok (l, n') ∧ n'.leads = n.leads := by
  have here := node?_of_entry hentry
  have same := F.leads_eq w l
  obtain ⟨n', hn', hentry'⟩ := exists_entry_of_keepsWays hs F.coherent.toSound
    (F.sameWays w).forth F.cwd_eq hentry fun hlead ↦ by
      have N := F.nodes l
      rw [Tree.stored_of_node? here] at N
      obtain ⟨_, hstored⟩ := N.exists_of_some
      obtain ⟨n', hn', -⟩ := Option.map_eq_some_iff.mp hstored
      exact ⟨n', hn', by simpa [Tree.leads, hn', here, hlead] using same⟩
  exact ⟨n', hentry', by simpa [Tree.leads, hn', here] using same⟩

theorem pathExists (hs : s.tree.Sound) (hp : s.pathExists p = true) : s'.pathExists p = true := by
  unfold Host.pathExists at hp ⊢
  cases hentry : s.entry p with
  | error x =>
    rw [hentry] at hp
    cases hp
  | ok a =>
    obtain ⟨n', hentry', -⟩ := F.exists_entry w hs (l := a.1) (n := a.2) hentry
    rw [hentry']
    rfl

/-- What stands at the same place on both hosts is led to on the first if it is on the second. -/
theorem entry_before {n' : Node} (hs : s.tree.Sound) (hentry : s'.entry p = .ok (l, n'))
    (hn : s.tree.node? l = some n) (hlead : n.leads = false) : s.entry p = .ok (l, n) :=
  entry_of_keepsWays F.coherent.toSound hs (F.sameWays w).back F.cwd_eq.symm hentry hn hlead

/-- Two paths lead to the same entry on both hosts if the first one leads to what leads nowhere. -/
theorem sameEntry_eq {q : Path} (hs : s.tree.Sound) (hentry : s.entry p = .ok (l, n))
    (hn : n.leads = false) : s'.sameEntry p q = s.sameEntry p q := by
  obtain ⟨n', hentry', -⟩ := F.exists_entry w hs hentry
  rw [Bool.eq_iff_iff, sameEntry_iff hentry', sameEntry_iff hentry]
  constructor
  · rintro ⟨a, ha⟩
    exact ⟨n, F.entry_before w hs ha (node?_of_entry hentry) hn⟩
  · rintro ⟨a, ha⟩
    obtain rfl := Option.some.inj ((node?_of_entry ha).symm.trans (node?_of_entry hentry))
    obtain ⟨a', ha', -⟩ := F.exists_entry w hs ha
    exact ⟨a', ha'⟩

/-- What is not written any more is read alike on both hosts. -/
theorem read {c : Bytes} (hs : s.tree.Sound) (hread : s.read p = .ok c)
    (hsame : ∀ place, s.locateNew p = .ok place →
      e.tree.stored place.location = s.tree.stored place.location) : s'.read p = .ok c := by
  obtain ⟨⟨l, n⟩, hentry, hr⟩ := exists_of_bind_eq_ok hread
  have lead : n.leads = false := by
    cases n with
    | directory d =>
      obtain ⟨x, hpermitted, hr⟩ := exists_of_bind_eq_ok hr
      unfold permitted at hpermitted
      split at hpermitted
      · obtain rfl := Except.ok.inj hpermitted
        cases hr
      · cases hpermitted
    | link a => exact absurd rfl (entry_ne_link hs hentry a)
    | _ => rfl
  obtain ⟨n', hentry', -⟩ := F.exists_entry w hs hentry
  have same := (F.nodes l).eq_of_end (hsame _ (locateNew_of_entry hs hentry lead))
  rw [Tree.stored_of_node? (node?_of_entry hentry),
    Tree.stored_of_node? (node?_of_entry hentry')] at same
  rw [read_congr hentry hentry' (Option.some.inj same), hread]

/-- What may be appended to on the first host may be appended to on the second. -/
theorem appendTarget (hs : s.tree.Sound) (hp : s.appendTarget p = .ok l) :
    s'.appendTarget p = .ok l := by
  obtain ⟨n, hentry, lead, there, hopen⟩ := exists_of_appendTarget hs hp
  obtain ⟨n', hentry', -⟩ := F.exists_entry w hs hentry
  have hroom (free : s.tree.stored l = none) : s.tree.leads l.dropLast = true := by
    cases there.symm.trans free
  exact appendTarget_eq_ok.mpr ⟨n', hentry', F.refusal?_eq_none w hroom hopen⟩

/-- What is appended on the first host is appended on the second. -/
theorem append {c : Bytes} (hs : s.tree.Coherent) (he : e.tree.Coherent) (w' : t.Becomes e)
    (hl : s.tree.stored l ≠ none) (hopen : s.refusal? l [] = none)
    (hcontent : s'.tree.content? l = s.tree.content? l) (happend : s.append l c = .ok t) :
    ∃ t', s'.append l c = .ok t' ∧ e.Follows t t' ∧ s.Alter s' t t' ∧
      t'.tree.content? l = t.tree.content? l := by
  have hroom (free : s.tree.stored l = none) : s.tree.leads l.dropLast = true := absurd free hl
  have hl' : s'.tree.stored l ≠ none := by
    obtain ⟨n, hn⟩ := Option.ne_none_iff_exists'.mp hl
    have N := F.nodes l
    rw [hn] at N
    obtain ⟨n', hn'⟩ := N.exists_of_some
    simp [hn']
  have hopen' := F.refusal?_eq_none w hroom hopen
  obtain ⟨t', happend'⟩ : ∃ t', s'.append l c = .ok t' := by
    rcases (Overwrites.refl hs hl).cases_append hopen c with ⟨x, -, hfails⟩ | ⟨htakes, -⟩
    · cases hfails.symm.trans happend
    have htakes' := F.refusal?_eq_none w hroom htakes
    rcases (Overwrites.refl F.coherent hl').cases_append hopen' c with ⟨x, hrefused, -⟩ | ⟨-, h⟩
    · cases hrefused.symm.trans htakes'
    · exact h
  have ow := overwrites_append hs hl happend
  have ow' := overwrites_append F.coherent hl' happend'
  have same : (s'.tree.fileAt l).content = (s.tree.fileAt l).content := by
    rw [Tree.content_fileAt, Tree.content_fileAt, hcontent]
  rw [same] at ow'
  exact ⟨t', happend', F.overwrites w ow ow' he w' (F.mode_fileAt l), F.alter w ow ow',
    F.content?_eq_at w ow ow'⟩

/-- What belongs to the user does so on both hosts. -/
theorem isOwn_eq (l : Location) : s'.isOwn l = s.isOwn l := by
  rw [isOwn_eq_all_stored, isOwn_eq_all_stored]
  have N := F.nodes l
  have W := w.nodes l
  rcases s.tree.stored_cases l with free | ⟨f, hf⟩ | ⟨n, hn, hother⟩
  · rw [free] at N W
    rw [← N.of_free] at W
    rw [free]
    generalize s'.tree.stored l = n at W
    cases W with
    | same => rfl
    | @made f _ mine _ =>
      change (!f.isForeign) = true
      rw [mine, Bool.not_false]
  · rw [hf] at N
    obtain ⟨_, _, _, _, -, ha, -, -⟩ := N.of_file
    rw [hf, ha]
    rfl
  · rw [hn] at N
    rw [hn, N.of_other hother]

theorem withholds_iff (hs : s.tree.Sound) (hr : s.Attempts p b m (.ok t)) :
    (∃ f, s'.Withholds p f) ↔ ∃ f, s.Withholds p f := by
  cases hr with
  | @written place _ hplace hopen _ =>
    have hopen := refusal?_nil hopen
    obtain ⟨place', hlocation, hplace'⟩ := F.exists_locateNew w hs hplace
    have hopen' := F.refusal?_eq_none w (leads_dropLast_of_locateNew hs hplace) hopen
    rw [Host.withholds_iff hs hplace hopen,
      Host.withholds_iff F.coherent.toSound hplace' (hlocation ▸ hopen'), hlocation, F.isOwn_eq w]

/-- The source of a copy is the same on both hosts, if it holds the same and keeps its permissions. -/
theorem exists_source {f : File} (hs : s.tree.Sound) (hentry : s.entry p = .ok (k, .file f))
    (hend : e.tree.stored k = some (.file (f.stored.having c f.mode))) (hp : s.Agrees s' p) :
    ∃ f', s'.entry p = .ok (k, .file f') ∧ f'.stored = f.stored := by
  have here := Tree.stored_of_file (node?_of_entry hentry)
  have there : s'.tree.stored k = some (.file f.stored) := by
    have N := F.nodes k
    rw [here, hend] at N
    obtain ⟨_, m₁, c', m', hg, ha, -, hm⟩ := N.of_file
    have mode : m₁ = f.mode := (congrArg (·.mode) (Node.file.inj (Option.some.inj hg))).symm
    have content := hp _ (locateNew_of_entry hs hentry rfl)
    rw [Place.location, Tree.content?_of_stored here, Tree.content?_of_stored ha] at content
    obtain rfl : c' = f.content := Option.some.inj content
    obtain rfl : m' = f.mode := hm.elim id (·.trans mode)
    exact ha
  obtain ⟨n', hentry', -⟩ := F.exists_entry w hs hentry
  obtain ⟨f', hf', same⟩ := Tree.exists_node?_of_stored there
  obtain rfl := Option.some.inj (hf'.symm.trans (node?_of_entry hentry'))
  exact ⟨f', hentry', same⟩

/-- The destination of a copy is the source itself on both hosts or on neither. -/
theorem copied_eq {f f' : File} (hk : s.tree.fileId? k = some f.id)
    (hend : e.tree.fileId? k = some f.id) (same : f'.stored = f.stored) (l : Location) :
    s'.copied f' l = s.copied f l := by
  have hid : f'.id = f.id := congrArg (·.id) same
  have content : f'.content = f.content := congrArg (·.content) same
  have names : s'.tree.fileId? l = some f.id ↔ s.tree.fileId? l = some f.id := by
    refine ⟨fun hl ↦ ?_, F.fileId?_of_some⟩
    by_cases hne : l = k
    · rwa [hne]
    · rw [F.fileId?_eq] at hl
      exact (w.names l k f.id hne hl hend).1
  simp only [copied, hid, content, names]

/-- The last copy on the first host is made on the second, if the source holds the same on both. -/
theorem copy {q : Path} {x : Except IoError Unit} (hs : s.tree.Coherent) (he : e.tree.Coherent)
    (hcopy : s.copy p q = (x, e)) (hp : s.Agrees s' p) :
    ∃ t', s'.copy p q = (x, t') ∧ e.Follows e t' := by
  cases hsource : s.copySource p with
  | error y =>
    rw [copy_of_error hsource] at hcopy
    obtain ⟨rfl, rfl⟩ := Prod.mk.inj hcopy
    exact ⟨s', copy_of_error ((F.alike hs.toSound rfl).copySource_error hsource) q, F⟩
  | ok read =>
    obtain ⟨k, f⟩ := read
    obtain ⟨hentry, hread⟩ := copySource_eq_ok.mp hsource
    have here := Tree.stored_of_file (node?_of_entry hentry)
    have hr := copies hs hentry hread q
    rw [hcopy] at hr
    obtain ⟨c, hend⟩ := hr.exists_source hs here rfl
    obtain ⟨f', hentry', same⟩ := F.exists_source w hs.toSound hentry hend hp
    have mode : f'.mode = f.mode := congrArg (·.mode) same
    have allows : f'.stored.allows .read = f.stored.allows .read :=
      congrArg (fun f : File ↦ f.allows .read) same
    have hr' := copies F.coherent hentry' (allows.trans hread) q
    generalize s'.copy p q = r at hr'
    cases hr with
    | refused hr => exact ⟨s', (F.alike hs.toSound rfl).eq_of_copies hr hr' same, F⟩
    | withheld foreign hr =>
      have foreign' := (F.withholds_iff w hs.toSound hr).mpr foreign
      cases hr' with
      | refused hr' => exact absurd foreign' (hr'.not_withholds F.coherent.toSound)
      | written own' _ => exact absurd foreign' own'
      | withheld _ hr' =>
        obtain ⟨t', ht', follows, -⟩ :=
          F.attempts w hs he (.refl he.toSound) hr hr' (fun _ ↦ rfl) F.mode_fileAt
        obtain rfl := Except.ok.inj ht'
        exact ⟨_, rfl, follows⟩
    | written own hr =>
      have own' := mt (F.withholds_iff w hs.toSound hr).mp own
      have id : e.tree.fileId? k = some f.id :=
        Tree.fileId?_of_stored (f := f.stored.having c f.mode) hend
      have copied := F.copied_eq w (Tree.fileId?_of_stored here) id same
      cases hr' with
      | refused hr' =>
        obtain ⟨t', ht', -⟩ := F.attempts w hs he (.refl he.toSound) hr hr' copied fun _ ↦ .inl mode
        cases ht'
      | withheld foreign _ => exact absurd foreign own'
      | written _ hr' =>
        obtain ⟨t', ht', follows, -⟩ :=
          F.attempts w hs he (.refl he.toSound) hr hr' copied fun _ ↦ .inl mode
        obtain rfl := Except.ok.inj ht'
        exact ⟨_, rfl, follows⟩

end Follows

end Host

end ContractBuild
