import ContractBuild.Proofs.FileSystem.Repetition

/-!
# What hosts keep and hold in common

Two hosts that come from one may change in different ways and still hold the same bytes at some
locations: each keeps what is stored there, or the same bytes are written to the same place on both.
What a path leads to is then the same on both as far as it leads to one of these locations.
-/

namespace ContractBuild

namespace Tree.Shares

variable {t : Tree} {j k l : Location}

theorem symm (hk : t.Shares l k) : t.Shares k l := by
  rcases hk with ⟨file, rfl | ⟨id, hid, hid'⟩⟩
  · exact ⟨file, .inl rfl⟩
  · refine ⟨fun n hn ↦ ?_, .inr ⟨id, hid', hid⟩⟩
    obtain ⟨f, hf, -⟩ := exists_stored_of_fileId? hid'
    exact ⟨f, Option.some.inj (hn.symm.trans hf)⟩

theorem trans (hj : t.Shares l j) (hk : t.Shares j k) : t.Shares l k := by
  rcases hj with ⟨file, rfl | ⟨id, hid, hid'⟩⟩
  · exact hk
  · refine ⟨file, .inr ⟨id, hid, ?_⟩⟩
    rcases hk.2 with rfl | ⟨id', hid'', hk'⟩
    · exact hid'
    · rw [hk', ← hid'', hid']

end Tree.Shares

/-- What stands at two locations decides whether they are names of one file. -/
theorem Tree.shares_iff_of_stored_eq {t t' : Tree} {l k : Location} (hl : t'.stored l = t.stored l)
    (hk : t'.stored k = t.stored k) : t'.Shares l k ↔ t.Shares l k := by
  rw [Tree.Shares, Tree.Shares, hl, Tree.fileId?_of_stored_eq hl, Tree.fileId?_of_stored_eq hk]

namespace Host

variable {h h' h'' t t' : Host} {p q : Path} {l k : Location} {c : Bytes} {m m' : Nat}
  {place : Place} {n : Node} {K : Location → Prop}

/-! ## What paths lead to -/

/-- The bytes in the file that a path leads to are those where it is written. -/
theorem content?_of_locateNew (ht : h.tree.Sound) (hp : h.locateNew p = .ok place) :
    h.content? p = h.tree.content? place.location := by
  refine Option.ext fun c ↦ ?_
  rw [content?_eq_some ht]
  constructor
  · rintro ⟨place', hp', hc⟩
    obtain rfl := Except.ok.inj (hp.symm.trans hp')
    exact hc
  · exact fun hc ↦ ⟨place, hp, hc⟩

/-- A path under which nothing can be written leads to no file. -/
theorem content?_of_lost (ht : h.tree.Sound) (lost : ∀ place, h.locateNew p ≠ .ok place) :
    h.content? p = none := by
  refine Option.eq_none_iff_forall_not_mem.mpr fun c hc ↦ ?_
  obtain ⟨place, hplace, -⟩ := (content?_eq_some ht).mp hc
  exact lost place hplace

/-- Whether any bytes can be written under a path. -/
def Takes (h : Host) (p : Path) : Prop := ∀ c, ∃ h', h.write p c = .ok h'

/-- What the place of a path does not refuse is written under the path. -/
theorem exists_write (ht : h.tree.Coherent) (hp : h.locateNew p = .ok place)
    (hopen : h.refusal? place.location c = none) : ∃ h', h.write p c = .ok h' ∧
      h.Overwrites place.location c (h.tree.fileAt place.location).mode h' := by
  have hr := attempts_write ht p c
  cases hh : h.write p c with
  | ok h' =>
    rw [hh] at hr
    cases hr with
    | written hp' _ ow =>
      obtain rfl := Except.ok.inj (hp.symm.trans hp')
      exact ⟨h', rfl, ow⟩
  | error e =>
    rw [hh] at hr
    cases hr with
    | lost hp' => cases hp.symm.trans hp'
    | refused hp' hrefused =>
      obtain rfl := Except.ok.inj (hp.symm.trans hp')
      cases hopen.symm.trans hrefused

theorem takes_iff (ht : h.tree.Coherent) : h.Takes p ↔
    ∃ place, h.locateNew p = .ok place ∧ ∀ c, h.refusal? place.location c = none := by
  constructor
  · intro takes
    have written (c : Bytes) :
        ∃ place, h.locateNew p = .ok place ∧ h.refusal? place.location c = none := by
      obtain ⟨h', hh⟩ := takes c
      have hr := attempts_write ht p c
      rw [hh] at hr
      cases hr with
      | written hp hopen ow => exact ⟨_, hp, hopen⟩
    obtain ⟨place, hp, -⟩ := written []
    refine ⟨place, hp, fun c ↦ ?_⟩
    obtain ⟨place', hp', hopen⟩ := written c
    obtain rfl := Except.ok.inj (hp.symm.trans hp')
    exact hopen
  · rintro ⟨place, hp, hopen⟩ c
    obtain ⟨h', hh, -⟩ := exists_write ht hp (hopen c)
    exact ⟨h', hh⟩

/-- What is written is put to the place that the path leads to. -/
theorem overwrites_of_write (ht : h.tree.Coherent) (hh : h.write p c = .ok h') :
    ∃ place, h.locateNew p = .ok place ∧ h.refusal? place.location c = none ∧
      h.Overwrites place.location c (h.tree.fileAt place.location).mode h' := by
  have hr := attempts_write ht p c
  rw [hh] at hr
  cases hr with
  | written hp hopen ow => exact ⟨_, hp, hopen, ow⟩

/-- What has been written can be written once more. -/
theorem takes_of_write (ht : h.tree.Coherent) (hh : h.write p c = .ok h')
    (self : ∀ place, h.locateNew p = .ok place → h.tree.Shares place.location place.location) :
    h'.Takes p := by
  obtain ⟨place, hp, hopen, ow⟩ := overwrites_of_write ht hh
  have coherent := ow.coherent ht
  have written := ow.change.written
  obtain ⟨place', same, hp'⟩ := exists_locateNew_of_keepsWays ht.toSound written.sound
    written.ways.forth written.cwd_eq hp fun hend ↦ (written.ways.leads_eq _).trans hend
  refine (takes_iff coherent).mpr ⟨place', hp', fun d ↦ ?_⟩
  rw [same, refusal?_of_file (ow.shown _ (self _ hp))]
  exact if_pos (allows_write_having hopen c)

/-! ## What is kept -/

/-- From one host to another, whatever leads on does so as it did, and at some locations nothing else
comes to do so. -/
structure Retains (K : Location → Prop) (h h' : Host) : Prop where
  /-- The tree is sound. -/
  sound : h'.tree.Sound
  /-- Directories and links are there. -/
  ways : h.tree.KeepsWays h'.tree
  /-- The process stays in its directory. -/
  cwd_eq : h'.cwd = h.cwd
  /-- None comes at the locations. -/
  ends : ∀ k, K k → h'.tree.leads k = h.tree.leads k

/-- From one host to another, some locations store what they stored besides. -/
structure KeepsAt (K : Location → Prop) (h h' : Host) : Prop extends Retains K h h' where
  /-- The locations store the same. -/
  stored : ∀ k, K k → h'.tree.stored k = h.tree.stored k

/-- Whether a path leads to one of some locations, or would do so if something stood there, or leads
to no file whatever comes elsewhere. -/
inductive AimsAt (K : Location → Prop) (h : Host) (p : Path) : Prop
  /-- A file can stand there. -/
  | place {place : Place} (hp : h.locateNew p = .ok place) (hK : K place.location)
  /-- Something stands there. -/
  | entry {k : Location} {n : Node} (he : h.entry p = .ok (k, n)) (hK : K k)
  /-- There is no file. -/
  | nowhere (none : ∀ h', h.KeepsAt K h' → h'.content? p = none)

namespace Retains

variable (r : h.Retains K h')

include r

/-- A path under which a file can be written there leads to the same place. -/
theorem locateNew (ht : h.tree.Sound) (hp : h.locateNew p = .ok place) (hK : K place.location) :
    ∃ place', place'.location = place.location ∧ h'.locateNew p = .ok place' :=
  exists_locateNew_of_keepsWays ht r.sound r.ways r.cwd_eq hp fun hend ↦ (r.ends _ hK).trans hend

/-- So it is when other locations have changed since, and ways that were not there at first. -/
theorem moved (ht : h''.tree.Sound) (ways : h.tree.KeepsWays h''.tree) (hcwd : h''.cwd = h'.cwd)
    (same : ∀ k, K k → h''.tree.stored k = h'.tree.stored k) : h.Retains K h'' where
  sound := ht
  ways := ways
  cwd_eq := hcwd.trans r.cwd_eq
  ends k hk := (Tree.leads_of_stored_eq (same k hk)).trans (r.ends k hk)

/-- So it is when a file has been written. -/
theorem written (w : h'.Written h'') : h.Retains K h'' where
  sound := w.sound
  ways := r.ways.trans w.ways.forth
  cwd_eq := w.cwd_eq.trans r.cwd_eq
  ends k hk := (w.ways.leads_eq k).trans (r.ends k hk)

end Retains

theorem keepsAt_of_stored (ht : h'.tree.Sound) (ways : h.tree.KeepsWays h'.tree)
    (hcwd : h'.cwd = h.cwd) (same : ∀ k, K k → h'.tree.stored k = h.tree.stored k) :
    h.KeepsAt K h' where
  sound := ht
  ways := ways
  cwd_eq := hcwd
  ends k hk := Tree.leads_of_stored_eq (same k hk)
  stored := same

namespace KeepsAt

/-- So do some of the locations. -/
theorem mono {K' : Location → Prop} (keeps : h.KeepsAt K h') (hK : ∀ k, K' k → K k) :
    h.KeepsAt K' h' where
  toRetains := { keeps with ends := fun k hk ↦ keeps.ends k (hK k hk) }
  stored k hk := keeps.stored k (hK k hk)

theorem refl (ht : h.tree.Sound) : h.KeepsAt K h :=
  keepsAt_of_stored ht (fun _ _ ↦ rfl) rfl fun _ _ ↦ rfl

variable (keeps : h.KeepsAt K h')

include keeps

theorem trans (later : h'.KeepsAt K h'') : h.KeepsAt K h'' :=
  keepsAt_of_stored later.sound (keeps.ways.trans later.ways) (later.cwd_eq.trans keeps.cwd_eq)
    fun k hk ↦ (later.stored k hk).trans (keeps.stored k hk)

variable (ht : h.tree.Sound)

include ht

/-- What stands there is led to as it was. -/
theorem exists_entry (he : h.entry p = .ok (k, n)) (hK : K k) :
    ∃ n', h'.entry p = .ok (k, n') ∧ n'.stored = n.stored := by
  have same := keeps.stored k hK
  rw [Tree.stored_of_node? (node?_of_entry he)] at same
  obtain ⟨n', hn', stored⟩ := Option.map_eq_some_iff.mp same
  obtain ⟨n'', hn'', entry⟩ := exists_entry_of_keepsWays ht keeps.sound keeps.ways keeps.cwd_eq he
    fun hlead ↦ ⟨n', hn', by rw [← Node.leads_stored, stored, Node.leads_stored, hlead]⟩
  obtain rfl := Option.some.inj (hn'.symm.trans hn'')
  exact ⟨n', entry, stored⟩

/-- A path there leads to the same bytes. -/
theorem content?_eq (hp : h.AimsAt K p) : h'.content? p = h.content? p := by
  cases hp with
  | place hp hK =>
    obtain ⟨place', same, hp'⟩ := keeps.locateNew ht hp hK
    rw [content?_of_locateNew keeps.sound hp', content?_of_locateNew ht hp, same,
      Tree.content?_of_stored_eq (keeps.stored _ hK)]
  | entry he hK =>
    obtain ⟨n', he', stored⟩ := keeps.exists_entry ht he hK
    simp only [content?, he, he']
    rw [← Node.content?_stored n', stored, Node.content?_stored]
  | nowhere none => rw [none _ keeps, none _ (.refl ht)]

end KeepsAt

/-! ## What is held in common -/

/-- After a file has been written, what is written anywhere shows where it did before. -/
theorem Overwrites.shares_eq (ow : h.Overwrites l c m h') (ht : h.tree.Coherent) (j k : Location) :
    h'.tree.Shares j k ↔ h.tree.Shares j k := by
  by_cases hj : h.tree.Shares l j
  · have hj' := (ow.shares_iff ht).mpr hj
    calc h'.tree.Shares j k
      _ ↔ h'.tree.Shares l k := ⟨hj'.trans, hj'.symm.trans⟩
      _ ↔ h.tree.Shares l k := ow.shares_iff ht
      _ ↔ h.tree.Shares j k := ⟨hj.symm.trans, hj.trans⟩
  · by_cases hk : h.tree.Shares l k
    · have hk' := (ow.shares_iff ht).mpr hk
      refine iff_of_false (fun hjk ↦ hj ?_) fun hjk ↦ hj (hk.trans hjk.symm)
      exact (ow.shares_iff ht).mp (hk'.trans hjk.symm)
    · exact Tree.shares_iff_of_stored_eq (ow.kept j hj) (ow.kept k hk)

/-- Whether what is written at a location shows there and nowhere else. -/
def Alone (h : Host) (l : Location) : Prop := ∀ k, h.tree.Shares l k ↔ k = l

/-- A free location is such a one. -/
theorem alone_of_free (free : h.tree.stored l = none) : h.Alone l := by
  refine fun k ↦ ⟨fun hk ↦ hk.eq_of_free free, ?_⟩
  rintro rfl
  exact Tree.shares_self_of_free free

theorem Alone.overwrites {j : Location} (alone : h.Alone j) (ht : h.tree.Coherent)
    (ow : h.Overwrites l c m h') : h'.Alone j :=
  fun k ↦ (ow.shares_eq ht j k).trans (alone k)

/-- Whether two hosts hold the same bytes at some locations, and what is written at one of these shows
at the same others. -/
structure Concur (K : Location → Prop) (h h' : Host) : Prop where
  /-- They hold the same. -/
  contents : ∀ k, K k → h'.tree.content? k = h.tree.content? k
  /-- What is written at one of the locations shows at the same ones. -/
  shares : ∀ l k, K l → K k → (h'.tree.Shares l k ↔ h.tree.Shares l k)

namespace Concur

variable {h₀ : Host}

/-- Hosts that store what an earlier one stored there hold the same. -/
theorem of_keepsAt (keeps : h₀.KeepsAt K h) (keeps' : h₀.KeepsAt K h') : Concur K h h' where
  contents k hk := by
    rw [Tree.content?_of_stored_eq (keeps.stored k hk), Tree.content?_of_stored_eq (keeps'.stored k hk)]
  shares l k hl hk :=
    (Tree.shares_iff_of_stored_eq (keeps'.stored l hl) (keeps'.stored k hk)).trans
      (Tree.shares_iff_of_stored_eq (keeps.stored l hl) (keeps.stored k hk)).symm

variable (C : Concur K h h')

include C

/-- The second may change elsewhere. -/
theorem moved (same : ∀ k, K k → t'.tree.stored k = h'.tree.stored k) : Concur K h t' where
  contents k hk := (Tree.content?_of_stored_eq (same k hk)).trans (C.contents k hk)
  shares l k hl hk :=
    (Tree.shares_iff_of_stored_eq (same l hl) (same k hk)).trans (C.shares l k hl hk)

variable (ht : h.tree.Coherent) (ht' : h'.tree.Coherent) (ow : h.Overwrites l c m t)
  (ow' : h'.Overwrites l c m' t')

include ht ht' ow ow'

/-- The same bytes may be written to the same place on both. -/
theorem overwrites (hl : K l) : Concur K t t' where
  contents k hk := by
    by_cases shown : h.tree.Shares l k
    · rw [Tree.content?_of_stored (ow.shown k shown),
        Tree.content?_of_stored (ow'.shown k ((C.shares l k hl hk).mpr shown))]
      rfl
    · have shown' : ¬ h'.tree.Shares l k := mt (C.shares l k hl hk).mp shown
      rw [Tree.content?_of_stored_eq (ow.kept k shown), Tree.content?_of_stored_eq (ow'.kept k shown'),
        C.contents k hk]
  shares j k hj hk := by rw [ow.shares_eq ht, ow'.shares_eq ht', C.shares j k hj hk]

/-- Where something else was, they then hold the same. -/
theorem overwrites_alone (alone : h.Alone l) (alone' : h'.Alone l) :
    Concur (fun k ↦ K k ∨ k = l) t t' where
  contents k hk := by
    by_cases here : k = l
    · rw [here, Tree.content?_of_stored (ow.shown l ((alone l).mpr rfl)),
        Tree.content?_of_stored (ow'.shown l ((alone' l).mpr rfl))]
      rfl
    · rw [Tree.content?_of_stored_eq (ow.kept k (mt (alone k).mp here)),
        Tree.content?_of_stored_eq (ow'.kept k (mt (alone' k).mp here)),
        C.contents k (hk.resolve_right here)]
  shares j k hj hk := by
    rw [ow.shares_eq ht, ow'.shares_eq ht']
    by_cases hjl : j = l
    · rw [hjl]
      exact (alone' k).trans (alone k).symm
    · by_cases hkl : k = l
      · rw [hkl]
        have other {g : Host} (alone : g.Alone l) : ¬ g.tree.Shares j l :=
          fun hs ↦ hjl ((alone j).mp hs.symm)
        exact iff_of_false (other alone') (other alone)
      · exact C.shares j k (hj.resolve_right hjl) (hk.resolve_right hkl)

end Concur

end Host

end ContractBuild
