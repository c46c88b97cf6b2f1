import ContractBuild.Proofs.FileSystem.Ways

/-!
# What files hold

A file that is created is empty, appending adds to it, and a copy holds what its source held, unless
the two are one file: the destination is emptied before the source is read.
-/

namespace ContractBuild

namespace Host

variable {h h' : Host} {l k : Location} {p source dest : Path} {mode : Nat} {content : Bytes}
  {place : Place} {f g : File}

theorem file_of_permit (hk : h.tree.node? k = some (.file g)) (mode : Nat) :
    ∃ g', (h.permit k mode).tree.node? k = some (.file g') ∧ g'.id = g.id ∧
      g'.content = g.content := by
  unfold permit reattribute
  rw [hk]
  refine ⟨{ g with mode }, ?_, rfl, rfl⟩
  simp only [withTree, Tree.node?_onFile, hk, Option.map_some, Node.onFile_self]

/-- Appending adds to a file. -/
theorem file_of_append (hk : h.tree.node? k = some (.file g)) (hh : h.append k content = .ok h') :
    ∃ g', h'.tree.node? k = some (.file g') ∧ g'.id = g.id ∧
      g'.content = g.content ++ content := by
  unfold append at hh
  rw [hk] at hh
  obtain rfl := Except.ok.inj hh
  simp only [withTree, Tree.node?_onFile, hk, Option.map_some, Node.onFile_self]
  by_cases hempty : content = []
  · exact ⟨_, rfl, by simp [hempty], by simp [hempty]⟩
  · exact ⟨_, rfl, by simp [hempty, File.withContent], by simp [hempty, File.withContent]⟩

theorem node?_noteChange_of_file {t : Tree} (hk : t.node? k = some (.file g)) (l : Location)
    (hl : t.directoryId? l ≠ none) : (t.noteChange l).node? k = some (.file g) := by
  rw [Tree.noteChange, Tree.node?_adjust_of_ne, hk]
  rintro rfl
  simp [Tree.directoryId?, hk, Node.directoryId?] at hl

/-- A file that has been emptied holds nothing under any of its names. -/
theorem file_of_cleared (hl : h.tree.node? l = some (.file f)) (hid : f.id = g.id) :
    ∃ a, (h.cleared g).tree.node? l = some (.file a) ∧ a.id = f.id ∧ a.content = [] := by
  refine ⟨f.withContent [] h.tree.now, ?_, rfl, rfl⟩
  simp [cleared, withTree, Tree.node?_onFile, hl, Node.onFile, hid]

/-- Every other file stays as it is. -/
theorem node?_cleared_of_ne (hl : h.tree.node? l = some (.file f)) (hid : f.id ≠ g.id) :
    (h.cleared g).tree.node? l = some (.file f) := by
  rw [cleared, withTree, Tree.node?_onFile, hl, Option.map_some, Node.onFile_of_ne hid]

/-- Where nothing stood, or a file, there is an empty file once it is opened for writing. -/
theorem file_of_create (ht : h.tree.Sound) (hh : h.create p mode = .ok (k, h'))
    (hfile : ∀ n, h.tree.node? k = some n → ∃ g, n = .file g) :
    ∃ g, h'.tree.node? k = some (.file g) ∧ g.content = [] ∧
      (h.tree.fileId? k = some g.id ∨ h.tree.node? k = none ∧ h.tree.nextId ≤ g.id) := by
  rcases cases_of_create hh with ⟨hplace, hchange⟩ | ⟨f, hplace, -, rfl⟩ |
    ⟨n, hplace, hother, -, -, rfl⟩
  all_goals have shows := Tree.shows_of_locate hplace
  · obtain rfl := eq_of_changeAbove hchange
    have hk : k ≠ [] := fun hk ↦ by simp [Tree.Shows, hk] at shows
    have here := Tree.node?_addFile_self hk h.tree [] mode
    have parent := (ht.addFile shows (isSome_directoryId?_of_vacant ht hplace) [] mode).parent hk
      (by simp [here])
    exact ⟨_, node?_noteChange_of_file here _ (Option.isSome_iff_ne_none.mp parent), rfl,
      .inr ⟨shows, Nat.le_refl _⟩⟩
  · obtain ⟨a, ha, hid, empty⟩ := file_of_cleared (g := f) shows rfl
    exact ⟨a, ha, empty, .inl (Tree.fileId?_eq_some.mpr ⟨f, shows, hid.symm⟩)⟩
  · obtain ⟨g, rfl⟩ := hfile n shows
    cases hother

/-- A file that is opened for writing under one name is empty under any other. -/
theorem file_of_create_of_id (hh : h.create p mode = .ok (k, h')) (hl : h.tree.node? l = some (.file f))
    (hid : h.tree.fileId? k = some f.id) :
    ∃ g, h'.tree.node? l = some (.file g) ∧ g.content = [] := by
  obtain ⟨a, ha, haid⟩ := Tree.fileId?_eq_some.mp hid
  rcases cases_of_create hh with ⟨hplace, -⟩ | ⟨b, hplace, -, rfl⟩ | ⟨n, hplace, hother, -, -, -⟩
  all_goals have shows := Tree.shows_of_locate hplace
  · cases shows.symm.trans ha
  · obtain rfl := Node.file.inj (Option.some.inj (ha.symm.trans shows))
    obtain ⟨g, hg, -, empty⟩ := file_of_cleared hl haid.symm
    exact ⟨g, hg, empty⟩
  · obtain rfl := Option.some.inj (ha.symm.trans shows)
    cases hother

/-- A copy to where nothing stood, or a file, is a file with what the source held, or an empty one
if that is the source itself under this or another name. -/
theorem file_of_copy (ht : h.tree.Sound) (hh : h.copy source dest = (.ok (), h'))
    (hsource : h.entry source = .ok (l, .file f)) (hplace : h.locateNew dest = .ok place)
    (hfile : ∀ n, h.tree.node? place.location = some n → ∃ g, n = .file g) :
    ∃ g, h'.tree.node? place.location = some (.file g) ∧
      g.content = (if h.tree.fileId? place.location = some f.id then [] else f.content) ∧
      (h.tree.fileId? place.location = some g.id ∨
        h.tree.node? place.location = none ∧ h.tree.nextId ≤ g.id) := by
  obtain ⟨l', f', k, h₁, hsource', -, hcreate, -, happend⟩ := exists_of_copy hh
  obtain ⟨rfl, hf'⟩ := Prod.mk.inj (Except.ok.inj (hsource.symm.trans hsource'))
  obtain rfl := Node.file.inj hf'
  obtain ⟨⟨place', hplace', rfl⟩, -, created⟩ := writesOnly_create ht hcreate
  obtain rfl := Except.ok.inj (hplace.symm.trans hplace')
  obtain ⟨b, hb, hempty, hid⟩ := file_of_create ht hcreate hfile
  obtain ⟨c, hc, hcid, hccontent⟩ := file_of_permit hb f.mode
  obtain ⟨g, hg, hgid, hgcontent⟩ := file_of_append hc happend
  refine ⟨g, hg, ?_, by rwa [hgid, hcid]⟩
  rw [hgcontent, hccontent, hempty, List.nil_append]
  have hl := node?_of_entry hsource
  have hlid : h.tree.fileId? l = some f.id := Tree.fileId?_eq_some.mpr ⟨f, hl, rfl⟩
  split
  next same =>
    -- the source has been emptied with the destination
    obtain ⟨f', hf', empty⟩ := file_of_create_of_id hcreate hl same
    simp only [contentAt, hf', empty]
  next other =>
    obtain ⟨f', hf', -, kept⟩ :=
      Tree.exists_file_of_shape_eq (created.tree.shape_of_fileId? hlid other) hl
    simp only [contentAt, hf', kept]

theorem contentAt_of_shape_eq (hk : h'.tree.shape k = h.tree.shape k) :
    h'.contentAt k = h.contentAt k := by
  have other {h : Host} (hf : ¬ ∃ f, h.tree.node? k = some (.file f)) : h.contentAt k = [] := by
    unfold contentAt
    split
    next f hf' => exact absurd ⟨f, hf'⟩ hf
    next => rfl
  by_cases file : ∃ f, h.tree.node? k = some (.file f)
  · obtain ⟨f, hf⟩ := file
    obtain ⟨f', hf', -, content⟩ := Tree.exists_file_of_shape_eq hk hf
    simp only [contentAt, hf, hf', content]
  · refine (other fun file' ↦ file ?_).trans (other file).symm
    obtain ⟨f', hf'⟩ := file'
    obtain ⟨f, hf, -, -⟩ := Tree.exists_file_of_shape_eq hk.symm hf'
    exact ⟨f, hf⟩

/-- What is read of something that has not been written is what was read of it before. -/
theorem read_of_written (w : h.Written h') (ht : h.tree.Sound) {id : Nat}
    (hother : ∀ k b, h.entry p = .ok (k, .file b) → b.id ≠ id)
    (hsame : ∀ k, h.tree.fileId? k ≠ some id → h'.tree.shape k = h.tree.shape k)
    (hr : h'.read p = .ok content) : h.read p = .ok content := by
  obtain ⟨⟨k, n'⟩, hentry, hr⟩ := exists_of_bind_eq_ok hr
  have hn' := node?_of_entry hentry
  have hlead : n'.leads = false := by
    cases n' with
    | directory e =>
      obtain ⟨e, hpermitted, hr⟩ := exists_of_bind_eq_ok hr
      unfold permitted at hpermitted
      split at hpermitted
      · obtain rfl := Except.ok.inj hpermitted
        cases hr
      · cases hpermitted
    | link a => exact absurd rfl (entry_ne_link w.sound hentry a)
    | _ => rfl
  have shape : h'.tree.shape k = h.tree.shape k := by
    by_cases hid : h.tree.fileId? k = some id
    · obtain ⟨b, hb, hbid⟩ := Tree.fileId?_eq_some.mp hid
      exact absurd hbid (hother k b (w.entry_before ht hentry hb rfl))
    · exact hsame k hid
  obtain ⟨n, hn, timeless⟩ : ∃ n, h.tree.node? k = some n ∧ n.timeless = n'.timeless := by
    rw [Tree.shape, hn', Option.map_some, Tree.shape, eq_comm, Option.map_eq_some_iff] at shape
    exact shape
  have lead : n.leads = false := by rw [← Node.leads_timeless, timeless, Node.leads_timeless, hlead]
  have allows : n.allows .read = n'.allows .read := by
    rw [← Node.allows_timeless, timeless, Node.allows_timeless]
  rw [read, w.entry_before ht hentry hn lead]
  have same : h'.contentAt k = h.contentAt k := contentAt_of_shape_eq shape
  simp only [bind, Except.bind, permitted, allows] at hr ⊢
  have moved (hr : (.ok (h'.contentAt k) : Except IoError Bytes) = .ok content) :
      (.ok (h.contentAt k) : Except IoError Bytes) = .ok content := same ▸ hr
  by_cases hread : n'.allows .read = true
  · simp only [hread, if_true] at hr ⊢
    cases n with
    | file b =>
      cases n' with
      | file b' => exact moved hr
      | _ => simp [Node.timeless] at timeless
    | device a =>
      cases n' with
      | device a' =>
        obtain rfl := Node.device.inj timeless
        cases a with
        | terminal => exact hr
        | _ => exact moved hr
      | _ => simp [Node.timeless] at timeless
    | descriptor i written =>
      cases n' with
      | descriptor i' written' => exact moved hr
      | _ => simp [Node.timeless] at timeless
    | _ => cases lead
  · simp [hread] at hr

/-! ## Files that grow -/

/-- Appending gives no file another identity. -/
theorem fileId?_of_append (hk : h.tree.node? k = some (.file g)) (hh : h.append k content = .ok h')
    (l : Location) : h'.tree.fileId? l = h.tree.fileId? l := by
  unfold append at hh
  rw [hk] at hh
  obtain rfl := Except.ok.inj hh
  refine Tree.fileId?_onFile _ _ (fun a ↦ ?_) l
  split <;> rfl

/-- From one host to another, bytes have been added to a file. -/
structure Extended (h : Host) (a : Location) (g : File) (added : Bytes) (h' : Host) : Prop where
  /-- Only files have been written. -/
  written : h.Written h'
  /-- The file holds the bytes behind what it held. -/
  here : ∃ f, h'.tree.node? a = some (.file f) ∧ f.id = g.id ∧ f.content = g.content ++ added
  /-- Every name is one of the file that it was one of. -/
  names : ∀ k, h'.tree.fileId? k = h.tree.fileId? k
  /-- Everything else is as it was. -/
  elsewhere : ∀ k, h.tree.fileId? k ≠ some g.id → h'.tree.shape k = h.tree.shape k

namespace Extended

variable {h'' : Host} {a : Location} {added : Bytes}

theorem refl (ht : h.tree.Sound) (hg : h.tree.node? a = some (.file g)) : h.Extended a g [] h :=
  ⟨.refl ht, ⟨g, hg, rfl, (List.append_nil _).symm⟩, fun _ ↦ rfl, fun _ _ ↦ rfl⟩

/-- More bytes are added behind those. -/
theorem append (he : h.Extended a g added h') (hh : h'.append a content = .ok h'') :
    h.Extended a g (added ++ content) h'' := by
  obtain ⟨f, hf, hid, hcontent⟩ := he.here
  obtain ⟨f', hf', hid', hcontent'⟩ := file_of_append hf hh
  have change := writesOnly_append he.written.sound hh
  refine ⟨he.written.trans change.written, ⟨f', hf', hid'.trans hid, ?_⟩, fun k ↦ ?_,
    fun k hk ↦ ?_⟩
  · rw [hcontent', hcontent, List.append_assoc]
  · rw [fileId?_of_append hf hh, he.names]
  · have there : h'.tree.fileId? a = some g.id := Tree.fileId?_eq_some.mpr ⟨f, hf, hid⟩
    rw [← he.names] at hk
    have hka : k ≠ a := fun hka ↦ hk (hka ▸ there)
    rcases change.tree.elsewhere k hka with same | ⟨-, name, -⟩
    · rw [same, he.elsewhere k (he.names k ▸ hk)]
    · exact absurd (name.trans there) hk

/-- Where nothing stood, or a file, it is so still. -/
theorem isFile (he : h.Extended a g added h')
    (hfile : ∀ n, h.tree.node? k = some n → ∃ b, n = .file b) {n : Node}
    (hn : h'.tree.node? k = some n) : ∃ b, n = .file b := by
  by_cases hid : h.tree.fileId? k = some g.id
  · obtain ⟨b, hb, -⟩ := Tree.fileId?_eq_some.mp ((he.names k).trans hid)
    exact ⟨b, Option.some.inj (hn.symm.trans hb)⟩
  · exact Tree.isFile_of_shape_eq (he.elsewhere k hid) hfile hn

end Extended

end Host

end ContractBuild
