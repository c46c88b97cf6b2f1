import ContractBuild.Proofs.FileSystem.Contents
import ContractBuild.Proofs.FileSystem.Stored

/-!
# Copies that fail

A copy that fails has changed nothing, with one exception.  A file that the user may write but that
belongs to somebody else can be opened, which empties it, and cannot be given the permissions of the
source then, so it stays empty.
-/

namespace ContractBuild

namespace Host

variable {h h' : Host} {l k : Location} {p source dest : Path} {mode : Nat} {content : Bytes}
  {f g : File} {e : IoError}

/-- Whether a path leads to this file, which the user may write but which belongs to somebody else. -/
def Withholds (h : Host) (p : Path) (g : File) : Prop :=
  ∃ l, h.entry p = .ok (l, .file g) ∧ g.allows .write = true ∧ g.isForeign = true

theorem copy_of_error (hsource : h.copySource source = .error e) (dest : Path) :
    h.copy source dest = (.error e, h) := by
  rw [copy, hsource]

/-! ## Filling what has been opened -/

/-- A file of somebody else is not filled. -/
theorem fill_of_foreign (hk : h.tree.node? k = some (.file g)) (foreign : g.isForeign = true)
    (mode : Nat) (content : Bytes) : h.fill k mode content = .error .notAllowed := by
  have other : h.isOwn k = false := by
    rw [isOwn, hk]
    change (!g.isForeign) = false
    rw [foreign, Bool.not_true]
  rw [fill, other]
  exact if_neg Bool.false_ne_true

/-- A file of the user's own is. -/
theorem exists_fill_of_own (hk : h.tree.node? k = some (.file g)) (own : h.isOwn k = true)
    (mode : Nat) (content : Bytes) : ∃ h', h.fill k mode content = .ok h' := by
  obtain ⟨g', hg', -⟩ := file_of_permit hk mode
  rw [fill, if_pos own, append, hg']
  exact ⟨_, rfl⟩

/-- What has been opened belongs to the user, unless it was there and belonged to somebody else. -/
theorem isOwn_of_create (hh : h.create dest mode = .ok (k, h'))
    (own : ∀ g, ¬ h.Withholds dest g) : h'.isOwn k = true := by
  rcases cases_of_create hh with ⟨hplace, hchange⟩ | ⟨g, hplace, hwrite, rfl⟩ |
    ⟨n, hplace, hother, hdir, -, rfl⟩
  all_goals have shows := Tree.shows_of_locate hplace
  · obtain rfl := eq_of_changeAbove hchange
    have hk : k ≠ [] := fun hk ↦ by simp [Tree.Shows, hk] at shows
    have above : k ≠ k.dropLast := fun same ↦ by
      have shorter := congrArg List.length same
      rw [List.length_dropLast] at shorter
      have positive := List.length_pos_of_ne_nil hk
      omega
    rw [isOwn, withTree, Tree.noteChange, Tree.node?_adjust_of_ne above,
      Tree.node?_addFile_self hk]
    rfl
  · have mine : g.isForeign = false := by
      by_contra foreign
      exact own g ⟨k, entry_of_locate (Tree.locate_of_create hplace), hwrite, by simpa using foreign⟩
    have here : h.tree.node? k = some (.file g) := shows
    rw [isOwn, cleared, withTree, Tree.node?_onFile, here, Option.map_some, Node.onFile_self]
    change (!g.isForeign) = true
    rw [mine, Bool.not_false]
  · have here : h'.tree.node? k = some n := shows
    rw [isOwn, here]
    cases n with
    | file a => cases hother
    | directory d => cases hdir
    | _ => rfl

/-! ## What comes of a copy -/

/-- Where a path leads to a file, opening it for writing empties that. -/
theorem create_of_entry (ht : h.tree.Sound) (hdest : h.entry dest = .ok (k, .file g))
    (hwrite : g.allows .write = true) (mode : Nat) :
    h.create dest mode = .ok (k, h.cleared g) := by
  have hplace := locateNew_of_entry ht hdest rfl
  rw [locateNew] at hplace
  rw [create, hplace]
  exact if_pos hwrite

/-- A file of somebody else is emptied by a copy to it, and the copy fails. -/
theorem copy_of_withholds (ht : h.tree.Sound) (hsource : h.copySource source = .ok (l, f))
    (hdest : h.Withholds dest g) :
    h.copy source dest = (.error .notAllowed, h.cleared g) := by
  obtain ⟨k, hentry, hwrite, foreign⟩ := hdest
  have opened : (h.cleared g).tree.node? k =
      some (.file (g.withContent [] h.tree.now)) := by
    simp [cleared, withTree, Tree.node?_onFile, node?_of_entry hentry, Node.onFile]
  simp only [copy, hsource, create_of_entry ht hentry hwrite, fill_of_foreign opened foreign]

/-- A copy fails and changes nothing, or empties a file of somebody else and fails, or succeeds. -/
theorem outcome_of_copy (ht : h.tree.Sound) (source dest : Path) :
    (∃ e, h.copy source dest = (.error e, h)) ∨
      (∃ g, h.Withholds dest g ∧ (∃ r, h.copySource source = .ok r) ∧
        h.copy source dest = (.error .notAllowed, h.cleared g)) ∨
      (∀ g, ¬ h.Withholds dest g) ∧ ∃ h', h.copy source dest = (.ok (), h') := by
  rcases h.cases_copy source dest with failed | ⟨l, f, k, h₁, hentry, hread, hcreate, filled⟩
  · exact .inl failed
  have hsource := copySource_eq_ok.mpr ⟨hentry, hread⟩
  by_cases foreign : ∃ g, h.Withholds dest g
  · obtain ⟨g, hg⟩ := foreign
    exact .inr (.inl ⟨g, hg, ⟨_, hsource⟩, copy_of_withholds ht hsource hg⟩)
  rw [not_exists] at foreign
  rcases filled with ⟨e, hfill, hfails⟩ | ⟨h', -, hdone⟩
  swap
  · exact .inr (.inr ⟨foreign, h', hdone⟩)
  have own := isOwn_of_create hcreate foreign
  have unfilled {a : File} (ha : h₁.tree.node? k = some (.file a)) : False := by
    obtain ⟨h', hh'⟩ := exists_fill_of_own ha own f.mode (h₁.contentAt l)
    cases hh'.symm.trans hfill
  -- what cannot be filled is no file, and opening it has changed nothing
  rcases cases_of_create hcreate with ⟨hplace, -⟩ | ⟨g, hplace, -, rfl⟩ | ⟨n, -, -, -, -, rfl⟩
  · obtain ⟨a, ha, -⟩ := file_of_create ht hcreate fun n hn ↦ by
      cases (Tree.shows_of_locate hplace).symm.trans hn
    exact (unfilled ha).elim
  · obtain ⟨a, ha, -⟩ := file_of_cleared (g := g) (Tree.shows_of_locate hplace) rfl
    exact (unfilled ha).elim
  · exact .inl ⟨e, hfails⟩

/-- A copy that fails leaves everything as it was, or only a file of somebody else empty. -/
theorem host_of_copy_error (ht : h.tree.Sound) (hh : h.copy source dest = (.error e, h')) :
    h' = h ∨ ∃ g, h.Withholds dest g ∧ e = .notAllowed ∧ h' = h.cleared g := by
  rcases outcome_of_copy ht source dest with ⟨e', he'⟩ | ⟨g, hg, -, emptied⟩ | ⟨-, h'', done⟩
  · exact .inl (congrArg Prod.snd (hh.symm.trans he'))
  · obtain ⟨he, hh'⟩ := Prod.mk.inj (hh.symm.trans emptied)
    exact .inr ⟨g, hg, Except.error.inj he, hh'⟩
  · cases hh.symm.trans done

end Host

end ContractBuild
