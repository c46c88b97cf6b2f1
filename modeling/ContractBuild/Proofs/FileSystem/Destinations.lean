import ContractBuild.Proofs.FileSystem.Confined
import ContractBuild.Proofs.FileSystem.Contents
import ContractBuild.Proofs.FileSystem.Ways
import ContractBuild.Proofs.Path.Parent

/-!
# Files written at several destinations

Files are written under some paths, one after the other.  Whatever none of these paths leads to, under
any of its names, is then as it was before, and no file has got a second name.
-/

namespace ContractBuild

/-- A directory that files lie in stays one while directories and links are kept. -/
theorem Tree.Houses.of_sameWays {t₀ t t' : Tree} {d : Location} (h : Houses t₀ d t)
    (ht' : t'.Sound) (ways : SameWays t t') : Houses t₀ d t' where
  sound := ht'
  ways := h.ways.trans ways.forth
  home := by
    rw [directoryId?_of_shape_eq (ways.forth d (leads_of_directoryId? h.home))]
    exact h.home
  flat k hk hne := by rw [ways.leads_eq, h.flat k hk hne]

namespace Host

variable {h h' h'' : Host} {k : Location} {q : Path} {paths : List Path} {place : Place}

/-- Whether a path, as the destination of a file, leads neither to a location nor to the file there
under another name. -/
def Misses (h : Host) (q : Path) (k : Location) : Prop :=
  ∀ place, h.locateNew q = .ok place → place.location ≠ k ∧
    ∀ id, h.tree.fileId? k = some id → h.tree.fileId? place.location ≠ some id

/-- It is decided by looking where the path leads. -/
instance (h : Host) (q : Path) (k : Location) : Decidable (h.Misses q k) :=
  match hq : h.locateNew q with
  | .error _ => isTrue fun _ hplace ↦ by cases hq.symm.trans hplace
  | .ok place => decidable_of_iff
      (place.location ≠ k ∧ ∀ id ∈ h.tree.fileId? k, h.tree.fileId? place.location ≠ some id)
      ⟨fun hk _ hplace ↦ Except.ok.inj (hq.symm.trans hplace) ▸ hk, fun hk ↦ hk place hq⟩

/-- A destination leads where it led before other files were written. -/
theorem Written.locateNew_before (w : h.Written h') (ht : h.tree.Sound)
    (hq : h'.locateNew q = .ok place) :
    ∃ place₀, place₀.location = place.location ∧ h.locateNew q = .ok place₀ :=
  exists_locateNew_of_keepsWays w.sound ht w.ways.back w.cwd_eq.symm hq
    fun hend ↦ (w.ways.symm.leads_eq _).trans hend

/-- From one host to another, no file has got a second name. -/
def KeepsNames (h h' : Host) : Prop :=
  ∀ k k' id, k ≠ k' → h'.tree.fileId? k = some id → h'.tree.fileId? k' = some id →
    h.tree.fileId? k = some id ∧ h.tree.fileId? k' = some id

theorem KeepsNames.refl (h : Host) : h.KeepsNames h := fun _ _ _ _ hk hk' ↦ ⟨hk, hk'⟩

theorem KeepsNames.writesOnly (kept : h.KeepsNames h') (ht' : h'.tree.Sound)
    (change : h'.WritesOnly h'' k) : h.KeepsNames h'' := by
  intro a b id hne ha hb
  obtain ⟨before, before'⟩ := change.tree.fileId?_of_two ht' hne ha hb
  exact kept a b id hne before before'

/-- What a destination did not lead to at first it does not lead to after other files have been
written. -/
theorem Misses.after (hk : h.Misses q k) (w : h.Written h') (ht : h.tree.Sound)
    (kept : h.KeepsNames h') : h'.Misses q k := by
  intro place hplace
  obtain ⟨place₀, hlocation, hplace₀⟩ := w.locateNew_before ht hplace
  obtain ⟨hne, other⟩ := hk place₀ hplace₀
  rw [hlocation] at hne other
  refine ⟨hne, fun id hid hid' ↦ ?_⟩
  obtain ⟨before, before'⟩ := kept k place.location id hne.symm hid hid'
  exact other id before before'

/-- What a destination does not lead to stays as it is when that is written. -/
theorem Misses.shape_eq (hk : h.Misses q k) (hq : h.locateNew q = .ok place)
    (change : h.WritesOnly h' place.location) : h'.tree.shape k = h.tree.shape k := by
  obtain ⟨hne, other⟩ := hk place hq
  refine (change.tree.elsewhere k hne.symm).resolve_right fun ⟨file, name, _⟩ ↦ ?_
  obtain ⟨id, hid⟩ := Option.isSome_iff_exists.mp file
  exact other id (name.trans hid) hid

/-- From one host to another, files have been written under some paths, and nowhere else. -/
structure WrittenAt (h : Host) (paths : List Path) (h' : Host) : Prop where
  /-- Only files have been written. -/
  written : h.Written h'
  /-- What the paths do not lead to is as it was. -/
  elsewhere : ∀ k, (∀ q ∈ paths, h.Misses q k) → h'.tree.shape k = h.tree.shape k
  /-- No file has got a second name. -/
  names : h.KeepsNames h'

namespace WrittenAt

theorem refl (ht : h.tree.Sound) : h.WrittenAt [] h :=
  ⟨.refl ht, fun _ _ ↦ rfl, .refl h⟩

variable (w : h.WrittenAt paths h') (ht : h.tree.Sound)

include w ht

/-- What a destination did not lead to at first it does not lead to after others have been written. -/
theorem misses (hk : h.Misses q k) : h'.Misses q k := hk.after w.written ht w.names

/-- One more destination is written. -/
theorem concat (hq : h'.locateNew q = .ok place) (change : h'.WritesOnly h'' place.location) :
    h.WrittenAt (paths ++ [q]) h'' where
  written := w.written.trans change.written
  elsewhere k hk := by
    have before := w.elsewhere k fun q hq ↦ hk q (List.mem_append_left _ hq)
    have missed := hk q (List.mem_append_right _ (List.mem_singleton.mpr rfl))
    exact ((w.misses ht missed).shape_eq hq change).trans before
  names := w.names.writesOnly w.written.sound change

end WrittenAt

/-- A destination that can be written beside a new directory leads where it led before that was
made, and not into it. -/
theorem HasFree.location_of_locateNew {dir : Path} {d : Location} {place' : Place}
    (free : h.HasFree dir d) (houses : h.tree.Houses d h'.tree)
    (confined : h.tree.Confined d h'.tree) (hcwd : h'.cwd = h.cwd) (hq : h.locateNew q = .ok place)
    (hq' : h'.locateNew q = .ok place') (hdir : h'.tree.directoryId? place'.location = none) :
    ¬ d <+: place.location ∧ place'.location = place.location := by
  have shows := Tree.shows_of_locate hq
  -- at the new directory itself nothing can be written
  have other : place.location ≠ d := by
    rintro here
    have start (k : Location) (hk : h.here? = some k) :
        (h.tree.directoryId? k).isSome ∧ h'.here? = some k := by
      refine ⟨by rw [free.sound.directory?_eq_some_iff.mp hk]; rfl, ?_⟩
      rw [here?, hcwd]
      exact houses.ways.directory?_eq free.sound houses.sound hk
    obtain ⟨n, -, locate⟩ := Tree.locate_of_keepsWays free.sound houses.ways start hq
      (fun k n hk _ ↦ by
        subst hk
        cases (free.node?_eq_none (here ▸ List.prefix_refl _)).symm.trans shows)
      (fun k hk ↦ by
        subst hk
        obtain rfl : k = d := here
        exact houses.home)
    obtain rfl := Except.ok.inj (locate.symm.trans hq')
    have home := houses.home
    rw [← here] at home
    exact absurd hdir (Option.isSome_iff_ne_none.mp home)
  have outside : ¬ d <+: place.location := by
    intro hprefix
    cases place with
    | entry k n => exact free.not_prefix shows hprefix
    | vacant k =>
      have parent := isSome_directoryId?_of_vacant free.sound hq
      have above : h.tree.node? k.dropLast = none :=
        free.node?_eq_none (Tree.prefix_dropLast hprefix (Ne.symm other))
      rw [Tree.directoryId?, above] at parent
      cases parent
  obtain ⟨place'', hlocation, hq''⟩ :=
    exists_locateNew_of_keepsWays free.sound houses.sound houses.ways hcwd hq fun hend ↦ by
      rw [Tree.leads_of_shape_eq (confined.elsewhere _ outside), hend]
  obtain rfl := Except.ok.inj (hq'.symm.trans hq'')
  exact ⟨outside, hlocation⟩

end Host

end ContractBuild

/-!
## Where a file is written

A file is written at the last name of its path, unless a link stands there.  So paths that end in
different names never lead to one place.
-/

namespace ContractBuild

namespace Tree

variable {t : Tree} {b : Nat} {m : Manner} {sl : Bool} {dir : Location} {n : Name} {ss : List Step}
  {p : Place}

/-- A walk to the place of a new entry ends with its name only if no slash follows. -/
theorem Reaches.not_slashed (h : t.Reaches b m sl dir (ss ++ [.enter n]) p)
    (hcreate : m.create = true) : sl = false := by
  have plain {t : Tree} {m : Manner} {sl : Bool} {dir : Location} {n : Name}
      (hin : t.Admits m sl dir n []) (hcreate : m.create = true) : sl = false := by
    simpa [hcreate] using hin.2.1
  generalize hss : ss ++ [Step.enter n] = all at h
  induction h generalizing ss with
  | done _ => simp at hss
  | stay _ _ ih =>
    rcases ss with _ | ⟨s, ss⟩
    · simp at hss
    · exact ih hcreate (List.cons.inj hss).2
  | up _ _ ih =>
    rcases ss with _ | ⟨s, ss⟩
    · simp at hss
    · exact ih hcreate (List.cons.inj hss).2
  | into hin _ _ ih =>
    rcases ss with _ | ⟨s, ss⟩
    · obtain ⟨-, rfl⟩ := List.cons.inj hss
      exact plain hin hcreate
    · exact ih hcreate (List.cons.inj hss).2
  | @follow b m sl dir n' k rest p hin _ _ _ ih =>
    rcases ss with _ | ⟨s, ss⟩
    · obtain ⟨-, rfl⟩ := List.cons.inj hss
      exact plain hin hcreate
    · obtain rfl := (List.cons.inj hss).2
      have next := @ih (k.target.steps ++ ss) hcreate (List.append_assoc ..)
      exact (Bool.or_eq_false_iff.mp next).1
  | link hin _ _ _ => exact plain (by simpa using hin) hcreate
  | last hin _ _ _ => exact plain (by simpa using hin) hcreate
  | free hin _ => exact plain (by simpa using hin) hcreate

/-- A walk that ends with a name ends there too if it does not follow a link, unless it comes to one. -/
theorem Reaches.of_follow (h : t.Reaches b m sl dir (ss ++ [.enter n]) p) (hslash : sl = false) :
    t.Reaches b { m with follow := false } sl dir (ss ++ [.enter n]) p ∨
      ∃ l k, t.Reaches b { m with follow := false } sl dir (ss ++ [.enter n])
        (.entry l (.link k)) := by
  have relax {t : Tree} {m : Manner} {sl : Bool} {dir : Location} {n : Name} {rest : List Step}
      (hin : t.Admits m sl dir n rest) : t.Admits { m with follow := false } sl dir n rest := hin
  generalize hss : ss ++ [Step.enter n] = all at h
  induction h generalizing ss with
  | done _ => simp at hss
  | stay hrun _ ih =>
    rcases ss with _ | ⟨s, ss⟩
    · simp at hss
    · obtain ⟨rfl, rfl⟩ := List.cons.inj hss
      exact (ih hslash rfl).imp (.stay hrun) fun ⟨l, k, next⟩ ↦ ⟨l, k, .stay hrun next⟩
  | up hrun _ ih =>
    rcases ss with _ | ⟨s, ss⟩
    · simp at hss
    · obtain ⟨rfl, rfl⟩ := List.cons.inj hss
      exact (ih hslash rfl).imp (.up hrun) fun ⟨l, k, next⟩ ↦ ⟨l, k, .up hrun next⟩
  | into hin hn next ih =>
    rcases ss with _ | ⟨s, ss⟩
    · obtain ⟨hstep, rfl⟩ := List.cons.inj hss
      obtain rfl := Step.enter.inj hstep
      cases next with
      | done hdone => exact .inl (.into (relax hin) hn (.done hdone))
    · obtain ⟨rfl, rfl⟩ := List.cons.inj hss
      exact (ih hslash rfl).imp (.into (relax hin) hn)
        fun ⟨l, k, next⟩ ↦ ⟨l, k, .into (relax hin) hn next⟩
  | @follow b m sl dir n' k rest p hin hn _ _ ih =>
    rcases ss with _ | ⟨s, ss⟩
    · obtain ⟨hstep, rfl⟩ := List.cons.inj hss
      obtain rfl := Step.enter.inj hstep
      exact .inr ⟨_, k, .link (relax hin) hn rfl hslash⟩
    · obtain ⟨rfl, hrest⟩ := List.cons.inj hss
      have more : rest ≠ [] := by simp [← hrest]
      have behind : k.target.steps ++ ss ++ [Step.enter n] = k.target.steps ++ rest := by
        rw [List.append_assoc, ← hrest]
        rfl
      have along {p : Place} (h : t.Reaches b { m with follow := false } sl
          (if k.target.isAbsolute then [] else dir) (k.target.steps ++ rest) p) :
          t.Reaches (b + 1) { m with follow := false } sl dir (.enter n' :: rest) p :=
        .follow (relax hin) hn (by simp [more]) (by simpa [more] using h)
      have next := @ih (k.target.steps ++ ss) (by simp [hslash, more]) behind
      simp only [more, decide_false, Bool.false_and, Bool.or_false] at next
      exact next.imp along fun ⟨l, k, next⟩ ↦ ⟨l, k, along next⟩
  | link hin hn _ hslash => exact .inl (.link (relax hin) hn rfl hslash)
  | last hin hn hlead hslash => exact .inl (.last (relax hin) hn hlead hslash)
  | free hin hn => exact .inl (.free (relax hin) hn)

/-- A walk that stays where it is at the end ends at a directory. -/
theorem Reaches.isSome_of_stay (ht : t.Sound) (hdir : (t.directoryId? dir).isSome)
    (h : t.Reaches b m sl dir (ss ++ [.stay]) p) : (t.directoryId? p.location).isSome := by
  generalize hss : ss ++ [Step.stay] = all at h
  -- the way does not end with a name
  have other {ss : List Step} {n : Name} (hss : ss ++ [Step.stay] = [.enter n]) : False := by
    rcases ss with _ | ⟨s, ss⟩ <;> simp at hss
  induction h generalizing ss with
  | done _ => simp at hss
  | stay hrun next ih =>
    rcases ss with _ | ⟨s, ss⟩
    · obtain ⟨-, rfl⟩ := List.cons.inj hss
      cases next with
      | done _ => exact hdir
    · exact ih hdir (List.cons.inj hss).2
  | up _ _ ih =>
    rcases ss with _ | ⟨s, ss⟩
    · simp at hss
    · exact ih (ht.directoryId?_dropLast hdir) (List.cons.inj hss).2
  | into _ hn _ ih =>
    rcases ss with _ | ⟨s, ss⟩
    · simp at hss
    · exact ih (isSome_directoryId?.mpr ⟨_, hn⟩) (List.cons.inj hss).2
  | @follow b m sl dir n' k rest p _ _ _ _ ih =>
    rcases ss with _ | ⟨s, ss⟩
    · simp at hss
    · obtain rfl := (List.cons.inj hss).2
      refine @ih (k.target.steps ++ ss) ?_ (List.append_assoc ..)
      split
      · exact isSome_directoryId?_root t
      · exact hdir
  | link _ _ _ _ => exact (other hss).elim
  | last _ _ _ _ => exact (other hss).elim
  | free _ _ => exact (other hss).elim

end Tree

namespace Host

variable {h : Host} {q : Path} {n : Name} {place : Place}

/-- A path with a file name leads to that name, where a file can be written and no link stands. -/
theorem getLast?_of_locateNew (ht : h.tree.Sound) (hn : q.fileName? = some n)
    (hlink : ∀ l k, h.locateLink q ≠ .ok (.entry l (.link k)))
    (hq : h.locateNew q = .ok place) (hdir : h.tree.directoryId? place.location = none) :
    place.location.getLast? = some n := by
  obtain ⟨good, start, hstart, reaches⟩ := Tree.locate_eq_ok_iff.mp hq
  obtain ⟨ss, k, hsteps⟩ := Path.steps_of_fileName? hn
  cases k with
  | succ k =>
    -- what comes behind the name makes it a directory
    rw [List.replicate_succ', ← List.cons_append, ← List.append_assoc] at hsteps
    rw [hsteps] at reaches
    have there := reaches.isSome_of_stay ht (isSome_directoryId?_of_start ht hstart)
    rw [hdir] at there
    cases there
  | zero =>
    rw [List.replicate_zero] at hsteps
    rw [hsteps] at reaches
    have hslash := reaches.not_slashed rfl
    rcases reaches.of_create.of_follow hslash with same | ⟨l, k, link⟩
    · exact same.getLast?_location rfl hslash
    · exact absurd (Tree.locate_eq_ok_iff.mpr ⟨good, start, hstart, hsteps ▸ link⟩) (hlink l k)

end Host

end ContractBuild
