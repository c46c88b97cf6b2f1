import ContractBuild.Proofs.Build.Placement
import ContractBuild.Proofs.FileSystem.Copies
import ContractBuild.Proofs.FileSystem.Destinations

/-!
# Copies out of a link directory

The regular files in a link directory are copied in ascending order of their names, and each copy is
noted before it is made.  The destinations differ in their last name, so where they are neither links
nor names of one file, each holds its own file in the end.  A copy that fails ends the copying, with
those before it made; it has changed nothing itself, unless its destination is a file of somebody else,
which it has emptied.
-/

namespace ContractBuild

open Build

variable {σ : Type} {tc : Toolchain σ} {o : BuildOptions} {h : Host} {dir : Path} {d : Location}
  {m n : Name} {ms : List Name} {s t t' : Session σ} {target : OutputTarget} {linked : Option Name}
  {dest : Name → Path}

/-! ## What is copied -/

/-- The regular files that lie directly in a directory, in ascending order of their names. -/
def Host.filesIn (h : Host) (d : Location) : List Name :=
  (h.tree.names d).filter fun m ↦ (h.tree.fileId? (d ++ [m])).isSome

theorem Host.pairwise_filesIn (h : Host) (d : Location) : (h.filesIn d).Pairwise (· < ·) :=
  (h.tree.pairwise_names d).filter _

/-- Whether a path leads to a directory in which files and other directories can be looked up, and
nothing else lies. -/
structure Host.Offers (h : Host) (dir : Path) (d : Location) : Prop where
  /-- The tree is sound. -/
  sound : h.tree.Sound
  /-- The path leads to the directory. -/
  leads : h.directory dir = .ok d
  /-- It can be listed. -/
  readable : h.tree.allows d .read = true
  /-- Names can be looked up in it. -/
  searchable : h.tree.allows d .run = true
  /-- What lies in it has a name that can be looked up. -/
  named : ∀ m ∈ h.tree.names d, (Path.ofName m).IsName ∧ 0 ∉ m ∧ m.length ≤ nameLimit ∧
    (dir.join (.ofName m)).raw.length < pathLimit
  /-- It is a file or a directory. -/
  plain : ∀ m ∈ h.tree.names d,
    (h.tree.fileId? (d ++ [m])).isSome ∨ (h.tree.directoryId? (d ++ [m])).isSome

namespace Host.Offers

variable (offers : h.Offers dir d)

include offers

theorem mem_filesIn : m ∈ h.filesIn d ↔ ∃ f, h.tree.node? (d ++ [m]) = some (.file f) := by
  rw [filesIn, List.mem_filter, offers.sound.mem_names, Option.isSome_iff_exists]
  constructor
  · rintro ⟨-, id⟩
    obtain ⟨id, hid⟩ := Option.isSome_iff_exists.mp id
    obtain ⟨f, hf, -⟩ := Tree.fileId?_eq_some.mp hid
    exact ⟨f, hf⟩
  · rintro ⟨f, hf⟩
    exact ⟨⟨_, hf⟩, by rw [Tree.fileId?_eq_some.mpr ⟨f, hf, rfl⟩]; rfl⟩

theorem isName (hm : m ∈ h.filesIn d) : (Path.ofName m).IsName :=
  (offers.named m (List.mem_of_mem_filter hm)).1

theorem exists_locate : ∃ e, h.locate dir = .ok (.entry d (.directory e)) := by
  obtain ⟨⟨l, a⟩, hentry, hl⟩ := exists_of_bind_eq_ok offers.leads
  split at hl
  next heq =>
    obtain ⟨rfl, rfl⟩ := Prod.mk.inj heq
    obtain rfl := Except.ok.inj hl
    exact ⟨_, locate_of_entry hentry⟩
  next => cases hl

/-- What lies in the directory is a file or a directory. -/
theorem file_or_directory (hm : m ∈ h.tree.names d) :
    (∃ f, h.tree.node? (d ++ [m]) = some (.file f)) ∨
      ∃ e, h.tree.node? (d ++ [m]) = some (.directory e) := by
  refine (offers.plain m hm).imp (fun file ↦ ?_) Tree.isSome_directoryId?.mp
  obtain ⟨id, hid⟩ := Option.isSome_iff_exists.mp file
  obtain ⟨f, hf, -⟩ := Tree.fileId?_eq_some.mp hid
  exact ⟨f, hf⟩

/-- What lies in the directory is found behind its path. -/
theorem entry_join {a : Node} (ha : h.tree.node? (d ++ [m]) = some a) :
    h.entry (dir.join (.ofName m)) = .ok (d ++ [m], a) := by
  have there : m ∈ h.tree.names d := offers.sound.mem_names.mpr (by rw [ha]; rfl)
  obtain ⟨name, hzero, hlength, hpath⟩ := offers.named m there
  obtain ⟨e, he⟩ := offers.exists_locate
  obtain ⟨⟨hzero', hnil, -⟩, start, hstart, reaches⟩ := Tree.locate_eq_ok_iff.mp he
  obtain ⟨b, append⟩ := reaches.walk_append (List.cons_ne_nil (.enter m) [])
  have last : h.tree.walk b ⟨true, false⟩ false d [.enter m] = .ok (.entry (d ++ [m]) a) := by
    have admits : h.tree.Admits ⟨true, false⟩ false d m [] :=
      ⟨offers.searchable, by simp, hlength⟩
    rcases offers.file_or_directory there with ⟨f, hf⟩ | ⟨e', he'⟩
    · obtain rfl := Option.some.inj (ha.symm.trans hf)
      exact Tree.walk_last admits ha rfl rfl
    · obtain rfl := Option.some.inj (ha.symm.trans he')
      rw [Tree.walk_into admits ha, Tree.walk_nil, ha]
  refine entry_of_locate (Tree.locate_eq_ok_iff.mpr ⟨⟨?_, ?_, hpath⟩, start, ?_, ?_⟩)
  · rw [Path.join, name.isAbsolute, if_neg Bool.false_ne_true]
    split
    · simp [Path.ofName, hzero, hzero']
    · simp [Path.ofName, hzero, hzero', Path.slash]
  · rw [Path.join, name.isAbsolute, if_neg Bool.false_ne_true]
    split
    · simp [hnil]
    · simp
  · simpa only [Path.isAbsolute_join_iff name.isAbsolute] using hstart
  · rw [Path.endsInSlash_join name, Path.steps_join name]
    exact Tree.reaches_iff.mpr ((append _ _).trans last)

end Host.Offers

/-! ## Where it goes -/

/-- The destination of a file that the linker left in its own directory. -/
def BuildOptions.copyDestination (o : BuildOptions) (dir : Path) (m : Name) : Path :=
  (OutputTarget.resolve o.output o.workingDir).destination m
    ((linkedOutput o (.scoped dir)).map (·.raw))

/-- All destinations lie behind one path: the working directory, or the parent of the output, which
takes the file of its own name. -/
theorem BuildOptions.exists_above (o : BuildOptions) (dir : Path)
    (houtput : ∀ p, o.output = some p → p.fileName?.isSome) :
    ∃ above : Path,
      (∀ m, (Path.ofName m).IsName →
        (o.copyDestination dir m).components = above.components ++ [.name m]) ∧
      (o.output = none → above = o.workingDir) ∧
      ∀ p, o.output = some p → (o.workingDir.join p).parent? = some above ∧
        ∀ m, o.copyDestination dir m =
          if p.fileName? = some m then o.workingDir.join p else above.join (.ofName m) := by
  cases hout : o.output with
  | none =>
    refine ⟨o.workingDir, fun m hm ↦ ?_, fun _ ↦ rfl, fun _ hp ↦ by cases hp⟩
    rw [copyDestination, hout]
    exact Path.components_join_name hm
  | some p =>
    obtain ⟨n, hn⟩ := Option.isSome_iff_exists.mp (houtput p hout)
    have last : (o.workingDir.join p).fileName? = some n := Path.fileName?_join hn
    obtain ⟨above, habove, components⟩ := Path.components_of_fileName? last
    have goes (m : Name) : o.copyDestination dir m =
        if p.fileName? = some m then o.workingDir.join p else above.join (.ofName m) := by
      have told : (linkedOutput o (.scoped dir)).map (·.raw) = some n := by
        simp [linkedOutput, hout, hn, Path.ofName]
      rw [copyDestination, told, hout, hn]
      simp only [OutputTarget.resolve, OutputTarget.destination, habove, Option.getD_some]
    refine ⟨above, fun m hm ↦ ?_, fun h ↦ (by cases h), fun q hq ↦ ?_⟩
    · rw [goes m, hn]
      split
      next same =>
        obtain rfl := Option.some.inj same
        exact components
      next => exact Path.components_join_name hm
    · obtain rfl := Option.some.inj hq
      exact ⟨habove, goes⟩

/-- Whether the files of a directory can be copied to some destinations without one of them going
astray: no destination is a link, lies in the directory, is something other than a file or a
directory, or is another name of a file in the directory or at another destination. -/
structure Host.Accepts (h : Host) (d : Location) (dest : Name → Path) : Prop where
  /-- No destination is a link. -/
  noLink : ∀ m ∈ h.filesIn d, ∀ l k, h.locateLink (dest m) ≠ .ok (.entry l (.link k))
  /-- None lies in the directory. -/
  outside : ∀ m ∈ h.filesIn d, ∀ place, h.locateNew (dest m) = .ok place → ¬ d <+: place.location
  /-- What stands at one is a file or a directory. -/
  regular : ∀ m ∈ h.filesIn d, ∀ place, h.locateNew (dest m) = .ok place →
    ∀ a, h.tree.node? place.location = some a → (∃ f, a = .file f) ∨ ∃ e, a = .directory e
  /-- A file that stands at one is no other file of the directory. -/
  foreign : ∀ m ∈ h.filesIn d, ∀ place, h.locateNew (dest m) = .ok place →
    ∀ n ∈ h.filesIn d, ∀ id, h.tree.fileId? (d ++ [n]) = some id →
      h.tree.fileId? place.location ≠ some id
  /-- It stands at no other destination. -/
  single : ∀ m ∈ h.filesIn d, ∀ place, h.locateNew (dest m) = .ok place →
    ∀ n ∈ h.filesIn d, n ≠ m → ∀ place', h.locateNew (dest n) = .ok place' →
      ∀ id, h.tree.fileId? place.location = some id → h.tree.fileId? place'.location ≠ some id

namespace Host.Accepts

/-- Free names outside the directory are such destinations. -/
theorem of_free (goal : Name → Location) (outside : ∀ m ∈ h.filesIn d, ¬ d <+: goal m)
    (link : ∀ m ∈ h.filesIn d, h.locateLink (dest m) = .ok (.vacant (goal m)))
    (new : ∀ m ∈ h.filesIn d, h.locateNew (dest m) = .ok (.vacant (goal m))) :
    h.Accepts d dest := by
  have vacant {m : Name} (hm : m ∈ h.filesIn d) {place : Place}
      (hplace : h.locateNew (dest m) = .ok place) :
      place.location = goal m ∧ h.tree.node? place.location = none := by
    obtain rfl := Except.ok.inj ((new m hm).symm.trans hplace)
    exact ⟨rfl, Tree.shows_of_locate hplace⟩
  have nameless {m : Name} (hm : m ∈ h.filesIn d) {place : Place}
      (hplace : h.locateNew (dest m) = .ok place) : h.tree.fileId? place.location = none := by
    rw [Tree.fileId?, (vacant hm hplace).2, Option.bind_none]
  refine ⟨fun m hm l k hlink ↦ ?_, fun m hm place hplace ↦ ?_, fun m hm place hplace a ha ↦ ?_,
    fun m hm place hplace n hn id _ hid ↦ ?_, fun m hm place hplace n hn _ place' _ id hid ↦ ?_⟩
  · cases (link m hm).symm.trans hlink
  · rw [(vacant hm hplace).1]
    exact outside m hm
  · cases (vacant hm hplace).2.symm.trans ha
  · cases (nameless hm hplace).symm.trans hid
  · cases (nameless hm hplace).symm.trans hid

variable (accepts : h.Accepts d dest) (ht : h.tree.Sound)

include accepts

/-- No destination leads to a file of the directory. -/
theorem misses_source (hm : m ∈ h.filesIn d) (hn : n ∈ h.filesIn d) :
    h.Misses (dest m) (d ++ [n]) := fun place hplace ↦
  ⟨fun here ↦ accepts.outside m hm place hplace (here ▸ List.prefix_append _ _),
    accepts.foreign m hm place hplace n hn⟩

include ht

/-- No destination leads to where another file can be written. -/
theorem misses_destination (hname : ∀ m ∈ h.filesIn d, (dest m).fileName? = some m)
    (hm : m ∈ h.filesIn d) (hn : n ∈ h.filesIn d) (hne : n ≠ m) {place : Place}
    (hplace : h.locateNew (dest m) = .ok place) (hdir : h.tree.directoryId? place.location = none) :
    h.Misses (dest n) place.location := by
  refine fun place' hplace' ↦
    ⟨fun same ↦ hne ?_, accepts.single m hm place hplace n hn hne place' hplace'⟩
  have last := Host.getLast?_of_locateNew ht (hname m hm) (accepts.noLink m hm) hplace hdir
  have last' := Host.getLast?_of_locateNew ht (hname n hn) (accepts.noLink n hn) hplace' (same ▸ hdir)
  rw [same] at last'
  exact Option.some.inj (last'.symm.trans last)

end Host.Accepts

/-! ## One copy after the other -/

namespace Build

/-- From one session to another, files of a directory have been copied, one after the other and each
noted before. -/
inductive Copied (tc : Toolchain σ) (dir : Path) (dest : Name → Path) :
    Session σ → List Name → Session σ → Prop
  /-- Nothing has been copied. -/
  | nil (s : Session σ) : Copied tc dir dest s [] s
  /-- A file has been noted and copied, and then others have been. -/
  | cons {s t : Session σ} {m : Name} {ms : List Name} {h : Host}
      (hcopy : s.host.copy (dir.join (.ofName m)) (dest m) = (.ok (), h))
      (next : Copied tc dir dest
        ((s.echoed tc s!"cp {m.display} {(dest m).display}").withHost h) ms t) :
      Copied tc dir dest s (m :: ms) t

/-- A copy is noted, and then made or not. -/
theorem runIn_copy (source dest : Path) (shown : String) :
    (copy tc source shown dest).runIn s =
      let noted := s.echoed tc s!"cp {shown} {dest.display}"
      match s.host.copy source dest with
      | (.ok (), h) => (.ok (), noted.withHost h)
      | (.error cause, h) => (.error (.io (.copyingTo dest) cause), noted.withHost h) := by
  have noted : (copy tc source shown dest).runIn s =
      (settle (.copyingTo dest) (s.host.copy source dest)).runIn
        (s.echoed tc s!"cp {shown} {dest.display}") := rfl
  rw [noted]
  rcases s.host.copy source dest with ⟨_ | _, h⟩ <;> rfl

/-- The copies go on behind those that have been made. -/
theorem Copied.runIn_append (run : Copied tc dir (target.destination · linked) s ms t)
    (ns : List Name) : (copyEach tc dir target linked (ms ++ ns)).runIn s =
      (copyEach tc dir target linked ns).runIn t := by
  induction run with
  | nil s => rfl
  | cons hcopy _ ih =>
    rw [← ih, List.cons_append, copyEach]
    exact runIn_bind_of_ok (by rw [runIn_copy, hcopy])

/-- The first copy that fails ends them. -/
theorem Copied.runIn_error (run : Copied tc dir (target.destination · linked) s ms t)
    {cause : IoError} (ns : List Name)
    (hcopy : t.host.copy (dir.join (.ofName m)) (target.destination m linked) = (.error cause, h)) :
    (copyEach tc dir target linked (ms ++ m :: ns)).runIn s =
      (.error (.io (.copyingTo (target.destination m linked)) cause),
        (t.echoed tc s!"cp {m.display} {(target.destination m linked).display}").withHost h) := by
  rw [run.runIn_append, copyEach]
  exact runIn_bind_of_error (by rw [runIn_copy, hcopy])

/-- Either all files are copied, or the copies end with the first that fails. -/
theorem ends_copyEach_inTurn (ns : List Name) :
    Ends (copyEach tc dir target linked ns) s
      (fun _ t ↦ Copied tc dir (target.destination · linked) s ns t)
      (fun e t ↦ ∃ ms m rest t' cause h, ns = ms ++ m :: rest ∧
        Copied tc dir (target.destination · linked) s ms t' ∧
        t'.host.copy (dir.join (.ofName m)) (target.destination m linked) = (.error cause, h) ∧
        e = .io (.copyingTo (target.destination m linked)) cause ∧
        t = (t'.echoed tc
          s!"cp {m.display} {(target.destination m linked).display}").withHost h) := by
  induction ns generalizing s with
  | nil => exact ends_pure.mpr (.nil s)
  | cons m ns ih =>
    refine ends_bind.mpr (ends_bind.mpr (ends_echo.mpr (ends_bind.mpr (ends_host.mpr
      (ends_settle.mpr ⟨fun h hcopy ↦ ?_, fun cause h hcopy ↦ ?_⟩)))))
    · refine ih.mono (fun _ t run ↦ .cons hcopy run) ?_
      rintro _ t ⟨ms, m', rest, t', cause, h', rfl, run, failed, rfl, rfl⟩
      exact ⟨m :: ms, m', rest, t', cause, h', rfl, .cons hcopy run, failed, rfl, rfl⟩
    · exact ⟨[], m, ns, s, cause, h, rfl, .nil s, hcopy, rfl, rfl⟩

theorem Copied.runIn_eq (run : Copied tc dir (target.destination · linked) s ms t) :
    (copyEach tc dir target linked ms).runIn s = (.ok (), t) := by
  rw [← List.append_nil ms]
  exact run.runIn_append []

/-- Copies leave a sound tree. -/
theorem Copied.sound (ht : s.host.tree.Sound)
    (run : Copied tc dir (target.destination · linked) s ms t) : t.host.tree.Sound :=
  ((ends_copyEach ht ms (.refl ht)).of_ok run.runIn_eq).1.written.sound

/-- Each copy has been noted, and nothing is changed that no destination leads to. -/
theorem Copied.changes (ht : s.host.tree.Sound)
    (run : Copied tc dir (target.destination · linked) s ms t) :
    t.events = s.events ++
        ms.map (fun m ↦ .echo s!"cp {m.display} {(target.destination m linked).display}") ∧
      ∀ k, (∀ m ∈ ms, s.host.Misses (target.destination m linked) k) →
        t.host.tree.shape k = s.host.tree.shape k := by
  obtain ⟨written, events, -⟩ := (ends_copyEach ht ms (.refl ht)).of_ok run.runIn_eq
  refine ⟨events, fun k missed ↦ written.elsewhere k fun q hq ↦ ?_⟩
  obtain ⟨m, hm, rfl⟩ := List.mem_map.mp hq
  exact missed m hm

/-- Each destination holds what its file held. -/
theorem Copied.holds (offers : s.host.Offers dir d)
    (accepts : s.host.Accepts d (target.destination · linked))
    (hname : ∀ m ∈ s.host.filesIn d, (target.destination m linked).fileName? = some m)
    (hms : ∀ m ∈ ms, m ∈ s.host.filesIn d)
    (run : Copied tc dir (target.destination · linked) s ms t) (hm : m ∈ ms) :
    ∃ f place g, s.host.tree.node? (d ++ [m]) = some (.file f) ∧
      s.host.locateNew (target.destination m linked) = .ok place ∧
      t.host.entry (target.destination m linked) = .ok (place.location, .file g) ∧
      g.content = f.content := by
  have ht := offers.sound
  have here := hms m hm
  obtain ⟨f, hf⟩ := offers.mem_filesIn.mp here
  obtain ⟨written, -, located⟩ := (ends_copyEach ht ms (.refl ht)).of_ok run.runIn_eq
  obtain ⟨place, hplace, hdir⟩ := located m hm
  have spared (n : Name) (hn : n ∈ ms) := accepts.misses_source (hms n hn) here
  have holding : Ends (copyEach tc dir target linked ms) s _ _ :=
    ends_copyEach_holds ht (offers.entry_join hf) hplace ms
      (fun n hn hne ↦ accepts.misses_destination ht hname here (hms n hn) hne hplace hdir) spared
      (.refl ht) (fun _ hq ↦ by cases hq) (spared m hm) fun a ha ↦ by
        rcases accepts.regular m here place hplace a ha with file | ⟨e, rfl⟩
        · exact file
        · simp [Tree.directoryId?, ha, Node.directoryId?] at hdir
  obtain ⟨g, hg, content⟩ := holding.of_ok run.runIn_eq (.inl hm)
  exact ⟨f, place, g, hf, hplace, Host.entry_of_locateNew ht written.written.sound
    written.written.ways.forth written.written.cwd_eq hplace hg, content⟩

/-- What is copied out of a directory are the regular files in it, in ascending order. -/
theorem runIn_copyOut (offers : s.host.Offers dir d) :
    (copyOut tc dir target linked).runIn s =
      (copyEach tc dir target linked (s.host.filesIn d)).runIn s := by
  have listed : s.host.list dir = .ok (s.host.tree.names d) := by
    rw [Host.list, offers.leads]
    exact if_pos offers.readable
  have files : (s.host.tree.names d).filter (fun n ↦ s.host.isFile (dir.join (.ofName n))) =
      s.host.filesIn d := by
    refine List.filter_congr fun m hm ↦ ?_
    rcases offers.file_or_directory hm with ⟨f, hf⟩ | ⟨e, he⟩
    · simp [Host.isFile, offers.entry_join hf, Tree.fileId?, hf, Node.fileId?]
    · simp [Host.isFile, offers.entry_join he, Tree.fileId?, he, Node.fileId?]
  have looked : (copyOut tc dir target linked).runIn s =
      (value (.reading dir) (s.host.list dir) >>= fun names ↦ copyEach tc dir target linked
        (names.filter fun n ↦ s.host.isFile (dir.join (.ofName n)))).runIn s := rfl
  rw [looked, listed, ← files]
  rfl

/-- All of them have been copied if that succeeds. -/
theorem copied_of_copyOut (offers : s.host.Offers dir d)
    (hdone : (copyOut tc dir target linked).runIn s = (.ok (), t)) :
    Copied tc dir (target.destination · linked) s (s.host.filesIn d) t :=
  (ends_copyEach_inTurn _).of_ok ((runIn_copyOut offers).symm.trans hdone)

/-- The regular files in the directory that the linker had for itself are copied in ascending order,
each noted before, to destinations that differ in their last name, until all of them are copied or a
copy fails.  Nothing is changed by then that no destination of a copied file leads to, and each of these
holds its file if none goes astray.  The copy that fails has changed nothing, unless its destination is
a file of somebody else: then that is empty. -/
theorem files_of_copyOut (houtput : ∀ p, o.output = some p → p.fileName?.isSome)
    (offers : s.host.Offers dir d) :
    let dest := o.copyDestination dir
    let files := s.host.filesIn d
    let noted (m : Name) := s!"cp {m.display} {(dest m).display}"
    let copies := copyOut tc dir (OutputTarget.resolve o.output o.workingDir)
      ((linkedOutput o (.scoped dir)).map (·.raw))
    (files.Pairwise (· < ·) ∧
      ∀ m, m ∈ files ↔ ∃ f, s.host.tree.node? (d ++ [m]) = some (.file f)) ∧
    (∃ above : Path, (∀ m ∈ files, (dest m).components = above.components ++ [.name m]) ∧
      (o.output = none → above = o.workingDir) ∧
      ∀ p, o.output = some p → (o.workingDir.join p).parent? = some above ∧
        ∀ m, dest m = if p.fileName? = some m then o.workingDir.join p else above.join (.ofName m)) ∧
    (∀ m ∈ files, ∀ n ∈ files, m ≠ n → ¬ (dest m).Same (dest n)) ∧
    Ends copies s (fun _ t ↦ Copied tc dir dest s files t)
      (fun e t ↦ ∃ ms m rest t' cause h, files = ms ++ m :: rest ∧ Copied tc dir dest s ms t' ∧
        t'.host.copy (dir.join (.ofName m)) (dest m) = (.error cause, h) ∧
        (h = t'.host ∨
          ∃ g, t'.host.Withholds (dest m) g ∧ cause = .notAllowed ∧ h = t'.host.cleared g) ∧
        e = .io (.copyingTo (dest m)) cause ∧ t = (t'.echoed tc (noted m)).withHost h) ∧
    (∀ ms m rest t' cause h, files = ms ++ m :: rest → Copied tc dir dest s ms t' →
      t'.host.copy (dir.join (.ofName m)) (dest m) = (.error cause, h) →
      copies.runIn s =
        (.error (.io (.copyingTo (dest m)) cause), (t'.echoed tc (noted m)).withHost h)) ∧
    ∀ ms t, ms <+: files → Copied tc dir dest s ms t →
      t.events = s.events ++ ms.map (fun m ↦ .echo (noted m)) ∧
      (∀ k, (∀ m ∈ ms, s.host.Misses (dest m) k) →
        t.host.tree.shape k = s.host.tree.shape k) ∧
      (s.host.Accepts d dest →
        ∀ m ∈ ms, ∃ f place g, s.host.tree.node? (d ++ [m]) = some (.file f) ∧
          s.host.locateNew (dest m) = .ok place ∧
          t.host.entry (dest m) = .ok (place.location, .file g) ∧ g.content = f.content) := by
  intro dest files noted copies
  obtain ⟨above, components, spread⟩ := o.exists_above dir houtput
  have behind (m : Name) (hm : m ∈ files) : (dest m).components = above.components ++ [.name m] :=
    components m (offers.isName hm)
  have names (m : Name) (hm : m ∈ files) : (dest m).fileName? = some m :=
    Path.fileName?_of_components (behind m hm)
  have run : copies.runIn s = (copyEach tc dir (OutputTarget.resolve o.output o.workingDir)
      ((linkedOutput o (.scoped dir)).map (·.raw)) files).runIn s := runIn_copyOut offers
  refine ⟨⟨s.host.pairwise_filesIn d, fun m ↦ offers.mem_filesIn⟩, ⟨above, behind, spread⟩,
    fun m hm n hn hne same ↦ hne ?_, ?_, fun ms m rest t' cause h hfiles hrun hcopy ↦ ?_,
    fun ms t hms hrun ↦ ?_⟩
  · rw [Path.Same, behind m hm, behind n hn] at same
    simpa using same
  · unfold Ends
    rw [run]
    refine Ends.mono (ends_copyEach_inTurn files) (fun _ _ hrun ↦ hrun) ?_
    rintro e t ⟨ms, m, rest, t', cause, h, hfiles, hrun, hcopy, he, ht⟩
    have left := Host.host_of_copy_error (hrun.sound offers.sound) hcopy
    exact ⟨ms, m, rest, t', cause, h, hfiles, hrun, hcopy, left, he, ht⟩
  · rw [run, hfiles]
    exact hrun.runIn_error rest hcopy
  · obtain ⟨events, elsewhere⟩ := hrun.changes offers.sound
    exact ⟨events, elsewhere, fun accepts m hm ↦
      hrun.holds offers accepts names (fun n hn ↦ hms.subset hn) hm⟩

/-! ## Samples -/

/-- The host with assembly written by hand and a directory with two files that a linker left. -/
def linkedBeside : Host :=
  let inside (name : String) : Location :=
    [Bytes.ofString "w", Bytes.ofString "link", Bytes.ofString name]
  { handwritten with
    tree := ((handwritten.tree.addDirectory [Bytes.ofString "w", Bytes.ofString "link"]
      programMode).addFile (inside "c.boc") (Bytes.ofString "one") fileMode).addFile
      (inside "extra") (Bytes.ofString "two") fileMode }

/-- Options for a build whose output is in the working directory. -/
def intoWorkingDir : BuildOptions :=
  { BuildOptions.sample with output := some (.ofString "c.boc") }

theorem sound_linkedBeside : linkedBeside.tree.Sound :=
  ((sound_handwritten.addDirectory (by decide) (by decide) _).addFile (by decide) (by decide) _
    _).addFile (by decide) (by decide) _ _

instance (p : Path) : Decidable p.IsName := inferInstanceAs (Decidable (_ ∧ _))

/-- Both files of the sample are at their destinations after they have been copied. -/
theorem files_of_copyOut_sample :
    let dir := Path.ofString "/w/link"
    let d : Location := [Bytes.ofString "w", Bytes.ofString "link"]
    let s : Session Unit := ⟨linkedBeside, ⟨.ephemeral none, [], []⟩, (), []⟩
    s.host.filesIn d = [Bytes.ofString "c.boc", Bytes.ofString "extra"] ∧
      ∃ t, (copyOut .idle dir
          (OutputTarget.resolve intoWorkingDir.output intoWorkingDir.workingDir)
          ((linkedOutput intoWorkingDir (.scoped dir)).map (·.raw))).runIn s = (.ok (), t) ∧
        ∀ m ∈ s.host.filesIn d, ∃ l g,
          t.host.entry (intoWorkingDir.copyDestination dir m) = .ok (l, .file g) ∧
          g.content = s.host.contentAt (d ++ [m]) := by
  intro dir d s
  have offers : s.host.Offers dir d := ⟨sound_linkedBeside, by decide +kernel, by decide +kernel,
    by decide +kernel, by decide +kernel, by decide +kernel⟩
  have accepts : s.host.Accepts d (intoWorkingDir.copyDestination dir) :=
    .of_free (fun m ↦ [Bytes.ofString "w", m]) (by decide +kernel) (by decide +kernel)
      (by decide +kernel)
  have ending {r : Except BuildError Unit × Session Unit} (h : r.1 = .ok ()) :
      ∃ t, r = (.ok (), t) := ⟨r.2, Prod.ext h rfl⟩
  obtain ⟨t, done⟩ := ending (r := (copyOut .idle dir
    (OutputTarget.resolve intoWorkingDir.output intoWorkingDir.workingDir)
    ((linkedOutput intoWorkingDir (.scoped dir)).map (·.raw))).runIn s) (by decide +kernel)
  refine ⟨by decide +kernel, t, done, fun m hm ↦ ?_⟩
  have output : ∀ p, intoWorkingDir.output = some p → p.fileName?.isSome := by decide
  obtain ⟨-, -, -, -, -, effect⟩ := @files_of_copyOut Unit .idle _ _ _ _ output offers
  obtain ⟨f, place, g, hf, -, hg, content⟩ :=
    (effect _ t (List.prefix_refl _) (copied_of_copyOut offers done)).2.2 accepts m hm
  refine ⟨place.location, g, hg, content.trans ?_⟩
  rw [Host.contentAt, hf]

/-- A file of the working directory with two names. -/
def sharedFile : File := linkedBeside.tree.newFile (Bytes.ofString "old") fileMode

/-- The host on which the files of the linker go to one file. -/
def oneGoal : Host :=
  { linkedBeside with
    tree := (linkedBeside.tree.addFile [Bytes.ofString "w", Bytes.ofString "c.boc"]
      (Bytes.ofString "old") fileMode).set [Bytes.ofString "w", Bytes.ofString "extra"]
      (.file sharedFile) }

theorem sound_oneGoal : oneGoal.tree.Sound :=
  (sound_linkedBeside.addFile (by decide) (by decide) _ _).setFile (by decide) (by decide)
    (Nat.le_refl _) (by decide)

/-- Where the destinations are two names of one file, it holds the last of the files that were copied
to it, and the others are lost. -/
theorem copyOut_loses_file :
    let dir := Path.ofString "/w/link"
    let d : Location := [Bytes.ofString "w", Bytes.ofString "link"]
    let dest := intoWorkingDir.copyDestination dir
    let s : Session Unit := ⟨oneGoal, ⟨.ephemeral none, [], []⟩, (), []⟩
    let ended := (copyOut .idle dir
      (OutputTarget.resolve intoWorkingDir.output intoWorkingDir.workingDir)
      ((linkedOutput intoWorkingDir (.scoped dir)).map (·.raw))).runIn s
    s.host.Offers dir d ∧
      (∀ m ∈ s.host.filesIn d, s.host.locateLink (dest m) =
        .ok (.entry [Bytes.ofString "w", m] (.file sharedFile))) ∧
      ended.1 = .ok () ∧
      ∃ m ∈ s.host.filesIn d, s.host.contentAt (d ++ [m]) = Bytes.ofString "one" ∧
        ended.2.host.read (dest m) = .ok (Bytes.ofString "two") := by
  intro dir d dest s ended
  refine ⟨⟨sound_oneGoal, by decide +kernel, by decide +kernel, by decide +kernel,
    by decide +kernel, by decide +kernel⟩, by decide +kernel, by decide +kernel,
    Bytes.ofString "c.boc", by decide +kernel, by decide +kernel, by decide +kernel⟩

end Build

end ContractBuild
