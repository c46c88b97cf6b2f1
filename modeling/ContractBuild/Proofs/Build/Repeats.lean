import ContractBuild.Proofs.Build.Following
import ContractBuild.Proofs.Tool.Recipe

/-!
# Steps of a build that is made once more

A build that keeps its files is made once more, from the host on which it has ended.  The second run
is compared with the first one while both go on: each file holds in the second what it holds in the
first at that time, or what it holds in the end, and the files that the first has made by then hold
the same in both.  So the second run finds what the first one found wherever it looks, as long as the
build does not write what it reads as given.
-/

namespace ContractBuild

variable {σ α β : Type} {tc : Toolchain σ} {o : BuildOptions} {r : Recipe}

/-! ## What a build writes -/

/-- The outputs of a call.  What the build notes has none. -/
def Event.outputs (r : Recipe) : Event → List Path
  | .run i => r.outputs i
  | .echo _ => []

/-- The files that the build writes at its end: the assembly, or the code of the contract. -/
def BuildOptions.ownOutputs (o : BuildOptions) : List Path :=
  if o.asmOnly then [o.absolute o.assemblyOutput]
  else (o.output.map fun p ↦ sidecar (o.workingDir.join p)).toList

/-- The files that calls have provided for later ones: a call writes the file whenever it succeeds, or
is told to write a file that has been reserved for it. -/
inductive Recipe.Provides (r : Recipe) (o : BuildOptions) (events : List Event) (p : Path) : Prop
  /-- A call that succeeds has written it. -/
  | settled {i : Invocation} (hi : .run i ∈ events) (hp : r.Settles i p)
  /-- A job is told to write it, under its full path. -/
  | reserved {i : Invocation} (hi : .run i ∈ events) (habs : o.workingDir.isAbsolute)
      (hjob : ¬ i.asksToLink) (hp : i.written? = some p)

/-- What calls have provided once there is one more call. -/
theorem Recipe.Provides.of_concat {events : List Event} {e : Event} {p : Path}
    (hp : r.Provides o (events ++ [e]) p) :
    r.Provides o events p ∨ ∃ i, e = .run i ∧
      (r.Settles i p ∨ o.workingDir.isAbsolute ∧ ¬ i.asksToLink ∧ i.written? = some p) := by
  have last {i : Invocation} (hi : .run i ∈ events ++ [e]) : .run i ∈ events ∨ e = .run i :=
    (List.mem_append.mp hi).imp_right fun hi ↦ (List.mem_singleton.mp hi).symm
  cases hp with
  | settled hi hp =>
    exact (last hi).imp (fun hi ↦ .settled hi hp) fun he ↦ ⟨_, he, .inl hp⟩
  | reserved hi habs hjob hp =>
    exact (last hi).imp (fun hi ↦ .reserved hi habs hjob hp) fun he ↦ ⟨_, he, .inr ⟨habs, hjob, hp⟩⟩

namespace Session

variable {s t u : Session σ} {p q : Path} {n m : Nat}

/-- The files that a build writes from its event number `n` on: the outputs of the calls, and its own.
Those that it reserves are counted at any time. -/
def writesFrom (o : BuildOptions) (r : Recipe) (n : Nat) (s : Session σ) : List Path :=
  s.store.created.map (·.path) ++ (s.events.drop n).flatMap (Event.outputs r) ++ o.ownOutputs

theorem mem_writesFrom_of_created {a : Artifact} (ha : a ∈ s.store.created) :
    a.path ∈ s.writesFrom o r n :=
  List.mem_append_left _ (List.mem_append_left _ (List.mem_map_of_mem ha))

theorem mem_writesFrom_of_event {x : Event} (hx : x ∈ s.events.drop n) (hp : p ∈ x.outputs r) :
    p ∈ s.writesFrom o r n :=
  List.mem_append_left _ (List.mem_append_right _ (List.mem_flatMap_of_mem hx hp))

theorem mem_writesFrom_of_own (hp : p ∈ o.ownOutputs) : p ∈ s.writesFrom o r n :=
  List.mem_append_right _ hp

/-- Later on and from an earlier call on, no less is written. -/
theorem mem_writesFrom_mono (hp : p ∈ s.writesFrom o r n)
    (hcreated : s.store.created <+: t.store.created) (hevents : s.events <+: t.events)
    (hle : m ≤ n) : p ∈ t.writesFrom o r m := by
  rcases List.mem_append.mp hp with hp | hp
  · rcases List.mem_append.mp hp with hp | hp
    · obtain ⟨a, ha, rfl⟩ := List.mem_map.mp hp
      exact mem_writesFrom_of_created (hcreated.subset ha)
    · obtain ⟨x, hx, hp⟩ := List.mem_flatMap.mp hp
      obtain ⟨later, hlater⟩ := hevents
      refine mem_writesFrom_of_event (List.drop_subset_drop_left _ hle ?_) hp
      rw [← hlater, List.drop_append]
      exact List.mem_append_left _ hx
  · exact mem_writesFrom_of_own hp

/-- From one session to another, a build that keeps its files has gone on: it has written some of the
files that it writes, and nothing else. -/
structure Onward (o : BuildOptions) (r : Recipe) (s t : Session σ) : Prop where
  /-- The tree was coherent. -/
  coherent : s.host.tree.Coherent
  /-- The store keeps its files where it kept them. -/
  backend : t.store.backend = s.store.backend
  /-- Files stay on record. -/
  created : s.store.created <+: t.store.created
  /-- So does what has happened. -/
  events : s.events <+: t.events
  /-- Files have been written. -/
  host : s.host.Develops (· ∈ t.writesFrom o r s.events.length) t.host

namespace Onward

theorem refl (hs : s.host.tree.Coherent) : s.Onward o r s :=
  ⟨hs, rfl, List.prefix_rfl, List.prefix_rfl, .refl hs⟩

theorem trans (h : s.Onward o r t) (h' : t.Onward o r u) : s.Onward o r u where
  coherent := h.coherent
  backend := h'.backend.trans h.backend
  created := h.created.trans h'.created
  events := h.events.trans h'.events
  host := by
    have first := h.host.mono fun _ hq ↦ mem_writesFrom_mono hq h'.created h'.events (Nat.le_refl _)
    refine first.trans (h'.host.mono fun _ hq ↦ ?_) h.coherent.toSound
    exact mem_writesFrom_mono hq List.prefix_rfl List.prefix_rfl h.events.length_le

theorem echoed (hs : s.host.tree.Coherent) (line : String) : s.Onward o r (s.echoed tc line) :=
  ⟨hs, rfl, List.prefix_rfl, List.prefix_append _ _, .refl hs⟩

theorem withHost {h : Host} (hs : s.host.tree.Coherent) (w : s.host.Develops (· ∈ s.writesFrom o r s.events.length) h) :
    s.Onward o r (s.withHost h) :=
  ⟨hs, rfl, List.prefix_rfl, List.prefix_rfl, w⟩

/-- The host after a call is the one after it has written what it writes. -/
theorem host_called (htc : tc.Obeys r) (s : Session σ) (i : Invocation) :
    (s.called tc i).host =
      (r.puts i ((r.reads i).map s.host.content?)).foldl Host.put s.host := by
  rw [Session.host_called, htc.tree, ← Host.foldl_put_eq_withTree]

theorem called (htc : tc.Obeys r) (hs : s.host.tree.Coherent) (i : Invocation) :
    s.Onward o r (s.called tc i) where
  coherent := hs
  backend := rfl
  created := List.prefix_rfl
  events := List.prefix_append _ _
  host := by
    rw [host_called htc]
    refine Host.develops_puts hs fun x hx ↦ ?_
    exact mem_writesFrom_of_event (x := .run i) (by simp) (htc.own _ _ x hx)

end Onward

end Session

/-! ## Two runs in step -/

namespace Session

variable {e : Host} {s s' t t' : Session σ} {i : Invocation}

/-- A session of the second run belongs to one of the first: the same has happened, and the host of the
second is on its way to what there is in the end. -/
structure Twin (e : Host) (s s' : Session σ) : Prop where
  /-- The same files are on record. -/
  store : s'.store = s.store
  /-- The same has happened. -/
  events : s'.events = s.events
  /-- The host is on its way. -/
  host : e.Follows s.host s'.host

/-- Two runs are in step: moreover, what the first one has made by now holds the same in both. -/
structure InStep (o : BuildOptions) (r : Recipe) (e : Host) (s s' : Session σ) : Prop
    extends Twin e s s' where
  /-- The files that have been reserved hold the same. -/
  artifacts : ∀ a ∈ s.store.created, s.host.Agrees s'.host a.path
  /-- So do the files that calls have provided. -/
  provided : ∀ p, r.Provides o s.events p → s.host.Agrees s'.host p

theorem Twin.echoed (hs : Twin e s s') (line : String) :
    Twin e (s.echoed tc line) (s'.echoed tc line) :=
  ⟨hs.store, by rw [events_echoed, events_echoed, hs.events], hs.host⟩

namespace InStep

theorem echoed (hs : InStep o r e s s') (line : String) :
    InStep o r e (s.echoed tc line) (s'.echoed tc line) where
  toTwin := hs.toTwin.echoed line
  artifacts := hs.artifacts
  provided p hp := by
    rcases hp.of_concat with hp | ⟨i, hi, -⟩
    · exact hs.provided p hp
    · cases hi

/-- The same change keeps both runs in step. -/
theorem withHost {h h' : Host} (hs : InStep o r e s s') (ht : s.host.tree.Sound)
    (w : s.host.Written h) (F : e.Follows h h') (alter : s.host.Alter s'.host h h') :
    InStep o r e (s.withHost h) (s'.withHost h') where
  toTwin := ⟨hs.store, hs.events, F⟩
  artifacts a ha := (hs.artifacts a ha).alter ht w alter
  provided p hp := (hs.provided p hp).alter ht w alter

end InStep

/-- Whether a path leads to nothing that a build writes from its event number `n` on. -/
def LeavesAlone (o : BuildOptions) (r : Recipe) (h : Host) (s : Session σ) (n : Nat) (p : Path) :
    Prop :=
  ∀ place, h.locateNew p = .ok place → ∀ q ∈ s.writesFrom o r n, h.Misses q place.location

instance (h : Host) (s : Session σ) (n : Nat) (p : Path) : Decidable (s.LeavesAlone o r h n p) :=
  match hp : h.locateNew p with
  | .error _ => isTrue fun _ hplace ↦ by cases hp.symm.trans hplace
  | .ok place => decidable_of_iff (∀ q ∈ s.writesFrom o r n, h.Misses q place.location)
      ⟨fun hk _ hplace ↦ Except.ok.inj (hp.symm.trans hplace) ▸ hk, fun hk ↦ hk place hp⟩

/-- Whether nothing that a build reads as given is another name of something that it writes. -/
structure Unaliased (o : BuildOptions) (r : Recipe) (paths : List Path) (h : Host)
    (s : Session σ) : Prop where
  /-- No input is. -/
  inputs : ∀ p ∈ paths, s.LeavesAlone o r h 0 (o.absolute p)
  /-- A file that a call reads has been provided by an earlier call, or is not written from then
  on. -/
  tools : ∀ n i, s.events[n]? = some (.run i) → ∀ p ∈ r.reads i,
    r.Provides o (s.events.take n) p ∨ s.LeavesAlone o r h n p

/-- What is not written any more is in the end what it is. -/
theorem Onward.stored_of_leavesAlone {s₀ : Session σ} {n : Nat} {p : Path} (hs : s₀.Onward o r s)
    (ht : s.Onward o r t) (hp : t.LeavesAlone o r s₀.host n p) (hn : n ≤ s.events.length)
    {place : Place} (hplace : s.host.locateNew p = .ok place) :
    t.host.tree.stored place.location = s.host.tree.stored place.location := by
  have sound := hs.coherent.toSound
  obtain ⟨place₀, hlocation, hplace₀⟩ := hs.host.becomes.written.locateNew_before sound hplace
  rw [← hlocation]
  refine ht.host.elsewhere _ fun q hq ↦ ?_
  have later := mem_writesFrom_mono hq List.prefix_rfl List.prefix_rfl hn
  exact (hp place₀ hplace₀ q later).after hs.host.becomes.written sound hs.host.becomes.names

/-- What is not written any more holds the same in both runs. -/
theorem Twin.agrees {s₀ : Session σ} {n : Nat} {p : Path} (twin : Twin t.host s s')
    (hs : s₀.Onward o r s) (ht : s.Onward o r t) (hp : t.LeavesAlone o r s₀.host n p)
    (hn : n ≤ s.events.length) : s.host.Agrees s'.host p := by
  intro place hplace
  have same := (twin.host.nodes place.location).eq_of_end (hs.stored_of_leavesAlone ht hp hn hplace)
  exact Tree.content?_of_stored_eq same

end Session

/-! ## Steps that are repeated -/

/-- What makes a build repeatable, from where it starts to where it ends: deterministic tools, and
nothing read as given that the build writes. -/
structure Repeatable (tc : Toolchain σ) (o : BuildOptions) (r : Recipe) (paths : List Path)
    (s₀ e : Session σ) : Prop where
  /-- The tools are deterministic. -/
  obeys : tc.Obeys r
  /-- The store keeps its files. -/
  backend : s₀.store.backend = .persistent o.workingDir
  /-- It has not been asked for any. -/
  asked : s₀.store.asked = []
  /-- Nothing that is read as given is written. -/
  apart : e.Unaliased o r paths s₀.host

namespace Build

open Session

variable {s s₀ e : Session σ} {paths : List Path}

/-- A step goes on, and is repeated by any run in step: if it has ended with a value on the way to the
end, or with the error with which the build ends. -/
structure Repeats (o : BuildOptions) (r : Recipe) (e : Session σ) (b : Build σ α) (s : Session σ)
    (Q : α → Session σ → Prop) : Prop where
  /-- The step goes on. -/
  ends : Ends b s (fun a t ↦ s.Onward o r t ∧ Q a t) fun _ t ↦ s.Onward o r t
  /-- It is repeated. -/
  again : ∀ s', InStep o r e.host s s' → Ends b s
    (fun a t ↦ t.Onward o r e → ∃ t', b.runIn s' = (.ok a, t') ∧ InStep o r e.host t t')
    fun x t ↦ e = t → ∃ t', b.runIn s' = (.error x, t') ∧ Twin e.host t t'

/-- A step goes on to the end of a build, and any run in step comes to a twin of that. -/
structure Concludes (o : BuildOptions) (r : Recipe) (e : Session σ) (b : Build σ α)
    (s : Session σ) : Prop where
  /-- The step goes on. -/
  ends : Ends b s (fun _ t ↦ s.Onward o r t) fun _ t ↦ s.Onward o r t
  /-- Its end is repeated. -/
  again : ∀ s', InStep o r e.host s s' → ∀ x, b.runIn s = (x, e) →
    ∃ t', b.runIn s' = (x, t') ∧ Twin e.host e t'

namespace Repeats

variable {b : Build σ α} {f : α → Build σ β} {P : α → Session σ → Prop} {Q : β → Session σ → Prop}

theorem pure {a : α} (hs : s.host.tree.Coherent) (ha : P a s) : Repeats o r e (pure a) s P where
  ends := ends_pure.mpr ⟨.refl hs, ha⟩
  again s' hs' := ends_pure.mpr fun _ ↦ ⟨s', rfl, hs'⟩

theorem throw (x : BuildError) (hs : s.host.tree.Coherent) :
    Repeats o r e (throw x : Build σ α) s P where
  ends := ends_throw.mpr (.refl hs)
  again s' hs' := ends_throw.mpr fun _ ↦ ⟨s', rfl, hs'.toTwin⟩

theorem mono {P' : α → Session σ → Prop} (hb : Repeats o r e b s P)
    (hP : ∀ a t, s.Onward o r t → P a t → P' a t) : Repeats o r e b s P' where
  ends := hb.ends.mono (fun a t ⟨ht, ha⟩ ↦ ⟨ht, hP a t ht ha⟩) fun _ _ ht ↦ ht
  again := hb.again

/-- Two steps one after the other are repeated if each is. -/
theorem bind (hb : Repeats o r e b s P)
    (hf : ∀ a t, s.Onward o r t → P a t → Repeats o r e (f a) t Q) :
    Repeats o r e (b >>= f) s Q where
  ends := ends_bind.mpr <| hb.ends.mono (fun a t ⟨ht, ha⟩ ↦ (hf a t ht ha).ends.mono
    (fun _ _ ⟨hu, hc⟩ ↦ ⟨ht.trans hu, hc⟩) fun _ _ hu ↦ ht.trans hu) fun _ _ ht ↦ ht
  again s' hs' := by
    have first := ((ends_runIn b s).and hb.ends).and (hb.again s' hs')
    refine ends_bind.mpr (first.mono ?_ ?_)
    · rintro a t ⟨⟨-, ht, ha⟩, repeated⟩
      have next := hf a t ht ha
      refine ((ends_runIn (f a) t).and next.ends).mono ?_ ?_
      · rintro c u ⟨hrun, hu, -⟩ hend
        obtain ⟨t', hrun', step⟩ := repeated (hu.trans hend)
        obtain ⟨u', hrun'', step'⟩ := (next.again t' step).of_ok hrun hend
        exact ⟨u', (runIn_bind_of_ok hrun').trans hrun'', step'⟩
      · rintro x u ⟨hrun, hu⟩ rfl
        obtain ⟨t', hrun', step⟩ := repeated hu
        obtain ⟨u', hrun'', twin⟩ := (next.again t' step).of_error hrun rfl
        exact ⟨u', (runIn_bind_of_ok hrun').trans hrun'', twin⟩
    · rintro x t ⟨-, repeated⟩ hend
      obtain ⟨t', hrun', twin⟩ := repeated hend
      exact ⟨t', runIn_bind_of_error hrun', twin⟩

/-- A step that is repeated can be the last one. -/
theorem concludes (hb : Repeats o r e b s P) : Concludes o r e b s where
  ends := hb.ends.mono (fun _ _ h ↦ h.1) fun _ _ h ↦ h
  again s' hs' x hrun := by
    cases x with
    | error x => exact (hb.again s' hs').of_error hrun rfl
    | ok a =>
      obtain ⟨hend, -⟩ := hb.ends.of_ok hrun
      obtain ⟨t', hrun', step⟩ := (hb.again s' hs').of_ok hrun (.refl hend.host.coherent)
      exact ⟨t', hrun', step.toTwin⟩

end Repeats

namespace Concludes

variable {b : Build σ α} {f : α → Build σ β} {P : α → Session σ → Prop}

/-- What comes before the last step is repeated. -/
theorem bind (hb : Repeats o r e b s P)
    (hf : ∀ a t, s.Onward o r t → P a t → Concludes o r e (f a) t) :
    Concludes o r e (b >>= f) s where
  ends := ends_bind.mpr <| hb.ends.mono (fun a t ⟨ht, ha⟩ ↦ (hf a t ht ha).ends.mono
    (fun _ _ hu ↦ ht.trans hu) fun _ _ hu ↦ ht.trans hu) fun _ _ ht ↦ ht
  again s' hs' x hrun := by
    rw [runIn_bind] at hrun
    rcases hfirst : b.runIn s with ⟨y | a, t⟩
    · rw [hfirst] at hrun
      obtain ⟨rfl, rfl⟩ := Prod.mk.inj hrun
      obtain ⟨t', hrun', twin⟩ := (hb.again s' hs').of_error hfirst rfl
      exact ⟨t', runIn_bind_of_error hrun', twin⟩
    · rw [hfirst] at hrun
      obtain ⟨ht, ha⟩ := hb.ends.of_ok hfirst
      have last := hf a t ht ha
      have hend : t.Onward o r e := by
        cases x with
        | ok c => exact last.ends.of_ok hrun
        | error y => exact last.ends.of_error hrun
      obtain ⟨t', hrun', step⟩ := (hb.again s' hs').of_ok hfirst hend
      obtain ⟨u', hrun'', twin⟩ := last.again t' step x hrun
      exact ⟨u', (runIn_bind_of_ok hrun').trans hrun'', twin⟩

/-- What a last step gives may be put in another form. -/
theorem map {f : α → β} (hb : Concludes o r e b s) :
    Concludes o r e (b >>= fun a ↦ Pure.pure (f a)) s where
  ends := ends_bind.mpr hb.ends
  again s' hs' x hrun := by
    rw [runIn_bind] at hrun
    rcases hfirst : b.runIn s with ⟨y | a, t⟩ <;> rw [hfirst] at hrun <;>
      obtain ⟨rfl, rfl⟩ := Prod.mk.inj hrun <;>
      obtain ⟨t', hrun', twin⟩ := hb.again s' hs' _ hfirst
    · exact ⟨t', runIn_bind_of_error hrun', twin⟩
    · exact ⟨t', runIn_bind_of_ok hrun', twin⟩

/-- A last step may depend on the host. -/
theorem host {f : Host → Build σ α} (hf : Concludes o r e (f s.host) s)
    (same : s.Onward o r e → ∀ s', InStep o r e.host s s' → f s'.host = f s.host) :
    Concludes o r e (host >>= f) s where
  ends := hf.ends
  again s' hs' x hrun := by
    have hrun : (f s.host).runIn s = (x, e) := hrun
    have hend : s.Onward o r e := by
      cases x with
      | ok a => exact hf.ends.of_ok hrun
      | error y => exact hf.ends.of_error hrun
    obtain ⟨t', hrun', twin⟩ := hf.again s' hs' x hrun
    exact ⟨t', by rw [← same hend s' hs'] at hrun'; exact hrun', twin⟩

end Concludes

/-! ## Operations -/

/-- Sees what an operation finds on the host. -/
def look (activity : Activity) (op : Host → Except IoError α) : Build σ α :=
  host >>= fun h ↦ value activity (op h)

/-- Does with the host what an operation does, which may fail. -/
def attempt (activity : Activity) (op : Host → Except IoError Unit × Host) : Build σ Unit :=
  host >>= fun h ↦ settle activity (op h)

/-- Changes the host by an operation. -/
def alter (activity : Activity) (op : Host → Except IoError Host) : Build σ Unit :=
  host >>= fun h ↦ change activity (op h)

theorem repeats_echo (hs : s.host.tree.Coherent) (line : String) :
    Repeats o r e (echo tc line) s fun _ t ↦ t = s.echoed tc line where
  ends := ends_echo.mpr ⟨.echoed hs line, rfl⟩
  again s' hs' := ends_echo.mpr fun _ ↦ ⟨s'.echoed tc line, rfl, hs'.echoed line⟩

variable {activity : Activity}

/-- What is found on one host is found on the other, if it does not change any more. -/
theorem repeats_look {op : Host → Except IoError α} (hs : s.host.tree.Coherent)
    (hok : ∀ a, op s.host = .ok a → s.Onward o r e → ∀ s', InStep o r e.host s s' →
      op s'.host = .ok a)
    (herror : ∀ x h, op s.host = .error x → s.host.Alike h → op h = .error x) :
    Repeats o r e (look activity op) s fun a t ↦ t = s ∧ op s.host = .ok a where
  ends := ends_bind.mpr <| ends_host.mpr <| ends_value.mpr
    ⟨fun _ ha ↦ ⟨.refl hs, rfl, ha⟩, fun _ _ ↦ .refl hs⟩
  again s' hs' := by
    refine ends_bind.mpr <| ends_host.mpr <| ends_value.mpr ⟨fun a ha hend ↦ ?_, fun x hx hend ↦ ?_⟩
    · refine ⟨s', ?_, hs'⟩
      change (value activity (op s'.host)).runIn s' = _
      rw [hok a ha hend s' hs']
      rfl
    · have alike := hs'.host.alike hs.toSound (congrArg Session.host hend)
      refine ⟨s', ?_, hs'.toTwin⟩
      change (value activity (op s'.host)).runIn s' = _
      rw [herror x _ hx alike]
      rfl

theorem runIn_alter_of_ok {op : Host → Except IoError Host} {h : Host} (hh : op s.host = .ok h) :
    (alter activity op).runIn s = (.ok (), s.withHost h) := by
  change (change activity (op s.host)).runIn s = _
  rw [hh]
  rfl

theorem runIn_alter_of_error {op : Host → Except IoError Host} {x : IoError}
    (hh : op s.host = .error x) : (alter activity op).runIn s = (.error (.io activity x), s) := by
  change (change activity (op s.host)).runIn s = _
  rw [hh]
  rfl

theorem ends_alter {op : Host → Except IoError Host} (hs : s.host.tree.Coherent)
    (hok : ∀ h, op s.host = .ok h → s.host.Develops (· ∈ s.writesFrom o r s.events.length) h) :
    Ends (alter activity op) s (fun _ t ↦ s.Onward o r t) fun _ t ↦ s.Onward o r t :=
  ends_bind.mpr <| ends_host.mpr <| ends_change.mpr
    ⟨fun h hh ↦ .withHost hs (hok h hh), fun _ _ ↦ .refl hs⟩

/-- A change is made on the other host, too. -/
theorem repeats_alter {op : Host → Except IoError Host} (hs : s.host.tree.Coherent)
    (hok : ∀ h, op s.host = .ok h → s.host.Develops (· ∈ s.writesFrom o r s.events.length) h)
    (hagain : ∀ h, op s.host = .ok h → (s.withHost h).Onward o r e → ∀ s', InStep o r e.host s s' →
      ∃ h', op s'.host = .ok h' ∧ e.host.Follows h h' ∧ s.host.Alter s'.host h h')
    (herror : ∀ x h, op s.host = .error x → s.host.Alike h → h.tree.Coherent → op h = .error x) :
    Repeats o r e (alter activity op) s fun _ _ ↦ True where
  ends := (ends_alter hs hok).mono (fun _ _ h ↦ ⟨h, trivial⟩) fun _ _ h ↦ h
  again s' hs' := by
    refine ends_bind.mpr <| ends_host.mpr <| ends_change.mpr ⟨fun h hh hend ↦ ?_, fun x hx hend ↦ ?_⟩
    · obtain ⟨h', hh', F, alter⟩ := hagain h hh hend s' hs'
      refine ⟨s'.withHost h', runIn_alter_of_ok hh', hs'.withHost hs.toSound ?_ F alter⟩
      exact (hok h hh).becomes.written
    · have alike := hs'.host.alike hs.toSound (congrArg Session.host hend)
      exact ⟨s', runIn_alter_of_error (herror x _ hx alike hs'.host.coherent), hs'.toTwin⟩

/-- What a build does last is done on the other host, too, also where it fails. -/
theorem concludes_attempt {op : Host → Except IoError Unit × Host} (hs : s.host.tree.Coherent)
    (w : s.host.Develops (· ∈ s.writesFrom o r s.events.length) (op s.host).2)
    (hagain : ∀ x h, op s.host = (x, h) → h = e.host → s.Onward o r e → ∀ s', InStep o r e.host s s' →
      ∃ h', op s'.host = (x, h') ∧ e.host.Follows h h') :
    Concludes o r e (attempt activity op) s where
  ends := ends_bind.mpr (ends_host.mpr (ends_settle_snd (.withHost hs w)))
  again s' hs' x hrun := by
    rcases hop : op s.host with ⟨y, h⟩
    have hrun : (settle activity (op s.host)).runIn s = (x, e) := hrun
    rw [hop] at hrun w
    obtain ⟨rfl, rfl⟩ := Prod.mk.inj hrun
    obtain ⟨h', hh', F⟩ := hagain y h hop rfl (.withHost hs w) s' hs'
    refine ⟨s'.withHost h', ?_, hs'.store, hs'.events, F⟩
    change (settle activity (op s'.host)).runIn s' = _
    rw [hh']
    rfl

/-! ## Reserved files -/

section

variable {kind : ArtifactKind} {p : Path} (hnext : s.store.nextPath? kind = some p)

include hnext

theorem runIn_reserve_of_ok {h : Host} (hh : s.host.write p [] = .ok h) :
    (reserve kind).runIn s = (.ok p, { s with store := (s.store.ask kind).record p kind, host := h }) := by
  rw [reserve, runIn_ofResult, ArtifactStore.reserve, hnext]
  simp only [hh]

theorem runIn_reserve_of_error {x : IoError} (hh : s.host.write p [] = .error x) :
    (reserve kind).runIn s = (.error (.io (.creating p) x), { s with store := s.store.ask kind }) := by
  rw [reserve, runIn_ofResult, ArtifactStore.reserve, hnext]
  simp only [hh]

/-- A file is reserved in both runs.  It is on record, and may be appended to. -/
theorem repeats_reserve (hs : s.host.tree.Coherent) : Repeats o r e (reserve kind) s fun q t ↦
    q = p ∧ t.store.asked = s.store.asked ++ [kind] ∧ (∃ a ∈ t.store.created, a.path = p) ∧
      ∃ l, t.host.appendTarget p = .ok l := by
  cases hh : s.host.write p [] with
  | error x =>
    have hrun := runIn_reserve_of_error hnext hh
    constructor
    · rw [Ends, hrun]
      exact ⟨hs, rfl, List.prefix_rfl, List.prefix_rfl, .refl hs⟩
    · intro s' hs'
      rw [Ends, hrun]
      rintro rfl
      have hh' := (hs'.host.alike hs.toSound rfl).write_error hs hs'.host.coherent hh
      refine ⟨_, runIn_reserve_of_error (by rw [hs'.store, hnext]) hh', ?_, hs'.events, hs'.host⟩
      exact congrArg (ArtifactStore.ask · kind) hs'.store
  | ok h =>
    have hrun := runIn_reserve_of_ok hnext hh
    let a : Artifact := ⟨p, kind, s.store.isPersistent⟩
    have own : a ∈ ((s.store.ask kind).record p kind).created :=
      List.mem_append_right _ (List.mem_singleton.mpr rfl)
    have w := Host.develops_write hs hh (P := fun q ↦ q = p) rfl
    constructor
    · rw [Ends, hrun]
      let t : Session σ := { s with store := (s.store.ask kind).record p kind, host := h }
      have listed : p ∈ t.writesFrom o r s.events.length := mem_writesFrom_of_created (s := t) own
      refine ⟨⟨hs, rfl, List.prefix_append _ _, List.prefix_rfl, w.mono ?_⟩, rfl, rfl, ⟨a, own, rfl⟩,
        Host.exists_appendTarget_of_write hs hh⟩
      rintro q rfl
      exact listed
    · intro s' hs'
      rw [Ends, hrun]
      intro hend
      obtain ⟨h', hh', F, alter, agrees⟩ := hs'.host.write (w.becomes.trans hend.host.becomes) hs
        hend.host.coherent hend.host.becomes hh
      have kept {q : Path} (hq : s.host.Agrees s'.host q) : h.Agrees h' q :=
        hq.alter hs.toSound w.becomes.written alter
      refine ⟨_, runIn_reserve_of_ok (by rw [hs'.store, hnext]) hh', ⟨?_, hs'.events, F⟩,
        fun b hb ↦ ?_, fun q hq ↦ kept (hs'.provided q hq)⟩
      · exact congrArg (fun store ↦ (ArtifactStore.ask store kind).record p kind) hs'.store
      · rcases List.mem_append.mp hb with hb | hb
        · exact kept (hs'.artifacts b hb)
        · obtain rfl := List.mem_singleton.mp hb
          exact agrees

end

/-! ## Calls -/

section

variable {i : Invocation} {s' : Session σ} (R : Repeatable tc o r paths s₀ e)
  (hs : s₀.Onward o r s)

include R hs

/-- A call finds the same in the files that it reads. -/
theorem contents_eq (hend : (s.called tc i).Onward o r e) (hs' : InStep o r e.host s s') :
    (r.reads i).map s'.host.content? = (r.reads i).map s.host.content? := by
  have onward : s.Onward o r e := (Onward.called R.obeys hs.host.coherent i).trans hend
  refine List.map_congr_left fun p hp ↦ ?_
  obtain ⟨after, hevents⟩ := hend.events
  have here : e.events[s.events.length]? = some (.run i) := by simp [← hevents]
  have before : e.events.take s.events.length = s.events := by simp [← hevents]
  refine hs'.host.content?_eq onward.host.becomes hs.host.coherent.toSound ?_
  rcases R.apart.tools _ i here p hp with provided | alone
  · exact hs'.provided p (before ▸ provided)
  · exact hs'.toTwin.agrees hs onward alone (Nat.le_refl _)

/-- Calls in two runs in step answer the same, and leave a twin with the same in what they have
written. -/
theorem called_again (hend : (s.called tc i).Onward o r e) (hs' : InStep o r e.host s s') :
    (tool tc i).runIn s' = ((tc.run i s.tools s.host).outcome, s'.called tc i) ∧
      Twin e.host (s.called tc i) (s'.called tc i) ∧
      s.host.Alter s'.host (s.called tc i).host (s'.called tc i).host ∧
      ∀ p b, (p, b) ∈ r.puts i ((r.reads i).map s.host.content?) →
        (s.called tc i).host.Agrees (s'.called tc i).host p := by
  have same := contents_eq R hs hend hs'
  have host := Onward.host_called R.obeys s i
  have host' := Onward.host_called R.obeys s' i
  rw [same] at host'
  have w := hend.host.becomes
  rw [host] at w
  obtain ⟨F, alter, agrees⟩ := hs'.host.puts hs.host.coherent hend.host.coherent w
  rw [← host, ← host'] at F alter agrees
  refine ⟨?_, ⟨hs'.store, ?_, F⟩, alter, fun p b hb ↦ agrees _ hb⟩
  · change ((tc.run i s'.tools s'.host).outcome, s'.called tc i) = _
    rw [R.obeys.outcome, R.obeys.outcome, same]
  · rw [events_called, events_called, hs'.events]

/-- A call is repeated.  A job in an absolute working directory is told to write a file that has been
reserved. -/
theorem repeats_tool
    (hjob : o.workingDir.isAbsolute → ¬ i.asksToLink → ∀ p, i.written? = some p →
      ∃ a ∈ s.store.created, a.path = p) :
    Repeats o r e (tool tc i) s fun _ t ↦ t = s.called tc i := by
  have onward : s.Onward o r (s.called tc i) := .called R.obeys hs.host.coherent i
  constructor
  · exact ends_tool.mpr ⟨fun _ _ ↦ ⟨onward, rfl⟩, fun _ _ ↦ onward⟩
  · intro s' hs'
    refine ends_tool.mpr ⟨fun out hout hend ↦ ?_, fun x hx hend ↦ ?_⟩
    · obtain ⟨hrun, twin, alter, agrees⟩ := called_again R hs hend hs'
      have kept {p : Path} (hp : s.host.Agrees s'.host p) :
          (s.called tc i).host.Agrees (s'.called tc i).host p :=
        hp.alter hs.host.coherent.toSound onward.host.becomes.written alter
      refine ⟨_, hrun.trans (by rw [hout]), twin, fun a ha ↦ kept (hs'.artifacts a ha), fun p hp ↦ ?_⟩
      rcases hp.of_concat with hp | ⟨j, hj, hp⟩
      · exact kept (hs'.provided p hp)
      · obtain rfl := Event.run.inj hj
        rcases hp with settles | ⟨habs, hlink, hp⟩
        · rw [R.obeys.outcome] at hout
          obtain ⟨b, hb⟩ := settles _ out hout
          exact agrees p b hb
        · obtain ⟨a, ha, rfl⟩ := hjob habs hlink p hp
          exact kept (hs'.artifacts a ha)
    · subst hend
      obtain ⟨hrun, twin, -⟩ := called_again R hs (.refl onward.host.coherent) hs'
      exact ⟨_, hrun.trans (by rw [hx]), twin⟩

end

end Build

end ContractBuild
