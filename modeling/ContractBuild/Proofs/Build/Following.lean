import ContractBuild.Proofs.Build.Plan
import Mathlib.Data.List.Forall2

/-!
# Steps that follow a plan

A step `Follows` a plan if it goes through the plan move by move, to the end if it succeeds, and if
it fails up to some point, which is right behind a failed tool run if that is what failed.  The
rules here are those of the steps that every stage is made of.
-/

namespace ContractBuild

variable {σ α β : Type}

/-- Whether everything in a log succeeded, or all but a tool run at its end that failed with this
error. -/
def StopsWith (e : BuildError) (log : List LogEntry) : Prop :=
  (∀ x ∈ log, x.Succeeds) ∨
    ∃ before r, log = before ++ [.run r] ∧ (∀ x ∈ before, x.Succeeds) ∧ r.outcome = .error e

/-- What has been added to a session by some moves, which the log tells of. -/
structure Advances (s s' : Session (σ × List LogEntry)) (moves : List Move)
    (log : List LogEntry) : Prop where
  /-- The log of the toolchain has grown by this. -/
  log_eq : s'.tools.2 = s.tools.2 ++ log
  /-- So have the events. -/
  events_eq : s'.events = s.events ++ log.map LogEntry.event
  /-- The log tells of the moves. -/
  moved : List.Forall₂ Move.Matches moves log
  /-- The files reserved for the moves are on record, and no others. -/
  created_eq : s'.store.created =
    s.store.created ++ moves.filterMap (Move.record? s.store.isPersistent)
  /-- The store keeps its files where it kept them. -/
  backend_eq : s'.store.backend = s.store.backend

namespace Advances

variable {s s' s'' : Session (σ × List LogEntry)}

theorem refl (s : Session (σ × List LogEntry)) : Advances s s [] [] :=
  ⟨by simp, by simp, .nil, by simp, rfl⟩

theorem isPersistent_eq {ms : List Move} {log : List LogEntry} (h : Advances s s' ms log) :
    s'.store.isPersistent = s.store.isPersistent := by
  simp only [ArtifactStore.isPersistent, h.backend_eq]

theorem trans {ms ms' : List Move} {log log' : List LogEntry} (h : Advances s s' ms log)
    (h' : Advances s' s'' ms' log') : Advances s s'' (ms ++ ms') (log ++ log') where
  log_eq := by rw [h'.log_eq, h.log_eq, List.append_assoc]
  events_eq := by rw [h'.events_eq, h.events_eq, List.map_append, List.append_assoc]
  moved := List.rel_append h.moved h'.moved
  created_eq := by
    rw [h'.created_eq, h.created_eq, h.isPersistent_eq, List.filterMap_append, List.append_assoc]
  backend_eq := h'.backend_eq.trans h.backend_eq

end Advances

namespace ArtifactStore

variable {s : ArtifactStore} {h : Host} {kind : ArtifactKind}

/-- A file that was reserved has the next path and is on record. -/
theorem reserve_of_ok {p next : Path} (hp : (s.reserve h kind).1 = .ok p)
    (hnext : s.nextPath? kind = some next) :
    p = next ∧ (s.reserve h kind).2.1 = (s.ask kind).record next kind := by
  unfold reserve at hp ⊢
  rw [hnext] at hp ⊢
  cases hw : h.write next [] with
  | ok h' =>
    simp only [hw, Except.ok.injEq] at hp ⊢
    exact ⟨hp.symm, trivial⟩
  | error cause => simp only [hw, reduceCtorEq] at hp

/-- Where no file was reserved, only the question is on record. -/
theorem reserve_of_error {e : BuildError} (he : (s.reserve h kind).1 = .error e) :
    (s.reserve h kind).2.1 = s.ask kind := by
  unfold reserve at he ⊢
  cases hnext : s.nextPath? kind with
  | none => rfl
  | some p =>
    simp only [hnext] at he ⊢
    cases hw : h.write p [] with
    | ok h' => simp only [hw, reduceCtorEq] at he
    | error cause => rfl

/-- A file is reserved by writing it empty. -/
theorem write_of_reserve {p : Path} (hp : (s.reserve h kind).1 = .ok p) :
    s.nextPath? kind = some p ∧ h.write p [] = .ok (s.reserve h kind).2.2 := by
  unfold reserve at hp ⊢
  cases hnext : s.nextPath? kind with
  | none => simp only [hnext, reduceCtorEq] at hp
  | some q =>
    simp only [hnext] at hp ⊢
    cases hw : h.write q [] with
    | error cause => simp only [hw, reduceCtorEq] at hp
    | ok h' =>
      simp only [hw, Except.ok.injEq] at hp ⊢
      subst hp
      exact ⟨rfl, hw⟩

/-- A store stays where it is. -/
@[simp] theorem backend_reserve (s : ArtifactStore) (h : Host) (kind : ArtifactKind) :
    (s.reserve h kind).2.1.backend = s.backend := by
  unfold reserve
  split
  next => rfl
  next => split <;> rfl

/-- Nothing comes on record but the file that was reserved. -/
theorem mem_created_reserve {a : Artifact} (ha : a ∈ (s.reserve h kind).2.1.created) :
    a ∈ s.created ∨ s.nextPath? kind = some a.path := by
  cases hr : (s.reserve h kind).1 with
  | error e =>
    rw [reserve_of_error hr] at ha
    exact .inl ha
  | ok p =>
    have hnext := (write_of_reserve hr).1
    rw [(reserve_of_ok hr hnext).2] at ha
    refine (List.mem_append.mp ha).imp_right fun ha ↦ ?_
    rw [List.mem_singleton.mp ha]
    exact hnext

/-- Where no file can be reserved nothing is written. -/
theorem host_of_reserve_error {e : BuildError} (he : (s.reserve h kind).1 = .error e) :
    (s.reserve h kind).2.2 = h := by
  unfold reserve at he ⊢
  cases hnext : s.nextPath? kind with
  | none => rfl
  | some q =>
    simp only [hnext] at he ⊢
    cases hw : h.write q [] with
    | error cause => rfl
    | ok h' => simp only [hw, reduceCtorEq] at he

end ArtifactStore

namespace Build

/-- From session `s`, step `b` goes through a plan: to the end if it succeeds, and then it ends in
`Q`, or up to where it fails. -/
def Follows (b : Build (σ × List LogEntry) α) (s : Session (σ × List LogEntry)) (plan : List Move)
    (Q : α → Session (σ × List LogEntry) → Prop) : Prop :=
  Ends b s
    (fun a s' ↦ (∃ log, Advances s s' plan log ∧ ∀ x ∈ log, x.Succeeds) ∧
      s'.store.asked = s.store.asked ++ plan.filterMap Move.kind? ∧ Q a s')
    (fun e s' ↦ ∃ moves log, moves <+: plan ∧ Advances s s' moves log ∧ StopsWith e log)

variable {s : Session (σ × List LogEntry)} {p q : List Move}

theorem follows_pure {a : α} {Q : α → Session (σ × List LogEntry) → Prop} (h : Q a s) :
    Follows (pure a) s [] Q :=
  ends_pure.mpr ⟨⟨[], .refl s, by simp⟩, by simp, h⟩

theorem follows_throw {e : BuildError} {Q : α → Session (σ × List LogEntry) → Prop} :
    Follows (throw e) s p Q :=
  ends_throw.mpr ⟨[], [], List.nil_prefix, .refl s, .inl (by simp)⟩

/-- A step that fails on its own part of a plan has followed any plan that starts with it. -/
theorem Follows.bind {b : Build (σ × List LogEntry) β}
    {f : β → Build (σ × List LogEntry) α} {P : β → Session (σ × List LogEntry) → Prop}
    {Q : α → Session (σ × List LogEntry) → Prop} (h : Follows b s p P)
    (hf : ∀ a s', P a s' → s'.store.backend = s.store.backend →
      s'.store.asked = s.store.asked ++ p.filterMap Move.kind? → Follows (f a) s' q Q) :
    Follows (b >>= f) s (p ++ q) Q := by
  refine ends_bind.mpr (Ends.mono h ?_ ?_)
  · rintro a s' ⟨⟨log, adv, succ⟩, asked, hP⟩
    refine Ends.mono (hf a s' hP adv.backend_eq asked) ?_ ?_
    · rintro c s'' ⟨⟨log', adv', succ'⟩, asked', hQ⟩
      refine ⟨⟨log ++ log', adv.trans adv', ?_⟩, ?_, hQ⟩
      · exact fun x hx ↦ (List.mem_append.mp hx).elim (succ x) (succ' x)
      · rw [asked', asked, List.filterMap_append, List.append_assoc]
    · rintro e s'' ⟨moves, log', hmoves, adv', stop⟩
      refine ⟨p ++ moves, log ++ log', (List.prefix_append_right_inj p).mpr hmoves,
        adv.trans adv', ?_⟩
      rcases stop with succ' | ⟨before, r, rfl, succ', hr⟩
      · exact .inl fun x hx ↦ (List.mem_append.mp hx).elim (succ x) (succ' x)
      · refine .inr ⟨log ++ before, r, (List.append_assoc ..).symm, ?_, hr⟩
        exact fun x hx ↦ (List.mem_append.mp hx).elim (succ x) (succ' x)
  · rintro e s' ⟨moves, log, hmoves, adv, stop⟩
    exact ⟨moves, log, hmoves.trans (List.prefix_append p q), adv, stop⟩

/-- A step that decides on the rest of its plan after its first part: where that part fails, any
rest would have done. -/
theorem Follows.bind_exists {ι : Type} {fits : ι → Prop} {plan : ι → List Move}
    {b : Build (σ × List LogEntry) β} {f : β → Build (σ × List LogEntry) α}
    {P : β → Session (σ × List LogEntry) → Prop} {Q : α → Session (σ × List LogEntry) → Prop}
    (h : Follows b s p P) (hfits : ∃ i, fits i)
    (hf : ∀ a s', P a s' → s'.store.backend = s.store.backend →
      s'.store.asked = s.store.asked ++ p.filterMap Move.kind? →
      ∃ i, fits i ∧ Follows (f a) s' (plan i) Q) :
    ∃ i, fits i ∧ Follows (b >>= f) s (p ++ plan i) Q := by
  unfold Follows Ends at h
  rcases hb : b.runIn s with ⟨r, s'⟩
  rw [hb] at h
  cases r with
  | error e =>
    obtain ⟨i, hi⟩ := hfits
    refine ⟨i, hi, Follows.bind (P := fun _ _ ↦ False) ?_ fun _ _ hfalse ↦ hfalse.elim⟩
    unfold Follows Ends
    rw [hb]
    exact h
  | ok a =>
    obtain ⟨⟨log, adv, succ⟩, asked, hP⟩ := h
    obtain ⟨i, hi, rest⟩ := hf a s' hP adv.backend_eq asked
    refine ⟨i, hi, Follows.bind (P := fun a' t ↦ a' = a ∧ t = s') ?_ ?_⟩
    · unfold Follows Ends
      rw [hb]
      exact ⟨⟨log, adv, succ⟩, asked, rfl, rfl⟩
    · rintro _ _ ⟨rfl, rfl⟩ _ _
      exact rest

/-- What a step does at its end with the files alone is not seen. -/
theorem Follows.andFinally {b : Build (σ × List LogEntry) α}
    {f : Session (σ × List LogEntry) → Session (σ × List LogEntry)}
    {Q : α → Session (σ × List LogEntry) → Prop} (h : Follows b s p fun a s' ↦ Q a (f s'))
    (hf : ∀ t, ∃ host, f t = t.withHost host) : Follows (b.andFinally f) s p Q := by
  have unseen {moves : List Move} {log : List LogEntry} {t : Session (σ × List LogEntry)}
      (adv : Advances s t moves log) : Advances s (f t) moves log := by
    obtain ⟨host, hhost⟩ := hf t
    rw [hhost]
    exact ⟨adv.log_eq, adv.events_eq, adv.moved, adv.created_eq, adv.backend_eq⟩
  refine ends_andFinally.mpr (Ends.mono h ?_ ?_)
  · rintro a t ⟨⟨log, adv, succ⟩, asked, hQ⟩
    obtain ⟨host, hhost⟩ := hf t
    exact ⟨⟨log, unseen adv, succ⟩, by rw [hhost]; exact asked, hQ⟩
  · rintro e t ⟨moves, log, hmoves, adv, stop⟩
    exact ⟨moves, log, hmoves, unseen adv, stop⟩

/-! ## Operations of the session -/

theorem follows_host {f : Host → Build (σ × List LogEntry) α}
    {Q : α → Session (σ × List LogEntry) → Prop} (h : Follows (f s.host) s p Q) :
    Follows (host >>= f) s p Q :=
  ends_bind.mpr (ends_host.mpr h)

theorem follows_value {a : Activity} {r : Except IoError α}
    {Q : α → Session (σ × List LogEntry) → Prop} (h : ∀ v, r = .ok v → Q v s) :
    Follows (value a r) s [] Q :=
  ends_value.mpr ⟨fun v hv ↦ ⟨⟨[], .refl s, by simp⟩, by simp, h v hv⟩,
    fun _ _ ↦ ⟨[], [], List.nil_prefix, .refl s, .inl (by simp)⟩⟩

theorem follows_change {a : Activity} {r : Except IoError Host}
    {Q : Unit → Session (σ × List LogEntry) → Prop} (h : ∀ h, Q () (s.withHost h)) :
    Follows (change a r) s [] Q :=
  ends_change.mpr
    ⟨fun h' _ ↦ ⟨⟨[], ⟨by simp, by simp, .nil, by simp, rfl⟩, by simp⟩, by simp, h h'⟩,
    fun _ _ ↦ ⟨[], [], List.nil_prefix, .refl s, .inl (by simp)⟩⟩

theorem follows_settle {a : Activity} {r : Except IoError Unit × Host}
    {Q : Unit → Session (σ × List LogEntry) → Prop} (h : ∀ h, Q () (s.withHost h)) :
    Follows (settle a r) s [] Q := by
  have still (h : Host) : Advances s (s.withHost h) [] [] := ⟨by simp, by simp, .nil, by simp, rfl⟩
  exact ends_settle.mpr ⟨fun h' _ ↦ ⟨⟨[], still h', by simp⟩, by simp, h h'⟩,
    fun _ h' _ ↦ ⟨[], [], List.nil_prefix, still h', .inl (by simp)⟩⟩

variable (tc : Toolchain σ) (o : BuildOptions) {dir : Path}

theorem follows_echo {line : String} {Q : Unit → Session (σ × List LogEntry) → Prop}
    (h : Q () (s.echoed tc.logging line)) :
    Follows (echo tc.logging line) s [.say line] Q := by
  refine ends_echo.mpr ⟨⟨[.echo line], ⟨rfl, rfl, ?_, by simp [Move.say, Move.record?], rfl⟩, ?_⟩,
    by simp [Move.say, Move.kind?], h⟩
  · exact .cons ⟨rfl, by simp [Move.say]⟩ .nil
  · simp [LogEntry.Succeeds]

/-- A tool run is a move that leaves the host it leaves. -/
theorem follows_tool {i : Invocation} {m : Move} {Q : String → Session (σ × List LogEntry) → Prop}
    (hi : m.event = .run i) (hm : m.artifact = none)
    (hleft : ∀ h, m.leaves = some h → (s.called tc.logging i).host = h)
    (h : ∀ out, Q out (s.called tc.logging i)) :
    Follows (tool tc.logging i) s [m] Q := by
  let reply := tc.run i s.tools.1 s.host
  let entry : LogEntry := .run ⟨i, s.host, reply.outcome, reply.tree⟩
  have adv : Advances s (s.called tc.logging i) [m] [entry] := by
    refine ⟨rfl, rfl, ?_, by simp [Move.record?, hm], rfl⟩
    exact .cons ⟨hi.symm, fun h hh ↦ ⟨_, rfl, hleft h hh⟩⟩ .nil
  refine ends_tool.mpr ⟨fun out hout ↦ ⟨⟨[entry], adv, ?_⟩, by simp [Move.kind?, hm], h out⟩,
    fun e he ↦ ⟨[m], [entry], List.prefix_refl _, adv, .inr ⟨[], _, rfl, by simp, he⟩⟩⟩
  simpa [entry, LogEntry.Succeeds] using ⟨out, hout⟩

/-- A job reserves its file and then runs its tool; without the file the tool does not run. -/
theorem follows_produce {kind : ArtifactKind} {n : Nat} {command : Path → Invocation}
    (hdir : s.store.dir? = some dir) (hn : s.store.asked.count kind = n) :
    Follows (produce tc.logging o kind command) s [Plan.job o dir kind n command]
      (fun p _ ↦ p = Plan.file dir kind n) := by
  have next : s.store.nextPath? kind = some (Plan.file dir kind n) := by
    simp [ArtifactStore.nextPath?, hdir, hn, Plan.file]
  refine ends_bind.mpr (ends_reserve.mpr ⟨fun out hout ↦ ?_, fun e he ↦ ?_⟩)
  · obtain ⟨rfl, store⟩ := ArtifactStore.reserve_of_ok hout next
    let i := (command (Plan.file dir kind n)).inDir o.workingDir
    let after := (s.reserved kind).called tc.logging i
    let reply := tc.run i s.tools.1 (s.reserved kind).host
    let entry : LogEntry := .run ⟨i, (s.reserved kind).host, reply.outcome, reply.tree⟩
    have adv : Advances s after [Plan.job o dir kind n command] [entry] := by
      refine ⟨rfl, rfl, .cons ⟨rfl, by simp [Plan.job]⟩ .nil, ?_, ?_⟩
      · change (s.store.reserve s.host kind).2.1.created = _
        rw [store]
        rfl
      · change (s.store.reserve s.host kind).2.1.backend = _
        rw [store]
        rfl
    have asked : after.store.asked = s.store.asked ++ [kind] := by
      change (s.store.reserve s.host kind).2.1.asked = _
      rw [store]
      rfl
    refine ends_bind.mpr (ends_tool.mpr ⟨fun text htext ↦ ends_pure.mpr ?_, fun e he ↦ ?_⟩)
    · exact ⟨⟨[entry], adv, by simpa [entry, LogEntry.Succeeds] using ⟨text, htext⟩⟩, asked, rfl⟩
    · exact ⟨_, [entry], List.prefix_refl _, adv, .inr ⟨[], _, rfl, by simp, he⟩⟩
  · have store := ArtifactStore.reserve_of_error he
    refine ⟨[], [], List.nil_prefix, ⟨by simp, by simp, .nil, ?_, ?_⟩, .inl (by simp)⟩
    · change (s.store.reserve s.host kind).2.1.created = _
      simp [store]
    · change (s.store.reserve s.host kind).2.1.backend = _
      simp [store]

end Build

end ContractBuild
