import ContractBuild.Build.Run

/-!
# How a step of a build ends

A step ends with a value or with an error, and leaves a session in either case.  `Ends` says what
holds then.  There is one rule for each way in which steps are made, so that a statement about a
stage comes down to statements about the operations of the session.
-/

namespace ContractBuild

variable {σ α β : Type}

namespace Session

/-- The session after a tool has run. -/
def called (s : Session σ) (tc : Toolchain σ) (i : Invocation) : Session σ :=
  { s with
    host := s.host.withTree (tc.run i s.tools s.host).tree
    tools := (tc.run i s.tools s.host).state
    events := s.events ++ [.run i] }

/-- The session after the build has noted what it does itself. -/
def echoed (s : Session σ) (tc : Toolchain σ) (line : String) : Session σ :=
  { s with tools := tc.echo line s.tools, events := s.events ++ [.echo line] }

/-- The session with another host. -/
def withHost (s : Session σ) (h : Host) : Session σ := { s with host := h }

/-- The session after a file was asked for. -/
def reserved (s : Session σ) (kind : ArtifactKind) : Session σ :=
  { s with store := (s.store.reserve s.host kind).2.1, host := (s.store.reserve s.host kind).2.2 }

@[simp] theorem host_called (s : Session σ) (tc : Toolchain σ) (i : Invocation) :
    (s.called tc i).host = s.host.withTree (tc.run i s.tools s.host).tree := rfl

@[simp] theorem store_called (s : Session σ) (tc : Toolchain σ) (i : Invocation) :
    (s.called tc i).store = s.store := rfl

@[simp] theorem events_called (s : Session σ) (tc : Toolchain σ) (i : Invocation) :
    (s.called tc i).events = s.events ++ [.run i] := rfl

@[simp] theorem host_echoed (s : Session σ) (tc : Toolchain σ) (line : String) :
    (s.echoed tc line).host = s.host := rfl

@[simp] theorem store_echoed (s : Session σ) (tc : Toolchain σ) (line : String) :
    (s.echoed tc line).store = s.store := rfl

@[simp] theorem events_echoed (s : Session σ) (tc : Toolchain σ) (line : String) :
    (s.echoed tc line).events = s.events ++ [.echo line] := rfl

@[simp] theorem host_withHost (s : Session σ) (h : Host) : (s.withHost h).host = h := rfl

@[simp] theorem store_withHost (s : Session σ) (h : Host) : (s.withHost h).store = s.store := rfl

@[simp] theorem tools_withHost (s : Session σ) (h : Host) : (s.withHost h).tools = s.tools := rfl

@[simp] theorem events_withHost (s : Session σ) (h : Host) :
    (s.withHost h).events = s.events := rfl

@[simp] theorem tools_reserved (s : Session σ) (kind : ArtifactKind) :
    (s.reserved kind).tools = s.tools := rfl

@[simp] theorem events_reserved (s : Session σ) (kind : ArtifactKind) :
    (s.reserved kind).events = s.events := rfl

@[simp] theorem tools_cleanup (s : Session σ) : s.cleanup.tools = s.tools := rfl

@[simp] theorem events_cleanup (s : Session σ) : s.cleanup.events = s.events := rfl

/-- What was reserved stays on record when it is removed. -/
@[simp] theorem created_cleanup (s : Session σ) : s.cleanup.store.created = s.store.created := by
  obtain ⟨h, ⟨backend, created, asked⟩, tools, events⟩ := s
  cases backend <;> rfl

/-- A session starts with no files on record and nothing done, in the working directory or in a
new temporary one. -/
theorem start_cases {o : BuildOptions} {tools : σ} {h : Host} {s : Session σ}
    (hs : start o tools h = .ok s) :
    (o.saveTemps = true ∧ s = ⟨h, .persistent o.workingDir, tools, []⟩) ∨
      o.saveTemps = false ∧ ∃ p h', h.makeTemporary "tvm-build-" = .ok (p, h') ∧
        s = ⟨h', ⟨.ephemeral (some p), [], []⟩, tools, []⟩ := by
  unfold start ArtifactStore.forBuild ArtifactStore.ephemeral at hs
  cases hsave : o.saveTemps with
  | true =>
    rw [hsave] at hs
    exact .inl ⟨rfl, (Except.ok.inj hs).symm⟩
  | false =>
    rw [hsave] at hs
    cases hmade : h.makeTemporary "tvm-build-" with
    | error cause =>
      rw [hmade] at hs
      cases hs
    | ok made =>
      rw [hmade] at hs
      exact .inr ⟨rfl, made.1, made.2, rfl, (Except.ok.inj hs).symm⟩

/-- A session starts with an open store and nothing on record. -/
theorem fresh_of_start {o : BuildOptions} {tools : σ} {h : Host} {s : Session σ}
    (hs : start o tools h = .ok s) :
    s.events = [] ∧ s.store.created = [] ∧ s.store.asked = [] ∧
      s.store.isPersistent = o.saveTemps ∧ ∃ dir, s.store.dir? = some dir := by
  rcases start_cases hs with ⟨hsave, rfl⟩ | ⟨hsave, p, h', _, rfl⟩
  · exact ⟨rfl, rfl, rfl, hsave.symm, o.workingDir, rfl⟩
  · exact ⟨rfl, rfl, rfl, hsave.symm, p, rfl⟩

end Session

namespace Build

/-- From session `s`, step `b` ends with a value and a session in `Q`, or with an error and a
session in `E`. -/
def Ends (b : Build σ α) (s : Session σ) (Q : α → Session σ → Prop)
    (E : BuildError → Session σ → Prop) : Prop :=
  match b.runIn s with
  | (.ok a, s') => Q a s'
  | (.error e, s') => E e s'

variable {s : Session σ} {Q : α → Session σ → Prop} {E : BuildError → Session σ → Prop}

/-- `Ends` speaks of what the step gives and of the session after it. -/
theorem ends_iff {b : Build σ α} :
    Ends b s Q E ↔ (∀ a, (b.runIn s).1 = .ok a → Q a (b.runIn s).2) ∧
      ∀ e, (b.runIn s).1 = .error e → E e (b.runIn s).2 := by
  unfold Ends
  rcases b.runIn s with ⟨r, s'⟩
  cases r <;> simp

/-- A step ends in what running it gives. -/
theorem ends_runIn (b : Build σ α) (s : Session σ) :
    Ends b s (fun a s' ↦ b.runIn s = (.ok a, s')) (fun e s' ↦ b.runIn s = (.error e, s')) := by
  unfold Ends
  rcases b.runIn s with ⟨⟨e⟩ | ⟨a⟩, s'⟩ <;> rfl

/-- What is said of a step that ends with a value holds there. -/
theorem Ends.of_ok {b : Build σ α} {a : α} {s' : Session σ} (h : Ends b s Q E)
    (hrun : b.runIn s = (.ok a, s')) : Q a s' := by
  unfold Ends at h
  rwa [hrun] at h

/-- So does what is said of a step that ends with an error. -/
theorem Ends.of_error {b : Build σ α} {e : BuildError} {s' : Session σ} (h : Ends b s Q E)
    (hrun : b.runIn s = (.error e, s')) : E e s' := by
  unfold Ends at h
  rwa [hrun] at h

theorem runIn_bind_of_ok {b : Build σ β} {f : β → Build σ α} {a : β} {s' : Session σ}
    (hrun : b.runIn s = (.ok a, s')) : (b >>= f).runIn s = (f a).runIn s' := by
  rw [runIn_bind, hrun]

theorem runIn_bind_of_error {b : Build σ β} {f : β → Build σ α} {e : BuildError} {s' : Session σ}
    (hrun : b.runIn s = (.error e, s')) : (b >>= f).runIn s = (.error e, s') := by
  rw [runIn_bind, hrun]

theorem ends_pure {a : α} : Ends (pure a) s Q E ↔ Q a s := Iff.rfl

theorem ends_throw {e : BuildError} : Ends (throw e : Build σ α) s Q E ↔ E e s := Iff.rfl

/-- A step after another starts from the session that the first leaves. -/
theorem ends_bind {b : Build σ β} {f : β → Build σ α} :
    Ends (b >>= f) s Q E ↔ Ends b s (fun a s' ↦ Ends (f a) s' Q E) E := by
  unfold Ends
  rw [runIn_bind]
  rcases b.runIn s with ⟨r, s'⟩
  cases r <;> rfl

/-- A step may be said to do less than it does. -/
theorem Ends.mono {b : Build σ α} {Q' : α → Session σ → Prop} {E' : BuildError → Session σ → Prop}
    (h : Ends b s Q E) (hQ : ∀ a s', Q a s' → Q' a s') (hE : ∀ e s', E e s' → E' e s') :
    Ends b s Q' E' := by
  rw [ends_iff] at h ⊢
  exact ⟨fun a ha ↦ hQ a _ (h.1 a ha), fun e he ↦ hE e _ (h.2 e he)⟩

/-- What is said of a step in two ways holds together. -/
theorem Ends.and {b : Build σ α} {Q' : α → Session σ → Prop} {E' : BuildError → Session σ → Prop}
    (h : Ends b s Q E) (h' : Ends b s Q' E') :
    Ends b s (fun a s' ↦ Q a s' ∧ Q' a s') (fun e s' ↦ E e s' ∧ E' e s') := by
  rw [ends_iff] at h h' ⊢
  exact ⟨fun a ha ↦ ⟨h.1 a ha, h'.1 a ha⟩, fun e he ↦ ⟨h.2 e he, h'.2 e he⟩⟩

/-- Two steps one after the other, where both fail alike. -/
theorem Ends.bind {b : Build σ β} {f : β → Build σ α} {P : β → Session σ → Prop}
    (h : Ends b s P E) (hf : ∀ a s', P a s' → Ends (f a) s' Q E) : Ends (b >>= f) s Q E :=
  ends_bind.mpr (h.mono hf fun _ _ he ↦ he)

theorem ends_andFinally {b : Build σ α} {f : Session σ → Session σ} :
    Ends (b.andFinally f) s Q E ↔
      Ends b s (fun a s' ↦ Q a (f s')) (fun e s' ↦ E e (f s')) := by
  unfold Ends andFinally
  rw [runIn_ofResult]
  rcases b.runIn s with ⟨r, s'⟩
  cases r <;> rfl

theorem ends_host {Q : Host → Session σ → Prop} : Ends host s Q E ↔ Q s.host s := Iff.rfl

theorem ends_change {Q : Unit → Session σ → Prop} {a : Activity} {r : Except IoError Host} :
    Ends (change a r) s Q E ↔
      (∀ h, r = .ok h → Q () (s.withHost h)) ∧ ∀ cause, r = .error cause → E (.io a cause) s := by
  cases r with
  | ok h =>
    simp only [Except.ok.injEq, forall_eq', reduceCtorEq, false_implies, implies_true, and_true]
    rfl
  | error cause =>
    simp only [reduceCtorEq, false_implies, implies_true, Except.error.injEq, forall_eq', true_and]
    rfl

theorem ends_settle {Q : Unit → Session σ → Prop} {a : Activity} {r : Except IoError Unit × Host} :
    Ends (settle a r) s Q E ↔
      (∀ h, r = (.ok (), h) → Q () (s.withHost h)) ∧
        ∀ cause h, r = (.error cause, h) → E (.io a cause) (s.withHost h) := by
  rcases r with ⟨cause | v, h⟩
  · simp only [Prod.mk.injEq, reduceCtorEq, false_and, false_implies, implies_true, true_and,
      Except.error.injEq, and_imp, forall_eq', forall_apply_eq_imp_iff]
    rfl
  · simp only [Prod.mk.injEq, reduceCtorEq, false_and, false_implies, implies_true, and_true,
      true_and, forall_eq']
    rfl

/-- The host that an operation leaves is in place in any case. -/
theorem ends_settle_snd {I : Session σ → Prop} {a : Activity} {r : Except IoError Unit × Host}
    (h : I (s.withHost r.2)) : Ends (settle a r) s (fun _ ↦ I) (fun _ ↦ I) :=
  ends_settle.mpr ⟨by rintro _ rfl; exact h, by rintro _ _ rfl; exact h⟩

theorem ends_value {a : Activity} {r : Except IoError α} :
    Ends (value a r) s Q E ↔
      (∀ v, r = .ok v → Q v s) ∧ ∀ cause, r = .error cause → E (.io a cause) s := by
  cases r with
  | ok v =>
    simp only [Except.ok.injEq, forall_eq', reduceCtorEq, false_implies, implies_true, and_true]
    rfl
  | error cause =>
    simp only [reduceCtorEq, false_implies, implies_true, Except.error.injEq, forall_eq', true_and]
    rfl

theorem ends_tool {Q : String → Session σ → Prop} {tc : Toolchain σ} {i : Invocation} :
    Ends (tool tc i) s Q E ↔
      (∀ out, (tc.run i s.tools s.host).outcome = .ok out → Q out (s.called tc i)) ∧
        ∀ e, (tc.run i s.tools s.host).outcome = .error e → E e (s.called tc i) := ends_iff

theorem ends_echo {Q : Unit → Session σ → Prop} {tc : Toolchain σ} {line : String} :
    Ends (echo tc line) s Q E ↔ Q () (s.echoed tc line) := Iff.rfl

theorem ends_reserve {Q : Path → Session σ → Prop} {kind : ArtifactKind} :
    Ends (reserve kind) s Q E ↔
      (∀ p, (s.store.reserve s.host kind).1 = .ok p → Q p (s.reserved kind)) ∧
        ∀ e, (s.store.reserve s.host kind).1 = .error e → E e (s.reserved kind) := ends_iff

/-! ## Invariants -/

/-- What holds however a step ends holds of the session after it. -/
theorem Ends.snd {b : Build σ α} {I : Session σ → Prop} (h : Ends b s (fun _ ↦ I) (fun _ ↦ I)) :
    I (b.runIn s).2 := by
  unfold Ends at h
  rcases hrun : b.runIn s with ⟨⟨e⟩ | ⟨a⟩, s'⟩ <;> rwa [hrun] at h

/-- Whether a step that starts in a session with a property leaves one with it, also where it
fails. -/
def Preserves (I : Session σ → Prop) (b : Build σ α) : Prop :=
  ∀ s, I s → Ends b s (fun _ ↦ I) (fun _ ↦ I)

namespace Preserves

variable {I : Session σ → Prop}

theorem pure (a : α) : Preserves I (pure a : Build σ α) := fun _ h ↦ h

theorem throw (e : BuildError) : Preserves I (throw e : Build σ α) := fun _ h ↦ h

theorem bind {b : Build σ β} {f : β → Build σ α} (hb : Preserves I b)
    (hf : ∀ a, Preserves I (f a)) : Preserves I (b >>= f) :=
  fun s h ↦ (hb s h).bind fun a s' h' ↦ hf a s' h'

theorem host : Preserves I (host : Build σ Host) := fun _ h ↦ h

theorem value (a : Activity) (r : Except IoError α) : Preserves I (value a r : Build σ α) :=
  fun _ h ↦ ends_value.mpr ⟨fun _ _ ↦ h, fun _ _ ↦ h⟩

end Preserves

end Build

end ContractBuild
