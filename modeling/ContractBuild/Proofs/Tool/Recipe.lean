import ContractBuild.Proofs.FileSystem.Repetition
import ContractBuild.Proofs.Tool.Output

/-!
# Deterministic tools

What a deterministic tool answers and what it writes follow from its invocation and from the bytes
in the files that it reads.  On two hosts on the same way, where these files hold the same, it
answers the same, writes the same, and leaves hosts on the same way.
-/

namespace ContractBuild

namespace Host

variable {h h' e s s' : Host} {x : Path × Bytes} {xs : List (Path × Bytes)} {P : Path → Prop}

/-- The host after an attempt to write a file. -/
def put (h : Host) (x : Path × Bytes) : Host :=
  match h.write x.1 x.2 with
  | .ok h' => h'
  | .error _ => h

theorem put_of_ok (hh : h.write x.1 x.2 = .ok h') : h.put x = h' := by rw [put, hh]

theorem put_of_error {y : IoError} (hh : h.write x.1 x.2 = .error y) : h.put x = h := by
  rw [put, hh]

/-- Writing changes nothing but the tree. -/
theorem eq_withTree_of_append {l : Location} {b : Bytes} (hh : h.append l b = .ok h') :
    h' = h.withTree h'.tree := by
  unfold append at hh
  split at hh
  · obtain rfl := Except.ok.inj hh
    rfl
  · split at hh
    · obtain rfl := Except.ok.inj hh
      rfl
    · cases hh
  · obtain rfl := Except.ok.inj hh
    rfl
  · obtain rfl := Except.ok.inj hh
    rfl

theorem eq_withTree_of_write {p : Path} {b : Bytes} (hh : h.write p b = .ok h') :
    h' = h.withTree h'.tree := by
  obtain ⟨⟨l, h₁⟩, hcreate, happend⟩ := exists_of_bind_eq_ok hh
  have created : h₁ = h.withTree h₁.tree := by
    obtain ⟨place, -, hcreate⟩ := exists_of_bind_eq_ok hcreate
    split at hcreate
    · obtain ⟨h₂, hchange, hcreate⟩ := exists_of_bind_eq_ok hcreate
      obtain ⟨-, rfl⟩ := Prod.mk.inj (Except.ok.inj hcreate)
      rw [eq_of_changeAbove hchange]
      rfl
    · cases hcreate
    · cases hcreate
    · split at hcreate
      · obtain ⟨-, rfl⟩ := Prod.mk.inj (Except.ok.inj hcreate)
        rfl
      · cases hcreate
    · obtain ⟨-, rfl⟩ := Prod.mk.inj (Except.ok.inj hcreate)
      rfl
  rw [eq_withTree_of_append happend, created]
  rfl

theorem put_eq_withTree (h : Host) (x : Path × Bytes) : h.put x = h.withTree (h.put x).tree := by
  cases hh : h.write x.1 x.2 with
  | ok h' =>
    rw [put_of_ok hh]
    exact eq_withTree_of_write hh
  | error y =>
    rw [put_of_error hh]
    rfl

theorem foldl_put_eq_withTree (h : Host) (xs : List (Path × Bytes)) :
    xs.foldl put h = h.withTree (xs.foldl put h).tree := by
  induction xs generalizing h with
  | nil => rfl
  | cons x xs ih =>
    rw [List.foldl_cons, ih, put_eq_withTree]
    rfl

/-- Attempts to write under some paths develop a host. -/
theorem develops_put (ht : h.tree.Coherent) (hx : P x.1) : h.Develops P (h.put x) := by
  cases hh : h.write x.1 x.2 with
  | ok h' =>
    rw [put_of_ok hh]
    exact develops_write ht hh hx
  | error y =>
    rw [put_of_error hh]
    exact .refl ht

theorem develops_puts (ht : h.tree.Coherent) (hxs : ∀ x ∈ xs, P x.1) :
    h.Develops P (xs.foldl put h) := by
  induction xs generalizing h with
  | nil => exact .refl ht
  | cons x xs ih =>
    have first : h.Develops P (h.put x) := develops_put ht (hxs x List.mem_cons_self)
    exact first.trans (ih first.coherent fun y hy ↦ hxs y (List.mem_cons_of_mem x hy)) ht.toSound

theorem Alter.refl (s s' : Host) : s.Alter s' s s' := fun _ hk ↦ hk

theorem Alter.trans {t t' u u' : Host} (first : s.Alter s' t t') (second : t.Alter t' u u') :
    s.Alter s' u u' := fun k hk ↦ second k (first k hk)

namespace Follows

/-- The same attempt on both hosts leaves them on the same way. -/
theorem put (F : e.Follows s s') (hs : s.tree.Coherent) (he : e.tree.Coherent)
    (w : (s.put x).Becomes e) :
    e.Follows (s.put x) (s'.put x) ∧ s.Alter s' (s.put x) (s'.put x) ∧
      (s.put x).Agrees (s'.put x) x.1 := by
  have before := (develops_put (P := fun _ ↦ True) hs trivial (x := x)).becomes.trans w
  cases hh : s.write x.1 x.2 with
  | ok t =>
    rw [put_of_ok hh] at w ⊢
    obtain ⟨t', hh', follows, alter, agrees⟩ := F.write before hs he w hh
    rw [put_of_ok hh']
    exact ⟨follows, alter, agrees⟩
  | error y =>
    have hr := attempts_write hs x.1 x.2
    rw [hh] at hr
    obtain ⟨⟨y', hh'⟩, agrees⟩ :=
      F.attempts_error before hs.toSound hr (attempts_write F.coherent x.1 x.2) fun _ ↦ rfl
    rw [put_of_error hh, put_of_error hh']
    exact ⟨F, .refl _ _, agrees⟩

/-- So do the same attempts one after the other. -/
theorem puts (F : e.Follows s s') (hs : s.tree.Coherent) (he : e.tree.Coherent)
    (w : (xs.foldl Host.put s).Becomes e) :
    e.Follows (xs.foldl Host.put s) (xs.foldl Host.put s') ∧
      s.Alter s' (xs.foldl Host.put s) (xs.foldl Host.put s') ∧
      ∀ x ∈ xs, (xs.foldl Host.put s).Agrees (xs.foldl Host.put s') x.1 := by
  induction xs generalizing s s' with
  | nil => exact ⟨F, .refl _ _, fun _ hx ↦ by cases hx⟩
  | cons x xs ih =>
    have first := develops_put (P := fun _ ↦ True) hs trivial (x := x)
    have rest : (s.put x).Develops (fun _ ↦ True) (xs.foldl Host.put (s.put x)) :=
      develops_puts first.coherent fun _ _ ↦ trivial
    obtain ⟨F₁, alter₁, agrees₁⟩ := F.put hs he (rest.becomes.trans w)
    obtain ⟨F₂, alter₂, agrees₂⟩ := ih F₁ first.coherent w
    refine ⟨F₂, alter₁.trans alter₂, fun y hy ↦ ?_⟩
    rcases List.mem_cons.mp hy with rfl | hy
    · exact agrees₁.alter first.coherent.toSound rest.becomes.written alter₂
    · exact agrees₂ y hy

end Follows

end Host

/-! ## Recipes -/

/-- What deterministic tools do. -/
structure Recipe where
  /-- The files that a call reads, seen from where the tool was called. -/
  reads : Invocation → List Path
  /-- The names of the files that the linker writes where it is not told which. -/
  products : List Name
  /-- What a call answers, given the bytes in the files that it reads. -/
  answer : Invocation → List (Option Bytes) → Except BuildError String
  /-- The files that it writes, each with its bytes. -/
  puts : Invocation → List (Option Bytes) → List (Path × Bytes)

namespace Recipe

/-- The files that a call may write: the one that it is told to, or the products of the linker in its
directory where it is not told. -/
def outputs (r : Recipe) (i : Invocation) : List Path :=
  match i.written? with
  | some p => [p]
  | none =>
    if i.asksToLink then r.products.map fun n ↦ (i.dir.getD .here).join (.ofName n) else []

/-- Whether a call that succeeds has written a file. -/
def Settles (r : Recipe) (i : Invocation) (p : Path) : Prop :=
  ∀ contents out, r.answer i contents = .ok out → ∃ b, (p, b) ∈ r.puts i contents

/-- The toolchain that follows a recipe. -/
def toolchain (r : Recipe) : Toolchain Unit where
  run i st h :=
    let contents := (r.reads i).map h.content?
    ⟨r.answer i contents, st, ((r.puts i contents).foldl Host.put h).tree⟩
  echo _ st := st

end Recipe

/-- Whether a toolchain is deterministic, and its calls write nothing but their outputs. -/
structure Toolchain.Obeys {σ : Type} (tc : Toolchain σ) (r : Recipe) : Prop where
  /-- What a call answers follows from the files that it reads. -/
  outcome : ∀ i st h, (tc.run i st h).outcome = r.answer i ((r.reads i).map h.content?)
  /-- So does what it writes. -/
  tree : ∀ i st h, (tc.run i st h).tree =
    ((r.puts i ((r.reads i).map h.content?)).foldl Host.put h).tree
  /-- It writes its outputs only. -/
  own : ∀ i contents, ∀ x ∈ r.puts i contents, x.1 ∈ r.outputs i

end ContractBuild
