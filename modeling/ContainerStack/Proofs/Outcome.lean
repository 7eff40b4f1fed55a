import ContainerStack.Error
import Mathlib.Data.List.Forall2

/-!
Results that may be errors. A chain of steps succeeds exactly when each step
succeeds on what the steps before it gave, and a step applied to all elements of
a list succeeds exactly when it relates them to the results one by one.
-/

namespace ContainerStack

variable {α β ε : Type}

theorem bind_eq_ok_iff {x : Except ε α} {f : α → Except ε β} {b : β} :
    (x >>= f) = .ok b ↔ ∃ a, x = .ok a ∧ f a = .ok b := by
  cases x with
  | error e => simp [bind, Except.bind]
  | ok a => simp [bind, Except.bind]

theorem map_eq_ok_iff {x : Except ε α} {f : α → β} {b : β} :
    x.map f = .ok b ↔ ∃ a, x = .ok a ∧ f a = b := by
  cases x with
  | error e => simp [Except.map]
  | ok a => simp [Except.map]

theorem map_injective {f : α → β} (hf : Function.Injective f) :
    Function.Injective (Except.map f : Except ε α → Except ε β) := by
  intro x y h
  cases x <;> cases y <;> simp only [Except.map, Except.error.injEq, Except.ok.injEq,
    reduceCtorEq] at h
  · rw [h]
  · rw [hf h]

theorem mapM_eq_ok_iff {f : α → Except ε β} {xs : List α} {ys : List β} :
    xs.mapM f = .ok ys ↔ List.Forall₂ (fun x y => f x = .ok y) xs ys := by
  induction xs generalizing ys with
  | nil => simp [pure, Except.pure, eq_comm]
  | cons x rest ih =>
    simp only [List.mapM_cons, bind_eq_ok_iff, pure, Except.pure, Except.ok.injEq, ih,
      List.forall₂_cons_left_iff]
    constructor
    · intro h
      obtain ⟨y, hy, others, hothers, rfl⟩ := h
      exact ⟨y, others, hy, hothers, rfl⟩
    · intro h
      obtain ⟨y, others, hy, hothers, rfl⟩ := h
      exact ⟨y, hy, others, hothers, rfl⟩

theorem exists_mem_left_of_forall₂ {R : α → β → Prop} {xs : List α} {ys : List β}
    (h : List.Forall₂ R xs ys) : ∀ y ∈ ys, ∃ x ∈ xs, R x y := by
  intro y hy
  obtain ⟨i, hi, rfl⟩ := List.getElem_of_mem hy
  have hi' : i < xs.length := h.length_eq ▸ hi
  exact ⟨xs[i], List.getElem_mem hi', h.get hi' hi⟩

theorem exists_mem_right_of_forall₂ {R : α → β → Prop} {xs : List α} {ys : List β}
    (h : List.Forall₂ R xs ys) : ∀ x ∈ xs, ∃ y ∈ ys, R x y := by
  intro x hx
  obtain ⟨i, hi, rfl⟩ := List.getElem_of_mem hx
  have hi' : i < ys.length := h.length_eq ▸ hi
  exact ⟨ys[i], List.getElem_mem hi', h.get hi hi'⟩

/-- A list can be related to some other exactly when each of its elements can. -/
theorem exists_forall₂_iff {R : α → β → Prop} {xs : List α} :
    (∃ ys, List.Forall₂ R xs ys) ↔ ∀ x ∈ xs, ∃ y, R x y := by
  induction xs with
  | nil => simp
  | cons x rest ih =>
    rw [List.forall_mem_cons, ← ih]
    simp only [List.forall₂_cons_left_iff]
    constructor
    · intro h
      obtain ⟨_, y, others, hy, hothers, rfl⟩ := h
      exact ⟨⟨y, hy⟩, others, hothers⟩
    · intro h
      obtain ⟨⟨y, hy⟩, others, hothers⟩ := h
      exact ⟨_, y, others, hy, hothers, rfl⟩

/-- A step that gives back what was written undoes the writing of a list. -/
theorem mapM_map_eq_ok {f : α → Except ε β} {write : β → α} {ys : List β}
    (h : ∀ y ∈ ys, f (write y) = .ok y) : (ys.map write).mapM f = .ok ys := by
  rw [mapM_eq_ok_iff, List.forall₂_map_left_iff, List.forall₂_same]
  exact h

/-- Both results are the same error, or values that are related. -/
inductive Alike (R : α → β → Prop) : Except ε α → Except ε β → Prop
  | error (e : ε) : Alike R (.error e) (.error e)
  | ok {a : α} {b : β} (h : R a b) : Alike R (.ok a) (.ok b)

theorem Alike.of_eq {R : α → α → Prop} {x y : Except ε α} (h : x = y)
    (hR : ∀ a, R a a) : Alike R x y := by
  subst h
  cases x with
  | error e => exact .error e
  | ok a => exact .ok (hR a)

theorem Alike.bind_eq {γ : Type} {R : α → β → Prop} {x : Except ε α} {y : Except ε β}
    {f : α → Except ε γ} {g : β → Except ε γ} (h : Alike R x y)
    (hfg : ∀ a b, R a b → f a = g b) : (x >>= f) = (y >>= g) := by
  cases h with
  | error e => rfl
  | ok hab => exact hfg _ _ hab

theorem reject_ne_ok {cause : Fault} {a : α} : reject cause ≠ .ok a := by
  simp [reject]

/-- The error that a result is, if it is one. -/
def failure? : Except ε α → Option ε
  | .error e => some e
  | .ok _ => none

theorem failure?_eq_some_iff {x : Except ε α} {e : ε} : failure? x = some e ↔ x = .error e := by
  cases x <;> simp [failure?]

theorem failure?_eq_none_iff {x : Except ε α} : failure? x = none ↔ ∃ a, x = .ok a := by
  cases x <;> simp [failure?]

theorem failure?_map (f : α → β) (x : Except ε α) : failure? (x.map f) = failure? x := by
  cases x <;> rfl

/-- A later step fails only after the earlier one has succeeded. -/
theorem failure?_bind {x : Except ε α} {f : α → Except ε β} {later : Option ε}
    (h : ∀ a, x = .ok a → failure? (f a) = later) :
    failure? (x >>= f) = (failure? x).or later := by
  cases x with
  | error e => rfl
  | ok a =>
    have ha := h a rfl
    simpa [failure?, bind, Except.bind] using ha

theorem failure?_bind_ok (x : Except ε α) (f : α → β) :
    failure? (x >>= fun a => .ok (f a)) = failure? x := by
  cases x <;> rfl

end ContainerStack
