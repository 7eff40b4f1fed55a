import ContainerStack.Proofs.Table

/-!
The errors that a result can be. A chain of steps fails only as its steps do, each on
what the steps before it gave, and a step applied to all elements of a list fails only
as it does on one of them.
-/

namespace ContainerStack

variable {α β ε : Type} {allowed wider : ε → Prop}

/-- Whatever error the result is, it is an allowed one. -/
def FailsOnly (allowed : ε → Prop) (x : Except ε α) : Prop :=
  ∀ e, x = .error e → allowed e

namespace FailsOnly

theorem ok (a : α) : FailsOnly allowed (.ok a : Except ε α) := by
  intro e he
  cases he

theorem error {e : ε} (h : allowed e) : FailsOnly allowed (.error e : Except ε α) := by
  intro _ he
  cases he
  exact h

theorem of_eq_ok {x : Except ε α} {a : α} (h : x = .ok a) : FailsOnly allowed x :=
  h ▸ ok a

theorem mono {x : Except ε α} (h : FailsOnly allowed x) (hwider : ∀ e, allowed e → wider e) :
    FailsOnly wider x :=
  fun e he => hwider e (h e he)

/-- Later steps matter only for what the earlier ones gave. -/
theorem bind {x : Except ε α} {f : α → Except ε β} (hx : FailsOnly allowed x)
    (hf : ∀ a, x = .ok a → FailsOnly allowed (f a)) : FailsOnly allowed (x >>= f) := by
  cases x with
  | error e => exact error (hx e rfl)
  | ok a => exact hf a rfl

theorem map {x : Except ε α} (hx : FailsOnly allowed x) (f : α → β) :
    FailsOnly allowed (x.map f) := by
  cases x with
  | error e => exact error (hx e rfl)
  | ok a => exact ok (f a)

theorem mapM {f : α → Except ε β} {xs : List α} (h : ∀ x ∈ xs, FailsOnly allowed (f x)) :
    FailsOnly allowed (xs.mapM f) := by
  induction xs with
  | nil => exact ok []
  | cons x rest ih =>
    obtain ⟨hx, hrest⟩ := List.forall_mem_cons.mp h
    rw [List.mapM_cons]
    exact hx.bind fun y _ => (ih hrest).bind fun ys _ => ok (y :: ys)

theorem traverse {f : String → α → Except ε β} {es : Entries α}
    (h : ∀ e ∈ es, FailsOnly allowed (f e.1 e.2)) : FailsOnly allowed (Entries.traverse f es) := by
  induction es with
  | nil => exact ok []
  | cons e rest ih =>
    obtain ⟨hfirst, hrest⟩ := List.forall_mem_cons.mp h
    rw [Entries.traverse]
    split
    · rename_i failure hfailure
      exact error (hfirst failure hfailure)
    · split
      · rename_i failure hfailure
        exact error (ih hrest failure hfailure)
      · exact ok _

end FailsOnly

end ContainerStack
