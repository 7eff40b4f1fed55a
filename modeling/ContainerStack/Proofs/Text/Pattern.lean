import ContainerStack.Text.Pattern
import Mathlib.Logic.Function.Basic

/-!
What patterns spell. A pattern spells a kind of values when its texts are exactly those
that the values are written as. A sequence spells pairs, a choice of two spells sums, an
optional pattern spells options, and repeated characters spell runs of them; so a pattern
that is put together of these parts is read off as the form of its texts, whatever ways a
text has of being cut.
-/

namespace ContainerStack.Text

/-- A text of allowed characters, which may be empty. -/
structure CharRun (Allowed : Char → Prop) where
  chars : List Char
  allowed : ∀ c ∈ chars, Allowed c

structure NonemptyRun (Allowed : Char → Prop) extends CharRun Allowed where
  ne_nil : chars ≠ []

namespace Pattern

variable {α β : Type} {p q : Pattern} {f : α → List Char} {g : β → List Char}

theorem accepts_many_one_iff {allowed : Char → Bool} {s : List Char} :
    Accepts (.many (.one allowed)) s ↔ ∀ c ∈ s, allowed c = true := by
  induction s with
  | nil => exact ⟨fun _ => List.forall_mem_nil _, fun _ => .stop⟩
  | cons c rest ih =>
    rw [List.forall_mem_cons, ← ih, accepts_many_cons_iff]
    constructor
    · intro h
      obtain ⟨t, u, hfirst, hrest, rfl⟩ := h
      obtain ⟨d, hd, heq⟩ := accepts_one_iff.mp hfirst
      obtain ⟨rfl, rfl⟩ := List.cons.inj heq
      exact ⟨hd, hrest⟩
    · intro h
      obtain ⟨hc, hrest⟩ := h
      exact ⟨[], rest, .one hc, hrest, rfl⟩

/-- The texts of the pattern are those that values are written as. -/
def Spells (p : Pattern) (write : α → List Char) : Prop :=
  ∀ s, Accepts p s ↔ ∃ a, write a = s

theorem Spells.both (hp : p.Spells f) (hq : q.Spells g) :
    (Pattern.both p q).Spells fun x : α × β => f x.1 ++ g x.2 := by
  intro s
  simp only [accepts_both_iff, hp _, hq _, Prod.exists]
  constructor
  · intro h
    obtain ⟨_, _, ⟨a, rfl⟩, ⟨b, rfl⟩, rfl⟩ := h
    exact ⟨a, b, rfl⟩
  · intro h
    obtain ⟨a, b, rfl⟩ := h
    exact ⟨_, _, ⟨a, rfl⟩, ⟨b, rfl⟩, rfl⟩

theorem Spells.either (hp : p.Spells f) (hq : q.Spells g) :
    (Pattern.either p q).Spells (Sum.elim f g) := by
  intro s
  simp only [accepts_either_iff, hp s, hq s, Sum.exists, Sum.elim_inl, Sum.elim_inr]

theorem Spells.optional (hp : p.Spells f) :
    (Pattern.optional p).Spells fun o : Option α => o.elim [] f := by
  intro s
  simp only [Pattern.optional, accepts_either_iff, accepts_nothing_iff, hp s, Option.exists,
    Option.elim_none, Option.elim_some]
  rw [or_comm, eq_comm (a := s)]

/-- Values of another form spell the same when every value can be given in that form. -/
theorem Spells.of_surjective {write : β → List Char} (hp : p.Spells f) {e : β → α}
    (he : Function.Surjective e) (hwrite : ∀ b, write b = f (e b)) : p.Spells write := by
  intro s
  simp only [hp s, he.exists, hwrite]

theorem spells_char (c : Char) : (char c).Spells fun _ : Unit => [c] := by
  intro s
  simp [char, accepts_one_iff, eq_comm (a := s)]

theorem Spells.after_char (hp : p.Spells f) (c : Char) :
    (Pattern.both (char c) p).Spells fun a => c :: f a :=
  ((spells_char c).both hp).of_surjective (e := fun a => ((), a))
    (fun x => ⟨x.2, rfl⟩) fun _ => rfl

theorem Spells.before_char (hp : p.Spells f) (c : Char) :
    (Pattern.both p (char c)).Spells fun a => f a ++ [c] :=
  (hp.both (spells_char c)).of_surjective (e := fun a => (a, ()))
    (fun x => ⟨x.1, rfl⟩) fun _ => rfl

theorem spells_word (cs : List Char) : (word cs).Spells fun _ : Unit => cs := by
  induction cs with
  | nil =>
    intro s
    rw [word, accepts_nothing_iff, exists_const, eq_comm]
  | cons c rest ih => exact ih.after_char c

theorem spells_run {allowed : Char → Bool} {Allowed : Char → Prop}
    (h : ∀ c, allowed c = true ↔ Allowed c) :
    (many (.one allowed)).Spells fun run : CharRun Allowed => run.chars := by
  intro s
  simp only [accepts_many_one_iff, h]
  constructor
  · exact fun hs => ⟨⟨s, hs⟩, rfl⟩
  · rintro ⟨run, rfl⟩
    exact run.allowed

theorem spells_nonemptyRun {allowed : Char → Bool} {Allowed : Char → Prop}
    (h : ∀ c, allowed c = true ↔ Allowed c) :
    (several (.one allowed)).Spells fun run : NonemptyRun Allowed => run.chars := by
  intro s
  simp only [several, accepts_both_iff, accepts_one_iff, accepts_many_one_iff, h]
  constructor
  · intro hs
    obtain ⟨_, rest, ⟨c, hc, rfl⟩, hrest, rfl⟩ := hs
    exact ⟨⟨⟨c :: rest, List.forall_mem_cons.mpr ⟨hc, hrest⟩⟩, List.cons_ne_nil c rest⟩, rfl⟩
  · rintro ⟨run, rfl⟩
    obtain ⟨c, rest, hrun⟩ := List.exists_cons_of_ne_nil run.ne_nil
    have hallowed := run.allowed
    rw [hrun] at hallowed ⊢
    obtain ⟨hc, hrest⟩ := List.forall_mem_cons.mp hallowed
    exact ⟨[c], rest, ⟨c, hc, rfl⟩, hrest, rfl⟩

end Pattern

end ContainerStack.Text
