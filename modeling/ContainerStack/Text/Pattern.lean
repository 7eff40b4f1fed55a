/-!
Regular patterns over characters and a matcher by remainders: after a first
character, what is left of a pattern is again a pattern, and a text matches
when nothing required is left at its end. `Accepts` says what a pattern means
by splitting the text; `accepts_iff` says that the matcher decides it, whatever
choices the pattern leaves open.
-/

namespace ContainerStack.Text

inductive Pattern where
  | never
  | nothing
  | one (allowed : Char → Bool)
  | both (first second : Pattern)
  | either (left right : Pattern)
  | many (each : Pattern)

namespace Pattern

/-- The texts of a pattern. -/
inductive Accepts : Pattern → List Char → Prop where
  | nothing : Accepts .nothing []
  | one {allowed : Char → Bool} {c : Char} : allowed c = true → Accepts (.one allowed) [c]
  | both {p q : Pattern} {s t : List Char} :
      Accepts p s → Accepts q t → Accepts (.both p q) (s ++ t)
  | left {p q : Pattern} {s : List Char} : Accepts p s → Accepts (.either p q) s
  | right {p q : Pattern} {s : List Char} : Accepts q s → Accepts (.either p q) s
  | stop {p : Pattern} : Accepts (.many p) []
  | more {p : Pattern} {s t : List Char} :
      Accepts p s → Accepts (.many p) t → Accepts (.many p) (s ++ t)

def acceptsEmpty : Pattern → Bool
  | .never => false
  | .nothing => true
  | .one _ => false
  | .both p q => p.acceptsEmpty && q.acceptsEmpty
  | .either p q => p.acceptsEmpty || q.acceptsEmpty
  | .many _ => true

/-- The sequence `both` without parts that add nothing, so that remainders stay small. -/
def sequence : Pattern → Pattern → Pattern
  | .never, _ => .never
  | .nothing, q => q
  | p, q => .both p q

/-- The choice `either` without a side that accepts no text. -/
def choice : Pattern → Pattern → Pattern
  | .never, q => q
  | p, .never => p
  | p, q => .either p q

/-- What is left of a pattern after the character `c`. -/
def after (c : Char) : Pattern → Pattern
  | .never => .never
  | .nothing => .never
  | .one allowed => if allowed c then .nothing else .never
  | .both p q =>
    let rest := sequence (p.after c) q
    if p.acceptsEmpty then choice rest (q.after c) else rest
  | .either p q => choice (p.after c) (q.after c)
  | .many p => sequence (p.after c) (.many p)

def accepts (p : Pattern) : List Char → Bool
  | [] => p.acceptsEmpty
  | c :: rest => (p.after c).accepts rest

def char (c : Char) : Pattern :=
  .one (· == c)

def word : List Char → Pattern
  | [] => .nothing
  | c :: rest => .both (char c) (word rest)

def optional (p : Pattern) : Pattern :=
  .either p .nothing

def several (p : Pattern) : Pattern :=
  .both p (.many p)

theorem not_accepts_never (s : List Char) : ¬Accepts .never s := by
  intro h
  cases h

theorem accepts_nothing_iff {s : List Char} : Accepts .nothing s ↔ s = [] := by
  constructor
  · intro h
    cases h
    rfl
  · intro h
    exact h ▸ .nothing

theorem accepts_one_iff {allowed : Char → Bool} {s : List Char} :
    Accepts (.one allowed) s ↔ ∃ c, allowed c = true ∧ s = [c] := by
  constructor
  · intro h
    cases h with
    | one hc => exact ⟨_, hc, rfl⟩
  · intro h
    obtain ⟨c, hc, rfl⟩ := h
    exact .one hc

theorem accepts_both_iff {p q : Pattern} {s : List Char} :
    Accepts (.both p q) s ↔ ∃ t u, Accepts p t ∧ Accepts q u ∧ t ++ u = s := by
  constructor
  · intro h
    cases h with
    | both hp hq => exact ⟨_, _, hp, hq, rfl⟩
  · intro h
    obtain ⟨t, u, hp, hq, rfl⟩ := h
    exact .both hp hq

theorem accepts_either_iff {p q : Pattern} {s : List Char} :
    Accepts (.either p q) s ↔ Accepts p s ∨ Accepts q s := by
  constructor
  · intro h
    cases h with
    | left h => exact .inl h
    | right h => exact .inr h
  · intro h
    rcases h with h | h
    · exact .left h
    · exact .right h

theorem acceptsEmpty_iff (p : Pattern) : p.acceptsEmpty = true ↔ Accepts p [] := by
  induction p with
  | never => exact ⟨by simp [acceptsEmpty], fun h => absurd h (not_accepts_never [])⟩
  | nothing => exact ⟨fun _ => .nothing, fun _ => rfl⟩
  | one allowed => simp [acceptsEmpty, accepts_one_iff]
  | both p q ihp ihq =>
    rw [acceptsEmpty, Bool.and_eq_true, ihp, ihq, accepts_both_iff]
    constructor
    · intro h
      exact ⟨[], [], h.1, h.2, rfl⟩
    · intro h
      obtain ⟨t, u, hp, hq, heq⟩ := h
      obtain ⟨rfl, rfl⟩ := List.append_eq_nil_iff.mp heq
      exact ⟨hp, hq⟩
  | either p q ihp ihq => rw [acceptsEmpty, Bool.or_eq_true, ihp, ihq, accepts_either_iff]
  | many p _ => exact ⟨fun _ => .stop, fun _ => rfl⟩

theorem accepts_sequence_iff (p q : Pattern) (s : List Char) :
    Accepts (sequence p q) s ↔ Accepts (.both p q) s := by
  unfold sequence
  split
  · refine iff_of_false (not_accepts_never s) fun h => ?_
    obtain ⟨t, _, hp, -⟩ := accepts_both_iff.mp h
    exact not_accepts_never t hp
  · simp [accepts_both_iff, accepts_nothing_iff]
  · rfl

theorem accepts_choice_iff (p q : Pattern) (s : List Char) :
    Accepts (choice p q) s ↔ Accepts (.either p q) s := by
  unfold choice
  split
  · rw [accepts_either_iff, or_iff_right (not_accepts_never s)]
  · rw [accepts_either_iff, or_iff_left (not_accepts_never s)]
  · rfl

/-- A nonempty text of a repetition begins with a nonempty text of its pattern. -/
theorem exists_of_accepts_many {p : Pattern} {c : Char} {s : List Char}
    (h : Accepts (.many p) (c :: s)) :
    ∃ t u, s = t ++ u ∧ Accepts p (c :: t) ∧ Accepts (.many p) u := by
  generalize hp : Pattern.many p = r at h
  generalize hs : c :: s = w at h
  induction h with
  | stop => simp at hs
  | @more p' first rest hfirst hrest _ ih =>
    simp only [many.injEq] at hp
    subst hp
    cases first with
    | nil => exact ih rfl (by simpa using hs)
    | cons d t =>
      simp only [List.cons_append, List.cons.injEq] at hs
      obtain ⟨rfl, rfl⟩ := hs
      exact ⟨t, rest, rfl, hfirst, hrest⟩
  | _ => simp at hp

/-- The first character of a sequence belongs to its first part, unless that is empty. -/
theorem accepts_both_cons_iff {p q : Pattern} {c : Char} {s : List Char} :
    Accepts (.both p q) (c :: s) ↔
      (∃ t u, Accepts p (c :: t) ∧ Accepts q u ∧ t ++ u = s) ∨
        Accepts p [] ∧ Accepts q (c :: s) := by
  rw [accepts_both_iff]
  constructor
  · intro h
    obtain ⟨t, u, hp, hq, heq⟩ := h
    cases t with
    | nil => exact .inr ⟨hp, heq ▸ hq⟩
    | cons d t =>
      obtain ⟨rfl, rfl⟩ := List.cons.inj heq
      exact .inl ⟨t, u, hp, hq, rfl⟩
  · intro h
    rcases h with ⟨t, u, hp, hq, rfl⟩ | ⟨hp, hq⟩
    · exact ⟨c :: t, u, hp, hq, rfl⟩
    · exact ⟨[], c :: s, hp, hq, rfl⟩

/-- Likewise for a repetition, of which empty parts can be left out. -/
theorem accepts_many_cons_iff {p : Pattern} {c : Char} {s : List Char} :
    Accepts (.many p) (c :: s) ↔
      ∃ t u, Accepts p (c :: t) ∧ Accepts (.many p) u ∧ t ++ u = s := by
  constructor
  · intro h
    obtain ⟨t, u, rfl, hp, hq⟩ := exists_of_accepts_many h
    exact ⟨t, u, hp, hq, rfl⟩
  · intro h
    obtain ⟨t, u, hp, hq, rfl⟩ := h
    exact Accepts.more (s := c :: t) hp hq

/-- What is left of a pattern accepts the texts that complete the character. -/
theorem accepts_after_iff (c : Char) (p : Pattern) (s : List Char) :
    Accepts (p.after c) s ↔ Accepts p (c :: s) := by
  induction p generalizing s with
  | never => exact iff_of_false (not_accepts_never s) (not_accepts_never _)
  | nothing =>
    rw [after, accepts_nothing_iff]
    exact iff_of_false (not_accepts_never s) (List.cons_ne_nil c s)
  | one allowed =>
    rw [after, accepts_one_iff]
    split
    · rename_i hc
      rw [accepts_nothing_iff]
      constructor
      · rintro rfl
        exact ⟨c, hc, rfl⟩
      · rintro ⟨d, -, heq⟩
        exact (List.cons.inj heq).2
    · rename_i hc
      refine iff_of_false (not_accepts_never s) ?_
      rintro ⟨d, hd, heq⟩
      exact hc ((List.cons.inj heq).1 ▸ hd)
  | either p q ihp ihq =>
    rw [after, accepts_choice_iff, accepts_either_iff, accepts_either_iff, ihp, ihq]
  | many p ih =>
    simp only [after, accepts_sequence_iff, accepts_both_iff, accepts_many_cons_iff, ih]
  | both p q ihp ihq =>
    have hrest : Accepts (sequence (p.after c) q) s ↔
        ∃ t u, Accepts p (c :: t) ∧ Accepts q u ∧ t ++ u = s := by
      simp only [accepts_sequence_iff, accepts_both_iff, ihp]
    rw [after, accepts_both_cons_iff]
    split
    · rename_i hempty
      have hp : Accepts p [] := (acceptsEmpty_iff p).mp hempty
      rw [accepts_choice_iff, accepts_either_iff, hrest, ihq, and_iff_right hp]
    · rename_i hempty
      have hp : ¬Accepts p [] := mt (acceptsEmpty_iff p).mpr hempty
      rw [hrest, or_iff_left fun h => hp h.1]

/-- The matcher decides the meaning of the pattern. -/
theorem accepts_iff (p : Pattern) (s : List Char) : p.accepts s = true ↔ Accepts p s := by
  induction s generalizing p with
  | nil => exact acceptsEmpty_iff p
  | cons c rest ih =>
    simp only [accepts]
    rw [ih, accepts_after_iff]

end Pattern

end ContainerStack.Text
