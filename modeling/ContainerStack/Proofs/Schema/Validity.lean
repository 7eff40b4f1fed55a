import ContainerStack.Proofs.Table
import ContainerStack.Schema.Basic

/-!
Validity by the shape of the schema. The path says where a violation stands, not
whether there is one, so a value is valid under a schema of parts exactly when
its parts are: all of them for `all`, items and members one by one, and exactly
one of two alternatives.
-/

namespace ContainerStack.Schema

theorem firstInItems_eq_none_iff {check : Nat → Json → Option Violation} {P : Json → Prop}
    (h : ∀ index x, check index x = none ↔ P x) (n : Nat) (xs : List Json) :
    firstInItems check n xs = none ↔ ∀ x ∈ xs, P x := by
  induction xs generalizing n with
  | nil => simp [firstInItems]
  | cons x rest ih =>
    have hx := h n x
    have hrest := ih (n + 1)
    cases hcheck : check n x with
    | some v => simp [firstInItems, hcheck, ← hx]
    | none => simp [firstInItems, hcheck, hrest, ← hx]

theorem firstInMembers_eq_none_iff {check : String → Json → Option Violation}
    {ms : Entries Json} :
    firstInMembers check ms = none ↔ ∀ m ∈ ms, check m.1 m.2 = none := by
  induction ms with
  | nil => simp [firstInMembers]
  | cons m rest ih =>
    obtain ⟨key, x⟩ := m
    cases hcheck : check key x with
    | some v => simp [firstInMembers, hcheck]
    | none => simp [firstInMembers, hcheck, ih]

mutual

/-- Whether there is a violation does not depend on the path. -/
theorem violation?_eq_none_iff : (schema : Schema) → (path : Path) → (x : Json) →
    (schema.violation? path x = none ↔ schema.Valid x)
  | .all parts, path, x => by
    have hpath := firstViolation?_eq_none_iff parts path x
    have hroot := firstViolation?_eq_none_iff parts [] x
    simp only [Valid, violation?, hpath, hroot]
  | .kinds allowed, path, x => by
    simp only [Valid, violation?]
    split <;> simp
  | .oneOfTexts allowed, path, x => by
    simp only [Valid, violation?]
    split <;> simp
  | .required members, path, x => by
    cases x <;> simp only [Valid, violation?]
    split <;> simp
  | .items each, path, x => by
    have heach := fun path x => violation?_eq_none_iff each path x
    cases x <;> simp only [Valid, violation?]
    rw [firstInItems_eq_none_iff fun _ x => heach _ x,
      firstInItems_eq_none_iff fun _ x => heach _ x]
  | .uniqueItems, path, x => by
    cases x <;> simp only [Valid, violation?]
    split <;> simp
  | .format expected, path, x => by
    cases x <;> simp only [Valid, violation?]
    split <;> simp
  | .atLeast least, path, x => by
    cases x <;> simp only [Valid, violation?]
    split <;> simp
  | .atMost greatest, path, x => by
    cases x <;> simp only [Valid, violation?]
    split <;> simp
  | .oneOf choices, path, x => by
    simp only [Valid, violation?]
    split <;> simp
  | .record members, path, x => by
    have hmember := fun path key x => memberViolation?_eq_none_iff members path key x
    cases x <;> simp only [Valid, violation?]
    simp only [firstInMembers_eq_none_iff, hmember]
  | .dictionary pattern each closed, path, x => by
    have heach := fun path x => violation?_eq_none_iff each path x
    cases x <;> simp only [Valid, violation?]
    simp only [firstInMembers_eq_none_iff]
    refine forall₂_congr fun m _ => ?_
    split
    · rw [heach, heach]
    · split <;> simp

theorem firstViolation?_eq_none_iff : (parts : List Schema) → (path : Path) → (x : Json) →
    (firstViolation? parts path x = none ↔ ∀ part ∈ parts, part.Valid x)
  | [], path, x => by simp [firstViolation?]
  | part :: rest, path, x => by
    have hpart := violation?_eq_none_iff part path x
    have hrest := firstViolation?_eq_none_iff rest path x
    cases hfirst : part.violation? path x with
    | some v => simp [firstViolation?, hfirst, ← hpart]
    | none => simp [firstViolation?, hfirst, hrest, ← hpart]

theorem memberViolation?_eq_none_iff : (members : Entries Schema) → (path : Path) →
    (key : String) → (x : Json) → (memberViolation? members path key x = none ↔
      ∃ each, Entries.get? key members = some each ∧ each.Valid x)
  | [], path, key, x => by simp [memberViolation?, Entries.get?]
  | (name, each) :: rest, path, key, x => by
    have heach := violation?_eq_none_iff each (.member key :: path) x
    have hrest := memberViolation?_eq_none_iff rest path key x
    by_cases hname : name = key
    · simp [memberViolation?, Entries.get?, hname, heach]
    · simp [memberViolation?, Entries.get?, hname, hrest]

end

theorem valid_all_iff {parts : List Schema} {x : Json} :
    (Schema.all parts).Valid x ↔ ∀ part ∈ parts, part.Valid x :=
  firstViolation?_eq_none_iff parts [] x

theorem valid_all_nil (x : Json) : (Schema.all []).Valid x :=
  valid_all_iff.mpr (by simp)

theorem valid_all_cons {part : Schema} {rest : List Schema} {x : Json} :
    (Schema.all (part :: rest)).Valid x ↔ part.Valid x ∧ (Schema.all rest).Valid x := by
  simp [valid_all_iff]

theorem valid_kinds_iff {allowed : List Kind} {x : Json} :
    (Schema.kinds allowed).Valid x ↔ ∃ kind ∈ allowed, kind.holds x = true := by
  simp [Valid, violation?]

theorem valid_oneOfTexts_iff {allowed : List String} {x : Json} :
    (Schema.oneOfTexts allowed).Valid x ↔ ∃ text ∈ allowed, x = .str text := by
  simp [Valid, violation?]

theorem valid_required_iff {members : List String} {ms : Entries Json} :
    (Schema.required members).Valid (.obj ms) ↔
      ∀ member ∈ members, Entries.get? member ms ≠ none := by
  unfold Valid
  rw [violation?]
  split
  · rename_i member hfind
    have hmem := List.mem_of_find?_eq_some hfind
    have hnone := List.find?_some hfind
    simp only [reduceCtorEq, false_iff, not_forall]
    exact ⟨member, hmem, by simpa using hnone⟩
  · rename_i hfind
    simpa using List.find?_eq_none.mp hfind

theorem valid_items_iff {each : Schema} {xs : List Json} :
    (Schema.items each).Valid (.arr xs) ↔ ∀ x ∈ xs, each.Valid x :=
  firstInItems_eq_none_iff (fun _ x => violation?_eq_none_iff each _ x) 0 xs

theorem valid_uniqueItems_iff {xs : List Json} :
    uniqueItems.Valid (.arr xs) ↔ allDifferent xs = true := by
  simp [Valid, violation?]

theorem valid_format_iff {expected : TextFormat} {s : String} :
    (Schema.format expected).Valid (.str s) ↔ expected.holds s = true := by
  simp [Valid, violation?]

/-- Each member is allowed and valid under the schema for its name. -/
def MembersValid (members : Entries Schema) (ms : Entries Json) : Prop :=
  ∀ m ∈ ms, ∃ each, Entries.get? m.1 members = some each ∧ each.Valid m.2

theorem MembersValid.valid_of_get? {members : Entries Schema} {ms : Entries Json}
    {key : String} {each : Schema} {x : Json} (h : MembersValid members ms)
    (heach : Entries.get? key members = some each) (hx : Entries.get? key ms = some x) :
    each.Valid x := by
  obtain ⟨found, hfound, hvalid⟩ := h (key, x) (Entries.mem_of_get? hx)
  rw [hfound, Option.some.injEq] at heach
  exact heach ▸ hvalid

theorem valid_record_iff {members : Entries Schema} {ms : Entries Json} :
    (Schema.record members).Valid (.obj ms) ↔ MembersValid members ms := by
  have hmember := fun key x => memberViolation?_eq_none_iff members [] key x
  simp only [Valid, violation?, firstInMembers_eq_none_iff] at hmember ⊢
  simp only [hmember, MembersValid, Valid]

theorem valid_dictionary_iff {pattern : KeyPattern} {each : Schema} {closed : Bool}
    {ms : Entries Json} :
    (Schema.dictionary pattern each closed).Valid (.obj ms) ↔
      ∀ m ∈ ms, (pattern.holds m.1 = true → each.Valid m.2) ∧
        (closed = true → pattern.holds m.1 = true) := by
  simp only [Valid, violation?, firstInMembers_eq_none_iff]
  refine forall₂_congr fun m _ => ?_
  cases hholds : pattern.holds m.1 with
  | true =>
    have heach := violation?_eq_none_iff each [.member m.1] m.2
    simpa [Valid] using heach
  | false => cases closed <;> simp

/-- One of two alternatives holds, and not the other. -/
theorem valid_oneOf_iff {a b : Schema} {x : Json} :
    (Schema.oneOf [a, b]).Valid x ↔ (a.Valid x ∧ ¬b.Valid x) ∨ (¬a.Valid x ∧ b.Valid x) := by
  unfold Valid
  cases ha : a.violation? [] x <;> cases hb : b.violation? [] x <;>
    simp [violation?, validChoices, ha, hb]

/-- Alternatives that exclude each other are a disjunction. -/
theorem valid_oneOf_iff_or {a b : Schema} {x : Json} (h : a.Valid x → ¬b.Valid x) :
    (Schema.oneOf [a, b]).Valid x ↔ a.Valid x ∨ b.Valid x := by
  rw [valid_oneOf_iff]
  constructor
  · intro hparts
    rcases hparts with ⟨ha, -⟩ | ⟨-, hb⟩
    · exact Or.inl ha
    · exact Or.inr hb
  · intro hparts
    rcases hparts with ha | hb
    · exact Or.inl ⟨ha, h ha⟩
    · exact Or.inr ⟨fun ha => h ha hb, hb⟩

end ContainerStack.Schema
