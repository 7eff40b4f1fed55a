import ContainerStack.Format.Duration
import ContainerStack.Proofs.Format.Port
import Mathlib.Data.List.Basic

/-!
The texts of durations. A number is a run of digits with or without a fraction, and an
amount is a number with its unit. A number alone is a duration, and so are amounts that
are written one after the other, with some of the six units in their order and none of
them twice. A text is accepted exactly when it is a duration in one of the two ways.
-/

namespace ContainerStack.Format

open Text

/-- A number, with the digits behind its point if it has one. -/
structure Quantity where
  whole : Digits
  fraction : Option Digits

def Quantity.chars (q : Quantity) : List Char :=
  q.whole.chars ++ q.fraction.elim [] fun digits => '.' :: digits.chars

structure Amount where
  quantity : Quantity
  unit : List Char

def Amount.chars (a : Amount) : List Char :=
  a.quantity.chars ++ a.unit

inductive Duration where
  | number (q : Quantity)
  | amounts (parts : List Amount) (ne_nil : parts ≠ [])
      (ordered : (parts.map Amount.unit).Sublist
        [['h'], ['m'], ['s'], ['m', 's'], ['u', 's'], ['n', 's']])

def Duration.chars : Duration → List Char
  | .number q => q.chars
  | .amounts parts _ _ => parts.flatMap Amount.chars

theorem Quantity.chars_ne_nil (q : Quantity) : q.chars ≠ [] :=
  List.append_ne_nil_of_left_ne_nil q.whole.ne_nil _

theorem Duration.chars_ne_nil (d : Duration) : d.chars ≠ [] := by
  cases d with
  | number q => exact q.chars_ne_nil
  | amounts parts hne _ =>
    obtain ⟨first, later, rfl⟩ := List.exists_cons_of_ne_nil hne
    have hfirst : first.chars ≠ [] :=
      List.append_ne_nil_of_left_ne_nil first.quantity.chars_ne_nil _
    exact List.append_ne_nil_of_left_ne_nil hfirst _

theorem spells_quantity : quantity.Spells Quantity.chars := by
  have hparts := spells_digits.both (spells_digits.after_char '.').optional
  exact hparts.of_surjective (e := fun q => (q.whole, q.fraction))
    (fun ⟨whole, fraction⟩ => ⟨⟨whole, fraction⟩, rfl⟩) fun _ => rfl

theorem spells_segment (unit : List Char) :
    (segment unit).Spells fun q : Quantity => q.chars ++ unit :=
  (spells_quantity.both (Pattern.spells_word unit)).of_surjective (e := fun q => (q, ()))
    (fun ⟨q, _⟩ => ⟨q, rfl⟩) fun _ => rfl

/-- Optional segments in a fixed order are amounts with some of the units. -/
theorem accepts_segments_iff {us : List (List Char)} {s : List Char} :
    (segments us).Accepts s ↔
      ∃ parts : List Amount, (parts.map Amount.unit).Sublist us ∧ parts.flatMap Amount.chars = s := by
  induction us generalizing s with
  | nil =>
    simp only [segments, Pattern.accepts_nothing_iff, List.sublist_nil, List.map_eq_nil_iff,
      exists_eq_left, List.flatMap_nil]
    exact eq_comm
  | cons unit rest ih =>
    simp only [segments, Pattern.accepts_both_iff, (spells_segment unit).optional _, ih]
    constructor
    · intro h
      obtain ⟨_, _, ⟨first, rfl⟩, ⟨later, hunits, rfl⟩, rfl⟩ := h
      cases first with
      | none => exact ⟨later, hunits.cons unit, rfl⟩
      | some q => exact ⟨⟨q, unit⟩ :: later, hunits.cons_cons unit, rfl⟩
    · intro h
      obtain ⟨parts, hunits, rfl⟩ := h
      rcases List.sublist_cons_iff.mp hunits with hunits | ⟨others, hmap, hunits⟩
      · exact ⟨_, _, ⟨none, rfl⟩, ⟨parts, hunits, rfl⟩, rfl⟩
      · obtain ⟨first, later, rfl, rfl, rfl⟩ := List.map_eq_cons_iff.mp hmap
        exact ⟨_, _, ⟨some first.quantity, rfl⟩, ⟨later, hunits, rfl⟩, rfl⟩

theorem isDuration_iff {s : String} :
    isDuration s = true ↔ ∃ d : Duration, d.chars = s.toList := by
  have hquantity : quantity.accepts s.toList = true ↔ ∃ q : Quantity, q.chars = s.toList := by
    rw [Pattern.accepts_iff, spells_quantity]
  have hsegments : (segments units).accepts s.toList = true ↔ ∃ parts : List Amount,
      (parts.map Amount.unit).Sublist units ∧ parts.flatMap Amount.chars = s.toList := by
    rw [Pattern.accepts_iff, accepts_segments_iff]
  rw [isDuration, Bool.and_eq_true, Bool.or_eq_true, hquantity, hsegments, Bool.not_eq_true',
    List.isEmpty_eq_false_iff]
  constructor
  · intro h
    obtain ⟨hs, ⟨parts, hunits, hparts⟩ | ⟨q, hq⟩⟩ := h
    · have hne : parts ≠ [] := by
        rintro rfl
        exact hs hparts.symm
      exact ⟨.amounts parts hne hunits, hparts⟩
    · exact ⟨.number q, hq⟩
  · intro h
    obtain ⟨d, hd⟩ := h
    refine ⟨hd ▸ d.chars_ne_nil, ?_⟩
    cases d with
    | number q => exact .inr ⟨q, hd⟩
    | amounts parts _ hunits => exact .inl ⟨parts, hunits, hd⟩

/-- The formats of ports and of durations accept the texts that are written for some port
mapping or duration, and no others. -/
theorem ports_and_durations_written :
    (∀ s : String, isPortMapping s = true ↔ ∃ m : PortMapping, m.chars = s.toList) ∧
      ∀ s : String, isDuration s = true ↔ ∃ d : Duration, d.chars = s.toList :=
  ⟨fun _ => isPortMapping_iff, fun _ => isDuration_iff⟩

end ContainerStack.Format
