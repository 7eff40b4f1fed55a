import ContainerStack.Proofs.Template.Occurrence

/-!
Why expanding a template fails. An item fails only if it requires a variable that has no
value to its liking, and a template fails as the first of its items that does. The item
stands in the text as a reference with a question mark, so a template without one never
fails, nor does any where every variable has a value that is not empty.
-/

namespace ContainerStack.Template

variable {lookup : Lookup}

theorem Item.value_eq_error_iff {item : Item} {e : StackError} :
    item.value lookup = .error e ↔ ∃ name modifier word, item = .modified name modifier word ∧
      (modifier = .required ∨ modifier = .requiredNonempty) ∧ Missing lookup name modifier ∧
      e = .missingVariable (String.ofList name) (String.ofList word) := by
  rw [← standsFor_iff]
  constructor
  · intro h
    cases h with
    | missing hmissing hmodifier => exact ⟨_, _, _, rfl, hmodifier, hmissing, rfl⟩
  · rintro ⟨name, modifier, word, rfl, hmodifier, hmissing, rfl⟩
    exact .missing hmissing hmodifier

/-- A list of items fails as the first item that does. -/
theorem failure?_render (is : List Item) :
    failure? (render lookup is) = is.findSome? fun item => failure? (item.value lookup) := by
  induction is with
  | nil => rfl
  | cons item rest ih =>
    cases hitem : item.value lookup with
    | error e => simp [render, hitem, failure?]
    | ok value =>
      have hnone : failure? (.ok value : Outcome (List Char)) = none := rfl
      rw [List.findSome?_cons, hitem, hnone, ← ih, render, hitem]
      cases render lookup rest <;> rfl

theorem failure?_expand (lookup : Lookup) (template : String) :
    failure? (expand lookup template) =
      (ofString template).findSome? fun item => failure? (item.value lookup) := by
  rw [expand, failure?_map, failure?_render]

/-- Only a variable that is undefined, or for one modifier empty, is missing to a reference
that requires it. -/
theorem missing_iff_of_requiring {name : List Char} {modifier : Modifier}
    (h : modifier = .required ∨ modifier = .requiredNonempty) :
    Missing lookup name modifier ↔ lookup (String.ofList name) = none ∨
      modifier = .requiredNonempty ∧ lookup (String.ofList name) = some "" := by
  rw [missing_iff]
  cases hvalue : lookup (String.ofList name) with
  | none => rcases h with rfl | rfl <;> simp [Modifier.takes]
  | some value => rcases h with rfl | rfl <;> simp [Modifier.takes]

/-- The template holds a reference that requires a variable, with a question mark alone or
behind a colon, and a word that reaches to the matching brace. -/
structure Requires (template name : List Char) (modifier : Modifier) (word : List Char) :
    Prop where
  named : Name name
  requiring : modifier = .required ∨ modifier = .requiredNonempty
  closed : Closed word
  occurs : inBraces (name ++ modifier.chars ++ word) <:+: template

theorem Requires.questionMark_mem {template name word : List Char} {modifier : Modifier}
    (h : Requires template name modifier word) : '?' ∈ template := by
  have hmodifier : '?' ∈ modifier.chars := by
    rcases h.requiring with rfl | rfl <;> decide
  exact h.occurs.subset (by simp [inBraces, hmodifier])

/-- An item that requires a variable stands in the text as a reference that does. -/
theorem requires_of_mem {cs name word : List Char} {modifier : Modifier}
    (h : .modified name modifier word ∈ items cs)
    (hmodifier : modifier = .required ∨ modifier = .requiredNonempty) :
    Requires cs name modifier word := by
  obtain ⟨before, after, htext, hlone | ⟨hname, hword⟩⟩ := exists_print_of_mem h
  · contradiction
  · exact ⟨hname, hmodifier, hword, before, after, htext.symm⟩

theorem requires_of_expand_eq_error {template : String} {e : StackError}
    (h : expand lookup template = .error e) : ∃ name modifier word,
      Requires template.toList name modifier word ∧ Missing lookup name modifier ∧
      e = .missingVariable (String.ofList name) (String.ofList word) := by
  have hfailure := failure?_eq_some_iff.mpr h
  rw [failure?_expand] at hfailure
  obtain ⟨item, hmem, hitem⟩ := List.exists_of_findSome?_eq_some hfailure
  obtain ⟨name, modifier, word, rfl, hmodifier, hmissing, he⟩ :=
    Item.value_eq_error_iff.mp (failure?_eq_some_iff.mp hitem)
  exact ⟨name, modifier, word, requires_of_mem hmem hmodifier, hmissing, he⟩

/-- A template expands if no reference in it requires a variable that is missing. -/
theorem exists_expand_eq_ok {template : String}
    (h : ∀ name modifier word, Requires template.toList name modifier word →
      ¬Missing lookup name modifier) : ∃ text, expand lookup template = .ok text := by
  cases he : expand lookup template with
  | ok text => exact ⟨text, rfl⟩
  | error e =>
    obtain ⟨name, modifier, word, hrequires, hmissing, -⟩ := requires_of_expand_eq_error he
    exact absurd hmissing (h name modifier word hrequires)

/-- Expanding a template, however malformed, fails only for a reference in it that requires
a variable which is undefined, or empty where it must not be; the error bears the word of
the reference, or names the variable when there is no word. -/
theorem expand_fails_only_for_required (lookup : Lookup) (template : String) :
    (∀ e, expand lookup template = .error e → ∃ name modifier word,
      Requires template.toList name modifier word ∧
      (lookup (String.ofList name) = none ∨
        modifier = .requiredNonempty ∧ lookup (String.ofList name) = some "") ∧
      e = .missingVariable (String.ofList name) (String.ofList word) ∧
      e.message = if word = [] then
          "required variable '" ++ String.ofList name ++ "' is missing a value"
        else String.ofList word) ∧
    ('?' ∉ template.toList → ∃ text, expand lookup template = .ok text) ∧
    ((∀ name, Name name → ∃ value, lookup (String.ofList name) = some value ∧ value ≠ "") →
      ∃ text, expand lookup template = .ok text) := by
  refine ⟨?_, fun hmark => ?_, fun hvalues => ?_⟩
  · intro e he
    obtain ⟨name, modifier, word, hrequires, hmissing, rfl⟩ := requires_of_expand_eq_error he
    exact ⟨name, modifier, word, hrequires,
      (missing_iff_of_requiring hrequires.requiring).mp hmissing, rfl,
      message_missingVariable _ word⟩
  · refine exists_expand_eq_ok fun name modifier word hrequires => ?_
    exact absurd hrequires.questionMark_mem hmark
  · refine exists_expand_eq_ok fun name modifier word hrequires hmissing => ?_
    obtain ⟨value, hvalue, hne⟩ := hvalues name hrequires.named
    rcases (missing_iff_of_requiring hrequires.requiring).mp hmissing with hnone | ⟨-, hempty⟩
    · rw [hvalue] at hnone
      contradiction
    · exact hne (Option.some.inj (hvalue.symm.trans hempty))

/-- A body without an end, and in it a reference that requires a value. -/
def demandingTemplate : String :=
  "$\x7bA $\x7bB:?no $C\x7d $\x7bD?\x7d"

def emptyValue : Lookup := fun name =>
  if name = "B" then some "" else none

theorem expand_demandingTemplate :
    expand emptyValue demandingTemplate = .error (.missingVariable "B" "no $C") ∧
      (∃ name modifier word, Requires demandingTemplate.toList name modifier word ∧
        (emptyValue (String.ofList name) = none ∨
          modifier = .requiredNonempty ∧ emptyValue (String.ofList name) = some "") ∧
        StackError.missingVariable "B" "no $C" =
          .missingVariable (String.ofList name) (String.ofList word)) ∧
      ∃ text, expand (fun _ => some "1") demandingTemplate = .ok text := by
  have herror : expand emptyValue demandingTemplate =
      .error (.missingVariable "B" "no $C") := by
    cbv
  obtain ⟨name, modifier, word, hrequires, hmissing, heq, -⟩ :=
    (expand_fails_only_for_required emptyValue demandingTemplate).1 _ herror
  exact ⟨herror, ⟨name, modifier, word, hrequires, hmissing, heq⟩,
    (expand_fails_only_for_required _ _).2.2 fun _ _ => ⟨"1", rfl, by decide⟩⟩

end ContainerStack.Template
