import ContainerStack.Proofs.Table
import ContainerStack.Proofs.Template.Reading
import ContainerStack.Template.Value

/-!
The values of templates, item by item. An item stands for itself, for the value of a
variable, for its word, or for an error; a list of items stands for these in turn, up
to the first error. Expanding the printed form of a list gives exactly this, although
dollars of neighbouring items run together in it and a word may hold references of
its own.
-/

namespace ContainerStack.Template

/-- The modifier lets the value of the variable stand. -/
def Modifier.Accepts : Modifier → String → Prop
  | .orWord, _ => True
  | .required, _ => True
  | .orWordIfEmpty, value => value ≠ ""
  | .requiredNonempty, value => value ≠ ""

/-- The variable has no value that the modifier lets stand. -/
def Missing (lookup : Lookup) (name : List Char) (modifier : Modifier) : Prop :=
  ∀ value, lookup (String.ofList name) = some value → ¬modifier.Accepts value

/-- What one item stands for. -/
inductive Item.StandsFor (lookup : Lookup) : Item → Outcome (List Char) → Prop
  | plain (chars : List Char) : StandsFor lookup (.plain chars) (.ok chars)
  | dollar : StandsFor lookup .dollar (.ok ['$'])
  | lone : StandsFor lookup .lone (.ok ['$'])
  | invalid (body : List Char) : StandsFor lookup (.invalid body) (.ok (inBraces body))
  | bare {name : List Char} {value : String} : lookup (String.ofList name) = some value →
      StandsFor lookup (.bare name) (.ok value.toList)
  | bareUndefined {name : List Char} : lookup (String.ofList name) = none →
      StandsFor lookup (.bare name) (.ok [])
  | braced {name : List Char} {value : String} : lookup (String.ofList name) = some value →
      StandsFor lookup (.braced name) (.ok value.toList)
  | bracedUndefined {name : List Char} : lookup (String.ofList name) = none →
      StandsFor lookup (.braced name) (.ok [])
  | value {name word : List Char} {modifier : Modifier} {value : String} :
      lookup (String.ofList name) = some value → modifier.Accepts value →
      StandsFor lookup (.modified name modifier word) (.ok value.toList)
  | word {name word : List Char} {modifier : Modifier} : Missing lookup name modifier →
      modifier = .orWord ∨ modifier = .orWordIfEmpty →
      StandsFor lookup (.modified name modifier word) (.ok word)
  | missing {name word : List Char} {modifier : Modifier} : Missing lookup name modifier →
      modifier = .required ∨ modifier = .requiredNonempty →
      StandsFor lookup (.modified name modifier word)
        (.error (.missingVariable (String.ofList name) (String.ofList word)))

/-- What a list of items stands for, from left to right. -/
inductive Evaluates (lookup : Lookup) : List Item → Outcome (List Char) → Prop
  | nil : Evaluates lookup [] (.ok [])
  | cons {item : Item} {rest : List Item} {value values : List Char} :
      item.StandsFor lookup (.ok value) → Evaluates lookup rest (.ok values) →
      Evaluates lookup (item :: rest) (.ok (value ++ values))
  | fails {item : Item} {e : StackError} (rest : List Item) :
      item.StandsFor lookup (.error e) → Evaluates lookup (item :: rest) (.error e)
  | failsLater {item : Item} {rest : List Item} {value : List Char} {e : StackError} :
      item.StandsFor lookup (.ok value) → Evaluates lookup rest (.error e) →
      Evaluates lookup (item :: rest) (.error e)

variable {lookup : Lookup}

theorem Modifier.takes_eq_true_iff {modifier : Modifier} {o : Option String} :
    modifier.takes o = true ↔ ∃ value, o = some value ∧ modifier.Accepts value := by
  cases o with
  | none => cases modifier <;> simp [takes]
  | some value => cases modifier <;> simp [takes, Accepts]

theorem missing_iff {name : List Char} {modifier : Modifier} :
    Missing lookup name modifier ↔ modifier.takes (lookup (String.ofList name)) = false := by
  rw [← Bool.not_eq_true, Modifier.takes_eq_true_iff, Missing]
  simp only [not_exists, not_and]

theorem Item.value_of_accepts {name : List Char} {modifier : Modifier} {value : String}
    (hvalue : lookup (String.ofList name) = some value) (haccepts : modifier.Accepts value)
    (word : List Char) : (Item.modified name modifier word).value lookup = .ok value.toList := by
  have htakes : modifier.takes (some value) = true :=
    Modifier.takes_eq_true_iff.mpr ⟨value, rfl, haccepts⟩
  simp only [Item.value, hvalue, htakes, if_true, valueChars, Option.getD_some]

theorem Item.standsFor_iff {item : Item} {o : Outcome (List Char)} :
    item.StandsFor lookup o ↔ item.value lookup = o := by
  constructor
  · intro h
    cases h with
    | plain chars => rfl
    | dollar => rfl
    | lone => rfl
    | invalid body => rfl
    | bare hvalue => simp [Item.value, valueChars, hvalue]
    | bareUndefined hnone => simp [Item.value, valueChars, hnone]
    | braced hvalue => simp [Item.value, valueChars, hvalue]
    | bracedUndefined hnone => simp [Item.value, valueChars, hnone]
    | value hvalue haccepts => exact value_of_accepts hvalue haccepts _
    | word hmissing hmodifier =>
      have htakes := missing_iff.mp hmissing
      rcases hmodifier with rfl | rfl <;> simp [Item.value, htakes]
    | missing hmissing hmodifier =>
      have htakes := missing_iff.mp hmissing
      rcases hmodifier with rfl | rfl <;> simp [Item.value, htakes]
  · rintro rfl
    cases item with
    | plain chars => exact .plain chars
    | dollar => exact .dollar
    | lone => exact .lone
    | invalid body => exact .invalid body
    | bare name =>
      cases hvalue : lookup (String.ofList name) with
      | none => simpa [Item.value, valueChars, hvalue] using StandsFor.bareUndefined hvalue
      | some value => simpa [Item.value, valueChars, hvalue] using StandsFor.bare hvalue
    | braced name =>
      cases hvalue : lookup (String.ofList name) with
      | none => simpa [Item.value, valueChars, hvalue] using StandsFor.bracedUndefined hvalue
      | some value => simpa [Item.value, valueChars, hvalue] using StandsFor.braced hvalue
    | modified name modifier word =>
      by_cases htakes : modifier.takes (lookup (String.ofList name)) = true
      · obtain ⟨value, hvalue, haccepts⟩ := Modifier.takes_eq_true_iff.mp htakes
        rw [value_of_accepts hvalue haccepts]
        exact .value hvalue haccepts
      · have hmissing := missing_iff.mpr (Bool.not_eq_true _ ▸ htakes)
        cases modifier with
        | orWord => simpa [Item.value, htakes] using StandsFor.word hmissing (Or.inl rfl)
        | orWordIfEmpty => simpa [Item.value, htakes] using StandsFor.word hmissing (Or.inr rfl)
        | required => simpa [Item.value, htakes] using StandsFor.missing hmissing (Or.inl rfl)
        | requiredNonempty =>
          simpa [Item.value, htakes] using StandsFor.missing hmissing (Or.inr rfl)

theorem evaluates_iff {is : List Item} {o : Outcome (List Char)} :
    Evaluates lookup is o ↔ render lookup is = o := by
  induction is generalizing o with
  | nil =>
    constructor
    · intro h
      cases h
      rfl
    · rintro rfl
      exact .nil
  | cons item rest ih =>
    constructor
    · intro h
      cases h with
      | cons hitem hrest => simp only [render, Item.standsFor_iff.mp hitem, ih.mp hrest]
      | fails _ hitem => simp only [render, Item.standsFor_iff.mp hitem]
      | failsLater hitem hrest => simp only [render, Item.standsFor_iff.mp hitem, ih.mp hrest]
    · rintro rfl
      cases hitem : item.value lookup with
      | error e =>
        simp only [render, hitem]
        exact .fails rest (Item.standsFor_iff.mpr hitem)
      | ok value =>
        cases hrest : render lookup rest with
        | error e =>
          simp only [render, hitem, hrest]
          exact .failsLater (Item.standsFor_iff.mpr hitem) (ih.mpr hrest)
        | ok values =>
          simp only [render, hitem, hrest]
          exact .cons (Item.standsFor_iff.mpr hitem) (ih.mpr hrest)

/-- Every error is that of a variable which an item requires. -/
theorem Evaluates.exists_required {is : List Item} {e : StackError}
    (h : Evaluates lookup is (.error e)) : ∃ name modifier word,
      .modified name modifier word ∈ is ∧
        e = .missingVariable (String.ofList name) (String.ofList word) := by
  induction is with
  | nil => cases h
  | cons item rest ih =>
    cases h with
    | fails _ hitem =>
      cases hitem with
      | missing => exact ⟨_, _, _, List.mem_cons_self, rfl⟩
    | failsLater _ hrest =>
      obtain ⟨name, modifier, word, hmem, he⟩ := ih hrest
      exact ⟨name, modifier, word, List.mem_cons_of_mem _ hmem, he⟩

theorem render_plain_cons (chars : List Char) (is : List Item) :
    render lookup (.plain chars :: is) = (render lookup is).map (chars ++ ·) := by
  cases hrest : render lookup is <;> simp [render, Item.value, hrest, Except.map]

/-- Text up to the next dollar is copied, wherever it was cut into items. -/
theorem render_items_span (cs : List Char) :
    render lookup (items cs) =
      (render lookup (items (cs.dropWhile isPlain))).map (cs.takeWhile isPlain ++ ·) := by
  cases cs with
  | nil => simp [items, render, Except.map]
  | cons c rest =>
    by_cases hc : isPlain c = true
    · rw [items, if_pos hc, render_plain_cons, List.takeWhile_cons_of_pos hc,
        List.dropWhile_cons_of_pos hc]
    · rw [List.takeWhile_cons_of_neg hc, List.dropWhile_cons_of_neg hc]
      cases render lookup (items (c :: rest)) <;> simp [Except.map]

theorem render_items_plain_append {chars : List Char} (h : '$' ∉ chars) (cs : List Char) :
    render lookup (items (chars ++ cs)) = (render lookup (items cs)).map (chars ++ ·) := by
  have hplain : ∀ c ∈ chars, isPlain c = true := by
    intro c hc
    have hne : c ≠ '$' := fun heq => h (heq ▸ hc)
    simpa [isPlain] using hne
  rw [render_items_span (chars ++ cs), render_items_span cs,
    List.takeWhile_append_of_pos hplain, List.dropWhile_append_of_pos hplain]
  cases render lookup (items (cs.dropWhile isPlain)) <;> simp [Except.map]

/-- Reading a printed list of items keeps its value. -/
theorem render_items_printed {is : List Item} (h : Fitting is) :
    render lookup (items (printed is)) = render lookup is := by
  induction is with
  | nil => simp [printed, items]
  | cons item rest ih =>
    obtain ⟨hitem, hrest⟩ := h
    have hprinted : printed (item :: rest) = item.print ++ printed rest := List.flatMap_cons
    rw [hprinted]
    -- Neighbouring texts are read as one item, so a text is only copied, not read back.
    by_cases hplain : ∃ chars, item = .plain chars
    · obtain ⟨chars, rfl⟩ := hplain
      rw [Item.print, render_items_plain_append hitem, ih hrest, render_plain_cons]
    · rw [items_print_append hitem (not_exists.mp hplain)]
      simp only [render, ih hrest]

theorem message_missingVariable (name : String) (word : List Char) :
    (StackError.missingVariable name (String.ofList word)).message =
      if word = [] then "required variable '" ++ name ++ "' is missing a value"
      else String.ofList word := by
  have hmessage : ∀ text, (StackError.missingVariable name text).message =
      if text = "" then "required variable '" ++ name ++ "' is missing a value" else text :=
    fun _ => rfl
  have hempty : String.ofList word = "" ↔ word = [] := String.ofList_eq_empty_iff
  rw [hmessage]
  by_cases hword : word = []
  · rw [if_pos (hempty.mpr hword), if_pos hword]
  · rw [if_neg (mt hempty.mp hword), if_neg hword]

/-- Expanding a printed list of items evaluates the items from left to right. An error
comes from a required variable and bears its word as message, or names the variable
when there is no word. -/
theorem expand_printed {is : List Item} (h : Fitting is) (lookup : Lookup) :
    (∀ o, expand lookup (String.ofList (printed is)) = o.map String.ofList ↔
      Evaluates lookup is o) ∧
    ∀ e, Evaluates lookup is (.error e) → ∃ name modifier word,
      .modified name modifier word ∈ is ∧
        e = .missingVariable (String.ofList name) (String.ofList word) ∧
        e.message = if word = [] then
            "required variable '" ++ String.ofList name ++ "' is missing a value"
          else String.ofList word := by
  constructor
  · intro o
    have hexpand : expand lookup (String.ofList (printed is)) =
        (render lookup is).map String.ofList := by
      rw [expand, ofString, String.toList_ofList, render_items_printed h]
    rw [evaluates_iff, hexpand]
    constructor
    · exact fun heq => map_injective (fun _ _ => String.ofList_injective) heq
    · exact fun heq => by rw [heq]
  · intro e he
    obtain ⟨name, modifier, word, hmem, rfl⟩ := he.exists_required
    exact ⟨name, modifier, word, hmem, rfl, message_missingVariable _ word⟩

/-- An escaped dollar before a reference, a word that holds a reference and a brace of
its own, an invalid body and a dollar at the end. -/
def mixedItems : List Item := [
  .plain ['a', '{'],
  .dollar,
  .bare ['H'],
  .plain [':', '-'],
  .modified ['P', '_', '1'] .orWordIfEmpty ['$', '{', 'Q', '}', '{'],
  .invalid ['1', 'x'],
  .lone]

def mixedLookup : Lookup := fun name =>
  if name = "H" then some "db" else if name = "P_1" then some "" else none

theorem expand_mixedItems :
    Fitting mixedItems ∧
      printed mixedItems = "a\x7b$$$H:-$\x7bP_1:-$\x7bQ\x7d\x7b\x7d$\x7b1x\x7d$".toList ∧
      Evaluates mixedLookup mixedItems (.ok "a\x7b$db:-$\x7bQ\x7d\x7b$\x7b1x\x7d$".toList) := by
  have hfitting : Fitting mixedItems := by decide +kernel
  refine ⟨hfitting, by decide +kernel, ((expand_printed hfitting mixedLookup).1 _).mp ?_⟩
  cbv

end ContainerStack.Template
