import ContainerStack.Template.Reader
import Mathlib.Data.List.TakeWhile
import Mathlib.Tactic.Tauto

/-!
Reading what was printed. A name is read to its end when no character of a name
follows it, and a body in braces is read to its own closing brace when it is closed,
that is when it closes no level but those that it opens. So an item is read back from
its printed form whatever follows it, as long as the next character cannot be taken
for a part of it.
-/

namespace ContainerStack.Template

open Text

/-- A letter of ASCII or an underscore. -/
def NameStart (c : Char) : Prop :=
  ('a' ≤ c ∧ c ≤ 'z') ∨ ('A' ≤ c ∧ c ≤ 'Z') ∨ c = '_'

/-- A letter or digit of ASCII or an underscore. -/
def NameChar (c : Char) : Prop :=
  NameStart c ∨ ('0' ≤ c ∧ c ≤ '9')

/-- The name of a variable. -/
structure Name (cs : List Char) : Prop where
  start : ∃ c ∈ cs.head?, NameStart c
  chars : ∀ c ∈ cs, NameChar c

instance (c : Char) : Decidable (NameStart c) :=
  inferInstanceAs (Decidable (_ ∨ _))

instance (c : Char) : Decidable (NameChar c) :=
  inferInstanceAs (Decidable (_ ∨ _))

instance (cs : List Char) : Decidable (Name cs) :=
  decidable_of_iff (cs.head?.any (NameStart ·) = true ∧ cs.all (NameChar ·) = true) <| by
    simp only [Option.any_eq_true, List.all_eq_true, decide_eq_true_eq]
    exact ⟨fun h => ⟨h.1, h.2⟩, fun h => ⟨h.start, h.chars⟩⟩

/-- Reads on at some level after some character. A brace opens a level directly after
a dollar, every closing brace closes one, and the text ends outside of all levels. -/
def Closes : (level : Nat) → (previous : Char) → List Char → Prop
  | level, _, [] => level = 0
  | level, previous, c :: rest =>
    if c = '{' ∧ previous = '$' then Closes (level + 1) c rest
    else if c = '}' then 0 < level ∧ Closes (level - 1) c rest
    else Closes level c rest

instance decidableCloses : (level : Nat) → (previous : Char) → (text : List Char) →
    Decidable (Closes level previous text)
  | level, _, [] => inferInstanceAs (Decidable (level = 0))
  | level, previous, c :: rest =>
    have := decidableCloses (level + 1) c rest
    have := decidableCloses (level - 1) c rest
    have := decidableCloses level c rest
    inferInstanceAs (Decidable (if c = '{' ∧ previous = '$' then Closes (level + 1) c rest
      else if c = '}' then 0 < level ∧ Closes (level - 1) c rest
      else Closes level c rest))

/-- The text closes the levels that it opens and no others. -/
def Closed (text : List Char) : Prop :=
  Closes 0 '\x00' text

instance (text : List Char) : Decidable (Closed text) :=
  inferInstanceAs (Decidable (Closes 0 '\x00' text))

/-- The body of a reference to a variable: a name, alone or with a modifier and a word. -/
def Reference (body : List Char) : Prop :=
  ∃ name, Name name ∧
    (body = name ∨
      ∃ (modifier : Modifier) (word : List Char), body = name ++ modifier.chars ++ word)

theorem isNameStart_iff {c : Char} : isNameStart c = true ↔ NameStart c := by
  simp only [isNameStart, isAsciiLetter, NameStart, Bool.or_eq_true, Bool.and_eq_true,
    decide_eq_true_eq, beq_iff_eq, or_assoc]

theorem isNameChar_iff {c : Char} : isNameChar c = true ↔ NameChar c := by
  simp only [isNameChar, isAsciiAlphanumeric, isAsciiLetter, isAsciiDigit, NameChar, NameStart,
    Bool.or_eq_true, Bool.and_eq_true, decide_eq_true_eq, beq_iff_eq]
  tauto

/-- Characters with a meaning in templates are in no name. -/
theorem NameChar.ne_special {c : Char} (h : NameChar c) : c ≠ '$' ∧ c ≠ '{' ∧ c ≠ '}' := by
  refine ⟨?_, ?_, ?_⟩ <;> rintro rfl <;> exact absurd h (by decide)

theorem splitName_of_not_start {cs : List Char} (h : ∀ c ∈ cs.head?, ¬NameStart c) :
    splitName cs = ([], cs) := by
  cases cs with
  | nil => rfl
  | cons c rest =>
    have hc : isNameStart c ≠ true := mt isNameStart_iff.mp (h c rfl)
    rw [splitName, if_neg hc]

/-- A name ends where no character of a name follows. -/
theorem splitName_append {name cs : List Char} (hname : Name name)
    (hnext : ∀ c ∈ cs.head?, ¬NameChar c) : splitName (name ++ cs) = (name, cs) := by
  have hchars : ∀ c ∈ name, isNameChar c = true :=
    fun c hc => isNameChar_iff.mpr (hname.chars c hc)
  have htake : cs.takeWhile isNameChar = [] := by
    cases cs with
    | nil => rfl
    | cons c rest => exact List.takeWhile_cons_of_neg (mt isNameChar_iff.mp (hnext c rfl))
  have hdrop : cs.dropWhile isNameChar = cs := by
    cases cs with
    | nil => rfl
    | cons c rest => exact List.dropWhile_cons_of_neg (mt isNameChar_iff.mp (hnext c rfl))
  have hsplit : splitName (name ++ cs) =
      ((name ++ cs).takeWhile isNameChar, (name ++ cs).dropWhile isNameChar) := by
    obtain ⟨c, hhead, hc⟩ := hname.start
    cases name with
    | nil => simp at hhead
    | cons first rest =>
      rw [List.head?_cons, Option.mem_some_iff] at hhead
      subst hhead
      rw [List.cons_append, splitName, if_pos (isNameStart_iff.mpr hc)]
  rw [hsplit, List.takeWhile_append_of_pos hchars, List.dropWhile_append_of_pos hchars, htake,
    hdrop, List.append_nil]

/-- What is read as a name is one, and nothing of the text is lost. -/
theorem name_of_splitName {cs name after : List Char} (h : splitName cs = (name, after))
    (hne : name ≠ []) : Name name ∧ cs = name ++ after := by
  cases cs with
  | nil =>
    simp only [splitName, Prod.mk.injEq] at h
    exact absurd h.1.symm hne
  | cons c rest =>
    rw [splitName] at h
    split at h
    · rename_i hc
      rw [Prod.mk.injEq] at h
      obtain ⟨rfl, rfl⟩ := h
      have hstart : isNameChar c = true := isNameChar_iff.mpr (Or.inl (isNameStart_iff.mp hc))
      refine ⟨⟨⟨c, ?_, isNameStart_iff.mp hc⟩, fun d hd => ?_⟩, ?_⟩
      · rw [List.takeWhile_cons_of_pos hstart]
        rfl
      · exact isNameChar_iff.mp (List.mem_takeWhile_imp hd)
      · exact List.takeWhile_append_dropWhile.symm
    · rw [Prod.mk.injEq] at h
      exact absurd h.1.symm hne

theorem Modifier.not_nameChar_head (modifier : Modifier) (word : List Char) :
    ∀ c ∈ (modifier.chars ++ word).head?, ¬NameChar c := by
  cases modifier <;> rintro c ⟨rfl⟩ <;> decide

theorem itemOfBody_of_name {name : List Char} (h : Name name) : itemOfBody name = .braced name := by
  have hnone : ∀ c ∈ ([] : List Char).head?, ¬NameChar c := by simp
  have hsplit : splitName name = (name, []) := by simpa using splitName_append h hnone
  obtain ⟨c, hc, -⟩ := h.start
  cases name with
  | nil => simp at hc
  | cons first rest => simp only [itemOfBody, hsplit]

/-- The modifier is read after the longest name, and all that follows it is the word. -/
theorem itemOfBody_of_modifier {name : List Char} (h : Name name) (modifier : Modifier)
    (word : List Char) :
    itemOfBody (name ++ modifier.chars ++ word) = .modified name modifier word := by
  have hsplit := splitName_append h (modifier.not_nameChar_head word)
  obtain ⟨c, hc, -⟩ := h.start
  cases name with
  | nil => simp at hc
  | cons first rest =>
    rw [List.append_assoc, itemOfBody, hsplit]
    cases modifier <;> rfl

theorem itemOfBody_of_not_reference {body : List Char} (h : ¬Reference body) :
    itemOfBody body = .invalid body := by
  have hmodified : ∀ name modifier word, splitName body = (name, Modifier.chars modifier ++ word) →
      name = [] := by
    intro name modifier word hsplit
    by_contra hne
    obtain ⟨hname, hbody⟩ := name_of_splitName hsplit hne
    exact h ⟨name, hname, Or.inr ⟨modifier, word, by rw [hbody, List.append_assoc]⟩⟩
  have hbare : ∀ name, splitName body = (name, []) → name = [] := by
    intro name hsplit
    by_contra hne
    obtain ⟨hname, hbody⟩ := name_of_splitName hsplit hne
    exact h ⟨name, hname, Or.inl (by rw [hbody, List.append_nil])⟩
  unfold itemOfBody
  split
  · rfl
  · rename_i name hne hsplit
    exact absurd (hbare name hsplit) hne
  · rename_i name word hne hsplit
    exact absurd (hmodified name .orWordIfEmpty word hsplit) hne
  · rename_i name word hne hsplit
    exact absurd (hmodified name .requiredNonempty word hsplit) hne
  · rename_i name word hne hsplit
    exact absurd (hmodified name .orWord word hsplit) hne
  · rename_i name word hne hsplit
    exact absurd (hmodified name .required word hsplit) hne
  · rfl

theorem itemOfBody_eq_invalid_iff {body : List Char} :
    itemOfBody body = .invalid body ↔ ¬Reference body := by
  refine ⟨?_, itemOfBody_of_not_reference⟩
  rintro hinvalid ⟨name, hname, rfl | ⟨modifier, word, rfl⟩⟩
  · rw [itemOfBody_of_name hname] at hinvalid
    contradiction
  · rw [itemOfBody_of_modifier hname] at hinvalid
    contradiction

instance (body : List Char) : Decidable (Reference body) :=
  decidable_of_iff (itemOfBody body ≠ .invalid body)
    (not_iff_comm.mp itemOfBody_eq_invalid_iff.symm)

theorem closes_congr {level : Nat} {previous other : Char} {text : List Char}
    (hprevious : previous ≠ '$') (hother : other ≠ '$') :
    Closes level previous text ↔ Closes level other text := by
  cases text with
  | nil => exact Iff.rfl
  | cons c rest => simp only [Closes, hprevious, hother, and_false, if_false]

/-- Characters that have no meaning in templates, put before a text, leave it closed or not. -/
theorem closed_append_iff {cs text : List Char} (hcs : ∀ c ∈ cs, c ≠ '$' ∧ c ≠ '{' ∧ c ≠ '}') :
    Closed (cs ++ text) ↔ Closed text := by
  have hclosed : ∀ previous, previous ≠ '$' → (Closes 0 previous (cs ++ text) ↔ Closed text) := by
    induction cs with
    | nil => exact fun previous hprevious => closes_congr hprevious (by decide)
    | cons c rest ih =>
      intro previous _
      obtain ⟨hdollar, hopen, hclose⟩ := hcs c List.mem_cons_self
      have hrest := ih (fun d hd => hcs d (List.mem_cons_of_mem _ hd)) c hdollar
      simpa only [List.cons_append, Closes, hopen, hclose, false_and, if_false] using hrest
  exact hclosed _ (by decide)

/-- The body of a reference is closed when its word is. -/
theorem closed_of_name {name : List Char} (h : Name name) : Closed name := by
  have hempty : Closed [] := rfl
  have hcs := (closed_append_iff fun c hc => (h.chars c hc).ne_special).mpr hempty
  rwa [List.append_nil] at hcs

theorem closed_modifier_iff {name : List Char} (h : Name name) (modifier : Modifier)
    (word : List Char) : Closed (name ++ modifier.chars ++ word) ↔ Closed word := by
  rw [List.append_assoc, closed_append_iff fun c hc => (h.chars c hc).ne_special]
  refine closed_append_iff ?_
  cases modifier <;> simp [Modifier.chars]

/-- A body is cut at the brace after it when it closes what it opens. -/
theorem splitBody_append {level : Nat} {previous : Char} {body : List Char}
    (h : Closes level previous body) (after : List Char) :
    splitBody level previous (body ++ '}' :: after) = some (body, after) := by
  induction body generalizing level previous with
  | nil =>
    have hlevel : level = 0 := h
    subst hlevel
    simp [splitBody]
  | cons c rest ih =>
    rw [Closes] at h
    rw [List.cons_append]
    unfold splitBody
    by_cases hopens : c = '{' ∧ previous = '$'
    · rw [if_pos hopens] at h ⊢
      rw [ih h, Option.map_some]
    · rw [if_neg hopens] at h ⊢
      by_cases hcloses : c = '}'
      · rw [if_pos hcloses] at h ⊢
        obtain ⟨hlevel, hrest⟩ := h
        obtain ⟨below, rfl⟩ : ∃ below, level = below + 1 := ⟨level - 1, by omega⟩
        rw [Nat.add_sub_cancel] at hrest
        simp only [ih hrest, Option.map_some]
      · rw [if_neg hcloses] at h ⊢
        rw [ih h, Option.map_some]

theorem itemAfterDollar_inBraces {body : List Char} (h : Closed body) (after : List Char) :
    itemAfterDollar ('{' :: (body ++ '}' :: after)) = (itemOfBody body, after) := by
  simp only [itemAfterDollar, splitBody_append h after]

theorem itemAfterDollar_name {name cs : List Char} (h : Name name)
    (hnext : ∀ c ∈ cs.head?, ¬NameChar c) : itemAfterDollar (name ++ cs) = (.bare name, cs) := by
  have hsplit := splitName_append h hnext
  obtain ⟨c, hc, -⟩ := h.start
  cases name with
  | nil => simp at hc
  | cons first rest =>
    obtain ⟨hdollar, hopen, -⟩ := (h.chars first List.mem_cons_self).ne_special
    unfold itemAfterDollar
    split
    · rename_i heq
      exact absurd (List.cons.inj heq).1 hdollar
    · rename_i heq
      exact absurd (List.cons.inj heq).1 hopen
    · rw [hsplit]

theorem itemAfterDollar_lone {cs : List Char}
    (h : ∀ c ∈ cs.head?, c ≠ '$' ∧ c ≠ '{' ∧ ¬NameStart c) : itemAfterDollar cs = (.lone, cs) := by
  have hsplit : splitName cs = ([], cs) := splitName_of_not_start fun c hc => (h c hc).2.2
  unfold itemAfterDollar
  split
  · exact absurd rfl (h '$' rfl).1
  · exact absurd rfl (h '{' rfl).2.1
  · rw [hsplit]

/-- What an item asks of its parts and of the next character that is printed. -/
def Item.Fits (next : Option Char) : Item → Prop
  | .plain chars => '$' ∉ chars
  | .dollar => True
  | .bare name => Name name ∧ ∀ c ∈ next, ¬NameChar c
  | .braced name => Name name
  | .modified name _ word => Name name ∧ Closed word
  | .invalid body => Closed body ∧ ¬Reference body
  | .lone => ∀ c ∈ next, c ≠ '$' ∧ c ≠ '{' ∧ ¬NameStart c

instance (next : Option Char) : (item : Item) → Decidable (item.Fits next)
  | .plain chars => inferInstanceAs (Decidable ('$' ∉ chars))
  | .dollar => inferInstanceAs (Decidable True)
  | .bare name =>
    decidable_of_iff (Name name ∧ next.all (¬NameChar ·) = true) <| by
      simp only [Item.Fits, Option.all_eq_true, decide_eq_true_eq, Option.mem_def]
  | .braced name => inferInstanceAs (Decidable (Name name))
  | .modified name _ word => inferInstanceAs (Decidable (Name name ∧ Closed word))
  | .invalid body => inferInstanceAs (Decidable (Closed body ∧ ¬Reference body))
  | .lone =>
    decidable_of_iff (next.all (fun c => c ≠ '$' ∧ c ≠ '{' ∧ ¬NameStart c) = true) <| by
      simp only [Item.Fits, Option.all_eq_true, decide_eq_true_eq, Option.mem_def]

/-- The text of a list of items. -/
def printed (is : List Item) : List Char :=
  is.flatMap Item.print

/-- Each item fits where it stands. -/
def Fitting : List Item → Prop
  | [] => True
  | item :: rest => item.Fits (printed rest).head? ∧ Fitting rest

instance decidableFitting : (is : List Item) → Decidable (Fitting is)
  | [] => inferInstanceAs (Decidable True)
  | item :: rest =>
    have := decidableFitting rest
    inferInstanceAs (Decidable (item.Fits (printed rest).head? ∧ Fitting rest))

theorem items_dollar_cons (cs : List Char) :
    items ('$' :: cs) = (itemAfterDollar cs).1 :: items (itemAfterDollar cs).2 := by
  rw [items, if_neg (by decide)]

/-- An item that begins with a dollar is read back from its printed form. -/
theorem items_print_append {item : Item} {cs : List Char} (h : item.Fits cs.head?)
    (hplain : ∀ chars, item ≠ .plain chars) : items (item.print ++ cs) = item :: items cs := by
  have hdollar : ∀ tail, itemAfterDollar (tail ++ cs) = (item, cs) →
      items (('$' :: tail) ++ cs) = item :: items cs := by
    intro tail htail
    rw [List.cons_append, items_dollar_cons, htail]
  have hbraces : ∀ body, Closed body → itemOfBody body = item →
      items (inBraces body ++ cs) = item :: items cs := by
    intro body hclosed hbody
    have hread := itemAfterDollar_inBraces hclosed cs
    rw [hbody] at hread
    have hprint : inBraces body ++ cs = '$' :: '{' :: (body ++ '}' :: cs) := by simp [inBraces]
    rw [hprint, items_dollar_cons, hread]
  cases item with
  | plain chars => exact absurd rfl (hplain chars)
  | dollar => exact hdollar ['$'] rfl
  | bare name =>
    obtain ⟨hname, hnext⟩ := h
    exact hdollar name (itemAfterDollar_name hname hnext)
  | braced name => exact hbraces name (closed_of_name h) (itemOfBody_of_name h)
  | modified name modifier word =>
    obtain ⟨hname, hword⟩ := h
    exact hbraces _ ((closed_modifier_iff hname modifier word).mpr hword)
      (itemOfBody_of_modifier hname modifier word)
  | invalid body =>
    obtain ⟨hclosed, hinvalid⟩ := h
    exact hbraces body hclosed (itemOfBody_of_not_reference hinvalid)
  | lone => exact hdollar [] (itemAfterDollar_lone h)

end ContainerStack.Template
