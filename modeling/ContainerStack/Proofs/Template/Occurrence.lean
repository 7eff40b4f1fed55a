import ContainerStack.Proofs.Template.Evaluation

/-!
The items of a template in its text. Reading loses nothing: the items printed one after
another are the template again, and every item but a lone dollar fits where it stands,
however malformed the rest is. So an item asks only for a variable that the text
mentions, and expanding depends on these variables alone: neither a value nor a word is
read again.
-/

namespace ContainerStack.Template

theorem map_cons_eq_some_iff {c : Char} {cut : Option (List Char × List Char)}
    {body after : List Char} :
    (cut.map fun (found, rest) => (c :: found, rest)) = some (body, after) ↔
      ∃ found, cut = some (found, after) ∧ body = c :: found := by
  simp only [Option.map_eq_some_iff, Prod.exists, Prod.mk.injEq]
  constructor
  · rintro ⟨found, rest, hcut, rfl, rfl⟩
    exact ⟨found, hcut, rfl⟩
  · rintro ⟨found, hcut, rfl⟩
    exact ⟨found, after, hcut, rfl, rfl⟩

/-- A body is cut at the first brace that closes none of its own levels. -/
theorem splitBody_eq_some_iff {level : Nat} {previous : Char} {cs body after : List Char} :
    splitBody level previous cs = some (body, after) ↔
      cs = body ++ '}' :: after ∧ Closes level previous body := by
  constructor
  · intro h
    induction cs generalizing level previous body with
    | nil => simp [splitBody] at h
    | cons c rest ih =>
      unfold splitBody at h
      split at h
      · rename_i hopens
        obtain ⟨found, hrest, rfl⟩ := map_cons_eq_some_iff.mp h
        obtain ⟨rfl, hfound⟩ := ih hrest
        exact ⟨rfl, by rwa [Closes, if_pos hopens]⟩
      · rename_i hopens
        split at h
        · rename_i hcloses
          cases level with
          | zero =>
            obtain ⟨rfl, rfl⟩ := Prod.mk.inj (Option.some.inj h)
            exact ⟨by rw [hcloses, List.nil_append], rfl⟩
          | succ level =>
            obtain ⟨found, hrest, rfl⟩ := map_cons_eq_some_iff.mp h
            obtain ⟨rfl, hfound⟩ := ih hrest
            exact ⟨rfl, by rw [Closes, if_neg hopens, if_pos hcloses]; exact ⟨by omega, hfound⟩⟩
        · rename_i hcloses
          obtain ⟨found, hrest, rfl⟩ := map_cons_eq_some_iff.mp h
          obtain ⟨rfl, hfound⟩ := ih hrest
          exact ⟨rfl, by rwa [Closes, if_neg hopens, if_neg hcloses]⟩
  · rintro ⟨rfl, hbody⟩
    exact splitBody_append hbody after

/-- A name is read to its end. -/
theorem not_nameChar_of_splitName {cs name after : List Char}
    (h : splitName cs = (name, after)) (hne : name ≠ []) : ∀ c ∈ after.head?, ¬NameChar c := by
  cases cs with
  | nil =>
    simp only [splitName, Prod.mk.injEq] at h
    exact absurd h.1.symm hne
  | cons first rest =>
    rw [splitName] at h
    split at h
    · obtain ⟨-, rfl⟩ := Prod.mk.inj h
      intro c hc
      have hstop := List.head?_dropWhile_not isNameChar (first :: rest)
      rw [hc] at hstop
      exact fun hname => by simp [isNameChar_iff.mpr hname] at hstop
    · exact absurd (Prod.mk.inj h).1.symm hne

/-- What a body in braces is read as is printed as that body. -/
theorem itemOfBody_fits {body : List Char} (h : Closed body) (next : Option Char) :
    (itemOfBody body).print = inBraces body ∧ (itemOfBody body).Fits next := by
  by_cases hbody : Reference body
  · obtain ⟨name, hname, rfl | ⟨modifier, word, rfl⟩⟩ := hbody
    · rw [itemOfBody_of_name hname]
      exact ⟨rfl, hname⟩
    · rw [itemOfBody_of_modifier hname]
      exact ⟨rfl, hname, (closed_modifier_iff hname modifier word).mp h⟩
  · rw [itemOfBody_of_not_reference hbody]
    exact ⟨rfl, h, hbody⟩

/-- What a dollar begins is printed as it was, before the text that is left. -/
theorem itemAfterDollar_fits {cs rest : List Char} {item : Item}
    (h : itemAfterDollar cs = (item, rest)) :
    '$' :: cs = item.print ++ rest ∧ (item = .lone ∨ item.Fits rest.head?) := by
  unfold itemAfterDollar at h
  split at h
  · obtain ⟨rfl, rfl⟩ := Prod.mk.inj h
    exact ⟨rfl, Or.inr trivial⟩
  · split at h
    · rename_i body after hbody
      obtain ⟨rfl, hclosed⟩ := splitBody_eq_some_iff.mp hbody
      obtain ⟨rfl, rfl⟩ := Prod.mk.inj h
      obtain ⟨hprint, hfits⟩ := itemOfBody_fits hclosed after.head?
      exact ⟨by simp [hprint, inBraces], Or.inr hfits⟩
    · obtain ⟨rfl, rfl⟩ := Prod.mk.inj h
      exact ⟨rfl, Or.inl rfl⟩
  · split at h
    · obtain ⟨rfl, rfl⟩ := Prod.mk.inj h
      exact ⟨rfl, Or.inl rfl⟩
    · rename_i name after hne hname
      obtain ⟨rfl, rfl⟩ := Prod.mk.inj h
      obtain ⟨hvalid, rfl⟩ := name_of_splitName hname hne
      exact ⟨rfl, Or.inr ⟨hvalid, not_nameChar_of_splitName hname hne⟩⟩

theorem items_plain_cons {c : Char} (h : isPlain c = true) (rest : List Char) :
    items (c :: rest) = .plain (c :: rest.takeWhile isPlain) :: items (rest.dropWhile isPlain) := by
  rw [items, if_pos h]

/-- The first item of a template stands before the text that the others are read from. -/
theorem items_step {cs : List Char} (h : cs ≠ []) : ∃ item rest, items cs = item :: items rest ∧
    cs = item.print ++ rest ∧ (item = .lone ∨ item.Fits rest.head?) ∧ rest.length < cs.length := by
  cases cs with
  | nil => exact absurd rfl h
  | cons c rest =>
    by_cases hc : isPlain c = true
    · refine ⟨_, _, items_plain_cons hc rest, ?_, Or.inr ?_, ?_⟩
      · rw [Item.print, List.cons_append, List.takeWhile_append_dropWhile]
      · intro hdollar
        rcases List.mem_cons.mp hdollar with rfl | hmem
        · contradiction
        · exact absurd (List.mem_takeWhile_imp hmem) (by decide)
      · exact Nat.lt_succ_of_le (List.dropWhile_sublist isPlain).length_le
    · obtain rfl : c = '$' := by simpa [isPlain] using hc
      have hread : itemAfterDollar rest = ((itemAfterDollar rest).1, (itemAfterDollar rest).2) := rfl
      obtain ⟨hprint, hfits⟩ := itemAfterDollar_fits hread
      exact ⟨_, _, items_dollar_cons rest, hprint, hfits,
        Nat.lt_succ_of_le (itemAfterDollar_length_le rest)⟩

/-- The items of a template, printed, are the template. -/
theorem printed_items (cs : List Char) : printed (items cs) = cs := by
  by_cases hcs : cs = []
  · subst hcs
    simp [items, printed]
  · obtain ⟨item, rest, hitems, hprint, -, -⟩ := items_step hcs
    have hrest := printed_items rest
    rw [hitems, printed, List.flatMap_cons, ← printed, hrest, ← hprint]
termination_by cs.length

/-- Each item but a lone dollar fits before the text of the items after it. -/
theorem fits_of_items_eq {cs : List Char} {before after : List Item} {item : Item}
    (h : items cs = before ++ item :: after) : item = .lone ∨ item.Fits (printed after).head? := by
  induction before generalizing cs with
  | nil =>
    have hcs : cs ≠ [] := by
      rintro rfl
      simp [items] at h
    obtain ⟨first, rest, hitems, -, hfits, -⟩ := items_step hcs
    rw [hitems] at h
    obtain ⟨rfl, rfl⟩ := List.cons.inj h
    rwa [printed_items]
  | cons other others ih =>
    have hcs : cs ≠ [] := by
      rintro rfl
      simp [items] at h
    obtain ⟨first, rest, hitems, -⟩ := items_step hcs
    rw [hitems] at h
    exact ih (List.cons.inj h).2

/-- Every item stands somewhere in the template, and fits there if it is no lone dollar. -/
theorem exists_print_of_mem {cs : List Char} {item : Item} (h : item ∈ items cs) :
    ∃ before after, cs = before ++ item.print ++ after ∧
      (item = .lone ∨ item.Fits after.head?) := by
  obtain ⟨before, after, hitems⟩ := List.append_of_mem h
  refine ⟨printed before, printed after, ?_, fits_of_items_eq hitems⟩
  calc
    cs = printed (before ++ item :: after) := by rw [← hitems, printed_items]
    _ = printed before ++ item.print ++ printed after := by
      simp only [printed, List.flatMap_append, List.flatMap_cons, List.append_assoc]

/-- The template has the name, as the longest one there, directly after a dollar or after a
dollar and an opening brace. -/
def Mentions (template name : List Char) : Prop :=
  Name name ∧ ∃ before opening after, (opening = ['$'] ∨ opening = ['$', '{']) ∧
    template = before ++ opening ++ name ++ after ∧ ∀ c ∈ after.head?, ¬NameChar c

theorem mem_names_iff {template : String} {name : List Char} :
    String.ofList name ∈ names template ↔
      .bare name ∈ ofString template ∨ .braced name ∈ ofString template ∨
        ∃ modifier word, .modified name modifier word ∈ ofString template := by
  simp only [names, List.mem_filterMap]
  constructor
  · intro h
    obtain ⟨item, hmem, hname⟩ := h
    cases item with
    | bare other =>
      obtain rfl := String.ofList_injective (Option.some.inj hname)
      exact Or.inl hmem
    | braced other =>
      obtain rfl := String.ofList_injective (Option.some.inj hname)
      exact Or.inr (Or.inl hmem)
    | modified other modifier word =>
      obtain rfl := String.ofList_injective (Option.some.inj hname)
      exact Or.inr (Or.inr ⟨modifier, word, hmem⟩)
    | _ => contradiction
  · intro h
    rcases h with hmem | hmem | ⟨modifier, word, hmem⟩
    · exact ⟨_, hmem, rfl⟩
    · exact ⟨_, hmem, rfl⟩
    · exact ⟨_, hmem, rfl⟩

/-- A reference in braces mentions the name that its body begins with. -/
theorem mentions_of_inBraces {before name tail after : List Char} (h : Name name)
    (htail : ∀ c ∈ tail.head?, ¬NameChar c) :
    Mentions (before ++ inBraces (name ++ tail) ++ after) name := by
  refine ⟨h, before, ['$', '{'], tail ++ '}' :: after, Or.inr rfl, by simp [inBraces], ?_⟩
  cases tail with
  | nil =>
    intro c hc
    obtain rfl : '}' = c := Option.some.inj hc
    exact fun hname => hname.ne_special.2.2 rfl
  | cons first rest => exact htail

/-- A template mentions every variable that its items ask for. -/
theorem mentions_of_mem_names {template : String} {name : List Char}
    (h : String.ofList name ∈ names template) : Mentions template.toList name := by
  rcases mem_names_iff.mp h with hmem | hmem | ⟨modifier, word, hmem⟩
  · obtain ⟨before, after, htext, hlone | ⟨hname, hnext⟩⟩ := exists_print_of_mem hmem
    · contradiction
    · exact ⟨hname, before, ['$'], after, Or.inl rfl, by simp [htext, Item.print], hnext⟩
  · obtain ⟨before, after, htext, hlone | hname⟩ := exists_print_of_mem hmem
    · contradiction
    · have hnone : ∀ c ∈ ([] : List Char).head?, ¬NameChar c := by simp
      have hmentions : Mentions (before ++ inBraces (name ++ []) ++ after) name :=
        mentions_of_inBraces hname hnone
      rwa [List.append_nil, ← Item.print, ← htext] at hmentions
  · obtain ⟨before, after, htext, hlone | ⟨hname, -⟩⟩ := exists_print_of_mem hmem
    · contradiction
    · rw [htext, Item.print, List.append_assoc name]
      exact mentions_of_inBraces hname (modifier.not_nameChar_head word)

theorem render_congr {f g : Lookup} {is : List Item}
    (h : ∀ item ∈ is, item.value f = item.value g) : render f is = render g is := by
  induction is with
  | nil => rfl
  | cons item rest ih =>
    obtain ⟨hitem, hrest⟩ := List.forall_mem_cons.mp h
    simp only [render, hitem, ih hrest]

theorem expand_eq_of_names {f g : Lookup} {template : String}
    (h : ∀ name ∈ names template, f name = g name) : expand f template = expand g template := by
  rw [expand, expand, render_congr]
  intro item hmem
  cases item with
  | bare name => simp only [Item.value, h _ (mem_names_iff.mpr (Or.inl hmem))]
  | braced name => simp only [Item.value, h _ (mem_names_iff.mpr (Or.inr (Or.inl hmem)))]
  | modified name modifier word =>
    simp only [Item.value, h _ (mem_names_iff.mpr (Or.inr (Or.inr ⟨modifier, word, hmem⟩)))]
  | _ => rfl

/-- Expanding a template, however malformed, depends only on the variables that it
mentions. -/
theorem expand_eq_of_mentioned (template : String) (f g : Lookup)
    (h : ∀ name, Mentions template.toList name →
      f (String.ofList name) = g (String.ofList name)) :
    expand f template = expand g template := by
  refine expand_eq_of_names fun name hname => ?_
  rw [← String.ofList_toList (s := name)] at hname ⊢
  exact h _ (mentions_of_mem_names hname)

/-- Values that refer to a variable, which the template itself does not mention. -/
def referringValues (other : String) : Lookup := fun name =>
  if name = "A" then some "$X" else if name = "X" then some other else none

/-- A reference, a word with a reference of its own, and two bodies without an end. -/
def unclosedTemplate : String :=
  "$A$\x7bB:-$C\x7d$\x7bA $\x7bD?"

theorem expand_unclosedTemplate :
    (∀ name, Mentions unclosedTemplate.toList name →
      referringValues "1" (String.ofList name) = referringValues "2" (String.ofList name)) ∧
    referringValues "1" "X" ≠ referringValues "2" "X" ∧
    expand (referringValues "1") unclosedTemplate = .ok "$X$C$\x7bA $\x7bD?" ∧
    expand (referringValues "1") unclosedTemplate =
      expand (referringValues "2") unclosedTemplate := by
  have hagree : ∀ name, Mentions unclosedTemplate.toList name →
      referringValues "1" (String.ofList name) = referringValues "2" (String.ofList name) := by
    rintro name ⟨-, before, opening, after, -, htext, -⟩
    have hne : String.ofList name ≠ "X" := by
      intro heq
      obtain rfl : name = ['X'] := String.ofList_injective heq
      have hmem : 'X' ∈ unclosedTemplate.toList := by simp [htext]
      exact absurd hmem (by decide)
    simp only [referringValues, hne, if_false]
  exact ⟨hagree, by decide, by cbv, expand_eq_of_mentioned unclosedTemplate _ _ hagree⟩

end ContainerStack.Template
