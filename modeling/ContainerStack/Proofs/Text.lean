import ContainerStack.Text.Split
import Mathlib.Data.List.DropRight

/-!
Trimming and cutting of text. Trimming twice trims once, and what it leaves
begins with no blank. Cutting at the first separator gives back the two sides
that were joined there, and cutting a joined list of texts at its separators
gives back the list when no text holds one.
-/

namespace ContainerStack.Text

theorem trimEnd_eq (cs : List Char) : trimEnd cs = cs.rdropWhile isBlank := rfl

theorem head?_trimStart {c : Char} {cs : List Char} (h : (trimStart cs).head? = some c) :
    isBlank c = false := by
  induction cs with
  | nil => simp [trimStart] at h
  | cons first rest ih =>
    by_cases hfirst : isBlank first = true
    · rw [trimStart, List.dropWhile_cons_of_pos hfirst] at h
      exact ih h
    · rw [trimStart, List.dropWhile_cons_of_neg hfirst, List.head?_cons, Option.some.injEq] at h
      rw [← h]
      simpa using hfirst

/-- Trimming the end keeps a first character that is not blank. -/
theorem head?_trimEnd {c : Char} {cs : List Char} (h : (trimEnd cs).head? = some c) :
    cs.head? = some c := by
  have hprefix : trimEnd cs <+: cs := List.rdropWhile_prefix isBlank cs
  obtain ⟨rest, hrest⟩ := hprefix
  rw [← hrest, List.head?_append, h, Option.some_or]

theorem head?_trimChars {c : Char} {cs : List Char} (h : (trimChars cs).head? = some c) :
    isBlank c = false :=
  head?_trimStart (head?_trimEnd h)

theorem trimStart_eq_self {cs : List Char} (h : ∀ c, cs.head? = some c → isBlank c = false) :
    trimStart cs = cs := by
  cases cs with
  | nil => rfl
  | cons c rest =>
    have hc := h c rfl
    rw [trimStart, List.dropWhile_cons_of_neg (by simp [hc])]

theorem trimChars_trimChars (cs : List Char) : trimChars (trimChars cs) = trimChars cs := by
  have hstart : trimStart (trimChars cs) = trimChars cs :=
    trimStart_eq_self fun _ hc => head?_trimChars hc
  calc
    trimChars (trimChars cs) = trimEnd (trimStart (trimChars cs)) := rfl
    _ = trimEnd (trimChars cs) := by rw [hstart]
    _ = trimChars cs := by
      rw [trimChars, trimEnd_eq, trimEnd_eq, List.rdropWhile_idempotent]

theorem trimmed_ofList_trimChars (cs : List Char) : Trimmed (String.ofList (trimChars cs)) := by
  rw [Trimmed, trim, String.toList_ofList, trimChars_trimChars]

theorem trimmed_trim (s : String) : Trimmed (trim s) :=
  trimmed_ofList_trimChars s.toList

theorem trimChars_of_trimmed {s : String} (h : Trimmed s) : trimChars s.toList = s.toList := by
  have hchars := congrArg String.toList h
  rwa [trim, String.toList_ofList] at hchars

/-- A trimmed text that is not empty begins with a character that is not blank. -/
theorem exists_cons_of_trimmed {s : String} (h : Trimmed s) (hne : s ≠ "") :
    ∃ c rest, s.toList = c :: rest ∧ isBlank c = false := by
  cases hchars : s.toList with
  | nil => exact absurd (String.toList_eq_nil_iff.mp hchars) hne
  | cons c rest =>
    have hhead : (trimChars s.toList).head? = some c := by
      rw [trimChars_of_trimmed h, hchars, List.head?_cons]
    exact ⟨c, rest, rfl, head?_trimChars hhead⟩

/-- Nothing is left of a text that has no character but blanks. -/
theorem trimChars_eq_nil_iff {cs : List Char} :
    trimChars cs = [] ↔ ∀ c ∈ cs, isBlank c = true := by
  constructor
  · intro h
    rw [← List.dropWhile_eq_nil_iff]
    cases hstart : cs.dropWhile isBlank with
    | nil => rfl
    | cons c rest =>
      have hkept : isBlank c = false := head?_trimStart (by rw [trimStart, hstart]; rfl)
      have hall := List.rdropWhile_eq_nil_iff.mp h c (by simp [trimStart, hstart])
      rw [hkept] at hall
      contradiction
  · intro h
    rw [trimChars, trimStart, List.dropWhile_eq_nil_iff.mpr h, trimEnd_eq, List.rdropWhile_nil]

theorem trimStart_blanks_append {pad : List Char} (h : ∀ c ∈ pad, isBlank c = true)
    (cs : List Char) : trimStart (pad ++ cs) = trimStart cs :=
  List.dropWhile_append_of_pos h

theorem trimEnd_append_blanks {pad : List Char} (h : ∀ c ∈ pad, isBlank c = true)
    (cs : List Char) : trimEnd (cs ++ pad) = trimEnd cs := by
  rw [trimEnd, List.reverse_append, List.dropWhile_append_of_pos (by simpa using h), trimEnd]

/-- Blanks around a text are trimmed with its own. -/
theorem trimChars_padded {pad pad' : List Char} (hpad : ∀ c ∈ pad, isBlank c = true)
    (hpad' : ∀ c ∈ pad', isBlank c = true) (cs : List Char) :
    trimChars (pad ++ cs ++ pad') = trimChars cs := by
  rw [List.append_assoc, trimChars, trimStart_blanks_append hpad, trimChars]
  by_cases hcs : trimStart cs = []
  · have hblank : trimStart (cs ++ pad') = [] := by
      rw [trimStart, List.dropWhile_eq_nil_iff] at hcs ⊢
      exact List.forall_mem_append.mpr ⟨hcs, hpad'⟩
    rw [hblank, hcs]
  · have hsplit : trimStart (cs ++ pad') = trimStart cs ++ pad' := by
      rw [trimStart, List.dropWhile_append, if_neg (by simpa [trimStart] using hcs), trimStart]
    rw [hsplit, trimEnd_append_blanks hpad']

/-- What is trimmed off are blanks. -/
theorem exists_padding (cs : List Char) : ∃ pad pad',
    (∀ c ∈ pad, isBlank c = true) ∧ (∀ c ∈ pad', isBlank c = true) ∧
      cs = pad ++ trimChars cs ++ pad' := by
  refine ⟨cs.takeWhile isBlank, (trimStart cs).rtakeWhile isBlank,
    fun c hc => List.mem_takeWhile_imp hc, fun c hc => List.mem_rtakeWhile_imp hc, ?_⟩
  rw [trimChars, trimEnd_eq, List.append_assoc, List.rdropWhile_append_rtakeWhile, trimStart,
    List.takeWhile_append_dropWhile]

/-- Trimming stops at the first character that is not blank. -/
theorem head?_trimChars_padded {pad : List Char} (hpad : ∀ c ∈ pad, isBlank c = true) {c : Char}
    (hc : isBlank c = false) (rest : List Char) :
    (trimChars (pad ++ c :: rest)).head? = some c := by
  have hstart : trimStart (c :: rest) = c :: rest :=
    trimStart_eq_self fun d hd => Option.some.inj hd ▸ hc
  have hprefix : trimEnd (c :: rest) <+: c :: rest := List.rdropWhile_prefix isBlank _
  rw [trimChars, trimStart_blanks_append hpad, hstart]
  cases hend : trimEnd (c :: rest) with
  | nil =>
    have hblank := List.rdropWhile_eq_nil_iff.mp hend c List.mem_cons_self
    rw [hc] at hblank
    contradiction
  | cons first others =>
    rw [hend] at hprefix
    rw [(List.cons_prefix_cons.mp hprefix).1, List.head?_cons]

/-- The cut is at the first separator. -/
theorem splitFirst_eq_some_iff {sep : Char} {cs before after : List Char} :
    splitFirst sep cs = some (before, after) ↔ cs = before ++ sep :: after ∧ sep ∉ before := by
  induction cs generalizing before after with
  | nil => simp [splitFirst]
  | cons c rest ih =>
    by_cases hc : c = sep
    · subst hc
      simp only [splitFirst, ite_true, Option.some.injEq, Prod.mk.injEq]
      constructor
      · intro h
        obtain ⟨rfl, rfl⟩ := h
        exact ⟨rfl, List.not_mem_nil⟩
      · intro h
        obtain ⟨heq, hbefore⟩ := h
        cases before with
        | nil => simpa using heq
        | cons d others =>
          simp only [List.cons_append, List.cons.injEq] at heq
          exact absurd (heq.1 ▸ List.mem_cons_self) hbefore
    · simp only [splitFirst, hc, ite_false, Option.map_eq_some_iff, Prod.exists, ih,
        Prod.mk.injEq]
      constructor
      · intro h
        obtain ⟨left, right, ⟨rfl, hleft⟩, rfl, rfl⟩ := h
        exact ⟨rfl, by simp [hleft, Ne.symm hc]⟩
      · intro h
        obtain ⟨heq, hbefore⟩ := h
        cases before with
        | nil =>
          simp only [List.nil_append, List.cons.injEq] at heq
          exact absurd heq.1 hc
        | cons d others =>
          simp only [List.cons_append, List.cons.injEq] at heq
          obtain ⟨rfl, rfl⟩ := heq
          exact ⟨others, after, ⟨rfl, fun hmem => hbefore (List.mem_cons_of_mem _ hmem)⟩, rfl, rfl⟩

theorem splitFirst_eq_none_iff {sep : Char} {cs : List Char} :
    splitFirst sep cs = none ↔ sep ∉ cs := by
  induction cs with
  | nil => simp [splitFirst]
  | cons c rest ih =>
    by_cases hc : c = sep
    · simp [splitFirst, hc]
    · simp [splitFirst, hc, ih, Ne.symm hc]

/-- Cutting is the splitting of lists by a property of their elements. -/
theorem pieces_eq_splitOnP (isSep : Char → Bool) (cs : List Char) :
    pieces isSep cs = cs.splitOnP isSep := by
  induction cs with
  | nil => rw [pieces, List.splitOnP_nil]
  | cons c rest ih =>
    rw [pieces, List.splitOnP_cons_eq_if_modifyHead, ← ih]
    by_cases hc : isSep c = true
    · rw [if_pos hc, if_pos hc]
    · rw [if_neg hc, if_neg hc]
      cases hpieces : pieces isSep rest with
      | nil => exact absurd hpieces (pieces_ne_nil isSep rest)
      | cons first others => rfl

theorem pieces_of_notSep {isSep : Char → Bool} {cs : List Char}
    (h : ∀ c ∈ cs, isSep c = false) : pieces isSep cs = [cs] := by
  induction cs with
  | nil => rfl
  | cons c rest ih =>
    rw [pieces, ih fun d hd => h d (List.mem_cons_of_mem _ hd)]
    simp [h c List.mem_cons_self]

/-- A character is a separator or stands in one of the pieces. -/
theorem isSep_or_mem_pieces (isSep : Char → Bool) {c : Char} {cs : List Char} (h : c ∈ cs) :
    isSep c = true ∨ ∃ piece ∈ pieces isSep cs, c ∈ piece := by
  induction cs with
  | nil => simp at h
  | cons first rest ih =>
    rw [pieces]
    by_cases hfirst : isSep first = true
    · rcases List.mem_cons.mp h with rfl | hrest
      · exact Or.inl hfirst
      · simpa [hfirst] using ih hrest
    · cases hpieces : pieces isSep rest with
      | nil => exact absurd hpieces (pieces_ne_nil isSep rest)
      | cons piece others =>
        rw [hpieces] at ih
        rcases List.mem_cons.mp h with rfl | hrest
        · exact Or.inr (by simp [hfirst])
        · rcases ih hrest with hsep | ⟨found, hfound, hc⟩
          · exact Or.inl hsep
          · rcases List.mem_cons.mp hfound with rfl | hothers
            · exact Or.inr ⟨first :: found, by simp [hfirst], List.mem_cons_of_mem _ hc⟩
            · exact Or.inr ⟨found, by simp [hfirst, hothers], hc⟩

/-- The first piece is what stands before the first separator. -/
theorem head?_pieces (isSep : Char → Bool) (cs : List Char) :
    (pieces isSep cs).head? = some (cs.takeWhile (!isSep ·)) := by
  induction cs with
  | nil => rfl
  | cons c rest ih =>
    rw [pieces]
    by_cases hc : isSep c = true
    · simp [hc]
    · cases hpieces : pieces isSep rest with
      | nil => exact absurd hpieces (pieces_ne_nil isSep rest)
      | cons first others =>
        rw [hpieces, List.head?_cons, Option.some.injEq] at ih
        simp [hc, ih]

/-- A text that is cut into one piece has no separator. -/
theorem isSep_of_pieces_singleton {isSep : Char → Bool} {cs piece : List Char}
    (h : pieces isSep cs = [piece]) : ∀ c ∈ cs, isSep c = false := by
  induction cs generalizing piece with
  | nil => simp
  | cons c rest ih =>
    rw [pieces] at h
    split at h
    · exact absurd (List.cons.inj h).2 (pieces_ne_nil isSep rest)
    · rename_i hc
      split at h
      · rename_i hnil
        exact absurd hnil (pieces_ne_nil isSep rest)
      · rename_i first others hpieces
        rw [(List.cons.inj h).2] at hpieces
        exact List.forall_mem_cons.mpr ⟨by simpa using hc, ih hpieces⟩

theorem pieces_append_cons {isSep : Char → Bool} {before : List Char} {sep : Char}
    (hbefore : ∀ c ∈ before, isSep c = false) (hsep : isSep sep = true) (after : List Char) :
    pieces isSep (before ++ sep :: after) = before :: pieces isSep after := by
  induction before with
  | nil => simp [pieces, hsep]
  | cons c rest ih =>
    rw [List.cons_append, pieces, ih fun d hd => hbefore d (List.mem_cons_of_mem _ hd)]
    simp [hbefore c List.mem_cons_self]

theorem pieces_intercalate {sep : Char} {parts : List (List Char)} (hne : parts ≠ [])
    (hclean : ∀ p ∈ parts, sep ∉ p) : pieces (· == sep) ([sep].intercalate parts) = parts := by
  rw [pieces_eq_splitOnP]
  exact List.splitOn_intercalate sep hclean hne

theorem intercalate_pieces (sep : Char) (cs : List Char) :
    [sep].intercalate (pieces (· == sep) cs) = cs := by
  rw [pieces_eq_splitOnP]
  exact List.intercalate_splitOn sep

/-- Cutting a joined list of texts at its separators gives the list back. -/
theorem pieces_join {isSep : Char → Bool} (sep : Char) (hsep : isSep sep = true)
    {segments : List (List Char)} (hne : segments ≠ [])
    (hclean : ∀ s ∈ segments, ∀ c ∈ s, isSep c = false) :
    pieces isSep (join (String.singleton sep) (segments.map String.ofList)).toList = segments := by
  induction segments with
  | nil => exact absurd rfl hne
  | cons first rest ih =>
    have hfirst := hclean first List.mem_cons_self
    cases rest with
    | nil => simpa [join] using pieces_of_notSep hfirst
    | cons second others =>
      have hrest := ih (List.cons_ne_nil _ _) fun s hs => hclean s (List.mem_cons_of_mem _ hs)
      simp only [List.map_cons, join, String.toList_append, String.toList_ofList,
        String.toList_singleton, List.append_assoc, List.singleton_append] at hrest ⊢
      rw [pieces_append_cons hfirst hsep, hrest]

end ContainerStack.Text
