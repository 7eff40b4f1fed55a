import ContainerStack.Text.Blank

/-!
Cutting text at separators. `splitFirst` cuts at the first separator and drops
it; `pieces` cuts at every separator, so a text with n separators has n + 1
pieces and joining them again restores it. Lines are pieces at the line feed,
without the empty piece after a final line feed.
-/

namespace ContainerStack.Text

/-- The text before and after the first separator; `none` without one. -/
def splitFirst (sep : Char) : List Char → Option (List Char × List Char)
  | [] => none
  | c :: rest =>
    if c = sep then some ([], rest)
    else (splitFirst sep rest).map fun (before, after) => (c :: before, after)

/-- All pieces between separators, the first one at the head. -/
def pieces (isSep : Char → Bool) : List Char → List (List Char)
  | [] => [[]]
  | c :: rest =>
    if isSep c then [] :: pieces isSep rest
    else
      match pieces isSep rest with
      | [] => [[c]]
      | first :: others => (c :: first) :: others

theorem pieces_ne_nil (isSep : Char → Bool) (cs : List Char) : pieces isSep cs ≠ [] := by
  cases cs with
  | nil => simp [pieces]
  | cons c rest =>
    unfold pieces
    split
    · simp
    · split <;> simp

/-- Separators occur in no piece. -/
theorem isSep_of_mem_pieces {isSep : Char → Bool} {cs piece : List Char}
    (hpiece : piece ∈ pieces isSep cs) : ∀ c ∈ piece, isSep c = false := by
  induction cs generalizing piece with
  | nil =>
    simp only [pieces, List.mem_singleton] at hpiece
    simp [hpiece]
  | cons c rest ih =>
    unfold pieces at hpiece
    split at hpiece
    · rcases List.mem_cons.mp hpiece with hnil | htail
      · simp [hnil]
      · exact ih htail
    · rename_i hc
      split at hpiece
      · rename_i hnil
        exact absurd hnil (pieces_ne_nil isSep rest)
      · rename_i first others heq
        rcases List.mem_cons.mp hpiece with hfirst | htail
        · subst hfirst
          intro d hd
          rcases List.mem_cons.mp hd with rfl | hd
          · simpa using hc
          · exact ih (by rw [heq]; exact List.mem_cons_self) d hd
        · exact ih (by rw [heq]; exact List.mem_cons_of_mem _ htail)

/-- Pieces hold characters of the text alone. -/
theorem mem_of_mem_pieces {isSep : Char → Bool} {cs piece : List Char}
    (hpiece : piece ∈ pieces isSep cs) : ∀ c ∈ piece, c ∈ cs := by
  induction cs generalizing piece with
  | nil =>
    simp only [pieces, List.mem_singleton] at hpiece
    simp [hpiece]
  | cons c rest ih =>
    unfold pieces at hpiece
    split at hpiece
    · rcases List.mem_cons.mp hpiece with hnil | htail
      · simp [hnil]
      · exact fun d hd => List.mem_cons_of_mem _ (ih htail d hd)
    · split at hpiece
      · rename_i hnil
        exact absurd hnil (pieces_ne_nil isSep rest)
      · rename_i first others heq
        rcases List.mem_cons.mp hpiece with hfirst | htail
        · subst hfirst
          intro d hd
          rcases List.mem_cons.mp hd with rfl | hd
          · exact List.mem_cons_self
          · exact List.mem_cons_of_mem _
              (ih (by rw [heq]; exact List.mem_cons_self) d hd)
        · exact fun d hd => List.mem_cons_of_mem _
            (ih (by rw [heq]; exact List.mem_cons_of_mem _ htail) d hd)

/-- The lines of a text, without their line feeds. -/
def lines (cs : List Char) : List (List Char) :=
  let all := pieces (· == '\n') cs
  if all.getLast? = some [] then all.dropLast else all

/-- Joins texts with a separator between neighbours. -/
def join (sep : String) : List String → String
  | [] => ""
  | [s] => s
  | s :: rest => s ++ sep ++ join sep rest

end ContainerStack.Text
