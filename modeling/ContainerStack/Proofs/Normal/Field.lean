import ContainerStack.Composition.Json
import ContainerStack.Normal.Field
import ContainerStack.Proofs.Table
import ContainerStack.Proofs.Text

/-!
The readers of single fields. Texts under names are collected from one entry for
each member or item of the field, and every text that is kept is trimmed. Each
reader gives back what the writer of its field has written, and texts under names it
gives back trimmed.
-/

namespace ContainerStack.Normal

open Text

/-- A member of a mapping stands for its name with the trimmed text of its scalar. -/
def MemberAssigns (m : String × Json) (e : String × String) : Prop :=
  e.1 = m.1 ∧ ∃ text, scalarText? m.2 = some text ∧ e.2 = trim text

/-- An item of a list stands for the two sides of its text, the first not empty. -/
def ItemAssigns (item : Json) (e : String × String) : Prop :=
  ∃ text, entryText? item = some text ∧ splitAssignment text.toList = e ∧ e.1 ≠ ""

/-- The field assigns these texts, in this order and with repetitions. -/
def Assigns : Json → Entries String → Prop
  | .null, es => es = []
  | .obj ms, es => List.Forall₂ MemberAssigns ms es
  | .arr items, es => List.Forall₂ ItemAssigns items es
  | _, _ => False

theorem assignmentsOfMembers_eq_ok_iff {field : String} {done t : Table String}
    {ms : Entries Json} :
    assignmentsOfMembers field done ms = .ok t ↔ ∃ es, List.Forall₂ MemberAssigns ms es ∧
      es.foldl (fun t e => t.insert e.1 e.2) done = t := by
  induction ms generalizing done with
  | nil => simp [assignmentsOfMembers]
  | cons m rest ih =>
    simp only [assignmentsOfMembers, List.forall₂_cons_left_iff]
    split
    · rename_i hnone
      simp [reject, MemberAssigns, hnone]
    · rename_i text hsome
      rw [ih]
      constructor
      · intro h
        obtain ⟨es, hes, rfl⟩ := h
        exact ⟨(m.1, trim text) :: es, ⟨_, es, ⟨rfl, text, hsome, rfl⟩, hes, rfl⟩, rfl⟩
      · intro h
        obtain ⟨_, ⟨e, es, ⟨hkey, other, hother, hvalue⟩, hes, rfl⟩, rfl⟩ := h
        rw [hsome, Option.some.injEq] at hother
        subst hother
        exact ⟨es, hes, by rw [List.foldl_cons, hkey, hvalue]⟩

theorem assignmentsOfItems_eq_ok_iff {field : String} {done t : Table String}
    {items : List Json} :
    assignmentsOfItems field done items = .ok t ↔ ∃ es, List.Forall₂ ItemAssigns items es ∧
      es.foldl (fun t e => t.insert e.1 e.2) done = t := by
  induction items generalizing done with
  | nil => simp [assignmentsOfItems]
  | cons item rest ih =>
    simp only [assignmentsOfItems, List.forall₂_cons_left_iff]
    split
    · rename_i hnone
      simp [reject, ItemAssigns, hnone]
    · rename_i text hsome
      split
      · rename_i hkey
        simp only [reject, reduceCtorEq, false_iff]
        intro h
        obtain ⟨_, ⟨e, es, ⟨other, hother, hsplit, hne⟩, -, -⟩, -⟩ := h
        rw [hsome, Option.some.injEq] at hother
        exact hne (by rw [← hsplit, ← hother, hkey])
      · rename_i hkey
        rw [ih]
        constructor
        · intro h
          obtain ⟨es, hes, rfl⟩ := h
          exact ⟨splitAssignment text.toList :: es,
            ⟨_, es, ⟨text, hsome, rfl, hkey⟩, hes, rfl⟩, rfl⟩
        · intro h
          obtain ⟨_, ⟨e, es, ⟨other, hother, hsplit, -⟩, hes, rfl⟩, rfl⟩ := h
          rw [hsome, Option.some.injEq] at hother
          subst hother
          exact ⟨es, hes, by rw [List.foldl_cons, hsplit]⟩

/-- Texts under names are read from what the field assigns. -/
theorem assignments_eq_ok_iff {field : String} {x : Json} {t : KeyValues} :
    assignments field x = .ok t ↔ ∃ es, Assigns x es ∧ Table.ofEntries es = t := by
  cases x with
  | null => simp [assignments, Assigns, Table.ofEntries]
  | obj ms => exact assignmentsOfMembers_eq_ok_iff
  | arr items => exact assignmentsOfItems_eq_ok_iff
  | bool b => simp [assignments, Assigns, reject]
  | num n => simp [assignments, Assigns, reject]
  | str s => simp [assignments, Assigns, reject]

theorem trimmed_splitAssignment (cs : List Char) :
    Trimmed (splitAssignment cs).1 ∧ Trimmed (splitAssignment cs).2 := by
  unfold splitAssignment
  split
  · exact ⟨trimmed_ofList_trimChars _, trimmed_ofList_trimChars _⟩
  · exact ⟨trimmed_ofList_trimChars _, rfl⟩

/-- Blanks around an entry make no difference to its two sides. -/
theorem splitAssignment_padded {pad pad' : List Char} (hpad : ∀ c ∈ pad, isBlank c = true)
    (hpad' : ∀ c ∈ pad', isBlank c = true) (entry : List Char) :
    splitAssignment (pad ++ entry ++ pad') = splitAssignment entry := by
  have hequals : ∀ blanks : List Char, (∀ c ∈ blanks, isBlank c = true) → '=' ∉ blanks :=
    fun blanks hblanks hmem => absurd (hblanks '=' hmem) (by decide)
  cases hcut : splitFirst '=' entry with
  | none =>
    have hentry := splitFirst_eq_none_iff.mp hcut
    have hpadded : splitFirst '=' (pad ++ entry ++ pad') = none :=
      splitFirst_eq_none_iff.mpr (by simp [hentry, hequals pad hpad, hequals pad' hpad'])
    simp only [splitAssignment, hcut, hpadded, trimChars_padded hpad hpad']
  | some sides =>
    obtain ⟨key, value⟩ := sides
    obtain ⟨rfl, hkey⟩ := splitFirst_eq_some_iff.mp hcut
    have hpadded : splitFirst '=' (pad ++ (key ++ '=' :: value) ++ pad') =
        some (pad ++ key, value ++ pad') :=
      splitFirst_eq_some_iff.mpr ⟨by simp, by simp [hkey, hequals pad hpad]⟩
    have hleft : trimChars (pad ++ key) = trimChars key := by
      simpa using trimChars_padded hpad (List.forall_mem_nil _) key
    have hright : trimChars (value ++ pad') = trimChars value := by
      simpa using trimChars_padded (List.forall_mem_nil _) hpad' value
    simp only [splitAssignment, hcut, hpadded, hleft, hright]

theorem splitAssignment_trimChars (entry : List Char) :
    splitAssignment (trimChars entry) = splitAssignment entry := by
  obtain ⟨pad, pad', hpad, hpad', hentry⟩ := exists_padding entry
  calc
    splitAssignment (trimChars entry) = splitAssignment (pad ++ trimChars entry ++ pad') :=
      (splitAssignment_padded hpad hpad' _).symm
    _ = splitAssignment entry := by rw [← hentry]

theorem trimmed_of_assigns {x : Json} {es : Entries String} (h : Assigns x es) :
    ∀ e ∈ es, Trimmed e.2 := by
  intro e he
  cases x with
  | null => simp [show es = [] from h] at he
  | obj ms =>
    obtain ⟨m, -, -, text, -, hvalue⟩ := exists_mem_left_of_forall₂ h e he
    rw [hvalue]
    exact trimmed_trim text
  | arr items =>
    obtain ⟨item, -, text, -, hsplit, -⟩ := exists_mem_left_of_forall₂ h e he
    rw [← hsplit]
    exact (trimmed_splitAssignment _).2
  | bool b => exact absurd h id
  | num n => exact absurd h id
  | str s => exact absurd h id

/-- Every text that is read under a name is trimmed. -/
theorem trimmed_of_assignments {field : String} {x : Json} {t : KeyValues}
    (h : assignments field x = .ok t) : ∀ v ∈ t.values, Trimmed v := by
  intro v hv
  obtain ⟨es, hes, rfl⟩ := assignments_eq_ok_iff.mp h
  obtain ⟨key, hmem⟩ := Table.mem_values_iff.mp hv
  exact trimmed_of_assigns hes (key, v) (Table.mem_of_mem_ofEntries hmem)

/-- Written texts under names are read back trimmed. -/
theorem assignments_toJson (field : String) (t : KeyValues) :
    assignments field t.toJson = .ok (t.map trim) := by
  refine assignments_eq_ok_iff.mpr ⟨(t.map trim).entries, ?_, Table.ofEntries_entries _⟩
  refine List.forall₂_map_left_iff.mpr (List.forall₂_map_right_iff.mpr ?_)
  exact List.forall₂_same.mpr fun e _ => ⟨rfl, e.2, rfl, rfl⟩

theorem texts_textsToJson (field : String) (ts : List String) :
    texts field (textsToJson ts) = .ok ts :=
  mapM_map_eq_ok fun _ _ => rfl

theorem ports_textsToJson (ts : List String) : ports (textsToJson ts) = .ok ts :=
  mapM_map_eq_ok fun _ _ => rfl

theorem hosts_textsToJson (ts : List String) : hosts (textsToJson ts) = .ok ts :=
  mapM_map_eq_ok fun _ _ => rfl

theorem textOrTexts_textsToJson (field : String) (ts : List String) :
    textOrTexts field (textsToJson ts) = .ok ts :=
  texts_textsToJson field ts

theorem optionalText_toJson (field : String) (o : Option String) :
    optionalText field (o.map .str) = .ok o := by
  cases o <;> rfl

end ContainerStack.Normal
