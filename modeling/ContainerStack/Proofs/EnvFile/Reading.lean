import ContainerStack.Composition.Json
import ContainerStack.EnvFile
import ContainerStack.Proofs.EnvPath
import ContainerStack.Proofs.Normal.Field

/-!
Reading the content of env files. A content is cut at its line feeds; blank lines and
comments are passed over, and the lines that are left are read as the entries of an
`environment` list are, although they are trimmed before they are cut. Reading fails
exactly at the first line that assigns to no name, and reports its number.
-/

namespace ContainerStack

open Text

/-- Either all elements have a property, or there is a first one that has not. -/
theorem forall_or_exists_first {α : Type} (P : α → Prop) (xs : List α) :
    (∀ x ∈ xs, P x) ∨ ∃ before x after, xs = before ++ x :: after ∧ (∀ y ∈ before, P y) ∧ ¬P x := by
  induction xs with
  | nil => exact .inl (List.forall_mem_nil P)
  | cons first rest ih =>
    by_cases hfirst : P first
    · rcases ih with hall | ⟨before, x, after, rfl, hbefore, hx⟩
      · exact .inl (List.forall_mem_cons.mpr ⟨hfirst, hall⟩)
      · exact .inr ⟨first :: before, x, after, rfl, List.forall_mem_cons.mpr ⟨hfirst, hbefore⟩, hx⟩
    · exact .inr ⟨[], first, rest, rfl, List.forall_mem_nil P, hfirst⟩

namespace EnvFile

/-- An assignment to no name: after the blanks, the line begins with the equals sign. -/
def Nameless (line : List Char) : Prop :=
  (trimChars line).head? = some '='

instance (line : List Char) : Decidable (Nameless line) :=
  inferInstanceAs (Decidable (_ = _))

theorem nameless_iff {line : List Char} :
    Nameless line ↔ isAssignment (trimChars line) = true ∧
      (Normal.splitAssignment (trimChars line)).1 = "" := by
  rw [Nameless]
  constructor
  · intro h
    obtain ⟨value, hline⟩ := List.head?_eq_some_iff.mp h
    rw [hline]
    exact ⟨rfl, rfl⟩
  · intro hparts
    obtain ⟨hassigns, hname⟩ := hparts
    unfold Normal.splitAssignment at hname
    split at hname
    · rename_i name value hcut
      obtain ⟨hline, -⟩ := splitFirst_eq_some_iff.mp hcut
      cases name with
      | nil => rw [hline, List.nil_append, List.head?_cons]
      | cons c rest =>
        -- A trimmed line does not begin with a blank, so this name is not blank.
        have hfirst : isBlank c = false := head?_trimChars (by rw [hline]; rfl)
        have hkept := head?_trimChars_padded (List.forall_mem_nil _) hfirst rest
        rw [List.nil_append, String.ofList_eq_empty_iff.mp hname, List.head?_nil] at hkept
        contradiction
    · rw [String.ofList_eq_empty_iff, trimChars_trimChars] at hname
      rw [hname] at hassigns
      contradiction

theorem readLines_cons_of_nameless {line : List Char} (h : Nameless line) (number : Nat)
    (done : KeyValues) (rest : List (List Char)) :
    readLines number done (line :: rest) = .error (.namelessLine number) := by
  obtain ⟨hassigns, hname⟩ := nameless_iff.mp h
  simp only [readLines, hassigns, hname, if_true]

theorem readLines_cons_of_not_nameless {line : List Char} (h : ¬Nameless line) (number : Nat)
    (done : KeyValues) : ∃ next, ∀ rest,
      readLines number done (line :: rest) = readLines (number + 1) next rest := by
  by_cases hassigns : isAssignment (trimChars line) = true
  · have hname : ¬(Normal.splitAssignment (trimChars line)).1 = "" := fun hname =>
      h (nameless_iff.mpr ⟨hassigns, hname⟩)
    refine ⟨done.insert (Normal.splitAssignment (trimChars line)).1
      (Normal.splitAssignment (trimChars line)).2, fun rest => ?_⟩
    simp only [readLines, hassigns, if_true, if_neg hname]
  · exact ⟨done, fun rest => by simp only [readLines, if_neg hassigns]⟩

theorem exists_readLines_eq_ok {ls : List (List Char)} (h : ∀ line ∈ ls, ¬Nameless line)
    (number : Nat) (done : KeyValues) : ∃ vars, readLines number done ls = .ok vars := by
  induction ls generalizing number done with
  | nil => exact ⟨done, rfl⟩
  | cons line rest ih =>
    obtain ⟨hline, hrest⟩ := List.forall_mem_cons.mp h
    obtain ⟨next, hnext⟩ := readLines_cons_of_not_nameless hline number done
    rw [hnext]
    exact ih hrest (number + 1) next

/-- Reading stops at the first nameless line and reports its number. -/
theorem readLines_of_nameless {before : List (List Char)} {line : List Char}
    (hbefore : ∀ l ∈ before, ¬Nameless l) (hline : Nameless line) (number : Nat)
    (done : KeyValues) (after : List (List Char)) :
    readLines number done (before ++ line :: after) =
      .error (.namelessLine (number + before.length)) := by
  induction before generalizing number done with
  | nil => exact readLines_cons_of_nameless hline number done after
  | cons first rest ih =>
    obtain ⟨hfirst, hrest⟩ := List.forall_mem_cons.mp hbefore
    obtain ⟨next, hnext⟩ := readLines_cons_of_not_nameless hfirst number done
    rw [List.cons_append, hnext, ih hrest, List.length_cons, Nat.add_right_comm, Nat.add_assoc]

/-- The empty piece after a last line feed is no line of its own. -/
theorem splitOn_eq_lines_or (cs : List Char) :
    cs.splitOn '\n' = lines cs ∨ cs.splitOn '\n' = lines cs ++ [[]] := by
  have hpieces : cs.splitOn '\n' = pieces (· == '\n') cs := (pieces_eq_splitOnP _ cs).symm
  rw [hpieces, lines]
  split
  · rename_i hlast
    exact Or.inr (List.dropLast_append_getLast? [] hlast).symm
  · exact Or.inl rfl

theorem readLines_concat_nil (number : Nat) (done : KeyValues) (ls : List (List Char)) :
    readLines number done (ls ++ [[]]) = readLines number done ls := by
  induction ls generalizing number done with
  | nil => rfl
  | cons line rest ih => simp only [List.cons_append, readLines, ih]

theorem assigned_eq (content : String) :
    assigned content = readLines 1 .empty (content.toList.splitOn '\n') := by
  rcases splitOn_eq_lines_or content.toList with hlines | hlines
  · rw [hlines, assigned]
  · rw [hlines, readLines_concat_nil, assigned]

/-- The lines that are neither blank nor comments. -/
def assignmentLines (ls : List (List Char)) : List (List Char) :=
  ls.filter fun line => trimChars line ≠ [] ∧ (trimChars line).head? ≠ some '#'

theorem isAssignment_iff {line : List Char} :
    isAssignment line = true ↔ line ≠ [] ∧ line.head? ≠ some '#' := by
  simp [isAssignment, isComment]

/-- Reading lines succeeds exactly as reading the assignments among them as entries does. -/
theorem readLines_eq_ok_iff (field : String) {number : Nat} {done vars : KeyValues}
    {ls : List (List Char)} :
    readLines number done ls = .ok vars ↔ Normal.assignmentsOfItems field done
      (((assignmentLines ls).map String.ofList).map .str) = .ok vars := by
  induction ls generalizing number done with
  | nil => simp [readLines, assignmentLines, Normal.assignmentsOfItems]
  | cons line rest ih =>
    rw [assignmentLines] at ih ⊢
    by_cases hline : trimChars line ≠ [] ∧ (trimChars line).head? ≠ some '#'
    · have hentry : Normal.entryText? (.str (String.ofList line)) = some (String.ofList line) := rfl
      rw [List.filter_cons_of_pos (by simpa using hline), List.map_cons, List.map_cons,
        Normal.assignmentsOfItems, hentry, readLines, if_pos (isAssignment_iff.mpr hline)]
      simp only [Normal.splitAssignment_trimChars, String.toList_ofList]
      by_cases hname : (Normal.splitAssignment line).1 = ""
      · simp [hname, reject]
      · simp only [hname, if_false, ih]
    · rw [List.filter_cons_of_neg (by simpa using hline), readLines,
        if_neg (mt isAssignment_iff.mp hline), ih]

theorem read_eq_ok_iff (field : String) {path : EnvPath} {content : String} {vars : KeyValues} :
    read path content = .ok vars ↔ Normal.assignments field
      (textsToJson ((assignmentLines (content.toList.splitOn '\n')).map String.ofList)) =
        .ok vars := by
  have hassigned : read path content = .ok vars ↔ assigned content = .ok vars := by
    unfold read
    split <;> simp [*]
  rw [hassigned, assigned_eq, readLines_eq_ok_iff field]
  rfl

/-- The line is cut into this name, which is not empty, and this value. -/
def Assigns (line : List Char) (e : String × String) : Prop :=
  Normal.splitAssignment line = e ∧ e.1 ≠ ""

/-- A content is read as what its assignments assign. -/
theorem read_of_assigns {path : EnvPath} {content : String} {es : Entries String}
    (h : List.Forall₂ Assigns (assignmentLines (content.toList.splitOn '\n')) es) :
    read path content = .ok (Table.ofEntries es) := by
  refine (read_eq_ok_iff "environment").mpr (Normal.assignments_eq_ok_iff.mpr ⟨es, ?_, rfl⟩)
  refine List.forall₂_map_left_iff.mpr (List.forall₂_map_left_iff.mpr (h.imp ?_))
  intro line e hline
  exact ⟨String.ofList line, rfl, by rw [String.toList_ofList]; exact hline.1, hline.2⟩

theorem read_of_nameless {path : EnvPath} {content : String} {before after : List (List Char)}
    {line : List Char} (hlines : content.toList.splitOn '\n' = before ++ line :: after)
    (hbefore : ∀ l ∈ before, ¬Nameless l) (hline : Nameless line) :
    read path content = .error (.envFile path (.namelessLine (before.length + 1))) := by
  have hread := readLines_of_nameless hbefore hline 1 .empty after
  rw [Nat.add_comm] at hread
  simp only [read, assigned_eq, hlines, hread]

theorem exists_read_eq_ok (path : EnvPath) {content : String}
    (h : ∀ line ∈ content.toList.splitOn '\n', ¬Nameless line) :
    ∃ vars, read path content = .ok vars := by
  obtain ⟨vars, hvars⟩ := exists_readLines_eq_ok h 1 .empty
  exact ⟨vars, by simp only [read, assigned_eq, hvars]⟩

/-- A content is read as the list of its assignments is in an environment, and is refused
exactly when a line assigns to no name; the first such line is reported, counted from one
among all lines. -/
theorem read_as_assignments (path : EnvPath) (content : String) :
    (∀ vars, read path content = .ok vars ↔ Normal.assignments "environment"
      (textsToJson ((assignmentLines (content.toList.splitOn '\n')).map String.ofList)) =
        .ok vars) ∧
    ((∃ e, read path content = .error e) ↔
      ∃ line ∈ content.toList.splitOn '\n', Nameless line) ∧
    ∀ before line after, content.toList.splitOn '\n' = before ++ line :: after →
      (∀ l ∈ before, ¬Nameless l) → Nameless line →
        read path content = .error (.envFile path (.namelessLine (before.length + 1))) := by
  refine ⟨fun vars => read_eq_ok_iff "environment", ?_, ?_⟩
  · constructor
    · intro herror
      obtain ⟨e, he⟩ := herror
      by_contra hnone
      obtain ⟨vars, hvars⟩ := exists_read_eq_ok path fun line hmem hline =>
        hnone ⟨line, hmem, hline⟩
      rw [hvars] at he
      contradiction
    · intro hnameless
      obtain ⟨named, hmem, hnamed⟩ := hnameless
      rcases forall_or_exists_first (¬Nameless ·) (content.toList.splitOn '\n') with
        hall | ⟨before, line, after, hlines, hbefore, hline⟩
      · exact absurd hnamed (hall named hmem)
      · exact ⟨_, read_of_nameless hlines hbefore (not_not.mp hline)⟩
  · exact fun before line after hlines hbefore hline => read_of_nameless hlines hbefore hline

def databaseFile : EnvPath :=
  ⟨["db.env".toList], by simp, by decide +kernel⟩

/-- A comment, a blank line, a name without a value, and a variable that is assigned again. -/
def notedContent : String :=
  "# A=0\n A = 1\r\n\u00a0\nB\nA=2=3\n"

def namelessContent : String :=
  "A=1\n\n\t=2\n=3"

theorem notedContent_read :
    read databaseFile notedContent = .ok (.ofEntries [("A", "2=3"), ("B", "")]) ∧
      Normal.assignments "environment" (textsToJson [" A = 1\r", "B", "A=2=3"]) =
        .ok (.ofEntries [("A", "2=3"), ("B", "")]) ∧
      (∃ line ∈ namelessContent.toList.splitOn '\n', Nameless line) ∧
      read databaseFile namelessContent = .error (.envFile databaseFile (.namelessLine 3)) := by
  have hread : read databaseFile notedContent = .ok (.ofEntries [("A", "2=3"), ("B", "")]) := by
    decide +kernel
  have hlines : (assignmentLines (notedContent.toList.splitOn '\n')).map String.ofList =
      [" A = 1\r", "B", "A=2=3"] := by
    decide +kernel
  have hnoted := ((read_as_assignments databaseFile notedContent).1 _).mp hread
  rw [hlines] at hnoted
  obtain ⟨-, -, hnumbered⟩ := read_as_assignments databaseFile namelessContent
  have hnameless := hnumbered [['A', '=', '1'], []] ['\t', '=', '2'] [['=', '3']]
    (by decide +kernel) (by decide) (by decide)
  exact ⟨hread, hnoted, by decide +kernel, hnameless⟩

end EnvFile

end ContainerStack
