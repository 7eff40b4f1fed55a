import ContainerStack.Proofs.EnvFile.Reading

/-!
Layouts of env files. The same variables can be written with blanks around names and
values, with blank lines and comments between the lines, and with either ending of a line.
However they are laid out, reading gives back the variables in their order, with equals
signs, dollars, number signs and blanks inside values as they were.
-/

namespace ContainerStack.EnvFile

open Text

/-- A variable that a line can hold as it is. -/
structure Writable (e : String × String) : Prop where
  name_ne : e.1 ≠ ""
  name_trimmed : Trimmed e.1
  name_separate : '=' ∉ e.1.toList
  name_unbroken : '\n' ∉ e.1.toList
  name_uncommented : e.1.toList.head? ≠ some '#'
  value_trimmed : Trimmed e.2
  value_unbroken : '\n' ∉ e.2.toList

/-- Blanks that end no line. -/
def Padding (cs : List Char) : Prop :=
  ∀ c ∈ cs, isBlank c = true ∧ c ≠ '\n'

instance (e : String × String) : Decidable (Writable e) :=
  decidable_of_iff (e.1 ≠ "" ∧ Trimmed e.1 ∧ '=' ∉ e.1.toList ∧ '\n' ∉ e.1.toList ∧
      e.1.toList.head? ≠ some '#' ∧ Trimmed e.2 ∧ '\n' ∉ e.2.toList)
    ⟨fun ⟨h₁, h₂, h₃, h₄, h₅, h₆, h₇⟩ => ⟨h₁, h₂, h₃, h₄, h₅, h₆, h₇⟩,
      fun ⟨h₁, h₂, h₃, h₄, h₅, h₆, h₇⟩ => ⟨h₁, h₂, h₃, h₄, h₅, h₆, h₇⟩⟩

instance (cs : List Char) : Decidable (Padding cs) :=
  List.decidableBAll (fun c => isBlank c = true ∧ c ≠ '\n') cs

/-- A line and the variables that it assigns: one, or none on a blank line or a comment. -/
inductive LineOf : Entries String → List Char → Prop
  | assignment {name value : String} {a b c d : List Char} :
      Padding a → Padding b → Padding c → Padding d →
      LineOf [(name, value)] (a ++ name.toList ++ b ++ '=' :: (c ++ value.toList ++ d))
  | blank {pad : List Char} : Padding pad → LineOf [] pad
  | comment {pad text : List Char} : Padding pad → '\n' ∉ text → LineOf [] (pad ++ '#' :: text)

/-- A text that assigns the variables in their order, line by line. Every line has an end,
with or without a carriage return; that of the last one may be missing. -/
inductive Layout : Entries String → List Char → Prop
  | nil : Layout [] []
  | last {es : Entries String} {line : List Char} : LineOf es line → Layout es line
  | line {es fs : Entries String} {line ending rest : List Char} : LineOf es line →
      ending = ['\n'] ∨ ending = ['\r', '\n'] → Layout fs rest →
      Layout (es ++ fs) (line ++ ending ++ rest)

theorem Padding.blank {pad : List Char} (h : Padding pad) : ∀ c ∈ pad, isBlank c = true :=
  fun c hc => (h c hc).1

theorem Padding.notMem {pad : List Char} (h : Padding pad) : '\n' ∉ pad :=
  fun hmem => (h '\n' hmem).2 rfl

theorem Padding.equals_notMem {pad : List Char} (h : Padding pad) : '=' ∉ pad :=
  fun hmem => absurd (h.blank '=' hmem) (by decide)

theorem Padding.concat_return {pad : List Char} (h : Padding pad) : Padding (pad ++ ['\r']) :=
  List.forall_mem_append.mpr ⟨h, (by decide : Padding ['\r'])⟩

/-- A carriage return at the end of a line belongs to its blanks, or to the comment. -/
theorem LineOf.concat_return {es : Entries String} {line : List Char} (h : LineOf es line) :
    LineOf es (line ++ ['\r']) := by
  cases h with
  | @assignment name value a b c d ha hb hc hd =>
    have hline : a ++ name.toList ++ b ++ '=' :: (c ++ value.toList ++ d) ++ ['\r'] =
        a ++ name.toList ++ b ++ '=' :: (c ++ value.toList ++ (d ++ ['\r'])) := by
      simp only [List.append_assoc, List.cons_append]
    rw [hline]
    exact .assignment ha hb hc hd.concat_return
  | blank hpad => exact .blank hpad.concat_return
  | comment hpad htext =>
    rw [List.append_assoc, List.cons_append]
    exact .comment hpad (by simp [htext])

theorem LineOf.notMem {es : Entries String} {line : List Char} (h : LineOf es line)
    (hes : ∀ e ∈ es, Writable e) : '\n' ∉ line := by
  cases h with
  | assignment ha hb hc hd =>
    have he := hes _ List.mem_cons_self
    simp [ha.notMem, hb.notMem, hc.notMem, hd.notMem, he.name_unbroken, he.value_unbroken]
  | blank hpad => exact hpad.notMem
  | comment hpad htext => simp [hpad.notMem, htext]

/-- A line that assigns a variable is cut into its name and value. -/
theorem splitAssignment_line {name value : String} {a b c d : List Char} (ha : Padding a)
    (hb : Padding b) (hc : Padding c) (hd : Padding d) (h : Writable (name, value)) :
    Normal.splitAssignment (a ++ name.toList ++ b ++ '=' :: (c ++ value.toList ++ d)) =
      (name, value) := by
  have hcut : splitFirst '=' (a ++ name.toList ++ b ++ '=' :: (c ++ value.toList ++ d)) =
      some (a ++ name.toList ++ b, c ++ value.toList ++ d) :=
    splitFirst_eq_some_iff.mpr
      ⟨rfl, by simp [ha.equals_notMem, hb.equals_notMem, h.name_separate]⟩
  have hname : trimChars (a ++ name.toList ++ b) = name.toList := by
    rw [trimChars_padded ha.blank hb.blank, trimChars_of_trimmed h.name_trimmed]
  have hvalue : trimChars (c ++ value.toList ++ d) = value.toList := by
    rw [trimChars_padded hc.blank hd.blank, trimChars_of_trimmed h.value_trimmed]
  simp only [Normal.splitAssignment, hcut, hname, hvalue, String.ofList_toList]

/-- A line that begins with the name of a variable is neither blank nor a comment. -/
theorem assignmentLines_line {e : String × String} {pad : List Char} (hpad : Padding pad)
    (he : Writable e) (rest : List Char) :
    assignmentLines [pad ++ e.1.toList ++ rest] = [pad ++ e.1.toList ++ rest] := by
  obtain ⟨first, others, hchars, hfirst⟩ := exists_cons_of_trimmed he.name_trimmed he.name_ne
  have hhead : (trimChars (pad ++ e.1.toList ++ rest)).head? = some first := by
    rw [hchars, List.append_assoc, List.cons_append, head?_trimChars_padded hpad.blank hfirst]
  have hvisible : trimChars (pad ++ e.1.toList ++ rest) ≠ [] := by
    intro hnil
    rw [hnil] at hhead
    contradiction
  have huncommented : some first ≠ some '#' := by
    have hname := he.name_uncommented
    rwa [hchars, List.head?_cons] at hname
  exact List.filter_cons_of_pos (decide_eq_true ⟨hvisible, hhead ▸ huncommented⟩)

theorem LineOf.assigns {es : Entries String} {line : List Char} (h : LineOf es line)
    (hes : ∀ e ∈ es, Writable e) :
    List.Forall₂ Assigns (assignmentLines (line.splitOn '\n')) es := by
  have hunbroken := h.notMem hes
  have hsplit : line.splitOn '\n' = [line] :=
    List.splitOnP_eq_singleton (by simpa [List.forall_mem_ne'] using hunbroken)
  rw [hsplit]
  cases h with
  | @assignment name value a b c d ha hb hc hd =>
    have he := hes _ List.mem_cons_self
    have hcut := splitAssignment_line ha hb hc hd he
    have hline := assignmentLines_line ha he (b ++ '=' :: (c ++ value.toList ++ d))
    rw [← List.append_assoc] at hline
    rw [hline]
    exact .cons ⟨hcut, he.name_ne⟩ .nil
  | blank hpad =>
    have hblank := trimChars_eq_nil_iff.mpr hpad.blank
    simp [assignmentLines, hblank]
  | @comment pad text hpad htext =>
    have hhead := head?_trimChars_padded hpad.blank (by decide : isBlank '#' = false) text
    simp [assignmentLines, hhead]

/-- A line feed divides the assignments of a text. -/
theorem assignmentLines_break (before after : List Char) :
    assignmentLines ((before ++ '\n' :: after).splitOn '\n') =
      assignmentLines (before.splitOn '\n') ++ assignmentLines (after.splitOn '\n') := by
  rw [List.splitOn, List.splitOnP_append_cons before after (by decide), assignmentLines,
    List.filter_append]
  rfl

/-- The assignments of a text are those of its lines, one after another. -/
theorem Layout.assigns {es : Entries String} {text : List Char} (h : Layout es text)
    (hes : ∀ e ∈ es, Writable e) :
    List.Forall₂ Assigns (assignmentLines (text.splitOn '\n')) es := by
  induction h with
  | nil => exact .nil
  | last hline => exact hline.assigns hes
  | @line es fs line ending rest hline hending _ ih =>
    obtain ⟨hes, hfs⟩ := List.forall_mem_append.mp hes
    rcases hending with rfl | rfl
    · rw [List.append_assoc, List.singleton_append, assignmentLines_break]
      exact List.rel_append (hline.assigns hes) (ih hfs)
    · have htext : line ++ ['\r', '\n'] ++ rest = line ++ ['\r'] ++ '\n' :: rest := by simp
      rw [htext, assignmentLines_break]
      exact List.rel_append (hline.concat_return.assigns hes) (ih hfs)

/-- A table of writable variables, laid out in any way, is read back as it was. -/
theorem read_of_layout {vars : KeyValues} {content : String}
    (hvars : ∀ e ∈ vars.entries, Writable e) (h : Layout vars.entries content.toList)
    (path : EnvPath) : read path content = .ok vars := by
  rw [read_of_assigns (h.assigns hvars), Table.ofEntries_entries]

def databaseVariables : KeyValues :=
  .ofEntries [("URL", "db://h?a=b #c$D"), ("Größe x", ""), ("A", "1\r2")]

/-- The variables with a comment, a blank line, blanks of all kinds and no last line feed. -/
def databaseContent : String :=
  "\u00a0# URL=1\r\n URL\t=\u2003db://h?a=b #c$D\u3000\n\x0b\r\nGröße x=\nA=1\r2 \r"

theorem databaseContent_read :
    (∀ e ∈ databaseVariables.entries, Writable e) ∧
      Layout databaseVariables.entries databaseContent.toList ∧
      read databaseFile databaseContent = .ok databaseVariables := by
  have hvars : ∀ e ∈ databaseVariables.entries, Writable e := by decide +kernel
  have hentries : databaseVariables.entries =
      [] ++ ([("URL", "db://h?a=b #c$D")] ++ ([] ++ ([("Größe x", "")] ++ [("A", "1\r2")]))) := by
    decide +kernel
  have hcontent : databaseContent.toList =
      (['\u00a0'] ++ '#' :: " URL=1".toList) ++ ['\r', '\n'] ++
      (([' '] ++ "URL".toList ++ ['\t'] ++
        '=' :: (['\u2003'] ++ "db://h?a=b #c$D".toList ++ ['\u3000'])) ++ ['\n'] ++
      (['\x0b'] ++ ['\r', '\n'] ++
      (([] ++ "Größe x".toList ++ [] ++ '=' :: ([] ++ "".toList ++ [])) ++ ['\n'] ++
      ([] ++ "A".toList ++ [] ++ '=' :: ([] ++ "1\r2".toList ++ [' ', '\r']))))) := by
    decide +kernel
  have hlayout : Layout databaseVariables.entries databaseContent.toList := by
    rw [hentries, hcontent]
    refine .line (.comment (by decide) (by decide)) (Or.inr rfl) ?_
    refine .line (.assignment (by decide) (by decide) (by decide) (by decide)) (Or.inl rfl) ?_
    refine .line (.blank (by decide)) (Or.inr rfl) ?_
    refine .line (.assignment (by decide) (by decide) (by decide) (by decide)) (Or.inl rfl) ?_
    exact .last (.assignment (by decide) (by decide) (by decide) (by decide))
  exact ⟨hvars, hlayout, read_of_layout hvars hlayout databaseFile⟩

end ContainerStack.EnvFile
