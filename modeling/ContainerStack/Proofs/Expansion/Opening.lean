import ContainerStack.Proofs.EnvFile.Reading
import ContainerStack.Proofs.Expansion.Fetch

/-!
Which files are opened. A file is unusable for one of four reasons, and a fetch fails
exactly with the one that holds: the file cannot be opened, or not be read, or is not
text, or has a line without a variable name. Files are opened in the order in which
they are first listed, each once, up to the first that is unusable; that one is reported.
-/

namespace ContainerStack

open Text

namespace Expansion

/-- Why the file at a path cannot be used. -/
inductive Unusable (files : ProjectFiles) (path : EnvPath) : EnvFileProblem → Prop
  | notOpened {reason : String} (h : files path = .notOpened reason) :
      Unusable files path (.unreadable reason)
  | notRead {reason : String} (h : files path = .notRead reason) :
      Unusable files path (.unreadable reason)
  | notUtf8 {bytes : ByteArray} (h : files path = .content bytes) (hbytes : ¬bytes.IsValidUTF8) :
      Unusable files path .notUtf8
  | nameless {content : String} {before after : List (List Char)} {line : List Char}
      (h : files path = .content content.toUTF8)
      (hlines : lines content.toList = before ++ line :: after)
      (hbefore : ∀ l ∈ before, ¬EnvFile.Nameless l) (hline : EnvFile.Nameless line) :
      Unusable files path (.namelessLine (before.length + 1))

theorem fromUTF8?_toUTF8 (content : String) : String.fromUTF8? content.toUTF8 = some content :=
  dif_pos content.isValidUTF8

theorem fetch_of_unusable {files : ProjectFiles} {path : EnvPath} {problem : EnvFileProblem}
    (h : Unusable files path problem) : fetch files path = .error (.envFile path problem) := by
  cases h with
  | notOpened hanswer => simp only [fetch, hanswer]
  | notRead hanswer => simp only [fetch, hanswer]
  | notUtf8 hanswer hbytes => simp only [fetch, hanswer, String.fromUTF8?, dif_neg hbytes]
  | @nameless content before after line hanswer hlines hbefore hline =>
    have hread := EnvFile.readLines_of_nameless hbefore hline 1 .empty after
    rw [Nat.add_comm] at hread
    simp only [fetch, hanswer, fromUTF8?_toUTF8, EnvFile.read, EnvFile.assigned, hlines, hread]

/-- Nothing is wrong with the file at a path. -/
def Usable (files : ProjectFiles) (path : EnvPath) : Prop :=
  ∀ problem, ¬Unusable files path problem

theorem fetch_of_usable {files : ProjectFiles} {path : EnvPath} (h : Usable files path) :
    fetch files path = .ok (fileVariables files path) := by
  cases hanswer : files path with
  | notOpened reason => exact absurd (.notOpened hanswer) (h _)
  | notRead reason => exact absurd (.notRead hanswer) (h _)
  | content bytes =>
    by_cases hbytes : bytes.IsValidUTF8
    · obtain ⟨content, rfl⟩ : ∃ content : String, bytes = content.toUTF8 :=
        ⟨String.fromUTF8 bytes hbytes, rfl⟩
      rcases forall_or_exists_first (¬EnvFile.Nameless ·) (lines content.toList) with
        hnamed | ⟨before, line, after, hlines, hbefore, hline⟩
      · obtain ⟨vars, hvars⟩ := EnvFile.exists_readLines_eq_ok hnamed 1 .empty
        have hfetch : fetch files path = .ok vars := by
          simp only [fetch, hanswer, fromUTF8?_toUTF8, EnvFile.read, EnvFile.assigned, hvars]
        exact fetch_eq_ok hfetch
      · exact absurd (.nameless hanswer hlines hbefore (not_not.mp hline)) (h _)
    · exact absurd (.notUtf8 hanswer hbytes) (h _)

theorem usable_iff {files : ProjectFiles} {path : EnvPath} :
    Usable files path ↔ fetch files path = .ok (fileVariables files path) := by
  refine ⟨fetch_of_usable, fun h problem hproblem => ?_⟩
  rw [fetch_of_unusable hproblem] at h
  contradiction

theorem fetch_eq_error_iff {files : ProjectFiles} {path : EnvPath} {e : StackError} :
    fetch files path = .error e ↔
      ∃ problem, Unusable files path problem ∧ e = .envFile path problem := by
  constructor
  · intro h
    have hunusable : ¬Usable files path := by
      rw [usable_iff, h]
      simp
    obtain ⟨problem, hproblem⟩ := not_forall_not.mp hunusable
    rw [fetch_of_unusable hproblem] at h
    exact ⟨problem, hproblem, (Except.error.inj h).symm⟩
  · rintro ⟨problem, hproblem, rfl⟩
    exact fetch_of_unusable hproblem

/-- The paths that services list, in order and with repetitions. -/
def listed (c : Composition) : List EnvPath :=
  c.services.values.flatMap fun s => s.envFiles.getD []

theorem paths_eq (c : Composition) : paths c = (listed c).eraseDups :=
  EnvPath.distinct_eq_eraseDups (listed c)

theorem mem_listed_iff {c : Composition} {p : EnvPath} : p ∈ listed c ↔ p ∈ paths c := by
  rw [paths_eq, List.mem_eraseDups]

theorem fetchAll_of_usable {files : ProjectFiles} {ps : List EnvPath}
    (h : ∀ p ∈ ps, Usable files p) :
    fetchAll files ps = (ps, .ok (ps.map fun p => (p, fileVariables files p))) := by
  induction ps with
  | nil => rfl
  | cons p rest ih =>
    obtain ⟨hp, hrest⟩ := List.forall_mem_cons.mp h
    simp only [fetchAll, fetch_of_usable hp, ih hrest, Except.map, List.map_cons]

/-- Opening stops at the first unusable file. -/
theorem fetchAll_of_unusable {files : ProjectFiles} {before : List EnvPath} {p : EnvPath}
    {problem : EnvFileProblem} (hbefore : ∀ q ∈ before, Usable files q)
    (hp : Unusable files p problem) (after : List EnvPath) :
    fetchAll files (before ++ p :: after) = (before ++ [p], .error (.envFile p problem)) := by
  induction before with
  | nil => simp only [List.nil_append, fetchAll, fetch_of_unusable hp]
  | cons q rest ih =>
    obtain ⟨hq, hrest⟩ := List.forall_mem_cons.mp hbefore
    simp only [List.cons_append, fetchAll, fetch_of_usable hq, ih hrest, Except.map]

end Expansion

end ContainerStack
