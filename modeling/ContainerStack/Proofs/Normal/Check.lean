import ContainerStack.Normal.Check
import ContainerStack.Proofs.Outcome
import ContainerStack.Proofs.Text

/-!
What the checks across entities accept. Each check succeeds on a list exactly
when every element meets the condition on its own: label keys are nonempty words
of letters, digits, points and dashes, mounts name a declared volume before their
first colon, and dependencies are declared and do not repeat.
-/

namespace ContainerStack.Normal

open Text

/-- A nonempty word of ASCII letters and digits, points and dashes. -/
def LabelName (key : String) : Prop :=
  key ≠ "" ∧ ∀ c ∈ key.toList,
    ('A' ≤ c ∧ c ≤ 'Z') ∨ ('a' ≤ c ∧ c ≤ 'z') ∨ ('0' ≤ c ∧ c ≤ '9') ∨ c = '.' ∨ c = '-'

/-- A volume entry of a service: the name of a declared volume, without slashes
and backslashes, up to the first colon, and a target after it. -/
def NamedMount (volumes : List String) (entry : String) : Prop :=
  ∃ source target : List Char, entry.toList = source ++ ':' :: target ∧ ':' ∉ source ∧
    source ≠ [] ∧ target ≠ [] ∧ '/' ∉ source ∧ '\\' ∉ source ∧ String.ofList source ∈ volumes

theorem isLabelKey_iff {key : String} : isLabelKey key = true ↔ LabelName key := by
  unfold isLabelKey LabelName
  simp only [Bool.and_eq_true, Bool.not_eq_true', List.isEmpty_eq_false_iff, ne_eq,
    String.toList_eq_nil_iff, List.all_eq_true, isLabelChar, isAsciiAlphanumeric, isAsciiLetter,
    isAsciiDigit, Bool.or_eq_true, decide_eq_true_eq, beq_iff_eq]
  refine and_congr_right fun _ => forall₂_congr fun c _ => ?_
  tauto

theorem checkLabelKeys_eq_ok_iff {owner : String} {keys : List String} :
    checkLabelKeys owner keys = .ok () ↔ ∀ key ∈ keys, LabelName key := by
  unfold checkLabelKeys
  split
  · rename_i key hfind
    have hkey := List.find?_some hfind
    simp only [reject, reduceCtorEq, false_iff, not_forall]
    refine ⟨key, List.mem_of_find?_eq_some hfind, fun h => ?_⟩
    simp [isLabelKey_iff.mpr h] at hkey
  · rename_i hfind
    simpa [isLabelKey_iff] using List.find?_eq_none.mp hfind

theorem isHostPath_eq_false_iff {source : List Char} :
    isHostPath source = false ↔ '/' ∉ source ∧ '\\' ∉ source := by
  simp only [isHostPath, List.any_eq_false, Bool.or_eq_true, beq_iff_eq, not_or]
  constructor
  · exact fun h => ⟨fun hc => (h _ hc).1 rfl, fun hc => (h _ hc).2 rfl⟩
  · intro hparts c hc
    obtain ⟨hslash, hback⟩ := hparts
    exact ⟨fun heq => hslash (heq ▸ hc), fun heq => hback (heq ▸ hc)⟩

theorem checkMount_eq_ok_iff {volumes : List String} {entry : String} :
    checkMount volumes entry = .ok () ↔ NamedMount volumes entry := by
  unfold checkMount NamedMount
  split
  · rename_i hnone
    simp only [reject, reduceCtorEq, false_iff, not_exists, not_and]
    intro source target hentry
    have hmissing := splitFirst_eq_none_iff.mp hnone
    simp [hentry] at hmissing
  · rename_i source target hsome
    obtain ⟨hentry, hcolon⟩ := splitFirst_eq_some_iff.mp hsome
    have hunique : ∀ source' target' : List Char, entry.toList = source' ++ ':' :: target' →
        ':' ∉ source' → source' = source ∧ target' = target := by
      intro source' target' hentry' hcolon'
      have hsame := splitFirst_eq_some_iff.mpr ⟨hentry', hcolon'⟩
      rw [hsome] at hsame
      simpa using hsame.symm
    have hcases : (∃ source target : List Char, entry.toList = source ++ ':' :: target ∧
        ':' ∉ source ∧ source ≠ [] ∧ target ≠ [] ∧ '/' ∉ source ∧ '\\' ∉ source ∧
          String.ofList source ∈ volumes) ↔
        (source ≠ [] ∧ target ≠ []) ∧ isHostPath source = false ∧
          String.ofList source ∈ volumes := by
      rw [isHostPath_eq_false_iff]
      constructor
      · intro hparts
        obtain ⟨source', target', hentry', hcolon', h⟩ := hparts
        obtain ⟨rfl, rfl⟩ := hunique source' target' hentry' hcolon'
        tauto
      · intro h
        exact ⟨source, target, hentry, hcolon, by tauto⟩
    rw [hcases]
    by_cases hempty : (source.isEmpty || target.isEmpty) = true
    · simp only [hempty, ite_true, reject, reduceCtorEq, false_iff]
      simp only [Bool.or_eq_true, List.isEmpty_iff] at hempty
      tauto
    · rw [if_neg hempty]
      simp only [Bool.or_eq_true, List.isEmpty_iff, not_or] at hempty
      cases hhost : isHostPath source with
      | true => simp [reject]
      | false =>
        by_cases hdeclared : String.ofList source ∈ volumes
        · simp [hdeclared, hempty]
        · simp [hdeclared, reject]

theorem checkMounts_eq_ok_iff {volumes entries : List String} :
    checkMounts volumes entries = .ok () ↔ ∀ entry ∈ entries, NamedMount volumes entry := by
  induction entries with
  | nil => simp [checkMounts]
  | cons entry rest ih =>
    rw [List.forall_mem_cons, ← ih, ← checkMount_eq_ok_iff, checkMounts]
    cases checkMount volumes entry with
    | error e => simp
    | ok _ => simp

theorem checkDependenciesAfter_eq_ok_iff {service : String}
    {declared seen dependsOn : List String} :
    checkDependenciesAfter service declared seen dependsOn = .ok () ↔
      dependsOn.Nodup ∧ (∀ d ∈ dependsOn, d ∉ seen) ∧ ∀ d ∈ dependsOn, d ∈ declared := by
  induction dependsOn generalizing seen with
  | nil => simp [checkDependenciesAfter]
  | cons first rest ih =>
    simp only [checkDependenciesAfter]
    split
    · rename_i hseen
      simp [reject, hseen]
    · rename_i hseen
      split
      · rename_i hmissing
        simp [reject, hmissing]
      · rename_i hdeclared
        rw [ih]
        simp only [not_not] at hdeclared
        simp only [List.nodup_cons, List.mem_cons, forall_eq_or_imp, not_or, hseen, hdeclared,
          not_false_eq_true, true_and]
        grind

theorem checkDependencies_eq_ok_iff {service : String} {declared dependsOn : List String} :
    checkDependencies service declared dependsOn = .ok () ↔
      dependsOn.Nodup ∧ ∀ d ∈ dependsOn, d ∈ declared := by
  simp [checkDependencies, checkDependenciesAfter_eq_ok_iff]

end ContainerStack.Normal
