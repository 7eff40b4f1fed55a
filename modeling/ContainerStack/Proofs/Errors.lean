import ContainerStack.Proofs.Expansion.Merging
import ContainerStack.Proofs.Normal.Faults
import ContainerStack.Proofs.Pipeline

/-!
What normalization and expansion fail with. Upgrading always ends in the canonical
format, so normalization blames the document for every failure; expansion fails because
of a file or a variable. Neither ever finds a composition inconsistent.
-/

namespace ContainerStack

namespace StackError

/-- The error is about an env file, or a required variable. -/
def IsExpansion (e : StackError) : Prop :=
  (∃ path problem, e = .envFile path problem) ∨ ∃ name word, e = .missingVariable name word

theorem IsFault.isValidation {e : StackError} (h : e.IsFault) : e.isValidation = true := by
  obtain ⟨cause, rfl⟩ := h
  rfl

end StackError

open StackError (IsFault IsExpansion)

namespace Document

theorem failsOnly_expectMapping (doc : Json) : FailsOnly IsFault (expectMapping doc) := by
  unfold expectMapping
  split
  · exact .ok _
  · exact failsOnly_reject _

theorem isValidation_of_resolveVersion (doc : Json) :
    FailsOnly (fun e => e.isValidation = true) (resolveVersion doc) := by
  refine ((failsOnly_expectMapping doc).mono fun e => IsFault.isValidation).bind fun ms _ => ?_
  have htag : ∀ tag, FailsOnly (fun e => e.isValidation = true) (versionOfTag tag) := by
    intro tag
    unfold versionOfTag
    split
    · exact .ok _
    · exact .error rfl
  split
  · exact .ok _
  · exact htag _
  · exact htag _
  · exact .error rfl

theorem failsOnly_tidy (v : FormatVersion) (doc : Json) : FailsOnly IsFault (tidy v doc) :=
  (failsOnly_expectMapping doc).bind fun _ _ => .ok _

theorem failsOnly_retag (tag : String) (doc : Json) : FailsOnly IsFault (retag tag doc) :=
  (failsOnly_expectMapping doc).bind fun _ _ => .ok _

theorem failsOnly_upgrade (v : FormatVersion) (doc : Json) : FailsOnly IsFault (upgrade v doc) := by
  cases v with
  | v1 => exact failsOnly_retag _ _
  | v20 => exact failsOnly_retag _ _
  | v21 => exact .ok _

theorem version_of_retag {tag : String} {doc found : Json} (h : retag tag doc = .ok found) :
    ∃ ms, found = .obj ms ∧ Entries.get? "version" ms = some (.str tag) := by
  simp only [retag, bind_eq_ok_iff, Except.ok.injEq] at h
  obtain ⟨ms, -, rfl⟩ := h
  exact ⟨_, rfl, Entries.get?_put_self _ _ _⟩

/-- Whatever is upgraded then declares the canonical format. -/
theorem version_of_upgrade {v : FormatVersion} {doc tidied found : Json}
    (htidy : tidy v doc = .ok tidied) (h : upgrade v tidied = .ok found) :
    ∃ ms, found = .obj ms ∧
      Entries.get? "version" ms = some (.str FormatVersion.canonical.tag) := by
  cases v with
  | v1 => exact version_of_retag h
  | v20 => exact version_of_retag h
  | v21 =>
    simp only [tidy, bind_eq_ok_iff, Except.ok.injEq] at htidy
    obtain ⟨ms, -, rfl⟩ := htidy
    exact ⟨_, (Except.ok.inj h).symm, version_tidyMembers (by decide) ms⟩

end Document

theorem Checking.isValidation_of_require (checking : Checking) (v : FormatVersion) (doc : Json) :
    FailsOnly (fun e => e.isValidation = true) (checking.require v doc) := by
  unfold Checking.require
  split
  · exact .ok _
  · exact .error rfl

/-- Normalization of any document fails only because of the document. -/
theorem isValidation_of_normalize (checking : Checking) (doc : Json) :
    FailsOnly (fun e => e.isValidation = true) (normalize checking doc) := by
  refine (Document.isValidation_of_resolveVersion doc).bind fun v _ => ?_
  refine ((Document.failsOnly_tidy v doc).mono fun e => IsFault.isValidation).bind
    fun tidied htidied => ?_
  refine (checking.isValidation_of_require v tidied).bind fun _ _ => ?_
  refine ((Document.failsOnly_upgrade v tidied).mono fun e => IsFault.isValidation).bind
    fun found hfound => ?_
  obtain ⟨ms, rfl, hversion⟩ := Document.version_of_upgrade htidied hfound
  exact (Normal.failsOnly_document hversion).mono fun e => IsFault.isValidation

namespace Template

theorem failsOnly_value (lookup : Lookup) (item : Item) :
    FailsOnly IsExpansion (item.value lookup) := by
  cases item with
  | modified name modifier word =>
    simp only [Item.value]
    split
    · exact .ok _
    · cases modifier with
      | orWord => exact .ok _
      | orWordIfEmpty => exact .ok _
      | required => exact .error (Or.inr ⟨_, _, rfl⟩)
      | requiredNonempty => exact .error (Or.inr ⟨_, _, rfl⟩)
  | _ => exact .ok _

theorem failsOnly_render (lookup : Lookup) (items : List Item) :
    FailsOnly IsExpansion (render lookup items) := by
  induction items with
  | nil => exact .ok _
  | cons item rest ih =>
    rw [render]
    split
    · rename_i e hitem
      exact .error (failsOnly_value lookup item e hitem)
    · split
      · rename_i e hrest
        exact .error (ih e hrest)
      · exact .ok _

theorem failsOnly_expand (lookup : Lookup) (template : String) :
    FailsOnly IsExpansion (expand lookup template) :=
  (failsOnly_render lookup _).map _

end Template

namespace Expansion

theorem failsOnly_fetch (files : ProjectFiles) (path : EnvPath) :
    FailsOnly IsExpansion (fetch files path) := by
  unfold fetch
  split
  · exact .error (Or.inl ⟨_, _, rfl⟩)
  · exact .error (Or.inl ⟨_, _, rfl⟩)
  · split
    · exact .error (Or.inl ⟨_, _, rfl⟩)
    · unfold EnvFile.read
      split
      · exact .ok _
      · exact .error (Or.inl ⟨_, _, rfl⟩)

theorem failsOnly_fetchAll (files : ProjectFiles) (listed : List EnvPath) :
    FailsOnly IsExpansion (fetchAll files listed).2 := by
  induction listed with
  | nil => exact .ok _
  | cons path rest ih =>
    rw [fetchAll]
    split
    · rename_i e hfetch
      exact .error (failsOnly_fetch files path e hfetch)
    · exact ih.map _

/-- With all listed files at hand, only a variable can be missing. -/
theorem failsOnly_expandWith {files : ProjectFiles} {cache : Cache} {lookup : Template.Lookup}
    {c : Composition} (h : ∀ p ∈ paths c, cache.lookup p = some (fileVariables files p)) :
    FailsOnly IsExpansion (expandWith cache lookup c) := by
  intro e he
  have hfailure := failure?_eq_some_iff.mpr he
  rw [failure?_expandWith h] at hfailure
  obtain ⟨text, -, htext⟩ := List.exists_of_findSome?_eq_some hfailure
  exact Template.failsOnly_expand lookup text e (failure?_eq_some_iff.mp htext)

end Expansion

/-- Expansion of any composition fails only because of a file or a variable. -/
theorem Composition.failsOnly_expand (files : ProjectFiles) (lookup : Template.Lookup)
    (c : Composition) : FailsOnly IsExpansion (c.expand files lookup).result := by
  refine (Expansion.failsOnly_fetchAll files _).bind fun cache hcache => ?_
  obtain ⟨-, rfl⟩ := Expansion.fetchAll_eq_ok_iff.mp hcache
  exact Expansion.failsOnly_expandWith fun p hp => Expansion.lookup_map hp

end ContainerStack
