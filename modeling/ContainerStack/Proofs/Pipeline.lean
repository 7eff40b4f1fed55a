import ContainerStack.Pipeline
import ContainerStack.Proofs.Normal.Document

/-!
The stages of normalization. A document is normalized exactly when its version
resolves, the tidied document passes the check of that version, and the upgraded
one describes a composition.
-/

namespace ContainerStack

open ContainerStack.Normal

theorem Checking.require_eq_ok_iff {v : FormatVersion} {doc : Json} :
    Checking.schema.require v doc = .ok () ↔ (Schema.ofVersion v).Valid doc := by
  unfold Checking.require Checking.check Schema.Valid
  cases (Schema.ofVersion v).violation? [] doc <;> simp

theorem Checking.require_off (v : FormatVersion) (doc : Json) :
    Checking.off.require v doc = .ok () :=
  rfl

/-- A check that passes goes on passing when validity is kept. -/
theorem Checking.require_mono {checking : Checking} {v w : FormatVersion} {x y : Json}
    (hvalid : (Schema.ofVersion v).Valid x → (Schema.ofVersion w).Valid y)
    (h : checking.require v x = .ok ()) : checking.require w y = .ok () := by
  cases checking with
  | schema => exact require_eq_ok_iff.mpr (hvalid (require_eq_ok_iff.mp h))
  | off => exact require_off w y

theorem normalize_eq_ok_iff {checking : Checking} {doc : Json} {c : Composition} :
    normalize checking doc = .ok c ↔
      ∃ v tidied ms, Document.resolveVersion doc = .ok v ∧ Document.tidy v doc = .ok tidied ∧
        checking.require v tidied = .ok () ∧ Document.upgrade v tidied = .ok (.obj ms) ∧
        DocumentOf ms c := by
  simp only [normalize, bind_eq_ok_iff, document_eq_ok_iff]
  constructor
  · intro h
    obtain ⟨v, hv, tidied, htidied, _, hrequire, _, hupgrade, ms, rfl, hof⟩ := h
    exact ⟨v, tidied, ms, hv, htidied, hrequire, hupgrade, hof⟩
  · intro h
    obtain ⟨v, tidied, ms, hv, htidied, hrequire, hupgrade, hof⟩ := h
    exact ⟨v, hv, tidied, htidied, (), hrequire, _, hupgrade, ms, rfl, hof⟩

/-- When the format of a document is known, it remains to check the tidied document and
to read what it is upgraded to. -/
theorem normalize_tidied_eq_ok_iff {checking : Checking} {doc tidied : Json} {v : FormatVersion}
    {c : Composition} (hv : Document.resolveVersion doc = .ok v)
    (htidy : Document.tidy v doc = .ok tidied) :
    normalize checking doc = .ok c ↔ checking.require v tidied = .ok () ∧
      ∃ ms, Document.upgrade v tidied = .ok (.obj ms) ∧ DocumentOf ms c := by
  rw [normalize_eq_ok_iff]
  constructor
  · intro h
    obtain ⟨w, found, ms, hw, hfound, hrequire, hupgrade, hof⟩ := h
    rw [hv, Except.ok.injEq] at hw
    subst hw
    rw [htidy, Except.ok.injEq] at hfound
    subst hfound
    exact ⟨hrequire, ms, hupgrade, hof⟩
  · intro h
    obtain ⟨hrequire, ms, hupgrade, hof⟩ := h
    exact ⟨v, tidied, ms, hv, htidy, hrequire, hupgrade, hof⟩

end ContainerStack
