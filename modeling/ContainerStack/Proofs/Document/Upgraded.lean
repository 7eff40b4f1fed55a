import ContainerStack.Proofs.Pipeline

/-!
What a mapping is upgraded to. A tidied legacy mapping is the services of the document;
a versioned one is what tidying it as a canonical document gives. A mapping is normalized
exactly when, tidied in its own format, it passes the check, and the members it is
upgraded to describe a composition.
-/

namespace ContainerStack

namespace Document

theorem tidy_eq_ok_iff {v : FormatVersion} {doc tidied : Json} :
    tidy v doc = .ok tidied ↔ ∃ ms, doc = .obj ms ∧ tidied = .obj (tidyMembers v ms) := by
  simp only [tidy, bind_eq_ok_iff, expectMapping_eq_ok_iff, Except.ok.injEq, eq_comm (a := tidied)]

theorem resolveVersion_congr {ms ns : Entries Json}
    (h : Entries.get? "version" ms = Entries.get? "version" ns) :
    resolveVersion (.obj ms) = resolveVersion (.obj ns) := by
  simp only [resolveVersion, expectMapping, bind, Except.bind, h]

/-- Tidying a versioned document and then changing the tag is tidying it under that tag. -/
theorem tidyMembers_put (ms : Entries Json) :
    tidyMembers .v21 (Entries.put "version" (.str FormatVersion.v21.tag) ms) =
      Entries.put "version" (.str FormatVersion.v21.tag) (tidyMembers .v20 ms) := by
  have hnetworks : "version" ≠ "networks" := by decide
  have hvolumes : "version" ≠ "volumes" := by decide
  simp only [tidyMembers, alter_put hnetworks, alter_put hvolumes, Entries.put_put]

/-- The members of the canonical document that a mapping of the format is upgraded to. -/
def upgradedMembers (v : FormatVersion) (ms : Entries Json) : Entries Json :=
  match v with
  | .v1 => [("version", .str FormatVersion.v21.tag), ("services", .obj (tidyMembers .v1 ms))]
  | .v20 | .v21 => tidyMembers .v21 ms

theorem upgrade_tidied (v : FormatVersion) (ms : Entries Json) :
    upgrade v (.obj (tidyMembers v ms)) = .ok (.obj (upgradedMembers v ms)) := by
  cases v with
  | v1 => rfl
  | v21 => rfl
  | v20 =>
    have hput : Entries.put "version" (.str FormatVersion.v21.tag) (tidyMembers .v20 ms) =
        upgradedMembers .v20 ms := by
      rw [← tidyMembers_put, upgradedMembers, tidyMembers, Entries.put_put]
      rfl
    exact congrArg (fun ms => Except.ok (Json.obj ms)) hput

end Document

open Document

theorem normalize_obj_eq_ok_iff {checking : Checking} {ms : Entries Json} {c : Composition} :
    normalize checking (.obj ms) = .ok c ↔ ∃ v, resolveVersion (.obj ms) = .ok v ∧
      checking.require v (.obj (tidyMembers v ms)) = .ok () ∧
        Normal.DocumentOf (upgradedMembers v ms) c := by
  rw [normalize_eq_ok_iff]
  constructor
  · intro h
    obtain ⟨v, _, found, hv, htidy, hrequire, hupgrade, hof⟩ := h
    obtain ⟨_, heq, rfl⟩ := tidy_eq_ok_iff.mp htidy
    cases heq
    rw [upgrade_tidied, Except.ok.injEq, Json.obj.injEq] at hupgrade
    exact ⟨v, hv, hrequire, hupgrade ▸ hof⟩
  · intro h
    obtain ⟨v, hv, hrequire, hof⟩ := h
    exact ⟨v, _, _, hv, tidy_eq_ok_iff.mpr ⟨ms, rfl, rfl⟩, hrequire, upgrade_tidied v ms, hof⟩

end ContainerStack
