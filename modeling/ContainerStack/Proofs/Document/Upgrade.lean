import ContainerStack.Composition.Json
import ContainerStack.Document.Upgrade
import ContainerStack.Proofs.Normal.Written

/-!
Documents on their way to the canonical format. Upgrading the legacy format wraps
its services, upgrading the versioned one replaces the tag, and a composition in
its written form passes through resolving, tidying and upgrading as it is.
-/

namespace ContainerStack

theorem FormatVersion.ofTag?_tag (v : FormatVersion) : ofTag? v.tag = some v := by
  cases v <;> decide +kernel

namespace Document

theorem expectMapping_eq_ok_iff {doc : Json} {ms : Entries Json} :
    expectMapping doc = .ok ms ↔ doc = .obj ms := by
  cases doc <;> simp [expectMapping, reject]

theorem retag_eq_ok_iff {tag : String} {doc : Json} {ms : Entries Json} :
    retag tag doc = .ok (.obj ms) ↔
      ∃ old, doc = .obj old ∧ Entries.put "version" (.str tag) old = ms := by
  simp [retag, bind_eq_ok_iff, expectMapping_eq_ok_iff]

/-- The services of a legacy document are the document itself. -/
theorem upgrade_legacy (doc : Json) :
    upgrade .v1 doc = .ok (.obj [("version", .str "2.1"), ("services", doc)]) :=
  rfl

theorem alter_cons (key : String) (f : Json → Json) (m : String × Json) (ms : Entries Json) :
    alter key f (m :: ms) = (if m.1 = key then (m.1, f m.2) else m) :: alter key f ms :=
  rfl

theorem keys_alter (key : String) (f : Json → Json) (ms : Entries Json) :
    Entries.keys (alter key f ms) = Entries.keys ms := by
  induction ms with
  | nil => rfl
  | cons m rest ih =>
    have hname : (if m.1 = key then (m.1, f m.2) else m).1 = m.1 := by
      by_cases hkey : m.1 = key
      · rw [if_pos hkey]
      · rw [if_neg hkey]
    simp only [Entries.keys] at ih ⊢
    rw [alter_cons, List.map_cons, List.map_cons, ih, hname]

theorem get?_alter_of_ne {key other : String} (hne : other ≠ key) (f : Json → Json)
    (ms : Entries Json) : Entries.get? other (alter key f ms) = Entries.get? other ms := by
  induction ms with
  | nil => rfl
  | cons m rest ih =>
    by_cases hkey : m.1 = key
    · simp [alter_cons, Entries.get?, hkey, hne.symm, ih]
    · simp [alter_cons, Entries.get?, hkey, ih]

theorem get?_alter_self (key : String) (f : Json → Json) (ms : Entries Json) :
    Entries.get? key (alter key f ms) = (Entries.get? key ms).map f := by
  induction ms with
  | nil => rfl
  | cons m rest ih =>
    by_cases hkey : m.1 = key
    · simp [alter_cons, Entries.get?, hkey]
    · simp [alter_cons, Entries.get?, hkey, ih]

theorem alter_put {key other : String} (hne : other ≠ key) (f : Json → Json) (x : Json)
    (ms : Entries Json) :
    alter key f (Entries.put other x ms) = Entries.put other x (alter key f ms) := by
  induction ms with
  | nil => simp [Entries.put, alter, hne]
  | cons m rest ih =>
    by_cases hother : m.1 = other
    · simp [Entries.put, alter_cons, hother, hne]
    · by_cases hkey : m.1 = key
      · simp [Entries.put, alter_cons, hkey, ih, hne.symm]
      · simp [Entries.put, alter_cons, hother, hkey, ih]

theorem alter_eq_self {key : String} {f : Json → Json} {ms : Entries Json}
    (h : ∀ m ∈ ms, m.1 = key → f m.2 = m.2) : alter key f ms = ms := by
  refine (List.map_congr_left fun m hm => ?_).trans (List.map_id ms)
  split
  · rename_i hkey
    rw [h m hm hkey, id]
  · rfl

/-- Written networks and volumes leave nothing to fill in. -/
theorem fillSection_sectionToJson (t : Table Resource) :
    fillSection (sectionToJson Resource.toJson t) = sectionToJson Resource.toJson t := by
  simp [sectionToJson, fillSection, fillEntry, Resource.toJson]

theorem resolveVersion_unversioned {ms : Entries Json} (h : Entries.get? "version" ms = none) :
    resolveVersion (.obj ms) = .ok .v1 := by
  rw [resolveVersion, expectMapping, bind_eq_ok_iff]
  exact ⟨ms, rfl, by rw [h]⟩

theorem resolveVersion_of_tag {v : FormatVersion} {ms : Entries Json}
    (h : Entries.get? "version" ms = some (.str v.tag)) : resolveVersion (.obj ms) = .ok v := by
  rw [resolveVersion, expectMapping, bind_eq_ok_iff]
  refine ⟨ms, rfl, ?_⟩
  rw [h]
  simp only [versionOfTag, v.ofTag?_tag]

theorem resolveVersion_toJson {c : Composition} (h : c.version = "2.1") :
    resolveVersion c.toJson = .ok .v21 := by
  rw [c.toJson_eq]
  exact resolveVersion_of_tag (c.get?_fields (by simp [Composition.fields, h, FormatVersion.tag]))

theorem tidyMembers_versioned {v : FormatVersion} (hv : v ≠ .v1) (ms : Entries Json) :
    tidyMembers v ms = alter "volumes" fillSection
      (alter "networks" fillSection (Entries.put "version" (.str v.tag) ms)) := by
  cases v with
  | v1 => exact absurd rfl hv
  | v20 | v21 => rfl

/-- Tidying a versioned document writes the tag of its format. -/
theorem version_tidyMembers {v : FormatVersion} (hv : v ≠ .v1) (ms : Entries Json) :
    Entries.get? "version" (tidyMembers v ms) = some (.str v.tag) := by
  have hvolumes : "version" ≠ "volumes" := by decide
  have hnetworks : "version" ≠ "networks" := by decide
  rw [tidyMembers_versioned hv, get?_alter_of_ne hvolumes, get?_alter_of_ne hnetworks,
    Entries.get?_put_self]

/-- There is nothing to tidy in a written composition. -/
theorem tidy_toJson {c : Composition} (h : c.version = "2.1") :
    tidy .v21 c.toJson = .ok c.toJson := by
  have hput : Entries.put "version" (.str "2.1") (written c.fields .empty) =
      written c.fields .empty := by
    simp [written, Composition.fields, optionalMember, Entries.put, h]
  have hsection : ∀ t x, sectionField t = some x → fillSection x = x := by
    intro t x hx
    unfold sectionField at hx
    split at hx
    · contradiction
    · rw [← Option.some.inj hx]
      exact fillSection_sectionToJson t
  have hfilled : ∀ key, key = "networks" ∨ key = "volumes" →
      ∀ m ∈ written c.fields .empty, m.1 = key → fillSection m.2 = m.2 := by
    rintro key hkey m hm rfl
    rcases mem_written_iff.mp hm with hfield | hextra
    · simp only [Composition.fields, List.mem_cons, Prod.mk.injEq, List.not_mem_nil,
        or_false] at hfield
      rcases hfield with ⟨hname, -⟩ | ⟨hname, -⟩ | ⟨-, hx⟩ | ⟨-, hx⟩
      · simp [hname] at hkey
      · simp [hname] at hkey
      · exact hsection _ _ hx.symm
      · exact hsection _ _ hx.symm
    · simp [Table.empty] at hextra
  simp only [tidy, bind_eq_ok_iff, Except.ok.injEq]
  refine ⟨_, expectMapping_eq_ok_iff.mpr c.toJson_eq, ?_⟩
  rw [c.toJson_eq, tidyMembers, FormatVersion.tag, hput,
    alter_eq_self (hfilled "networks" (Or.inl rfl)),
    alter_eq_self (hfilled "volumes" (Or.inr rfl))]

end Document

end ContainerStack
