import ContainerStack.Normal.Document
import ContainerStack.Proofs.Document.Upgrade
import ContainerStack.Proofs.Normal.Entity
import ContainerStack.Proofs.Startup.Composition

/-!
What a whole document must hold to be read: the canonical version, no members but
its own, sections that are mappings, entities that are read one by one, and
dependencies without cycles.
-/

namespace ContainerStack

namespace Normal

theorem entities_eq_ok_iff {α : Type} {read : String → Json → Outcome α} {es : Entries Json}
    {t : Table α} :
    entities read es = .ok t ↔
      ∃ bs, Entries.traverse read es = .ok bs ∧ Table.ofEntries bs = t :=
  map_eq_ok_iff

/-- A section keeps the names of its entries, and each entity was read from one. -/
theorem mem_of_entities {α : Type} {read : String → Json → Outcome α} {es : Entries Json}
    {t : Table α} (h : entities read es = .ok t) :
    (∀ key, key ∈ t.keys ↔ key ∈ Entries.keys es) ∧
      ∀ e ∈ t.entries, ∃ m ∈ es, e.1 = m.1 ∧ read m.1 m.2 = .ok e.2 := by
  obtain ⟨bs, hbs, rfl⟩ := entities_eq_ok_iff.mp h
  refine ⟨fun key => ?_, fun e he => ?_⟩
  · rw [Table.mem_keys_ofEntries_iff, Entries.keys_traverse hbs]
  · exact exists_mem_left_of_forall₂ (Entries.traverse_eq_ok_iff.mp hbs) e
      (Table.mem_of_mem_ofEntries he)

/-- What holds of all that is read from single entities holds in the section. -/
theorem forall_of_entities {α : Type} {read : String → Json → Outcome α} {es : Entries Json}
    {t : Table α} {P : α → Prop} (hread : entities read es = .ok t)
    (h : ∀ name x a, read name x = .ok a → P a) : ∀ a ∈ t.values, P a := by
  intro a ha
  obtain ⟨name, hmem⟩ := Table.mem_values_iff.mp ha
  obtain ⟨m, -, -, hm⟩ := (mem_of_entities hread).2 _ hmem
  exact h _ _ _ hm

/-- The members describe the composition: its sections are read in turn and its
dependencies are acyclic. -/
structure DocumentOf (ms : Entries Json) (c : Composition) : Prop where
  version : Entries.get? "version" ms = some (.str FormatVersion.canonical.tag)
  version_eq : c.version = FormatVersion.canonical.tag
  keys : ∀ key ∈ Entries.keys ms, key ∈ topLevelFields
  sections : ∃ services networks volumes,
    sectionMembers "services" ms = .ok services ∧ sectionMembers "networks" ms = .ok networks ∧
      sectionMembers "volumes" ms = .ok volumes ∧
      entities (resource .network) networks = .ok c.networks ∧
      entities (resource .volume) volumes = .ok c.volumes ∧
      entities (service ⟨Entries.keys services, Entries.keys volumes⟩) services = .ok c.services
  acyclic : c.Acyclic

theorem checkVersion_eq_ok_iff {ms : Entries Json} :
    checkVersion ms = .ok () ↔
      Entries.get? "version" ms = some (.str FormatVersion.canonical.tag) := by
  unfold checkVersion
  split
  · rename_i h
    simp [h]
  · rename_i h
    simp [h]

theorem checkKeys_eq_ok_iff {ms : Entries Json} :
    checkKeys ms = .ok () ↔ ∀ key ∈ Entries.keys ms, key ∈ topLevelFields := by
  unfold checkKeys
  split
  · rename_i key hfind
    have hkey := List.find?_some hfind
    have hmem := List.mem_of_find?_eq_some hfind
    simp only [reject, reduceCtorEq, false_iff, not_forall]
    exact ⟨key, hmem, by simpa using hkey⟩
  · rename_i hfind
    simpa using List.find?_eq_none.mp hfind

theorem document_eq_ok_iff {doc : Json} {c : Composition} :
    document doc = .ok c ↔ ∃ ms, doc = .obj ms ∧ DocumentOf ms c := by
  simp only [document, bind_eq_ok_iff]
  constructor
  · rintro ⟨ms, hms, _, hversion, _, hkeys, services, hservices, networks, hnetworks, volumes,
      hvolumes, networkTable, hnetworkTable, volumeTable, hvolumeTable, serviceTable,
      hserviceTable, names, hnames, hc⟩
    simp only [Except.ok.injEq] at hc
    subst hc
    refine ⟨ms, Document.expectMapping_eq_ok_iff.mp hms, checkVersion_eq_ok_iff.mp hversion, rfl,
      checkKeys_eq_ok_iff.mp hkeys, ⟨services, networks, volumes, hservices, hnetworks, hvolumes,
        hnetworkTable, hvolumeTable, hserviceTable⟩, ?_⟩
    exact (Composition.exists_startupOrder_iff _).mp ⟨names, hnames⟩
  · intro hparts
    obtain ⟨ms, rfl, h⟩ := hparts
    obtain ⟨services, networks, volumes, hservices, hnetworks, hvolumes, hnetworkTable,
      hvolumeTable, hserviceTable⟩ := h.sections
    obtain ⟨names, hnames⟩ := (Composition.exists_startupOrder_iff c).mpr h.acyclic
    refine ⟨ms, rfl, (), checkVersion_eq_ok_iff.mpr h.version, (),
      checkKeys_eq_ok_iff.mpr h.keys, services, hservices, networks, hnetworks, volumes, hvolumes,
      c.networks, hnetworkTable, c.volumes, hvolumeTable, c.services, hserviceTable, names, ?_⟩
    rw [← h.version_eq]
    exact ⟨hnames, rfl⟩

theorem document_obj_eq_ok_iff {ms : Entries Json} {c : Composition} :
    document (.obj ms) = .ok c ↔ DocumentOf ms c := by
  simp [document_eq_ok_iff]

end Normal

end ContainerStack
