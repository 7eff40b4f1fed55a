import ContainerStack.Normal.Document
import ContainerStack.Proofs.Normal.Entity

/-!
Entities in their written form. What is written for an entity is one member for
each of its fields that is there, in order, and then the extra members; so a field
is found under its name as it was written, the extra members are what is left, and
reading gives the field back, or its texts trimmed.
-/

namespace ContainerStack

open Text ContainerStack.Normal

/-- The members of fields that are there, followed by the extra ones. -/
def written (fields : List (String × Option Json)) (extra : Table Json) : Entries Json :=
  (fields.flatMap fun f => optionalMember f.1 f.2) ++ extra.entries

def listField (ts : List String) : Option Json :=
  if ts.isEmpty then none else some (textsToJson ts)

def tableField (t : KeyValues) : Option Json :=
  if t.isEmpty then none else some t.toJson

theorem listMember_eq (key : String) (ts : List String) :
    listMember key ts = optionalMember key (listField ts) := by
  unfold listMember listField
  split <;> rfl

theorem tableMember_eq (key : String) (t : KeyValues) :
    tableMember key t = optionalMember key (tableField t) := by
  unfold tableMember tableField
  split <;> rfl

theorem mem_optionalMember_iff {key : String} {o : Option Json} {m : String × Json} :
    m ∈ optionalMember key o ↔ m.1 = key ∧ o = some m.2 := by
  cases o with
  | none => simp [optionalMember]
  | some x => simp [optionalMember, Prod.ext_iff, eq_comm (a := m.2)]

theorem mem_written_iff {fields : List (String × Option Json)} {extra : Table Json}
    {m : String × Json} :
    m ∈ written fields extra ↔ (m.1, some m.2) ∈ fields ∨ m ∈ extra.entries := by
  simp only [written, List.mem_append, List.mem_flatMap, mem_optionalMember_iff]
  refine or_congr_left ⟨?_, fun h => ⟨_, h, rfl, rfl⟩⟩
  intro hparts
  obtain ⟨f, hf, hkey, hvalue⟩ := hparts
  rwa [hkey, ← hvalue]

/-- A field is found under its name as it was written. -/
theorem get?_written {fields : List (String × Option Json)} {extra : Table Json} {key : String}
    {o : Option Json} (hfields : (fields.map Prod.fst).Nodup) (hmem : (key, o) ∈ fields)
    (hextra : key ∉ extra.keys) : Entries.get? key (written fields extra) = o := by
  rw [written, Entries.get?_append, Entries.get?_of_notMem hextra, Option.or_none]
  induction fields with
  | nil => simp at hmem
  | cons f rest ih =>
    obtain ⟨hfirst, hrest⟩ := List.nodup_cons.mp hfields
    rw [List.flatMap_cons, Entries.get?_append]
    rcases List.mem_cons.mp hmem with rfl | hmem
    · have hnone : Entries.get? key (rest.flatMap fun f => optionalMember f.1 f.2) = none := by
        refine Entries.get?_of_notMem fun hkey => hfirst ?_
        obtain ⟨m, hm, rfl⟩ := List.mem_map.mp hkey
        obtain ⟨f, hf, hmf⟩ := List.mem_flatMap.mp hm
        exact (mem_optionalMember_iff.mp hmf).1 ▸ List.mem_map_of_mem hf
      rw [hnone, Option.or_none]
      cases o <;> simp [optionalMember, Entries.get?]
    · have hne : f.1 ≠ key := fun heq =>
        hfirst (List.mem_map.mpr ⟨(key, o), hmem, heq.symm⟩)
      have hnone : Entries.get? key (optionalMember f.1 f.2) = none := by
        cases f.2 <;> simp [optionalMember, Entries.get?, hne]
      rw [hnone, Option.none_or]
      exact ih hrest hmem

/-- What the fields leave is the extra members. -/
theorem extraMembers_written {fields : List (String × Option Json)} {extra : Table Json}
    {named : List String} (hfields : fields.map Prod.fst = named)
    (hextra : ∀ key ∈ extra.keys, key ∉ named) :
    extraMembers named (written fields extra) = extra := by
  have hwritten : (fields.flatMap fun f => optionalMember f.1 f.2).filter
      (fun m => m.1 ∉ named) = [] := by
    rw [List.filter_eq_nil_iff]
    intro m hm
    obtain ⟨f, hf, hmf⟩ := List.mem_flatMap.mp hm
    have hnamed : f.1 ∈ named := hfields ▸ List.mem_map_of_mem hf
    simpa [(mem_optionalMember_iff.mp hmf).1] using hnamed
  have hkept : extra.entries.filter (fun m => m.1 ∉ named) = extra.entries := by
    rw [List.filter_eq_self]
    intro m hm
    simpa using hextra m.1 (List.mem_map_of_mem hm)
  rw [extraMembers, written, List.filter_append, hwritten, hkept, List.nil_append,
    Table.ofEntries_entries]

theorem notMem_extraMembers (named : List String) (ms : Entries Json) :
    ∀ key ∈ (extraMembers named ms).keys, key ∉ named := by
  intro key hkey
  obtain ⟨m, hm, rfl⟩ := List.mem_map.mp (Table.mem_keys_ofEntries_iff.mp hkey)
  simpa using (List.mem_filter.mp hm).2

def Build.fields (b : Build) : List (String × Option Json) := [
  ("context", some (.str b.context)),
  ("dockerfile", b.dockerfile.map .str),
  ("args", tableField b.args),
  ("labels", tableField b.labels)]

def Service.fields (s : Service) : List (String × Option Json) := [
  ("image", s.image.map .str),
  ("build", s.build.map Build.toJson),
  ("environment", tableField s.environment),
  ("env_file", s.envFiles.map fun paths => textsToJson (paths.map EnvPath.text)),
  ("depends_on", listField s.dependsOn),
  ("labels", tableField s.labels),
  ("ports", listField s.ports),
  ("volumes", listField s.volumes),
  ("extra_hosts", listField s.extraHosts),
  ("networks", s.networks.map Attachments.toJson)]

def Resource.fields (r : Resource) : List (String × Option Json) := [
  ("driver", r.driver.map .str),
  ("labels", tableField r.labels),
  ("external", r.external)]

theorem Build.names_fields (b : Build) : b.fields.map Prod.fst = buildFields :=
  rfl

theorem Service.names_fields (s : Service) : s.fields.map Prod.fst = serviceFields :=
  rfl

theorem Resource.names_fields (r : Resource) : r.fields.map Prod.fst = resourceFields :=
  rfl

theorem Build.toJson_eq (b : Build) : b.toJson = .obj (written b.fields b.extra) := by
  simp [Build.toJson, written, Build.fields, tableMember_eq, optionalMember]

theorem Service.toJson_eq (s : Service) : s.toJson = .obj (written s.fields s.extra) := by
  simp [Service.toJson, written, Service.fields, tableMember_eq, listMember_eq]

theorem Resource.toJson_eq (r : Resource) : r.toJson = .obj (written r.fields r.extra) := by
  simp [Resource.toJson, written, Resource.fields, tableMember_eq]

def sectionField (t : Table Resource) : Option Json :=
  if t.isEmpty then none else some (sectionToJson Resource.toJson t)

def Composition.fields (c : Composition) : List (String × Option Json) := [
  ("version", some (.str c.version)),
  ("services", some (sectionToJson Service.toJson c.services)),
  ("networks", sectionField c.networks),
  ("volumes", sectionField c.volumes)]

theorem Composition.names_fields (c : Composition) : c.fields.map Prod.fst = topLevelFields :=
  rfl

theorem Composition.toJson_eq (c : Composition) : c.toJson = .obj (written c.fields .empty) := by
  have hsection : ∀ key t, sectionMember key t = optionalMember key (sectionField t) := by
    intro key t
    unfold sectionMember sectionField
    split <;> rfl
  simp [Composition.toJson, written, Composition.fields, hsection, optionalMember, Table.empty]

/-- A field of an entity is found where it was written. -/
theorem get?_fields {fields : List (String × Option Json)} {extra : Table Json}
    {named : List String} {key : String} {o : Option Json}
    (hfields : fields.map Prod.fst = named) (hnamed : named.Nodup)
    (hextra : ∀ key ∈ extra.keys, key ∉ named) (hmem : (key, o) ∈ fields) :
    Entries.get? key (written fields extra) = o :=
  get?_written (hfields ▸ hnamed) hmem fun hkey =>
    hextra key hkey (hfields ▸ List.mem_map_of_mem hmem)

theorem Composition.get?_fields {c : Composition} {key : String} {o : Option Json}
    (hmem : (key, o) ∈ c.fields) : Entries.get? key (written c.fields .empty) = o :=
  ContainerStack.get?_fields c.names_fields (by decide)
    (by simp [Table.keys, Table.empty, Entries.keys]) hmem

namespace Normal

theorem readField_tableField {key field : String} {ms : Entries Json} {t : KeyValues}
    (hget : Entries.get? key ms = tableField t) :
    readField key ms .empty (assignments field) = .ok (t.map trim) := by
  unfold tableField at hget
  split at hget
  · rename_i hempty
    rw [Table.entries_eq_nil_of_isEmpty hempty]
    simp only [readField, field?, hget]
    rfl
  · simp only [readField, field?, hget]
    exact assignments_toJson field t

theorem readField_listField {key : String} {ms : Entries Json} {ts : List String}
    {read : Json → Outcome (List String)} (hget : Entries.get? key ms = listField ts)
    (hread : read (textsToJson ts) = .ok ts) : readField key ms [] read = .ok ts := by
  unfold listField at hget
  split at hget
  · rename_i hempty
    simp [readField, field?, hget, List.isEmpty_iff.mp hempty]
  · simp only [readField, field?, hget]
    exact hread

theorem readOption_map {α β : Type} {key : String} {ms : Entries Json} {write : α → Json}
    {f : α → β} {o : Option α} {read : Json → Outcome β} (hget : Entries.get? key ms = o.map write)
    (hnull : ∀ a, write a ≠ .null) (hread : ∀ a, o = some a → read (write a) = .ok (f a)) :
    readOption key ms read = .ok (o.map f) := by
  cases o with
  | none =>
    rw [Option.map_none] at hget
    exact readOption_eq_ok_iff.mpr (Or.inl ⟨by simp [field?, hget], rfl⟩)
  | some a =>
    rw [Option.map_some] at hget
    exact readOption_eq_ok_iff.mpr
      (Or.inr ⟨write a, field?_eq_some_iff.mpr ⟨hget, hnull a⟩, f a, hread a rfl, rfl⟩)

theorem readOption_map_self {α : Type} {key : String} {ms : Entries Json} {write : α → Json}
    {o : Option α} {read : Json → Outcome α} (hget : Entries.get? key ms = o.map write)
    (hnull : ∀ a, write a ≠ .null) (hread : ∀ a, o = some a → read (write a) = .ok a) :
    readOption key ms read = .ok o := by
  have hmap := readOption_map (f := id) hget hnull hread
  rwa [Option.map_id, id] at hmap

end Normal

end ContainerStack
