import ContainerStack.Proofs.Normal.Written
import ContainerStack.Proofs.Trimming

/-!
The fixed points of normalization. A composition whose extra members bear no name
of the model is read back from its written form as itself exactly when it is
coherent and the paths of its env files are read back as themselves. Nothing else
about it matters: whatever is written for a coherent composition, only an env file
path can keep it from being read, and what is read is never a different one. A
composition that is coherent but for blanks around its texts is read back trimmed.
-/

namespace ContainerStack

open Text ContainerStack.Normal

def Build.ExtraUnnamed (b : Build) : Prop :=
  ∀ key ∈ b.extra.keys, key ∉ buildFields

instance (b : Build) : Decidable b.ExtraUnnamed :=
  inferInstanceAs (Decidable (∀ key ∈ b.extra.keys, key ∉ buildFields))

/-- No extra member of the service or of its build bears the name of a field. -/
def Service.ExtraUnnamed (s : Service) : Prop :=
  (∀ key ∈ s.extra.keys, key ∉ serviceFields) ∧ ∀ b ∈ s.build, b.ExtraUnnamed

instance (s : Service) : Decidable s.ExtraUnnamed :=
  inferInstanceAs (Decidable (_ ∧ ∀ b ∈ s.build, b.ExtraUnnamed))

def Resource.ExtraUnnamed (r : Resource) : Prop :=
  ∀ key ∈ r.extra.keys, key ∉ resourceFields

instance (r : Resource) : Decidable r.ExtraUnnamed :=
  inferInstanceAs (Decidable (∀ key ∈ r.extra.keys, key ∉ resourceFields))

def Composition.ExtraUnnamed (c : Composition) : Prop :=
  (∀ s ∈ c.services.values, s.ExtraUnnamed) ∧ (∀ r ∈ c.networks.values, r.ExtraUnnamed) ∧
    ∀ r ∈ c.volumes.values, r.ExtraUnnamed

instance (c : Composition) : Decidable c.ExtraUnnamed :=
  inferInstanceAs (Decidable (_ ∧ _))

namespace Normal

theorem buildOf_written {b : Build} (hextra : b.ExtraUnnamed) :
    BuildOf (written b.fields b.extra) b.trimmed := by
  have hget : ∀ key o, (key, o) ∈ b.fields →
      Entries.get? key (written b.fields b.extra) = o :=
    fun key o => get?_fields b.names_fields (by decide) hextra
  refine ⟨⟨some b.context, ?_, rfl⟩, ?_, ?_, ?_, ?_⟩
  · rw [hget "context" (some (.str b.context)) (by simp [Build.fields])]
    rfl
  · rw [hget "dockerfile" (b.dockerfile.map .str) (by simp [Build.fields])]
    exact optionalText_toJson _ _
  · exact readField_tableField (hget _ _ (by simp [Build.fields]))
  · exact readField_tableField (hget _ _ (by simp [Build.fields]))
  · exact (extraMembers_written b.names_fields hextra).symm

theorem build_toJson (name : String) {b : Build} (hextra : b.ExtraUnnamed)
    (h : b.trimmed.Coherent) : build name b.toJson = .ok b.trimmed :=
  build_eq_ok_iff.mpr
    ⟨Or.inr ⟨_, b.toJson_eq, buildOf_written hextra⟩, h.labels_named⟩

theorem envPath_eq_ok_iff {raw : String} {p : EnvPath} :
    envPath raw = .ok p ↔ EnvPath.parse raw = .ok p := by
  unfold envPath
  split
  · rename_i h
    simp [h]
  · rename_i h
    simp [h, reject]

/-- Written env files are read back when every path is. -/
theorem envFiles_written {paths : List EnvPath} (hnodup : (paths.map EnvPath.text).Nodup)
    (hstable : ∀ p ∈ paths, p.Stable) :
    envFiles (textsToJson (paths.map EnvPath.text)) = .ok paths := by
  simp only [envFiles, bind_eq_ok_iff, Except.ok.injEq]
  refine ⟨_, textOrTexts_textsToJson _ _, paths, ?_, ?_⟩
  · exact mapM_map_eq_ok fun p hp => envPath_eq_ok_iff.mpr (hstable p hp)
  · exact EnvPath.distinct_of_nodup (List.Nodup.of_map _ hnodup)

/-- If written env files are read at all, every path is read as itself. -/
theorem stable_of_envFiles {paths found : List EnvPath}
    (h : envFiles (textsToJson (paths.map EnvPath.text)) = .ok found) :
    ∀ p ∈ paths, p.Stable := by
  simp only [envFiles, bind_eq_ok_iff, textOrTexts_textsToJson, Except.ok.injEq] at h
  obtain ⟨_, rfl, parsed, hparsed, -⟩ := h
  intro p hp
  rw [mapM_eq_ok_iff, List.forall₂_map_left_iff] at hparsed
  obtain ⟨q, -, hq⟩ := exists_mem_right_of_forall₂ hparsed p hp
  have hparse := envPath_eq_ok_iff.mp hq
  rw [EnvPath.Stable, hparse, EnvPath.eq_of_parse_text hparse]

theorem dependencies_textsToJson (name : String) (ts : List String) :
    dependencies name (textsToJson ts) = .ok ts :=
  texts_textsToJson _ ts

theorem attachments_toJson (name : String) (a : Attachments) :
    attachments name a.toJson = .ok a := by
  cases a with
  | list names => exact map_eq_ok_iff.mpr ⟨names, texts_textsToJson _ names, rfl⟩
  | table options =>
    simp only [Attachments.toJson, attachments, Table.ofEntries_entries]

theorem serviceOf_written {declared : Declarations} {name : String} {s : Service}
    (hextra : s.ExtraUnnamed) (h : s.trimmed.Coherent declared.services declared.volumes)
    (hstable : ∀ paths, s.envFiles = some paths → ∀ p ∈ paths, p.Stable) :
    ServiceOf declared name (written s.fields s.extra) s.trimmed := by
  have hget : ∀ key o, (key, o) ∈ s.fields → Entries.get? key (written s.fields s.extra) = o :=
    fun key o => get?_fields s.names_fields (by decide) hextra.1
  refine {
    image := ?_, build := ?_, environment := ?_, envFiles := ?_, dependsOn := ?_, labels := ?_,
    ports := ?_, volumes := ?_, extraHosts := ?_, networks := ?_, extra := ?_
    dependsOn_nodup := h.dependsOn_nodup
    dependsOn_declared := h.dependsOn_declared
    labels_named := h.labels_named
    volumes_named := h.volumes_named
    hasSource := h.hasSource }
  · rw [hget "image" (s.image.map .str) (by simp [Service.fields])]
    exact optionalText_toJson _ _
  · exact readOption_map (hget _ _ (by simp [Service.fields])) (by simp [Build.toJson])
      fun b hb => build_toJson name (hextra.2 b hb)
        (h.build b.trimmed (by simp [Service.trimmed, hb]))
  · exact readField_tableField (hget _ _ (by simp [Service.fields]))
  · exact readOption_map_self (hget _ _ (by simp [Service.fields, Service.trimmed]))
      (by simp [textsToJson])
      fun paths hpaths => envFiles_written (h.envFiles_nodup paths hpaths) (hstable paths hpaths)
  · exact readField_listField (hget _ _ (by simp [Service.fields, Service.trimmed]))
      (dependencies_textsToJson name _)
  · exact readField_tableField (hget _ _ (by simp [Service.fields]))
  · exact readField_listField (hget _ _ (by simp [Service.fields, Service.trimmed]))
      (ports_textsToJson _)
  · exact readField_listField (hget _ _ (by simp [Service.fields, Service.trimmed]))
      (texts_textsToJson _ _)
  · exact readField_listField (hget _ _ (by simp [Service.fields, Service.trimmed]))
      (hosts_textsToJson _)
  · exact readOption_map_self (hget _ _ (by simp [Service.fields, Service.trimmed]))
      (fun a => by cases a <;> simp [Attachments.toJson, textsToJson])
      fun a _ => attachments_toJson name a
  · exact (extraMembers_written s.names_fields hextra.1).symm

/-- If a written service is read at all, the paths of its env files are read as
themselves. -/
theorem stable_of_service {declared : Declarations} {name : String} {s found : Service}
    (hextra : s.ExtraUnnamed) (h : service declared name s.toJson = .ok found) :
    ∀ paths, s.envFiles = some paths → ∀ p ∈ paths, p.Stable := by
  intro paths hpaths
  rw [s.toJson_eq] at h
  obtain ⟨ms, hms, hof⟩ := service_eq_ok_iff.mp h
  simp only [entityMembers, Except.ok.injEq] at hms
  subst hms
  have hget : Entries.get? "env_file" (written s.fields s.extra) =
      some (textsToJson (paths.map EnvPath.text)) :=
    get?_fields s.names_fields (by decide) hextra.1
      (by simp [Service.fields, hpaths])
  have hfield := field?_eq_some_iff.mpr ⟨hget, by simp [textsToJson]⟩
  rcases readOption_eq_ok_iff.mp hof.envFiles with ⟨hnone, -⟩ | ⟨x, hx, paths', hread, -⟩
  · rw [hfield] at hnone
    contradiction
  · rw [hfield, Option.some.injEq] at hx
    subst hx
    exact stable_of_envFiles hread

theorem resourceOf_written {r : Resource} (hextra : r.ExtraUnnamed) (h : r.trimmed.Coherent) :
    ResourceOf (written r.fields r.extra) r.trimmed := by
  have hget : ∀ key o, (key, o) ∈ r.fields → Entries.get? key (written r.fields r.extra) = o :=
    fun key o => get?_fields r.names_fields (by decide) hextra
  refine ⟨?_, ?_, ?_, ?_, h.labels_named⟩
  · rw [hget "driver" (r.driver.map .str) (by simp [Resource.fields])]
    exact optionalText_toJson _ _
  · exact readField_tableField (hget _ _ (by simp [Resource.fields]))
  · exact (hget "external" r.external (by simp [Resource.fields])).symm
  · exact (extraMembers_written r.names_fields hextra).symm

theorem service_toJson {declared : Declarations} {name : String} {s : Service}
    (hextra : s.ExtraUnnamed) (h : s.trimmed.Coherent declared.services declared.volumes)
    (hstable : ∀ paths, s.envFiles = some paths → ∀ p ∈ paths, p.Stable) :
    service declared name s.toJson = .ok s.trimmed :=
  service_eq_ok_iff.mpr
    ⟨_, by rw [s.toJson_eq, entityMembers], serviceOf_written hextra h hstable⟩

theorem resource_toJson (kind : EntityKind) (name : String) {r : Resource}
    (hextra : r.ExtraUnnamed) (h : r.trimmed.Coherent) :
    resource kind name r.toJson = .ok r.trimmed :=
  resource_eq_ok_iff.mpr ⟨_, by rw [r.toJson_eq, entityMembers], resourceOf_written hextra h⟩

/-- Entities that are read back one by one make up the same section. -/
theorem entities_written {α : Type} {read : String → Json → Outcome α} {write : α → Json}
    {f : α → α} {t : Table α} (h : ∀ e ∈ t.entries, read e.1 (write e.2) = .ok (f e.2)) :
    entities read (t.entries.map fun e => (e.1, write e.2)) = .ok (t.map f) := by
  refine entities_eq_ok_iff.mpr ⟨(t.map f).entries, ?_, Table.ofEntries_entries _⟩
  rw [Entries.traverse_eq_ok_iff, Table.map, List.forall₂_map_left_iff, List.forall₂_map_right_iff,
    List.forall₂_same]
  exact fun e he => ⟨rfl, h e he⟩

theorem sectionMembers_services (c : Composition) :
    sectionMembers "services" (written c.fields .empty) =
      .ok (c.services.entries.map fun e => (e.1, Service.toJson e.2)) := by
  have hget : Entries.get? "services" (written c.fields .empty) =
      some (sectionToJson Service.toJson c.services) :=
    Composition.get?_fields (by simp [Composition.fields])
  rw [sectionMembers, hget]
  rfl

theorem sectionMembers_sectionField {key : String} {ms : Entries Json} {t : Table Resource}
    (hget : Entries.get? key ms = sectionField t) :
    sectionMembers key ms = .ok (t.entries.map fun e => (e.1, Resource.toJson e.2)) := by
  unfold sectionField at hget
  split at hget
  · rename_i hempty
    simp [sectionMembers, hget, Table.entries_eq_nil_of_isEmpty hempty, Table.empty]
  · simp only [sectionMembers, hget, sectionToJson]

/-- What is written is read back trimmed, if that is coherent and the paths of env files
are read as themselves. -/
theorem document_toJson_trimmed {c : Composition} (hextra : c.ExtraUnnamed)
    (h : c.trimmed.Coherent) (hstable : ∀ p, c.EnvFile p → p.Stable) :
    document c.toJson = .ok c.trimmed := by
  obtain ⟨hservice, hnetwork, hvolume⟩ := hextra
  have hversion : c.version = FormatVersion.canonical.tag := h.version
  refine document_eq_ok_iff.mpr ⟨_, c.toJson_eq, ?_, hversion, ?_, ?_, h.acyclic⟩
  · rw [← hversion]
    exact Composition.get?_fields (by simp [Composition.fields])
  · intro key hkey
    obtain ⟨m, hm, rfl⟩ := List.mem_map.mp hkey
    rcases mem_written_iff.mp hm with hfield | hextra
    · exact List.mem_map_of_mem (f := Prod.fst) hfield
    · simp [Table.empty] at hextra
  · refine ⟨_, _, _, sectionMembers_services c,
      sectionMembers_sectionField (Composition.get?_fields (by simp [Composition.fields])),
      sectionMembers_sectionField (Composition.get?_fields (by simp [Composition.fields])),
      entities_written ?_, entities_written ?_, entities_written ?_⟩
    · exact fun e he => resource_toJson _ _ (hnetwork _ (Table.mem_values_iff.mpr ⟨_, he⟩))
        (h.networks _ (Table.mem_values_map he))
    · exact fun e he => resource_toJson _ _ (hvolume _ (Table.mem_values_iff.mpr ⟨_, he⟩))
        (h.volumes _ (Table.mem_values_map he))
    · intro e he
      have hmem : e.2 ∈ c.services.values := Table.mem_values_iff.mpr ⟨_, he⟩
      have hcoherent := h.services _ (Table.mem_values_map he)
      rw [Composition.trimmed, Table.keys_map, Table.keys_map] at hcoherent
      rw [Entries.keys_map, Entries.keys_map]
      exact service_toJson (hservice _ hmem) hcoherent
        fun paths hpaths p hp => hstable p ⟨e.2, hmem, paths, hpaths, hp⟩

/-- A coherent composition is read back from its written form if the paths of its
env files are. -/
theorem document_toJson {c : Composition} (hextra : c.ExtraUnnamed) (h : c.Coherent)
    (hstable : ∀ p, c.EnvFile p → p.Stable) : document c.toJson = .ok c := by
  have hread := document_toJson_trimmed hextra (h.trimmed_eq.symm ▸ h) hstable
  rwa [h.trimmed_eq] at hread

/-- If the written form is read at all, every path of an env file is read as itself. -/
theorem stable_of_document {c found : Composition} (hextra : c.ExtraUnnamed)
    (h : document c.toJson = .ok found) : ∀ p, c.EnvFile p → p.Stable := by
  rintro p ⟨s, hs, paths, hpaths, hp⟩
  obtain ⟨ms, hms, hof⟩ := document_eq_ok_iff.mp h
  rw [c.toJson_eq, Json.obj.injEq] at hms
  subst hms
  obtain ⟨services, _, _, hsection, -, -, -, -, hread⟩ := hof.sections
  rw [sectionMembers_services, Except.ok.injEq] at hsection
  subst hsection
  obtain ⟨found, hfound, -⟩ := entities_eq_ok_iff.mp hread
  rw [Entries.traverse_eq_ok_iff, List.forall₂_map_left_iff] at hfound
  obtain ⟨name, hmem⟩ := Table.mem_values_iff.mp hs
  obtain ⟨_, -, -, hservice⟩ := exists_mem_right_of_forall₂ hfound _ hmem
  exact stable_of_service (hextra.1 s hs) hservice paths hpaths p hp

end Normal

/-- A composition is a fixed point of reading its written form exactly when it is
coherent and the path of each env file is read as itself. -/
theorem document_toJson_eq_ok_iff {c : Composition} (hextra : c.ExtraUnnamed) :
    Normal.document c.toJson = .ok c ↔ c.Coherent ∧ ∀ p, c.EnvFile p → p.Stable := by
  constructor
  · intro h
    obtain ⟨ms, -, hof⟩ := document_eq_ok_iff.mp h
    exact ⟨coherent_of_documentOf hof, stable_of_document hextra h⟩
  · intro hparts
    obtain ⟨hcoherent, hstable⟩ := hparts
    exact document_toJson hextra hcoherent hstable

/-- A service with a listed env file and an extra member, one with an empty list
of env files, and networks in both forms. -/
def sampleComposition : Composition where
  version := "2.1"
  services := .ofEntries [
    ("web", {
      build := some { context := "site", args := .ofEntries [("MODE", "a b")] }
      envFiles := some [shopFile]
      dependsOn := ["db"]
      networks := some (.table .empty)
      extra := .ofEntries [("restart", .str "always")] }),
    ("db", {
      image := some "store"
      envFiles := some []
      labels := .ofEntries [("org.tier-1", "")]
      volumes := ["data:/var/data"]
      networks := some (.list []) })]
  networks := .ofEntries [("front", { external := some .null })]
  volumes := .ofEntries [("data", { driver := some "local" })]

theorem sampleComposition_fixed :
    sampleComposition.ExtraUnnamed ∧
      Normal.document sampleComposition.toJson = .ok sampleComposition ∧
      sampleComposition.Coherent ∧ ∀ p, sampleComposition.EnvFile p → p.Stable := by
  have hextra : sampleComposition.ExtraUnnamed := by decide +kernel
  have hread : Normal.document sampleComposition.toJson = .ok sampleComposition := by
    refine document_eq_ok_iff.mpr ⟨_, rfl, rfl, rfl, by decide +kernel,
      ⟨_, _, _, rfl, rfl, rfl, by decide +kernel, by decide +kernel, by decide +kernel⟩, ?_⟩
    exact (Composition.exists_startupOrder_iff _).mp ⟨["db", "web"], by cbv⟩
  exact ⟨hextra, hread, (document_toJson_eq_ok_iff hextra).mp hread⟩

end ContainerStack
