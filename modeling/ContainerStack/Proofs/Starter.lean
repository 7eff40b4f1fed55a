import ContainerStack.Proofs.Outline
import ContainerStack.Proofs.Startup.Built
import ContainerStack.Starter

/-!
The composition for projects that have none can be used at once. Whatever image and
dockerfile it is made for, it is coherent and its written form passes the schema, so
normalization returns it unchanged. Its one service starts alone, and the image of that
is pulled where one is given and built otherwise.
-/

namespace ContainerStack

namespace Composition

variable {c : Composition}

/-- Services that depend on nothing form no cycle. -/
theorem acyclic_of_independent (h : ∀ s ∈ c.services.values, s.dependsOn = []) : c.Acyclic := by
  intro name hcycle
  obtain ⟨next, hstep, -⟩ := Relation.TransGen.head'_iff.mp hcycle
  obtain ⟨e, he, -, hdependency⟩ := hstep
  rw [h e.2 (Table.mem_values_iff.mpr ⟨e.1, he⟩)] at hdependency
  contradiction

theorem startupOrder_of_keys_eq_singleton {name : String} (hkeys : c.services.keys = [name])
    (hacyclic : c.Acyclic) : c.startupOrder = .ok [name] := by
  obtain ⟨names, hnames⟩ := c.exists_startupOrder_iff.mpr hacyclic
  have hperm := perm_of_startupOrder hnames
  rw [hkeys, List.perm_singleton] at hperm
  rw [hnames, hperm]

end Composition

namespace Starter

variable (image dockerfile : Option String)

theorem services_keys : (composition image dockerfile).services.keys = [serviceName] :=
  rfl

theorem services_values :
    (composition image dockerfile).services.values = [service image dockerfile] :=
  rfl

theorem volumes_keys : (composition image dockerfile).volumes.keys = [dataVolume] :=
  rfl

theorem volumes_values : (composition image dockerfile).volumes.values = [{}] :=
  rfl

theorem extra_keys : (service image dockerfile).extra.keys = ["restart"] :=
  rfl

/-- A build has a context and perhaps a dockerfile, and nothing else. -/
theorem eq_of_build {b : Build} (h : (service image dockerfile).build = some b) :
    b = { context := ".", dockerfile } := by
  cases image with
  | none => exact (Option.some.inj h).symm
  | some reference => contradiction

section Coherence

theorem mount_named : Normal.NamedMount [dataVolume] (dataVolume ++ ":" ++ dataMount) := by
  refine ⟨dataVolume.toList, dataMount.toList, ?_⟩
  decide +kernel

theorem coherent_service :
    (service image dockerfile).Coherent [serviceName] [dataVolume] where
  hasSource := by cases image <;> simp [service]
  build := by
    intro b hb
    rw [eq_of_build image dockerfile hb]
    exact ⟨by simp, by simp, by simp⟩
  environment_trimmed := by simp [service]
  envFiles_nodup := by simp [service]
  dependsOn_nodup := List.nodup_nil
  dependsOn_declared := by simp [service]
  labels_trimmed := by simp [service]
  labels_named := by simp [service]
  volumes_named := List.forall_mem_singleton.mpr mount_named

theorem acyclic : (composition image dockerfile).Acyclic := by
  refine Composition.acyclic_of_independent ?_
  rw [services_values, List.forall_mem_singleton]
  rfl

theorem coherent : (composition image dockerfile).Coherent where
  version := rfl
  services := by
    rw [services_values, services_keys, volumes_keys, List.forall_mem_singleton]
    exact coherent_service image dockerfile
  networks := by simp [composition]
  volumes := by
    rw [volumes_values, List.forall_mem_singleton]
    exact ⟨by simp, by simp⟩
  acyclic := acyclic image dockerfile

theorem extraUnnamed : (composition image dockerfile).ExtraUnnamed := by
  refine ⟨?_, by simp [composition], ?_⟩
  · rw [services_values, List.forall_mem_singleton, Service.ExtraUnnamed, extra_keys,
      List.forall_mem_singleton]
    refine ⟨by decide, fun b hb => ?_⟩
    rw [eq_of_build image dockerfile hb]
    simp [Build.ExtraUnnamed]
  · rw [volumes_values, List.forall_mem_singleton]
    decide

/-- No env files are listed, so none can keep the composition from being read. -/
theorem document_toJson :
    Normal.document (composition image dockerfile).toJson = .ok (composition image dockerfile) := by
  refine Normal.document_toJson (extraUnnamed image dockerfile) (coherent image dockerfile) ?_
  rintro p ⟨s, hs, paths, hpaths, -⟩
  rw [services_values, List.mem_singleton] at hs
  rw [hs] at hpaths
  contradiction

end Coherence

section Validity

open Schema

theorem valid_build : Schema.build.Valid ({ context := ".", dockerfile } : Build).toJson := by
  rw [Build.toJson_eq, valid_build_obj_iff, membersValid_written_iff]
  refine ⟨?_, membersValid_empty _⟩
  simp only [Build.fields, List.forall_mem_cons, List.not_mem_nil, false_imp_iff, implies_true,
    and_true]
  exact ⟨fieldValid_text (some ".") rfl, fieldValid_text dockerfile rfl, fieldValid_none _ _,
    fieldValid_none _ _⟩

theorem valid_service : Schema.service.Valid (service image dockerfile).toJson := by
  have hbuild : FieldValid (serviceMembers ++ laterServiceMembers)
      ("build", (service image dockerfile).build.map Build.toJson) := by
    rw [fieldValid_iff rfl]
    intro x hx
    obtain ⟨b, hb, rfl⟩ := Option.map_eq_some_iff.mp hx
    rw [eq_of_build image dockerfile hb]
    exact valid_build dockerfile
  have hvolumes : FieldValid (serviceMembers ++ laterServiceMembers)
      ("volumes", listField (service image dockerfile).volumes) :=
    (fieldValid_list_iff rfl ((valid_distinctTexts_texts []).mpr List.nodup_nil) _).mpr
      ((valid_distinctTexts_texts _).mpr (List.nodup_singleton _))
  have hextra : MembersValid (serviceMembers ++ laterServiceMembers)
      (service image dockerfile).extra.entries :=
    List.forall_mem_singleton.mpr ⟨Schema.text, rfl, valid_text_iff.mpr ⟨"always", rfl⟩⟩
  rw [Service.toJson_eq, Schema.service, valid_closedRecord_obj_iff, membersValid_written_iff]
  refine ⟨?_, hextra⟩
  simp only [Service.fields, List.forall_mem_cons, List.not_mem_nil, false_imp_iff, implies_true,
    and_true]
  exact ⟨fieldValid_text image rfl, hbuild, fieldValid_none _ _, fieldValid_none _ _,
    fieldValid_none _ _, fieldValid_none _ _, fieldValid_none _ _, hvolumes,
    fieldValid_none _ _, fieldValid_none _ _⟩

theorem valid_volume : Schema.volume.Valid ({} : Resource).toJson := by
  rw [Resource.toJson_eq, Schema.volume, valid_closedRecord_obj_iff, membersValid_written_iff]
  refine ⟨?_, membersValid_empty _⟩
  simp only [Resource.fields, List.forall_mem_cons, List.not_mem_nil, false_imp_iff, implies_true,
    and_true]
  exact ⟨fieldValid_none _ _, fieldValid_none _ _, fieldValid_none _ _⟩

theorem valid_toJson :
    (Schema.ofVersion .v21).Valid (composition image dockerfile).toJson := by
  have hname : KeyPattern.entityName.holds serviceName = true := by decide +kernel
  have hdata : KeyPattern.entityName.holds dataVolume = true := by decide +kernel
  have hservices : (sectionOf Schema.service true).Valid
      (sectionToJson Service.toJson (composition image dockerfile).services) :=
    valid_sectionOf_obj_iff.mpr (List.forall_mem_singleton.mpr
      ⟨fun _ => valid_service image dockerfile, fun _ => hname⟩)
  have hvolumes : (sectionOf Schema.volume true).Valid
      (sectionToJson Resource.toJson (composition image dockerfile).volumes) :=
    valid_sectionOf_obj_iff.mpr (List.forall_mem_singleton.mpr
      ⟨fun _ => valid_volume, fun _ => hdata⟩)
  refine (valid_composition_iff rfl).mpr ⟨hservices, fieldValid_none _ _, ?_⟩
  rw [fieldValid_iff rfl]
  intro x hx
  exact Option.some.inj hx ▸ hvolumes

end Validity

/-- The image is pulled where one is given, and else built in the project directory. -/
def source : ImageSource :=
  match image with
  | some reference => .pull reference
  | none => .build { context := ".", dockerfile }

theorem images_eq :
    (composition image dockerfile).images = .ok [⟨serviceName, source image dockerfile⟩] := by
  refine (Composition.images_eq_ok_iff rfl).mpr (.cons ⟨rfl, ?_⟩ .nil)
  cases image <;> rfl

/-- The composition is rendered behind a line that names the tool. Its written form is
normalized to itself, its only service starts, and there is one image for that. -/
theorem starter_usable (settings : Settings) :
    text image dockerfile settings = "# Generated by " ++ settings.banner ++ "\n" ++
        Yaml.print (composition image dockerfile).toJson ∧
      normalize .schema (composition image dockerfile).toJson =
        .ok (composition image dockerfile) ∧
      (composition image dockerfile).services.keys = [serviceName] ∧
      (composition image dockerfile).startupOrder = .ok [serviceName] ∧
      (composition image dockerfile).images =
        .ok [⟨serviceName, source image dockerfile⟩] := by
  refine ⟨rfl, ?_, services_keys image dockerfile, ?_, images_eq image dockerfile⟩
  · exact (normalize_toJson_eq_ok_iff rfl).mpr
      ⟨valid_toJson image dockerfile, document_toJson image dockerfile⟩
  · exact Composition.startupOrder_of_keys_eq_singleton (services_keys image dockerfile)
      (acyclic image dockerfile)

end Starter

end ContainerStack
