import ContainerStack.Proofs.Document.Upgraded
import ContainerStack.Proofs.Errors
import ContainerStack.Proofs.Schema.Written

/-!
What the schemas leave to normalization. The schema of each field admits only values that
the reader of the field can take apart, so a valid service, network or volume fails for
what it means and not for its form, and so does a valid document. There is one gap: the
section of networks ignores entries whose names are outside the pattern, and what stands
under such a name is read without having been checked.
-/

namespace ContainerStack

open StackError (IsSemantic)
open Schema (MembersValid)

namespace Normal

theorem semantic_assignmentsOfMembers (field : String) (done : KeyValues) {ms : Entries Json}
    (h : ∀ m ∈ ms, Schema.scalar.Valid m.2) :
    FailsOnly IsSemantic (assignmentsOfMembers field done ms) := by
  induction ms generalizing done with
  | nil => exact .ok done
  | cons m rest ih =>
    obtain ⟨hfirst, hrest⟩ := List.forall_mem_cons.mp h
    obtain ⟨text, htext⟩ := Schema.valid_scalar_iff.mp hfirst
    simp only [assignmentsOfMembers, htext]
    exact ih _ hrest

theorem semantic_assignmentsOfItems (field : String) (done : KeyValues) (ts : List String) :
    FailsOnly IsSemantic (assignmentsOfItems field done (ts.map .str)) := by
  induction ts generalizing done with
  | nil => exact .ok done
  | cons t rest ih =>
    simp only [List.map_cons, assignmentsOfItems, entryText?, scalarText?]
    split_ifs
    · exact semantic_reject (.missingKey _ _)
    · exact ih _

/-- Of valid assignments only one without a name is refused. -/
theorem semantic_assignments (field : String) {x : Json} (h : Schema.assignments.Valid x) :
    FailsOnly IsSemantic (assignments field x) := by
  rcases Schema.valid_assignments_iff.mp h with ⟨ms, rfl, hms⟩ | ⟨ts, -, rfl⟩
  · exact semantic_assignmentsOfMembers field .empty fun m hm => (hms m hm).2
  · exact semantic_assignmentsOfItems field .empty ts

theorem semantic_hosts {x : Json} (h : Schema.assignments.Valid x) :
    FailsOnly IsSemantic (hosts x) := by
  rcases Schema.valid_assignments_iff.mp h with ⟨ms, rfl, hms⟩ | ⟨ts, -, rfl⟩
  · refine .mapM fun m hm => ?_
    obtain ⟨address, haddress⟩ := Schema.valid_scalar_iff.mp (hms m hm).2
    simp only [hostOfMember, haddress]
    exact .ok _
  · exact .of_eq_ok (hosts_textsToJson ts)

theorem semantic_ports {format : Schema.TextFormat} {x : Json}
    (h : (Schema.portList format).Valid x) : FailsOnly IsSemantic (ports x) := by
  obtain ⟨harray, hitems, -⟩ := by simpa only [Schema.portList, Schema.valid_all_cons] using h
  obtain ⟨xs, rfl⟩ := Schema.valid_array_iff.mp harray
  refine .bind (.ok xs) fun found hfound => .mapM fun item hitem => ?_
  cases hfound
  have hquantity := (Schema.valid_all_cons.mp (Schema.valid_items_iff.mp hitems item hitem)).1
  cases item with
  | str | num => exact .ok _
  | _ => simp [Schema.quantity, Schema.valid_kinds_iff, Schema.Kind.holds] at hquantity

theorem semantic_optionalText {members : Entries Schema} {ms : Entries Json} {key : String}
    (field : String) (hms : MembersValid members ms)
    (heach : Entries.get? key members = some Schema.text) :
    FailsOnly IsSemantic (optionalText field (Entries.get? key ms)) := by
  cases hget : Entries.get? key ms with
  | none => exact .ok _
  | some x =>
    obtain ⟨s, rfl⟩ := Schema.valid_text_iff.mp (hms.valid_of_get? heach hget)
    exact .ok _

theorem semantic_envFiles {x : Json} (h : Schema.textOrTextList.Valid x) :
    FailsOnly IsSemantic (envFiles x) := by
  refine failsOnly_envFiles_of (fun _ => id) ?_
  rcases Schema.valid_oneOf_iff.mp h with ⟨htext, -⟩ | ⟨-, htexts⟩
  · obtain ⟨s, rfl⟩ := Schema.valid_text_iff.mp htext
    exact .ok _
  · obtain ⟨ts, rfl⟩ := Schema.valid_textList_iff.mp htexts
    exact .of_eq_ok (textOrTexts_textsToJson "env_file" ts)

theorem semantic_build (name : String) {x : Json} (h : Schema.build.Valid x) :
    FailsOnly IsSemantic (build name x) := by
  rcases Schema.valid_build_iff.mp h with ⟨context, rfl⟩ | hrecord
  · exact failsOnly_checkedBuild (fun _ => id) name { context }
  · obtain ⟨ms, rfl, hms⟩ := Schema.valid_closedRecord_iff.mp hrecord
    exact BuildFails.build (fun _ => id) {
      context := semantic_optionalText _ hms rfl
      dockerfile := semantic_optionalText _ hms rfl
      args := failsOnly_readField _ fun x hx =>
        semantic_assignments _ (hms.valid_of_get? rfl hx)
      labels := failsOnly_readField _ fun x hx =>
        semantic_assignments _ (hms.valid_of_get? rfl hx) }

theorem semantic_attachments (name : String) {x : Json} (h : Schema.attachments.Valid x) :
    FailsOnly IsSemantic (attachments name x) := by
  rcases Schema.valid_attachments_iff.mp h with ⟨ts, -, rfl⟩ | hnamed
  · exact (FailsOnly.of_eq_ok (texts_textsToJson "networks" ts)).map _
  · obtain ⟨ms, rfl⟩ := Schema.valid_object_iff.mp (Schema.valid_all_cons.mp hnamed).1
    exact .ok _

/-- A valid service has no fault of form. -/
theorem semantic_service (declared : Declarations) (name : String) {x : Json}
    (h : Schema.service.Valid x) : FailsOnly IsSemantic (service declared name x) := by
  obtain ⟨ms, rfl, hms⟩ := Schema.valid_closedRecord_iff.mp h
  refine failsOnly_service_of (fun _ => id) (.ok ms) (fun found hfound => ?_) declared
  cases hfound
  exact {
    image := semantic_optionalText _ hms rfl
    build := failsOnly_readOption fun x hx => semantic_build name (hms.valid_of_get? rfl hx)
    environment := failsOnly_readField _ fun x hx =>
      semantic_assignments _ (hms.valid_of_get? rfl hx)
    envFiles := failsOnly_readOption fun x hx => semantic_envFiles (hms.valid_of_get? rfl hx)
    dependsOn := failsOnly_readField _ fun x hx => by
      obtain ⟨ts, rfl⟩ := Schema.valid_textList_iff.mp (hms.valid_of_get? rfl hx)
      exact .of_eq_ok (texts_textsToJson "depends_on" ts)
    labels := failsOnly_readField _ fun x hx => semantic_assignments _ (hms.valid_of_get? rfl hx)
    ports := failsOnly_readField _ fun x hx => semantic_ports (hms.valid_of_get? rfl hx)
    volumes := failsOnly_readField _ fun x hx => by
      obtain ⟨ts, -, rfl⟩ := Schema.valid_distinctTexts_iff.mp (hms.valid_of_get? rfl hx)
      exact .of_eq_ok (texts_textsToJson "volumes" ts)
    extraHosts := failsOnly_readField _ fun x hx => semantic_hosts (hms.valid_of_get? rfl hx)
    networks := failsOnly_readOption fun x hx =>
      semantic_attachments name (hms.valid_of_get? rfl hx) }

/-- A valid network or volume has no fault of form. -/
theorem semantic_resource {members : Entries Schema} (kind : EntityKind) (name : String)
    {x : Json}
    (hdriver : Entries.get? "driver" members = some Schema.text)
    (hlabels : Entries.get? "labels" members = some Schema.assignments)
    (h : (Schema.closedRecord members).Valid x) : FailsOnly IsSemantic (resource kind name x) := by
  obtain ⟨ms, rfl, hms⟩ := Schema.valid_closedRecord_iff.mp h
  refine failsOnly_resource_of (fun _ => id) (.ok ms) (fun found hfound => ?_)
    (fun found hfound => ?_)
  · cases hfound
    exact semantic_optionalText _ hms hdriver
  · cases hfound
    exact failsOnly_readField _ fun x hx => semantic_assignments _ (hms.valid_of_get? hlabels hx)

end Normal

namespace Schema

theorem keys_of_versionedDocument {tag : String} {s n v : Schema} {ms : Entries Json}
    (h : (versionedDocument tag s n v).Valid (.obj ms)) :
    ∀ key ∈ Entries.keys ms, key ∈ Normal.topLevelFields := by
  obtain ⟨-, hmembers⟩ := valid_versionedDocument_iff.mp h
  intro key hkey
  obtain ⟨m, hm, rfl⟩ := List.mem_map.mp hkey
  obtain ⟨each, heach, -⟩ := hmembers m hm
  have hname : m.1 ∈ Entries.keys (versionedMembers tag s n v) :=
    List.mem_map_of_mem (Entries.mem_of_get? heach)
  exact hname

/-- A document that is valid in its own format has the members of a canonical one. -/
theorem keys_of_upgrade {v : FormatVersion} {doc : Json} {ms : Entries Json}
    (hvalid : (ofVersion v).Valid doc) (hupgrade : Document.upgrade v doc = .ok (.obj ms)) :
    ∀ key ∈ Entries.keys ms, key ∈ Normal.topLevelFields := by
  cases v with
  | v1 =>
    rw [Document.upgrade_legacy, Except.ok.injEq, Json.obj.injEq] at hupgrade
    subst hupgrade
    simp [Entries.keys, Normal.topLevelFields]
  | v20 =>
    obtain ⟨old, rfl, rfl⟩ := Document.retag_eq_ok_iff.mp hupgrade
    have hold := keys_of_versionedDocument hvalid
    intro key hkey
    rw [Entries.keys_put] at hkey
    split_ifs at hkey
    · exact hold key hkey
    · rcases List.mem_append.mp hkey with hmem | hversion
      · exact hold key hmem
      · exact List.mem_singleton.mp hversion ▸ List.mem_cons_self
  | v21 =>
    simp only [Document.upgrade, Except.ok.injEq] at hupgrade
    subst hupgrade
    exact keys_of_versionedDocument hvalid

/-- The sections of a valid document are mappings. -/
theorem exists_sectionMembers {entity : Schema} {closed : Bool} {name : String}
    {ms : Entries Json}
    (h : ∀ x, Entries.get? name ms = some x → (sectionOf entity closed).Valid x) :
    ∃ es, Normal.sectionMembers name ms = .ok es ∧ (sectionOf entity closed).Valid (.obj es) := by
  have hexists : ∃ es, Normal.sectionMembers name ms = .ok es := by
    unfold Normal.sectionMembers
    cases hget : Entries.get? name ms with
    | none => exact ⟨[], rfl⟩
    | some x =>
      obtain ⟨es, rfl, -⟩ := valid_sectionOf_iff.mp (h x hget)
      exact ⟨es, rfl⟩
  obtain ⟨es, hes⟩ := hexists
  exact ⟨es, hes, valid_sectionMembers hes h⟩

end Schema

/-- An entry of the section of networks whose name the schema does not speak of. -/
def OpenNetwork (ms : Entries Json) (m : String × Json) : Prop :=
  ∃ networks, Normal.sectionMembers "networks" ms = .ok networks ∧ m ∈ networks ∧
    Schema.KeyPattern.entityName.holds m.1 = false

/-- What may still be wrong with a document that its schema has let through: a fault of
meaning, which is none of form, or the fault of a network that the schema skipped. -/
def LeftToReading (ms : Entries Json) (e : StackError) : Prop :=
  ∃ cause, e = .fault cause ∧
    ((cause.IsSemantic ∧ cause.isStructural = false) ∨
      ∃ m, OpenNetwork ms m ∧ Normal.resource .network m.1 m.2 = reject cause)

theorem StackError.IsSemantic.leftToReading {e : StackError} (h : e.IsSemantic)
    (ms : Entries Json) : LeftToReading ms e := by
  obtain ⟨cause, he, hsemantic⟩ := h
  exact ⟨cause, he, Or.inl ⟨hsemantic, (Fault.isSemantic_iff.mp hsemantic).1⟩⟩

/-- Reading a document whose sections are valid fails only in a network that the schema
skipped, or for what its parts mean. -/
theorem Normal.failsOnly_document_of_sectionsValid {ms : Entries Json}
    (hversion : Entries.get? "version" ms = some (.str FormatVersion.canonical.tag))
    (hkeys : ∀ key ∈ Entries.keys ms, key ∈ topLevelFields) (h : Schema.SectionsValid ms) :
    FailsOnly (LeftToReading ms) (document (.obj ms)) := by
  have hleft : ∀ e, IsSemantic e → LeftToReading ms e := fun e he => he.leftToReading ms
  obtain ⟨services, hservices, hserviceEntries⟩ := Schema.exists_sectionMembers h.services
  obtain ⟨networks, hnetworks, hnetworkEntries⟩ := Schema.exists_sectionMembers h.networks
  obtain ⟨volumes, hvolumes, hvolumeEntries⟩ := Schema.exists_sectionMembers h.volumes
  refine failsOnly_document_of hleft hversion (.of_eq_ok (checkKeys_eq_ok_iff.mpr hkeys))
    (fun name hname => ?sections) (fun found hfound e he => ?networks)
    (fun found hfound e he => ?volumes) (fun found hfound declared e he => ?services)
  case sections =>
    simp only [List.mem_cons, List.not_mem_nil, or_false] at hname
    rcases hname with rfl | rfl | rfl
    · exact .of_eq_ok hservices
    · exact .of_eq_ok hnetworks
    · exact .of_eq_ok hvolumes
  case networks =>
    rw [hnetworks, Except.ok.injEq] at hfound
    subst hfound
    have hentry := (Schema.valid_sectionOf_obj_iff.mp hnetworkEntries e he).1
    cases hname : Schema.KeyPattern.entityName.holds e.1 with
    | true => exact (semantic_resource .network e.1 rfl rfl (hentry hname)).mono hleft
    | false =>
      intro failure hfailure
      obtain ⟨cause, rfl⟩ := failsOnly_resource .network e.1 e.2 failure hfailure
      exact ⟨cause, rfl, Or.inr ⟨e, ⟨networks, hnetworks, he, hname⟩, hfailure⟩⟩
  case volumes =>
    rw [hvolumes, Except.ok.injEq] at hfound
    subst hfound
    have hentry := Schema.valid_sectionOf_obj_iff.mp hvolumeEntries e he
    exact (semantic_resource .volume e.1 rfl rfl (hentry.1 (hentry.2 rfl))).mono hleft
  case services =>
    rw [hservices, Except.ok.injEq] at hfound
    subst hfound
    have hentry := Schema.valid_sectionOf_obj_iff.mp hserviceEntries e he
    exact (semantic_service declared e.1 (hentry.1 (hentry.2 rfl))).mono hleft

/-- Whatever the schema of its format lets through is upgraded, and is then read or has a
fault of meaning, unless a network whose name the schema does not speak of has the fault. -/
theorem semantic_or_openNetwork {v : FormatVersion} {doc tidied : Json}
    (htidy : Document.tidy v doc = .ok tidied)
    (hvalid : Checking.schema.require v tidied = .ok ()) :
    ∃ ms, Document.upgrade v tidied = .ok (.obj ms) ∧
      FailsOnly (LeftToReading ms) (Normal.document (.obj ms)) := by
  obtain ⟨members, rfl, rfl⟩ := Document.tidy_eq_ok_iff.mp htidy
  have hupgrade := Document.upgrade_tidied v members
  obtain ⟨found, heq, hversion⟩ := Document.version_of_upgrade htidy hupgrade
  cases heq
  have hschema : (Schema.ofVersion v).Valid (.obj (Document.tidyMembers v members)) :=
    Checking.require_eq_ok_iff.mp hvalid
  exact ⟨_, hupgrade, Normal.failsOnly_document_of_sectionsValid hversion
    (Schema.keys_of_upgrade hschema hupgrade) (Schema.sectionsValid_of_upgrade hschema hupgrade)⟩

/-- A valid document whose service has a label that is no label name. -/
def mislabelled : Json := .obj [
  ("version", .str "2"),
  ("services", .obj [("web", .obj [("image", .str "store"), ("labels", .arr [.str "a_b=c"])])]),
  ("networks", .obj [("front", .null)])]

theorem semantic_mislabelled :
    ∃ tidied, Document.tidy .v20 mislabelled = .ok tidied ∧
      Checking.schema.require .v20 tidied = .ok () ∧
        ∃ ms, Document.upgrade .v20 tidied = .ok (.obj ms) ∧
          Normal.document (.obj ms) = reject (.labelName "a_b" "service 'web'") ∧
            FailsOnly (LeftToReading ms) (Normal.document (.obj ms)) := by
  have htidy : Document.tidy .v20 mislabelled = .ok _ := rfl
  obtain ⟨ms, hupgrade, hfails⟩ := semantic_or_openNetwork htidy (by decide +kernel)
  refine ⟨_, htidy, by decide +kernel, ?_⟩
  exact ⟨ms, hupgrade, by cases hupgrade; rfl, hfails⟩

/-- A document with a number for a network, under a name with a blank. -/
def spacedNetwork : Json := .obj [
  ("version", .str "2.1"),
  ("services", .obj [("web", .obj [("image", .str "store")])]),
  ("networks", .obj [("my net", .num (.int 5))])]

/-- The document is valid and yet has a network of the wrong form. -/
theorem not_semantic_spacedNetwork :
    Document.resolveVersion spacedNetwork = .ok .v21 ∧
      Document.tidy .v21 spacedNetwork = .ok spacedNetwork ∧
        Checking.schema.require .v21 spacedNetwork = .ok () ∧
          Document.upgrade .v21 spacedNetwork = .ok spacedNetwork ∧
            ¬FailsOnly IsSemantic (Normal.document spacedNetwork) := by
  refine ⟨by decide +kernel, rfl, by decide +kernel, rfl, fun h => ?_⟩
  obtain ⟨cause, heq, hsemantic⟩ := h (.fault (.entityForm .network "my net" (.num (.int 5)))) rfl
  cases heq
  cases hsemantic

end ContainerStack
