import ContainerStack.Proofs.Normal.Document
import ContainerStack.Proofs.Schema.Documents

/-!
Written entities under the schema of the canonical format. What was read from a
valid entity is written as a valid one again, but for two lists of a service:
ports become texts, which the schema asks more of than of numbers, and a mapping
of hosts becomes a list, which must not repeat an entry.
-/

namespace ContainerStack

/-- The ports and hosts of the service are such that the schema allows them as
lists of texts. -/
structure Service.ListsValid (s : Service) : Prop where
  ports_form : ∀ p ∈ s.ports, Format.isPortMapping p = true
  ports_nodup : s.ports.Nodup
  hosts_nodup : s.extraHosts.Nodup

instance (s : Service) : Decidable s.ListsValid :=
  decidable_of_iff ((∀ p ∈ s.ports, Format.isPortMapping p = true) ∧ s.ports.Nodup ∧
      s.extraHosts.Nodup)
    ⟨fun ⟨hform, hports, hhosts⟩ => ⟨hform, hports, hhosts⟩,
      fun h => ⟨h.ports_form, h.ports_nodup, h.hosts_nodup⟩⟩

namespace Schema

open Text

/-- A text that does not begin with a blank has some other character than a line feed. -/
theorem anyLetter_of_trimmed {s : String} (htrimmed : Trimmed s) (hne : s ≠ "") :
    KeyPattern.anyLetter.holds s = true := by
  obtain ⟨c, rest, hchars, hblank⟩ := exists_cons_of_trimmed htrimmed hne
  have hc : c ≠ '\n' := by
    rintro rfl
    exact absurd hblank (by decide)
  simp [KeyPattern.holds, hchars, KeyPattern.isLineChar, hc]

/-- Names that a valid field gives to texts are allowed in a mapping. -/
theorem anyLetter_of_assigns {x : Json} {es : Entries String} (hvalid : assignments.Valid x)
    (h : Normal.Assigns x es) : ∀ e ∈ es, KeyPattern.anyLetter.holds e.1 = true := by
  intro e he
  rcases valid_assignments_iff.mp hvalid with ⟨ms, rfl, hmembers⟩ | ⟨ts, -, rfl⟩
  · obtain ⟨m, hm, hkey, -⟩ := exists_mem_left_of_forall₂ h e he
    rw [hkey]
    exact (hmembers m hm).1
  · obtain ⟨item, -, text, -, hsplit, hne⟩ := exists_mem_left_of_forall₂ h e he
    have htrimmed := (Normal.trimmed_splitAssignment text.toList).1
    rw [hsplit] at htrimmed
    exact anyLetter_of_trimmed htrimmed hne

theorem anyLetter_of_readField {members : Entries Schema} {ms : Entries Json}
    {key field : String} {t : KeyValues} (hms : MembersValid members ms)
    (heach : Entries.get? key members = some assignments)
    (hread : Normal.readField key ms .empty (Normal.assignments field) = .ok t) :
    ∀ name ∈ t.keys, KeyPattern.anyLetter.holds name = true := by
  intro name hname
  rcases Normal.readField_eq_ok_iff.mp hread with ⟨-, rfl⟩ | ⟨x, hx, hassignments⟩
  · simp at hname
  · have hvalid := hms.valid_of_get? heach (Normal.field?_eq_some_iff.mp hx).1
    obtain ⟨es, hes, rfl⟩ := Normal.assignments_eq_ok_iff.mp hassignments
    obtain ⟨value, hmem⟩ := Table.mem_keys_iff.mp hname
    exact anyLetter_of_assigns hvalid hes _ (Table.mem_of_mem_ofEntries hmem)

theorem valid_assignments_toJson {t : KeyValues}
    (h : ∀ key ∈ t.keys, KeyPattern.anyLetter.holds key = true) : assignments.Valid t.toJson := by
  refine valid_assignments_iff.mpr (Or.inl ⟨_, rfl, fun m hm => ?_⟩)
  obtain ⟨e, he, rfl⟩ := List.mem_map.mp hm
  exact ⟨h e.1 (List.mem_map_of_mem he), valid_kinds_iff.mpr ⟨.string, by simp, rfl⟩⟩

/-- A field that is written is allowed and valid. -/
def FieldValid (members : Entries Schema) (f : String × Option Json) : Prop :=
  ∀ x, f.2 = some x → ∃ each, Entries.get? f.1 members = some each ∧ each.Valid x

theorem fieldValid_iff {members : Entries Schema} {key : String} {o : Option Json}
    {each : Schema} (heach : Entries.get? key members = some each) :
    FieldValid members (key, o) ↔ ∀ x, o = some x → each.Valid x := by
  simp [FieldValid, heach]

theorem fieldValid_none (members : Entries Schema) (key : String) :
    FieldValid members (key, none) := by
  intro x hx
  cases hx

theorem membersValid_empty (members : Entries Schema) :
    MembersValid members (Table.empty : Table Json).entries := by
  intro m hm
  cases hm

theorem membersValid_written_iff {members : Entries Schema} {fields : List (String × Option Json)}
    {extra : Table Json} :
    MembersValid members (written fields extra) ↔
      (∀ f ∈ fields, FieldValid members f) ∧ MembersValid members extra.entries := by
  constructor
  · intro h
    refine ⟨fun f hf x hx => ?_, fun m hm => ?_⟩
    · exact h (f.1, x) (mem_written_iff.mpr (Or.inl (hx ▸ hf)))
    · exact h m (mem_written_iff.mpr (Or.inr hm))
  · intro hparts m hm
    obtain ⟨hfields, hextra⟩ := hparts
    rcases mem_written_iff.mp hm with hfield | hmem
    · exact hfields _ hfield m.2 rfl
    · exact hextra m hmem

theorem membersValid_extraMembers {members : Entries Schema} {ms : Entries Json}
    (h : MembersValid members ms) (named : List String) :
    MembersValid members (Normal.extraMembers named ms).entries := by
  intro m hm
  exact h m (List.mem_of_mem_filter (Table.mem_of_mem_ofEntries hm))

theorem fieldValid_text {members : Entries Schema} {key : String} (o : Option String)
    (heach : Entries.get? key members = some text) : FieldValid members (key, o.map .str) := by
  rw [fieldValid_iff heach]
  intro x hx
  obtain ⟨s, -, rfl⟩ := Option.map_eq_some_iff.mp hx
  exact valid_text_iff.mpr ⟨s, rfl⟩

theorem fieldValid_table {members : Entries Schema} {ms : Entries Json} {key field : String}
    {t : KeyValues} (hms : MembersValid members ms)
    (heach : Entries.get? key members = some assignments)
    (hread : Normal.readField key ms .empty (Normal.assignments field) = .ok t) :
    FieldValid members (key, tableField t) := by
  rw [fieldValid_iff heach]
  intro x hx
  unfold tableField at hx
  split at hx
  · contradiction
  · rw [← Option.some.inj hx]
    exact valid_assignments_toJson (anyLetter_of_readField hms heach hread)

/-- A list of texts is valid if it is when it is not empty. -/
theorem fieldValid_list_iff {members : Entries Schema} {key : String} {each : Schema}
    (heach : Entries.get? key members = some each) (hnil : each.Valid (textsToJson []))
    (ts : List String) : FieldValid members (key, listField ts) ↔ each.Valid (textsToJson ts) := by
  rw [fieldValid_iff heach, listField]
  cases ts with
  | nil => simpa using hnil
  | cons t rest => simp

theorem fieldValid_option {α : Type} {members : Entries Schema} {ms : Entries Json}
    {key : String} (each : Schema) {read : Json → Outcome α} {write : α → Json} {o : Option α}
    (hms : MembersValid members ms) (heach : Entries.get? key members = some each)
    (hread : Normal.readOption key ms read = .ok o)
    (hwrite : ∀ x a, each.Valid x → read x = .ok a → each.Valid (write a)) :
    FieldValid members (key, o.map write) := by
  rw [fieldValid_iff heach]
  rcases Normal.readOption_eq_ok_iff.mp hread with ⟨-, rfl⟩ | ⟨x, hx, a, ha, rfl⟩
  · simp
  · have hvalid := hms.valid_of_get? heach (Normal.field?_eq_some_iff.mp hx).1
    simpa using hwrite x a hvalid ha

def buildMembers : Entries Schema := [
  ("context", text),
  ("dockerfile", text),
  ("args", assignments),
  ("labels", assignments),
  ("target", text),
  ("network", text),
  ("cache_from", distinctTexts),
  ("shm_size", .kinds [.integer, .string])]

theorem valid_build_iff {x : Json} :
    build.Valid x ↔ (∃ s, x = .str s) ∨ (closedRecord buildMembers).Valid x := by
  rw [← valid_text_iff]
  refine valid_oneOf_iff_or fun htext hrecord => ?_
  obtain ⟨s, rfl⟩ := valid_text_iff.mp htext
  obtain ⟨ms, hms, -⟩ := valid_closedRecord_iff.mp hrecord
  cases hms

theorem valid_build_obj_iff {ms : Entries Json} :
    build.Valid (.obj ms) ↔ MembersValid buildMembers ms := by
  simp [valid_build_iff, valid_closedRecord_obj_iff]

/-- A build that was read from a valid one is written as a valid one. -/
theorem valid_build_toJson {name : String} {x : Json} {b : Build} (hvalid : build.Valid x)
    (hread : Normal.build name x = .ok b) : build.Valid b.toJson := by
  rw [valid_build_iff, b.toJson_eq]
  refine Or.inr (valid_closedRecord_obj_iff.mpr (membersValid_written_iff.mpr ?_))
  obtain ⟨⟨context, rfl, rfl⟩ | ⟨ms, rfl, hof⟩, -⟩ := Normal.build_eq_ok_iff.mp hread
  · refine ⟨?_, membersValid_empty _⟩
    simp only [Build.fields, List.forall_mem_cons, List.not_mem_nil, false_imp_iff,
      implies_true, and_true]
    exact ⟨fieldValid_text (some context) rfl, fieldValid_none _ _, fieldValid_none _ _,
      fieldValid_none _ _⟩
  · have hms : MembersValid buildMembers ms := by
      rcases valid_build_iff.mp hvalid with ⟨s, hs⟩ | hrecord
      · cases hs
      · exact valid_closedRecord_obj_iff.mp hrecord
    constructor
    · simp only [Build.fields, List.forall_mem_cons, List.not_mem_nil, false_imp_iff,
        implies_true, and_true]
      exact ⟨fieldValid_text (some b.context) rfl, fieldValid_text b.dockerfile rfl,
        fieldValid_table hms rfl hof.args, fieldValid_table hms rfl hof.labels⟩
    · rw [hof.extra]
      exact membersValid_extraMembers hms _

theorem valid_resource_toJson {members : Entries Schema} {kind : EntityKind} {name : String}
    {x : Json} {r : Resource} (hdriver : Entries.get? "driver" members = some text)
    (hlabels : Entries.get? "labels" members = some assignments)
    (hvalid : (closedRecord members).Valid x) (hread : Normal.resource kind name x = .ok r) :
    (closedRecord members).Valid r.toJson := by
  obtain ⟨ms, rfl, hmembers⟩ := valid_closedRecord_iff.mp hvalid
  obtain ⟨_, hms, hof⟩ := Normal.resource_eq_ok_iff.mp hread
  simp only [Normal.entityMembers, Except.ok.injEq] at hms
  subst hms
  rw [r.toJson_eq]
  refine valid_closedRecord_obj_iff.mpr (membersValid_written_iff.mpr ⟨?_, ?_⟩)
  · simp only [Resource.fields, List.forall_mem_cons, List.not_mem_nil, false_imp_iff,
      implies_true, and_true]
    refine ⟨fieldValid_text r.driver hdriver, fieldValid_table hmembers hlabels hof.labels, ?_⟩
    intro external hexternal
    exact hmembers ("external", external) (Entries.mem_of_get? (hof.external ▸ hexternal))
  · rw [hof.extra]
    exact membersValid_extraMembers hmembers _

theorem nodup_of_texts {members : Entries Schema} {ms : Entries Json} {key field : String}
    {ts : List String} (hms : MembersValid members ms)
    (heach : Entries.get? key members = some distinctTexts)
    (hread : Normal.readField key ms [] (Normal.texts field) = .ok ts) : ts.Nodup := by
  rcases Normal.readField_eq_ok_iff.mp hread with ⟨-, rfl⟩ | ⟨x, hx, htexts⟩
  · exact List.nodup_nil
  · have hvalid := hms.valid_of_get? heach (Normal.field?_eq_some_iff.mp hx).1
    obtain ⟨us, hnodup, rfl⟩ := valid_distinctTexts_iff.mp hvalid
    rw [Normal.texts_textsToJson, Except.ok.injEq] at htexts
    exact htexts ▸ hnodup

def namedAttachments : Schema :=
  .all [.kinds [.object], .dictionary .entityName attachment true]

theorem valid_attachments_iff {x : Json} :
    attachments.Valid x ↔
      (∃ ts : List String, ts.Nodup ∧ x = textsToJson ts) ∨ namedAttachments.Valid x := by
  rw [← valid_distinctTexts_iff]
  refine valid_oneOf_iff_or fun htexts hnamed => ?_
  obtain ⟨ts, -, rfl⟩ := valid_distinctTexts_iff.mp htexts
  obtain ⟨ms, hms⟩ := valid_object_iff.mp (valid_all_cons.mp hnamed).1
  cases hms

/-- Networks that were read from valid ones are written as valid ones. -/
theorem valid_attachments_toJson {name : String} {x : Json} {a : Attachments}
    (hvalid : attachments.Valid x) (hread : Normal.attachments name x = .ok a) :
    attachments.Valid a.toJson := by
  rcases valid_attachments_iff.mp hvalid with ⟨ts, hnodup, rfl⟩ | hnamed
  · obtain ⟨us, hus, rfl⟩ := map_eq_ok_iff.mp hread
    have htexts : Normal.texts "networks" (textsToJson ts) = .ok us := hus
    rw [Normal.texts_textsToJson, Except.ok.injEq] at htexts
    exact valid_attachments_iff.mpr (Or.inl ⟨us, htexts ▸ hnodup, rfl⟩)
  · obtain ⟨hobject, hdictionary, -⟩ := (valid_all_cons.mp hnamed).imp_right valid_all_cons.mp
    obtain ⟨ms, rfl⟩ := valid_object_iff.mp hobject
    simp only [Normal.attachments, Except.ok.injEq] at hread
    subst hread
    have hentries : (Schema.dictionary .entityName attachment true).Valid
        (.obj (Table.ofEntries ms).entries) :=
      valid_dictionary_iff.mpr fun m hm =>
        valid_dictionary_iff.mp hdictionary m (Table.mem_of_mem_ofEntries hm)
    exact valid_attachments_iff.mpr (Or.inr (valid_all_cons.mpr
      ⟨valid_object_iff.mpr ⟨_, rfl⟩, valid_all_cons.mpr ⟨hentries, valid_all_nil _⟩⟩))

/-- A service that was read from a valid one is written as a valid one exactly when
its ports and hosts allow it. -/
theorem valid_service_toJson_iff {declared : Normal.Declarations} {name : String} {x : Json}
    {s : Service} (hvalid : service.Valid x) (hread : Normal.service declared name x = .ok s) :
    service.Valid s.toJson ↔ s.ListsValid := by
  obtain ⟨ms, rfl, hmembers⟩ := valid_closedRecord_iff.mp hvalid
  obtain ⟨_, hms, hof⟩ := Normal.service_eq_ok_iff.mp hread
  simp only [Normal.entityMembers, Except.ok.injEq] at hms
  subst hms
  have hbuild := fieldValid_option build hmembers rfl hof.build fun _ _ => valid_build_toJson
  have henvironment := fieldValid_table hmembers rfl hof.environment
  have henvFiles := fieldValid_option textOrTextList hmembers rfl hof.envFiles
    fun _ paths _ _ => valid_textOrTextList_texts (paths.map EnvPath.text)
  have hdependsOn : FieldValid (serviceMembers ++ laterServiceMembers)
      ("depends_on", listField s.dependsOn) :=
    (fieldValid_list_iff rfl (valid_textList_iff.mpr ⟨[], rfl⟩) _).mpr
      (valid_textList_iff.mpr ⟨s.dependsOn, rfl⟩)
  have hlabels := fieldValid_table hmembers rfl hof.labels
  have hports : FieldValid (serviceMembers ++ laterServiceMembers) ("ports", listField s.ports) ↔
      (∀ p ∈ s.ports, Format.isPortMapping p = true) ∧ s.ports.Nodup := by
    rw [fieldValid_list_iff rfl ((valid_portList_texts []).mpr (by simp)), valid_portList_texts]
  have hvolumes : FieldValid (serviceMembers ++ laterServiceMembers)
      ("volumes", listField s.volumes) :=
    (fieldValid_list_iff rfl ((valid_distinctTexts_texts []).mpr List.nodup_nil) _).mpr
      ((valid_distinctTexts_texts _).mpr (nodup_of_texts hmembers rfl hof.volumes))
  have hhosts : FieldValid (serviceMembers ++ laterServiceMembers)
      ("extra_hosts", listField s.extraHosts) ↔ s.extraHosts.Nodup := by
    rw [fieldValid_list_iff rfl ((valid_assignments_texts []).mpr List.nodup_nil),
      valid_assignments_texts]
  have hnetworks := fieldValid_option attachments hmembers rfl hof.networks
    fun _ _ => valid_attachments_toJson
  have hextra : MembersValid (serviceMembers ++ laterServiceMembers) s.extra.entries := by
    rw [hof.extra]
    exact membersValid_extraMembers hmembers _
  rw [s.toJson_eq, service, valid_closedRecord_obj_iff, membersValid_written_iff]
  simp only [Service.fields, List.forall_mem_cons, List.not_mem_nil, false_imp_iff,
    implies_true, and_true, hports, hhosts]
  constructor
  · intro hparts
    obtain ⟨⟨-, -, -, -, -, -, ⟨hform, hnodup⟩, -, hhostsNodup, -⟩, -⟩ := hparts
    exact ⟨hform, hnodup, hhostsNodup⟩
  · intro h
    exact ⟨⟨fieldValid_text s.image rfl, hbuild, henvironment, henvFiles, hdependsOn, hlabels,
      ⟨h.ports_form, h.ports_nodup⟩, hvolumes, h.hosts_nodup, hnetworks⟩, hextra⟩

/-- A section is written as a valid one when the entities are that the schema looks
at. -/
theorem valid_sectionToJson_iff {α : Type} {entity : Schema} {closed : Bool} {P : α → Prop}
    {read : String → Json → Outcome α} {write : α → Json} {es : Entries Json} {t : Table α}
    (hvalid : (sectionOf entity closed).Valid (.obj es))
    (hread : Normal.entities read es = .ok t)
    (hwrite : ∀ name x a, entity.Valid x → read name x = .ok a → (entity.Valid (write a) ↔ P a)) :
    (sectionOf entity closed).Valid (sectionToJson write t) ↔
      ∀ e ∈ t.entries, KeyPattern.entityName.holds e.1 = true → P e.2 := by
  obtain ⟨_, hes, hmembers⟩ := valid_sectionOf_iff.mp hvalid
  cases hes
  have hentry : ∀ e ∈ t.entries,
      ((KeyPattern.entityName.holds e.1 = true → entity.Valid (write e.2)) ∧
        (closed = true → KeyPattern.entityName.holds e.1 = true)) ↔
      (KeyPattern.entityName.holds e.1 = true → P e.2) := by
    intro e he
    obtain ⟨m, hm, hname, hm'⟩ := (Normal.mem_of_entities hread).2 e he
    obtain ⟨hentity, hclosed⟩ := hmembers m hm
    rw [← hname] at hentity hclosed
    constructor
    · intro hparts hholds
      obtain ⟨hwritten, -⟩ := hparts
      exact (hwrite _ _ _ (hentity hholds) hm').mp (hwritten hholds)
    · intro hP
      exact ⟨fun hholds => (hwrite _ _ _ (hentity hholds) hm').mpr (hP hholds), hclosed⟩
  rw [valid_sectionOf_iff]
  constructor
  · intro hparts e he
    obtain ⟨ms, hms, hvalid⟩ := hparts
    rw [sectionToJson, Json.obj.injEq] at hms
    exact (hentry e he).mp (hvalid (e.1, write e.2) (hms ▸ List.mem_map_of_mem he))
  · intro h
    refine ⟨_, rfl, fun m hm => ?_⟩
    obtain ⟨e, he, rfl⟩ := List.mem_map.mp hm
    exact (hentry e he).mpr (h e he)

theorem valid_sectionMembers {entity : Schema} {closed : Bool} {name : String}
    {ms es : Entries Json} (hmembers : Normal.sectionMembers name ms = .ok es)
    (hvalid : ∀ x, Entries.get? name ms = some x → (sectionOf entity closed).Valid x) :
    (sectionOf entity closed).Valid (.obj es) := by
  have hnil : (sectionOf entity closed).Valid (.obj []) :=
    valid_sectionOf_iff.mpr ⟨[], rfl, by simp⟩
  unfold Normal.sectionMembers at hmembers
  split at hmembers
  · rw [← Except.ok.inj hmembers]
    exact hnil
  · rw [← Except.ok.inj hmembers]
    exact hnil
  · rename_i entries hget
    rw [← Except.ok.inj hmembers]
    exact hvalid _ hget
  · exact absurd hmembers reject_ne_ok

theorem fieldValid_section {kind : EntityKind} {entity : Schema} {closed : Bool} {key : String}
    {members : Entries Schema} {ms es : Entries Json} {t : Table Resource}
    (heach : Entries.get? key members = some (sectionOf entity closed))
    (hmembers : Normal.sectionMembers key ms = .ok es)
    (hvalid : ∀ x, Entries.get? key ms = some x → (sectionOf entity closed).Valid x)
    (hread : Normal.entities (Normal.resource kind) es = .ok t)
    (hwrite : ∀ name x r, entity.Valid x → Normal.resource kind name x = .ok r →
      entity.Valid r.toJson) : FieldValid members (key, sectionField t) := by
  rw [fieldValid_iff heach]
  intro x hx
  unfold sectionField at hx
  split at hx
  · contradiction
  · rw [← Option.some.inj hx]
    have hiff := valid_sectionToJson_iff (P := fun _ => True)
      (valid_sectionMembers hmembers hvalid) hread
      fun name x r hx hr => iff_true_intro (hwrite name x r hx hr)
    exact hiff.mpr fun _ _ _ => trivial

def documentMembers : Entries Schema := [
  ("version", .all [text, .oneOfTexts ["2.1"]]),
  ("services", sectionOf service true),
  ("networks", sectionOf network false),
  ("volumes", sectionOf volume true)]

theorem valid_document_iff {ms : Entries Json} :
    (ofVersion .v21).Valid (.obj ms) ↔
      Entries.get? "version" ms ≠ none ∧ MembersValid documentMembers ms :=
  valid_versionedDocument_iff

/-- A canonical composition is written as a valid document when its sections are valid. -/
theorem valid_composition_iff {c : Composition} (hversion : c.version = "2.1") :
    (ofVersion .v21).Valid c.toJson ↔
      (sectionOf service true).Valid (sectionToJson Service.toJson c.services) ∧
        FieldValid documentMembers ("networks", sectionField c.networks) ∧
        FieldValid documentMembers ("volumes", sectionField c.volumes) := by
  have htag : FieldValid documentMembers ("version", some (.str c.version)) := by
    rw [fieldValid_iff rfl, hversion]
    rintro _ ⟨⟩
    exact valid_all_cons.mpr ⟨valid_text_iff.mpr ⟨_, rfl⟩,
      valid_all_cons.mpr ⟨valid_oneOfTexts_iff.mpr ⟨"2.1", by simp, rfl⟩, valid_all_nil _⟩⟩
  have hrequired : Entries.get? "version" (written c.fields .empty) ≠ none := by
    rw [c.get?_fields (o := some (.str c.version)) (by simp [Composition.fields])]
    simp
  have hservices : FieldValid documentMembers
        ("services", some (sectionToJson Service.toJson c.services)) ↔
      (sectionOf service true).Valid (sectionToJson Service.toJson c.services) := by
    rw [fieldValid_iff rfl]
    exact ⟨fun h => h _ rfl, fun h x hx => Option.some.inj hx ▸ h⟩
  rw [c.toJson_eq, valid_document_iff, membersValid_written_iff]
  simp only [Composition.fields, List.forall_mem_cons, List.not_mem_nil, false_imp_iff,
    implies_true, and_true, hservices]
  constructor
  · intro hparts
    obtain ⟨-, ⟨-, hsections⟩, -⟩ := hparts
    exact hsections
  · exact fun hsections => ⟨hrequired, ⟨htag, hsections⟩, membersValid_empty _⟩

/-- The composition of a document with valid sections is written as a valid document
exactly when the ports and hosts of its services allow it. -/
theorem valid_toJson_iff {ms : Entries Json} {c : Composition} (hsections : SectionsValid ms)
    (h : Normal.DocumentOf ms c) :
    (ofVersion .v21).Valid c.toJson ↔ ∀ s ∈ c.services.values, s.ListsValid := by
  obtain ⟨services, networks, volumes, hservices, hnetworks, hvolumes, hnetworkTable,
    hvolumeTable, hserviceTable⟩ := h.sections
  have hsection := valid_sectionMembers hservices hsections.services
  have hnames : ∀ e ∈ c.services.entries, KeyPattern.entityName.holds e.1 = true := by
    intro e he
    obtain ⟨_, hentries, hmembers⟩ := valid_sectionOf_iff.mp hsection
    cases hentries
    obtain ⟨m, hm, hname, -⟩ := (Normal.mem_of_entities hserviceTable).2 e he
    exact hname ▸ (hmembers m hm).2 rfl
  have hservice : (sectionOf service true).Valid (sectionToJson Service.toJson c.services) ↔
      ∀ s ∈ c.services.values, s.ListsValid := by
    rw [valid_sectionToJson_iff hsection hserviceTable fun _ _ _ => valid_service_toJson_iff]
    constructor
    · intro h s hs
      obtain ⟨name, hmem⟩ := Table.mem_values_iff.mp hs
      exact h _ hmem (hnames _ hmem)
    · exact fun h e he _ => h _ (Table.mem_values_iff.mpr ⟨e.1, he⟩)
  have hnetworkField : FieldValid documentMembers ("networks", sectionField c.networks) :=
    fieldValid_section rfl hnetworks hsections.networks hnetworkTable
      fun _ _ _ => valid_resource_toJson rfl rfl
  have hvolumeField : FieldValid documentMembers ("volumes", sectionField c.volumes) :=
    fieldValid_section rfl hvolumes hsections.volumes hvolumeTable
      fun _ _ _ => valid_resource_toJson rfl rfl
  rw [valid_composition_iff h.version_eq, hservice]
  exact and_iff_left ⟨hnetworkField, hvolumeField⟩

end Schema

end ContainerStack
