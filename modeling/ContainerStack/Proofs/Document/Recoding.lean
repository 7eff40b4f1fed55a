import ContainerStack.Proofs.EnvPath
import ContainerStack.Proofs.Normal.Encodings

/-!
Documents with other encodings of the same data. Any field of a service or of a build, and
the labels of networks and volumes, may be in another encoding. Each field is checked and
read as before, so by the shape of documents each entity is, each section is, and the
document is normalized to the same composition.
-/

namespace ContainerStack

open Entries (Matched)

/-- An entity that is as it was, or has members in another encoding. -/
inductive EntityRecoded (encodings : Encodings) : Json → Json → Prop
  | same (x : Json) : EntityRecoded encodings x x
  | members {ms ns : Entries Json} (h : Matched (MemberRecoded encodings) ms ns) :
      EntityRecoded encodings (.obj ms) (.obj ns)

/-- A section with entities in another encoding. -/
inductive SectionRecoded (encodings : Encodings) : Json → Json → Prop
  | mk {es fs : Entries Json} (h : Matched (fun _ => EntityRecoded encodings) es fs) :
      SectionRecoded encodings (.obj es) (.obj fs)

/-- The encodings of the members of a versioned document. -/
def sectionEncodings : Encodings :=
  [("services", SectionRecoded serviceEncodings), ("networks", SectionRecoded resourceEncodings),
    ("volumes", SectionRecoded resourceEncodings)]

/-- A member of a legacy document, which is its version or a service. -/
def LegacyRecoded (key : String) (x y : Json) : Prop :=
  EntityRecoded serviceEncodings x y ∧ (key = "version" → x = y)

/-- Any number of fields anywhere in the document are in another encoding. -/
inductive Document.Recoded : Json → Json → Prop
  | same (doc : Json) : Recoded doc doc
  | legacy {ms ns : Entries Json} (hversion : resolveVersion (.obj ms) = .ok .v1)
      (hmembers : Matched LegacyRecoded ms ns) : Recoded (.obj ms) (.obj ns)
  | versioned {ms ns : Entries Json} (hversion : resolveVersion (.obj ms) ≠ .ok .v1)
      (hmembers : Matched (MemberRecoded sectionEncodings) ms ns) : Recoded (.obj ms) (.obj ns)

namespace Normal

variable {encodings : Encodings} {ms ns : Entries Json} {x y : Json}

/-- A service is read from other encodings of its fields as it was. -/
theorem service_eq_of_recoded (declared : Declarations) (name : String)
    (h : EntityRecoded serviceEncodings x y) :
    service declared name x = service declared name y := by
  cases h with
  | same => rfl
  | @members ms ns h =>
    have hkept : ∀ key, Entries.get? key serviceEncodings = none →
        Entries.get? key ns = Entries.get? key ms := fun key => get?_eq_of_recoded h
    have himage := hkept "image" rfl
    have hbuild : readOption "build" ms (build name) = readOption "build" ns (build name) :=
      readOption_eq_of_recoded h rfl (interchangeable_build name)
    have hassignments : ∀ key field,
        Entries.get? key serviceEncodings = some AssignmentsListed →
          readField key ms .empty (assignments field) =
            readField key ns .empty (assignments field) :=
      fun key field hkey => readField_eq_of_recoded h hkey (interchangeable_assignments field)
    have henvironment := hassignments "environment" "environment" rfl
    have hlabels := hassignments "labels" "labels" rfl
    have henvFiles : readOption "env_file" ms envFiles = readOption "env_file" ns envFiles :=
      readOption_eq_of_recoded h rfl interchangeable_envFiles
    have hhosts : readField "extra_hosts" ms [] hosts = readField "extra_hosts" ns [] hosts :=
      readField_eq_of_recoded h rfl interchangeable_hosts
    have hdependsOn : readField "depends_on" ms [] (dependencies name) =
        readField "depends_on" ns [] (dependencies name) :=
      readField_eq_of_get?_eq (hkept "depends_on" rfl)
    have hports : readField "ports" ms [] ports = readField "ports" ns [] ports :=
      readField_eq_of_get?_eq (hkept "ports" rfl)
    have hvolumes : readField "volumes" ms [] (texts "volumes") =
        readField "volumes" ns [] (texts "volumes") :=
      readField_eq_of_get?_eq (hkept "volumes" rfl)
    have hnetworks : readOption "networks" ms (attachments name) =
        readOption "networks" ns (attachments name) :=
      readField_eq_of_get?_eq (hkept "networks" rfl)
    have hnamed : Entries.keys serviceEncodings ⊆ serviceFields := by decide
    have hextra := extraMembers_eq_of_recoded h hnamed
    simp only [service, entityMembers, bind, Except.bind, himage, hbuild, henvironment, hlabels,
      henvFiles, hhosts, hdependsOn, hports, hvolumes, hnetworks, hextra]

theorem resource_eq_of_recoded (kind : EntityKind) (name : String)
    (h : EntityRecoded resourceEncodings x y) : resource kind name x = resource kind name y := by
  cases h with
  | same => rfl
  | @members ms ns h =>
    have hkept : ∀ key, Entries.get? key resourceEncodings = none →
        Entries.get? key ns = Entries.get? key ms := fun key => get?_eq_of_recoded h
    have hdriver := hkept "driver" rfl
    have hexternal := hkept "external" rfl
    have hlabels : readField "labels" ms .empty (assignments "labels") =
        readField "labels" ns .empty (assignments "labels") :=
      readField_eq_of_recoded h rfl (interchangeable_assignments "labels")
    have hnamed : Entries.keys resourceEncodings ⊆ resourceFields := by decide
    have hextra := extraMembers_eq_of_recoded h hnamed
    simp only [resource, entityMembers, bind, Except.bind, hdriver, hexternal, hlabels, hextra]

end Normal

namespace Schema

variable {encodings : Encodings} {members : Entries Schema} {x y : Json}

/-- Every encoding of a field is as valid as the field was, under the schema for its name. -/
def EncodingsKept (encodings : Encodings) (members : Entries Schema) : Prop :=
  ∀ key R each, Entries.get? key encodings = some R → Entries.get? key members = some each →
    ∀ x y, R x y → (each.Valid x ↔ each.Valid y)

theorem encodingsKept_service
    (hmembers : ∀ key ∈ Entries.keys serviceEncodings,
      Entries.get? key members = Entries.get? key serviceMembers) :
    EncodingsKept serviceEncodings members := by
  intro key R each hR heach x y hxy
  have hencoding := Entries.mem_of_get? hR
  rw [hmembers key (List.mem_map_of_mem hencoding)] at heach
  simp only [serviceEncodings, List.mem_cons, Prod.mk.injEq, List.not_mem_nil, or_false]
    at hencoding
  rcases hencoding with ⟨rfl, rfl⟩ | ⟨rfl, rfl⟩ | ⟨rfl, rfl⟩ | ⟨rfl, rfl⟩ | ⟨rfl, rfl⟩
  all_goals cases heach
  · exact (interchangeable_assignments "environment").valid_iff hxy
  · exact (interchangeable_assignments "labels").valid_iff hxy
  · exact interchangeable_hosts.valid_iff hxy
  · exact interchangeable_envFiles.valid_iff hxy
  · exact (interchangeable_build "").valid_iff hxy

theorem encodingsKept_resource
    (hlabels : ∀ each, Entries.get? "labels" members = some each → each = assignments) :
    EncodingsKept resourceEncodings members := by
  intro key R each hR heach x y hxy
  have hencoding := Entries.mem_of_get? hR
  simp only [resourceEncodings, List.mem_singleton, Prod.mk.injEq] at hencoding
  obtain ⟨rfl, rfl⟩ := hencoding
  rw [hlabels each heach]
  exact (interchangeable_assignments "labels").valid_iff hxy

theorem valid_entity_iff_of_recoded (hkept : EncodingsKept encodings members)
    (h : EntityRecoded encodings x y) :
    (closedRecord members).Valid x ↔ (closedRecord members).Valid y := by
  cases h with
  | same => rfl
  | members h =>
    rw [valid_closedRecord_obj_iff, valid_closedRecord_obj_iff]
    exact membersValid_iff_of_recoded h hkept

theorem valid_section_iff_of_recoded {closed : Bool} (hkept : EncodingsKept encodings members)
    (h : SectionRecoded encodings x y) :
    (sectionOf (closedRecord members) closed).Valid x ↔
      (sectionOf (closedRecord members) closed).Valid y := by
  cases h with
  | mk h =>
    exact valid_sectionOf_iff_of_matched h fun _ _ _ hxy => valid_entity_iff_of_recoded hkept hxy

theorem valid_versionedDocument_iff_of_recoded {tag : String} {s n v : Entries Schema}
    {ms ns : Entries Json} (hs : EncodingsKept serviceEncodings s)
    (hn : EncodingsKept resourceEncodings n) (hv : EncodingsKept resourceEncodings v)
    (h : Matched (MemberRecoded sectionEncodings) ms ns) :
    (versionedDocument tag (closedRecord s) (closedRecord n) (closedRecord v)).Valid (.obj ms) ↔
      (versionedDocument tag (closedRecord s) (closedRecord n) (closedRecord v)).Valid
        (.obj ns) := by
  refine valid_versionedDocument_iff_of_matched h (fun x y hxy => hxy.eq_of_get?_eq_none rfl)
    fun key each x y hxy heach => hxy.iff fun R hR x y hxy => ?_
  have hencoding := Entries.mem_of_get? hR
  simp only [sectionEncodings, List.mem_cons, Prod.mk.injEq, List.not_mem_nil, or_false]
    at hencoding
  rcases hencoding with ⟨rfl, rfl⟩ | ⟨rfl, rfl⟩ | ⟨rfl, rfl⟩
  all_goals cases heach
  · exact valid_section_iff_of_recoded hs hxy
  · exact valid_section_iff_of_recoded hn hxy
  · exact valid_section_iff_of_recoded hv hxy

end Schema

theorem EntityRecoded.fillEntry {encodings : Encodings} {x y : Json}
    (h : EntityRecoded encodings x y) :
    EntityRecoded encodings (Document.fillEntry x) (Document.fillEntry y) := by
  cases h with
  | same => exact .same _
  | members h => exact .members h

theorem SectionRecoded.fillSection {encodings : Encodings} {x y : Json}
    (h : SectionRecoded encodings x y) :
    SectionRecoded encodings (Document.fillSection x) (Document.fillSection y) := by
  cases h with
  | mk h =>
    refine .mk (List.forall₂_map_left_iff.mpr (List.forall₂_map_right_iff.mpr ?_))
    exact h.imp fun _ _ hparts => ⟨hparts.1, hparts.2.fillEntry⟩

/-- Filling in what is null leaves a section in its other encoding. -/
theorem MemberRecoded.fillSection {key : String} {x y : Json}
    (h : MemberRecoded sectionEncodings key x y) :
    MemberRecoded sectionEncodings key (Document.fillSection x) (Document.fillSection y) := by
  rcases h with rfl | ⟨R, hR, hxy⟩
  · exact .refl _ _ _
  · refine Or.inr ⟨R, hR, ?_⟩
    have hencoding := Entries.mem_of_get? hR
    simp only [sectionEncodings, List.mem_cons, Prod.mk.injEq, List.not_mem_nil, or_false]
      at hencoding
    rcases hencoding with ⟨-, rfl⟩ | ⟨-, rfl⟩ | ⟨-, rfl⟩
    all_goals exact hxy.fillSection

namespace Normal

variable {encodings : Encodings} {us ws es fs : Entries Json}

theorem sectionMembers_alike {name : String} (h : Matched (MemberRecoded sectionEncodings) us ws)
    (hname : Entries.get? name sectionEncodings = some (SectionRecoded encodings)) :
    Alike (Matched fun _ => EntityRecoded encodings) (sectionMembers name us)
      (sectionMembers name ws) := by
  have hrefl : ∀ es : Entries Json, Matched (fun _ => EntityRecoded encodings) es es :=
    .refl fun _ => .same
  unfold sectionMembers
  cases hx : Entries.get? name us with
  | none =>
    rw [h.get?_eq_none hx]
    exact .of_eq rfl hrefl
  | some x =>
    obtain ⟨y, hy, hxy⟩ := h.exists_get? hx
    rw [hy]
    rcases hxy.eq_or hname with rfl | hxy
    · exact .of_eq rfl hrefl
    · cases hxy with
      | mk h => exact .ok h

theorem entities_eq_of_recoded {α : Type} {read : String → Json → Outcome α}
    (h : Matched (fun _ => EntityRecoded encodings) es fs)
    (hread : ∀ name x y, EntityRecoded encodings x y → read name x = read name y) :
    entities read es = entities read fs :=
  congrArg (Except.map Table.ofEntries) (h.traverse_eq hread)

/-- A canonical document is read from other encodings of its fields as it was. -/
theorem document_eq_of_recoded (h : Matched (MemberRecoded sectionEncodings) us ws) :
    document (.obj us) = document (.obj ws) := by
  have hversion : checkVersion us = checkVersion ws := by
    unfold checkVersion
    rw [get?_eq_of_recoded h rfl]
  have hkeys : checkKeys us = checkKeys ws := by
    unfold checkKeys
    rw [h.keys_eq]
  have hunit : ∀ u : Unit, u = u := fun _ => rfl
  -- Each step gives the same on both sides, but for the sections, which stay recoded.
  change (checkVersion us >>= fun _ => _) = (checkVersion ws >>= fun _ => _)
  refine (Alike.of_eq hversion hunit).bind_eq fun _ _ _ => ?_
  refine (Alike.of_eq hkeys hunit).bind_eq fun _ _ _ => ?_
  refine (sectionMembers_alike h rfl).bind_eq fun services services' hservices => ?_
  refine (sectionMembers_alike h rfl).bind_eq fun networks networks' hnetworks => ?_
  refine (sectionMembers_alike h rfl).bind_eq fun volumes volumes' hvolumes => ?_
  have hresource : ∀ kind name x y, EntityRecoded resourceEncodings x y →
      resource kind name x = resource kind name y := fun kind name _ _ =>
    resource_eq_of_recoded kind name
  have hservice : ∀ declared name x y, EntityRecoded serviceEncodings x y →
      service declared name x = service declared name y := fun declared name _ _ =>
    service_eq_of_recoded declared name
  simp only [hservices.keys_eq, hvolumes.keys_eq,
    entities_eq_of_recoded hnetworks (hresource .network),
    entities_eq_of_recoded hvolumes (hresource .volume),
    entities_eq_of_recoded hservices (hservice _)]

end Normal

namespace Document.Recoded

variable {v : FormatVersion} {ms ns : Entries Json}

theorem resolveVersion_eq (h : Recoded (.obj ms) (.obj ns)) :
    resolveVersion (.obj ns) = resolveVersion (.obj ms) := by
  cases h with
  | same => rfl
  | legacy _ hmembers => exact resolveVersion_congr (hmembers.get?_eq fun _ _ hxy => hxy.2 rfl)
  | versioned _ hmembers => exact resolveVersion_congr (Normal.get?_eq_of_recoded hmembers rfl)

/-- The services of a tidied legacy document are recoded. -/
theorem matched_tidyMembers_legacy (h : Matched LegacyRecoded ms ns) :
    Matched (fun _ => EntityRecoded serviceEncodings) (tidyMembers .v1 ms) (tidyMembers .v1 ns) :=
  (h.filter fun key => decide (key ≠ "version")).mono fun _ _ _ hparts => hparts.2.1

theorem matched_tidyMembers (hv : v ≠ .v1) (h : Matched (MemberRecoded sectionEncodings) ms ns) :
    Matched (MemberRecoded sectionEncodings) (tidyMembers v ms) (tidyMembers v ns) :=
  h.tidyMembers hv (.refl _ _) fun _ _ _ => MemberRecoded.fillSection

/-- A recoded document is upgraded to a recoded one. -/
theorem upgraded (h : Recoded (.obj ms) (.obj ns)) (hv : resolveVersion (.obj ms) = .ok v) :
    Matched (MemberRecoded sectionEncodings) (upgradedMembers v ms) (upgradedMembers v ns) := by
  cases h with
  | same => exact .refl (.refl _) _
  | legacy hversion hmembers =>
    cases hv.symm.trans hversion
    exact .cons ⟨rfl, .refl _ _ _⟩
      (.cons ⟨rfl, Or.inr ⟨_, rfl, .mk (matched_tidyMembers_legacy hmembers)⟩⟩ .nil)
  | versioned hversion hmembers =>
    have htidied : Matched (MemberRecoded sectionEncodings) (tidyMembers .v21 ms)
        (tidyMembers .v21 ns) := matched_tidyMembers (by decide) hmembers
    cases v with
    | v1 => exact absurd hv hversion
    | v20 | v21 => exact htidied

/-- A document is valid in its format in any encoding. -/
theorem valid_iff (h : Recoded (.obj ms) (.obj ns)) (hv : resolveVersion (.obj ms) = .ok v) :
    (Schema.ofVersion v).Valid (.obj (tidyMembers v ms)) ↔
      (Schema.ofVersion v).Valid (.obj (tidyMembers v ns)) := by
  have hservice : Schema.EncodingsKept serviceEncodings Schema.serviceMembers :=
    Schema.encodingsKept_service fun _ _ => rfl
  cases h with
  | same => rfl
  | legacy hversion hmembers =>
    cases hv.symm.trans hversion
    exact Schema.valid_section_iff_of_recoded hservice (.mk (matched_tidyMembers_legacy hmembers))
  | versioned hversion hmembers =>
    cases v with
    | v1 => exact absurd hv hversion
    | v20 =>
      refine Schema.valid_versionedDocument_iff_of_recoded hservice ?_ ?_
        (matched_tidyMembers (by decide) hmembers)
      · exact Schema.encodingsKept_resource fun _ heach => nomatch heach
      · exact Schema.encodingsKept_resource fun _ heach => nomatch heach
    | v21 =>
      refine Schema.valid_versionedDocument_iff_of_recoded ?_ ?_ ?_
        (matched_tidyMembers (by decide) hmembers)
      · refine Schema.encodingsKept_service fun key hkey => ?_
        simp only [serviceEncodings, Entries.keys, List.map_cons, List.map_nil, List.mem_cons,
          List.not_mem_nil, or_false] at hkey
        rcases hkey with rfl | rfl | rfl | rfl | rfl
        all_goals rfl
      · exact Schema.encodingsKept_resource fun _ heach => (Option.some.inj heach).symm
      · exact Schema.encodingsKept_resource fun _ heach => (Option.some.inj heach).symm

end Document.Recoded

open Document

/-- Encodings of the same data are interchangeable: with any of its fields in another
encoding, a document is normalized to the same composition. -/
theorem normalize_recoded_iff {checking : Checking} {d d' : Json} {c : Composition}
    (h : Recoded d d') : normalize checking d = .ok c ↔ normalize checking d' = .ok c := by
  obtain rfl | ⟨ms, ns, rfl, rfl⟩ : d = d' ∨ ∃ ms ns, d = .obj ms ∧ d' = .obj ns := by
    cases h with
    | same => exact Or.inl rfl
    | legacy => exact Or.inr ⟨_, _, rfl, rfl⟩
    | versioned => exact Or.inr ⟨_, _, rfl, rfl⟩
  · rfl
  rw [normalize_obj_eq_ok_iff, normalize_obj_eq_ok_iff, h.resolveVersion_eq]
  refine exists_congr fun v => and_congr_right fun hv => and_congr ?_ ?_
  · exact ⟨Checking.require_mono (h.valid_iff hv).mp, Checking.require_mono (h.valid_iff hv).mpr⟩
  · rw [← Normal.document_obj_eq_ok_iff, ← Normal.document_obj_eq_ok_iff,
      Normal.document_eq_of_recoded (h.upgraded hv)]

/-- A number, a truth value, nothing, and a text that itself has an equals sign. -/
def settingValues : Table Json :=
  ⟨[("SIZE", .num (.int 5)), ("DEBUG", .bool true), ("MODE", .null), ("FLAGS", .str " a=b ")],
    by simp [Entries.keys]⟩

def hostAddresses : Table Json :=
  ⟨[("db.local", .str "::1")], by simp [Entries.keys]⟩

/-- A service with mappings, a build in short and a single env file. -/
def mappedService : Entries Json := [
  ("build", .str "site"),
  ("environment", .obj settingValues.entries),
  ("env_file", .str "web.env"),
  ("extra_hosts", .obj hostAddresses.entries)]

/-- The same service with lists, and a build with members. -/
def listedService : Entries Json := [
  ("build", .obj [("context", .str "site")]),
  ("environment", textsToJson ["SIZE=5", "DEBUG=true", "MODE=", "FLAGS= a=b "]),
  ("env_file", .arr [.str "web.env"]),
  ("extra_hosts", textsToJson ["db.local:::1"])]

/-- A document of one service. -/
def webDocument (service : Entries Json) : Json :=
  .obj [("version", .str "2.1"), ("services", .obj [("web", .obj service)])]

def mappedFile : EnvPath :=
  ⟨["web.env".toList], by simp, by decide +kernel⟩

def mapped : Composition where
  version := "2.1"
  services := .ofEntries [
    ("web", {
      build := some { context := "site" }
      environment := .ofEntries [("SIZE", "5"), ("DEBUG", "true"), ("MODE", ""), ("FLAGS", "a=b")]
      envFiles := some [mappedFile]
      extraHosts := ["db.local:::1"] })]

theorem listed_settingValues : AssignmentsListed (.obj settingValues.entries)
    (textsToJson ["SIZE=5", "DEBUG=true", "MODE=", "FLAGS= a=b "]) := by
  refine .mk settingValues [("SIZE", "5"), ("DEBUG", "true"), ("MODE", ""), ("FLAGS", " a=b ")]
    (by decide +kernel) ?_
  exact .cons ⟨rfl, rfl⟩ (.cons ⟨rfl, rfl⟩ (.cons ⟨rfl, rfl⟩ (.cons ⟨rfl, rfl⟩ .nil)))

theorem listed_hostAddresses :
    HostsListed (.obj hostAddresses.entries) (textsToJson ["db.local:::1"]) :=
  .mk hostAddresses [("db.local", "::1")] (by decide +kernel) (.cons ⟨rfl, rfl⟩ .nil)

theorem recoded_mappedService :
    Matched (MemberRecoded serviceEncodings) mappedService listedService :=
  .cons ⟨rfl, Or.inr ⟨_, rfl, BuildRecoded.context "site"⟩⟩
    (.cons ⟨rfl, Or.inr ⟨_, rfl, listed_settingValues⟩⟩
      (.cons ⟨rfl, Or.inr ⟨_, rfl, PathListed.mk "web.env"⟩⟩
        (.cons ⟨rfl, Or.inr ⟨_, rfl, listed_hostAddresses⟩⟩ .nil)))

theorem recoded_webDocument : Recoded (webDocument mappedService) (webDocument listedService) := by
  have hservices : SectionRecoded serviceEncodings (.obj [("web", .obj mappedService)])
      (.obj [("web", .obj listedService)]) :=
    .mk (.cons ⟨rfl, .members recoded_mappedService⟩ .nil)
  refine .versioned (by decide +kernel) (.cons ⟨rfl, .refl _ _ _⟩ (.cons ⟨rfl, ?_⟩ .nil))
  exact Or.inr ⟨_, rfl, hservices⟩

theorem normalize_mapped : normalize .schema (webDocument mappedService) = .ok mapped := by
  refine normalize_eq_ok_iff.mpr ⟨.v21, _, _, by decide +kernel, rfl, by decide +kernel, rfl, ?_⟩
  refine ⟨rfl, rfl, by decide +kernel,
    ⟨_, _, _, rfl, rfl, rfl, by decide +kernel, by decide +kernel, by decide +kernel⟩, ?_⟩
  exact (Composition.exists_startupOrder_iff mapped).mp ⟨["web"], by cbv⟩

theorem mapped_normalize_listed :
    Recoded (webDocument mappedService) (webDocument listedService) ∧
      normalize .schema (webDocument mappedService) = .ok mapped ∧
        normalize .schema (webDocument listedService) = .ok mapped :=
  ⟨recoded_webDocument, normalize_mapped,
    (normalize_recoded_iff recoded_webDocument).mp normalize_mapped⟩

end ContainerStack
