import ContainerStack.Proofs.Document.Reordering
import ContainerStack.Proofs.Normal.Assignments
import ContainerStack.Proofs.Outline

/-!
What normalization keeps of a document. Sections keep their entities by name and in order,
and an entity keeps all its members: those that it names in the fields that they stand for,
and the others, null or not, as they are and in their order. Lists of texts are kept as
they are, lists of ports and hosts entry by entry, and of env files the first occurrence of
every path.
-/

namespace ContainerStack

open Text
open Entries (Matched)

theorem Json.Distinct.of_get? {ms : Entries Json} {key : String} {x : Json}
    (h : (Json.obj ms).Distinct) (hget : Entries.get? key ms = some x) : x.Distinct :=
  (distinct_obj_iff.mp h).2 _ (Entries.mem_of_get? hget)

namespace Normal

/-- A field of an entity has its own value for a missing field when there is no member of
its name or only null, and otherwise a value that the member stands for. -/
inductive Retained {α : Type} (key : String) (ms : Entries Json) (absent : α)
    (StandsFor : Json → α → Prop) : α → Prop
  | missing (hget : Entries.get? key ms = none) : Retained key ms absent StandsFor absent
  | null (hget : Entries.get? key ms = some .null) : Retained key ms absent StandsFor absent
  | value {x : Json} {a : α} (hget : Entries.get? key ms = some x) (hnull : x ≠ .null)
      (hvalue : StandsFor x a) : Retained key ms absent StandsFor a

def RetainedOption {α : Type} (key : String) (ms : Entries Json) (StandsFor : Json → α → Prop) :
    Option α → Prop :=
  Retained key ms none fun x o => ∃ a, o = some a ∧ StandsFor x a

def IsText (x : Json) (text : String) : Prop :=
  x = .str text

def ListsTexts (x : Json) (texts : List String) : Prop :=
  x = textsToJson texts

/-- Entries of the same names as in the mapping or list, each name once. -/
def GivesTable (x : Json) (t : KeyValues) : Prop :=
  ∃ es, Gives x es ∧ t = .ofEntries es

inductive PortText : Json → String → Prop
  | text (s : String) : PortText (.str s) s
  | number (n : Number) : PortText (.num n) (Json.numberText n)

def ListsPorts (x : Json) (ports : List String) : Prop :=
  ∃ items, x = .arr items ∧ List.Forall₂ PortText items ports

inductive HostText : String × Json → String → Prop
  | null (host : String) : HostText (host, .null) (host ++ ":")
  | scalar {x : Json} {address : String} (host : String) (hscalar : ScalarText x address) :
      HostText (host, x) (host ++ ":" ++ address)

inductive ListsHosts : Json → List String → Prop
  | list (hosts : List String) : ListsHosts (textsToJson hosts) hosts
  | mapping {ms : Entries Json} {hosts : List String} (h : List.Forall₂ HostText ms hosts) :
      ListsHosts (.obj ms) hosts

/-- One path or a list of them, each read, and the later repetitions left out. -/
inductive ListsPaths : Json → List EnvPath → Prop
  | single {raw : String} {p : EnvPath} (hread : EnvPath.parse raw = .ok p) :
      ListsPaths (.str raw) [p]
  | list {raws : List String} {paths : List EnvPath}
      (hread : List.Forall₂ (fun raw p => EnvPath.parse raw = .ok p) raws paths) :
      ListsPaths (textsToJson raws) paths.eraseDups

inductive Attaches : Json → Attachments → Prop
  | list (names : List String) : Attaches (textsToJson names) (.list names)
  | table (options : Table Json) : Attaches (.obj options.entries) (.table options)

/-- The members that are not named, unchanged and in their order. -/
def Unnamed (named : List String) (ms : Entries Json) (extra : Table Json) : Prop :=
  extra.entries = ms.filter fun m => m.1 ∉ named

structure BuildRetains (ms : Entries Json) (b : Build) : Prop where
  context : Retained "context" ms "." IsText b.context
  dockerfile : RetainedOption "dockerfile" ms IsText b.dockerfile
  args : Retained "args" ms .empty GivesTable b.args
  labels : Retained "labels" ms .empty GivesTable b.labels
  extra : Unnamed buildFields ms b.extra

inductive Builds : Json → Build → Prop
  | context (context : String) : Builds (.str context) { context }
  | members {ms : Entries Json} {b : Build} (h : BuildRetains ms b) : Builds (.obj ms) b

structure ServiceRetains (ms : Entries Json) (s : Service) : Prop where
  image : RetainedOption "image" ms IsText s.image
  build : RetainedOption "build" ms Builds s.build
  environment : Retained "environment" ms .empty GivesTable s.environment
  envFiles : RetainedOption "env_file" ms ListsPaths s.envFiles
  dependsOn : Retained "depends_on" ms [] ListsTexts s.dependsOn
  labels : Retained "labels" ms .empty GivesTable s.labels
  ports : Retained "ports" ms [] ListsPorts s.ports
  volumes : Retained "volumes" ms [] ListsTexts s.volumes
  extraHosts : Retained "extra_hosts" ms [] ListsHosts s.extraHosts
  networks : RetainedOption "networks" ms Attaches s.networks
  extra : Unnamed serviceFields ms s.extra

structure ResourceRetains (ms : Entries Json) (r : Resource) : Prop where
  driver : RetainedOption "driver" ms IsText r.driver
  labels : Retained "labels" ms .empty GivesTable r.labels
  external : r.external = Entries.get? "external" ms
  extra : Unnamed resourceFields ms r.extra

/-- An entity is described by its members, and has none if it is null. -/
inductive Describes {α : Type} (Retains : Entries Json → α → Prop) : Json → α → Prop
  | null {a : α} (h : Retains [] a) : Describes Retains .null a
  | members {ms : Entries Json} {a : α} (h : Retains ms a) : Describes Retains (.obj ms) a

/-- The section has the same names in the same order, and each entity is retained. -/
def SectionRetains {α : Type} (Retains : Entries Json → α → Prop) (name : String)
    (ms : Entries Json) (t : Table α) : Prop :=
  ∃ es, Retained name ms [] (fun x es => x = .obj es) es ∧
    Matched (fun _ => Describes Retains) es t.entries

structure DocumentRetains (ms : Entries Json) (c : Composition) : Prop where
  version : Entries.get? "version" ms = some (.str c.version)
  services : SectionRetains ServiceRetains "services" ms c.services
  networks : SectionRetains ResourceRetains "networks" ms c.networks
  volumes : SectionRetains ResourceRetains "volumes" ms c.volumes
  nothingElse : ∀ key ∈ Entries.keys ms, key ∈ topLevelFields

section Fields

variable {α : Type} {key : String} {ms : Entries Json} {absent a : α} {read : Json → Outcome α}
  {StandsFor : Json → α → Prop}

theorem retained_of_readField (h : readField key ms absent read = .ok a)
    (hread : ∀ x, Entries.get? key ms = some x → x ≠ .null → read x = .ok a → StandsFor x a) :
    Retained key ms absent StandsFor a := by
  rcases readField_eq_ok_iff.mp h with ⟨hnone, rfl⟩ | ⟨x, hx, hok⟩
  · cases hget : Entries.get? key ms with
    | none => exact .missing hget
    | some x =>
      by_cases hnull : x = .null
      · exact .null (hnull ▸ hget)
      · rw [field?_eq_some_iff.mpr ⟨hget, hnull⟩] at hnone
        contradiction
  · obtain ⟨hget, hnull⟩ := field?_eq_some_iff.mp hx
    exact .value hget hnull (hread x hget hnull hok)

theorem retained_of_readOption {o : Option α} (h : readOption key ms read = .ok o)
    (hread : ∀ x a, Entries.get? key ms = some x → x ≠ .null → read x = .ok a → StandsFor x a) :
    RetainedOption key ms StandsFor o := by
  refine retained_of_readField h fun x hget hnull hok => ?_
  obtain ⟨a, ha, rfl⟩ := map_eq_ok_iff.mp hok
  exact ⟨a, rfl, hread x a hget hnull ha⟩

theorem retained_of_optionalText {field : String} {o : Option String}
    (h : optionalText field (Entries.get? key ms) = .ok o) : RetainedOption key ms IsText o := by
  cases hget : Entries.get? key ms with
  | none =>
    rw [hget] at h
    cases h
    exact .missing hget
  | some x =>
    rw [hget] at h
    cases x with
    | null => cases h; exact .null hget
    | str s => cases h; exact .value hget (by simp) ⟨s, rfl, rfl⟩
    | _ => cases h

theorem retained_of_assignments {field : String} {t : KeyValues}
    (h : readField key ms .empty (assignments field) = .ok t) :
    Retained key ms .empty GivesTable t := by
  refine retained_of_readField h fun x _ _ hok => ?_
  obtain ⟨es, hes, rfl⟩ := assignments_eq_ok_iff.mp hok
  exact ⟨es, gives_of_assigns hes, rfl⟩

theorem unnamed_extraMembers (hms : (Entries.keys ms).Nodup) (named : List String) :
    Unnamed named ms (extraMembers named ms) :=
  Table.entries_ofEntries (hms.sublist (List.filter_sublist.map Prod.fst))

end Fields

theorem eq_textsToJson_of_forall₂ {items : List Json} {ts : List String}
    (h : List.Forall₂ (fun x t => x = .str t) items ts) : .arr items = textsToJson ts := by
  rw [← List.forall₂_map_right_iff (f := Json.str) (R := Eq), List.forall₂_eq_eq_eq] at h
  rw [h, textsToJson]

theorem listItems_eq_ok {field : String} {x : Json} {items : List Json} (hnull : x ≠ .null)
    (h : listItems field x = .ok items) : x = .arr items := by
  cases x with
  | null => exact absurd rfl hnull
  | arr found => cases h; rfl
  | _ => cases h

theorem textItem_eq_ok_iff {field t : String} {x : Json} :
    textItem field x = .ok t ↔ x = .str t := by
  cases x <;> simp [textItem, reject]

theorem listsTexts_of_texts {field : String} {x : Json} {ts : List String} (hnull : x ≠ .null)
    (h : texts field x = .ok ts) : ListsTexts x ts := by
  obtain ⟨items, hitems, hts⟩ := bind_eq_ok_iff.mp h
  rw [listItems_eq_ok hnull hitems]
  exact eq_textsToJson_of_forall₂ ((mapM_eq_ok_iff.mp hts).imp fun _ _ => textItem_eq_ok_iff.mp)

theorem listsPorts_of_ports {x : Json} {ps : List String} (hnull : x ≠ .null)
    (h : ports x = .ok ps) : ListsPorts x ps := by
  obtain ⟨items, hitems, hps⟩ := bind_eq_ok_iff.mp h
  refine ⟨items, listItems_eq_ok hnull hitems, (mapM_eq_ok_iff.mp hps).imp fun item p hp => ?_⟩
  cases item with
  | str s => cases hp; exact .text _
  | num n => cases hp; exact .number _
  | _ => cases hp

theorem hostText_of_hostOfMember {m : String × Json} {host : String}
    (h : hostOfMember m = .ok host) : HostText m host := by
  obtain ⟨name, x⟩ := m
  unfold hostOfMember at h
  split at h
  · rename_i address haddress
    cases h
    rcases scalarText?_eq_some_iff.mp haddress with ⟨rfl, rfl⟩ | hscalar
    · simpa using HostText.null name
    · exact .scalar name hscalar
  · cases h

theorem listsHosts_of_hosts {x : Json} {hs : List String} (hnull : x ≠ .null)
    (h : hosts x = .ok hs) : ListsHosts x hs := by
  cases x with
  | null => exact absurd rfl hnull
  | obj ms => exact .mapping ((mapM_eq_ok_iff.mp h).imp fun _ _ => hostText_of_hostOfMember)
  | arr items =>
    have hitems : List.Forall₂ (fun x t => x = .str t) items hs := by
      refine (mapM_eq_ok_iff.mp h).imp fun item host hhost => ?_
      cases item <;> simp_all [hostOfItem, reject]
    rw [eq_textsToJson_of_forall₂ hitems]
    exact .list hs
  | _ => cases h

theorem listsPaths_of_envFiles {x : Json} {paths : List EnvPath} (hnull : x ≠ .null)
    (h : envFiles x = .ok paths) : ListsPaths x paths := by
  simp only [envFiles, bind_eq_ok_iff, Except.ok.injEq, EnvPath.distinct_eq_eraseDups] at h
  obtain ⟨raws, hraws, found, hfound, rfl⟩ := h
  have hread : List.Forall₂ (fun raw p => EnvPath.parse raw = .ok p) raws found :=
    (mapM_eq_ok_iff.mp hfound).imp fun _ _ => envPath_eq_ok_iff.mp
  by_cases htext : ∃ raw, x = .str raw
  · obtain ⟨raw, rfl⟩ := htext
    cases hraws
    obtain ⟨p, _, hp, hnil, rfl⟩ := List.forall₂_cons_left_iff.mp hread
    rw [List.forall₂_nil_left_iff.mp hnil]
    exact .single hp
  · have htexts : texts "env_file" x = .ok raws := by
      cases x <;> simp_all [textOrTexts]
    rw [listsTexts_of_texts hnull htexts]
    exact .list hread

theorem attaches_of_attachments {name : String} {x : Json} {a : Attachments} (hx : x.Distinct)
    (h : attachments name x = .ok a) : Attaches x a := by
  cases x with
  | arr items =>
    obtain ⟨names, hnames, rfl⟩ := map_eq_ok_iff.mp h
    rw [listsTexts_of_texts (by simp) hnames]
    exact .list names
  | obj ms =>
    cases h
    have hentries := Table.entries_ofEntries (Json.distinct_obj_iff.mp hx).1
    simpa only [hentries] using Attaches.table (.ofEntries ms)
  | _ => cases h

theorem listsTexts_of_dependencies {name : String} {x : Json} {ts : List String}
    (h : dependencies name x = .ok ts) : ListsTexts x ts := by
  cases x with
  | arr items => exact listsTexts_of_texts (by simp) h
  | _ => cases h

theorem BuildOf.retains {ms : Entries Json} {b : Build} (h : BuildOf ms b)
    (hms : (Entries.keys ms).Nodup) : BuildRetains ms b where
  context := by
    obtain ⟨o, ho, hcontext⟩ := h.context
    rw [hcontext]
    cases retained_of_optionalText ho with
    | missing hget => exact .missing hget
    | null hget => exact .null hget
    | value hget hnull hvalue =>
      obtain ⟨text, rfl, htext⟩ := hvalue
      exact .value hget hnull htext
  dockerfile := retained_of_optionalText h.dockerfile
  args := retained_of_assignments h.args
  labels := retained_of_assignments h.labels
  extra := h.extra ▸ unnamed_extraMembers hms buildFields

theorem builds_of_build {name : String} {x : Json} {b : Build} (hx : x.Distinct)
    (h : build name x = .ok b) : Builds x b := by
  obtain ⟨⟨context, rfl, rfl⟩ | ⟨ms, rfl, hof⟩, -⟩ := build_eq_ok_iff.mp h
  · exact .context context
  · exact .members (hof.retains (Json.distinct_obj_iff.mp hx).1)

theorem ServiceOf.retains {declared : Declarations} {name : String} {ms : Entries Json}
    {s : Service} (h : ServiceOf declared name ms s) (hms : (Json.obj ms).Distinct) :
    ServiceRetains ms s where
  image := retained_of_optionalText h.image
  build := retained_of_readOption h.build fun _ _ hget _ => builds_of_build (hms.of_get? hget)
  environment := retained_of_assignments h.environment
  envFiles := retained_of_readOption h.envFiles fun _ _ _ => listsPaths_of_envFiles
  dependsOn := retained_of_readField h.dependsOn fun _ _ _ => listsTexts_of_dependencies
  labels := retained_of_assignments h.labels
  ports := retained_of_readField h.ports fun _ _ => listsPorts_of_ports
  volumes := retained_of_readField h.volumes fun _ _ => listsTexts_of_texts
  extraHosts := retained_of_readField h.extraHosts fun _ _ => listsHosts_of_hosts
  networks := retained_of_readOption h.networks fun _ _ hget _ =>
    attaches_of_attachments (hms.of_get? hget)
  extra := h.extra ▸ unnamed_extraMembers (Json.distinct_obj_iff.mp hms).1 serviceFields

theorem ResourceOf.retains {ms : Entries Json} {r : Resource} (h : ResourceOf ms r)
    (hms : (Json.obj ms).Distinct) : ResourceRetains ms r where
  driver := retained_of_optionalText h.driver
  labels := retained_of_assignments h.labels
  external := h.external
  extra := h.extra ▸ unnamed_extraMembers (Json.distinct_obj_iff.mp hms).1 resourceFields

/-- What holds of the members that an entity is read from holds of a null one without any. -/
theorem describes_of_entityMembers {α : Type} {Retains : Entries Json → α → Prop}
    {kind : EntityKind} {name : String} {x : Json} {ms : Entries Json} {a : α} (hx : x.Distinct)
    (hmembers : entityMembers kind name x = .ok ms)
    (h : (Json.obj ms).Distinct → Retains ms a) : Describes Retains x a := by
  cases x with
  | null =>
    cases hmembers
    exact .null (h (by simp [Json.distinct_obj_iff, Entries.keys]))
  | obj found =>
    cases hmembers
    exact .members (h hx)
  | _ => cases hmembers

theorem describes_of_service {declared : Declarations} {name : String} {x : Json} {s : Service}
    (hx : x.Distinct) (h : service declared name x = .ok s) : Describes ServiceRetains x s := by
  obtain ⟨ms, hms, hof⟩ := service_eq_ok_iff.mp h
  exact describes_of_entityMembers hx hms hof.retains

theorem describes_of_resource {kind : EntityKind} {name : String} {x : Json} {r : Resource}
    (hx : x.Distinct) (h : resource kind name x = .ok r) : Describes ResourceRetains x r := by
  obtain ⟨ms, hms, hof⟩ := resource_eq_ok_iff.mp h
  exact describes_of_entityMembers hx hms hof.retains

theorem retained_of_sectionMembers {name : String} {ms es : Entries Json}
    (h : sectionMembers name ms = .ok es) :
    Retained name ms [] (fun x es => x = .obj es) es := by
  unfold sectionMembers at h
  split at h
  · rename_i hget
    cases h
    exact .missing hget
  · rename_i hget
    cases h
    exact .null hget
  · rename_i entries hget
    cases h
    exact .value hget (by simp) rfl
  · cases h

theorem sectionRetains_of_entities {α : Type} {Retains : Entries Json → α → Prop} {name : String}
    {ms es : Entries Json} {read : String → Json → Outcome α} {t : Table α}
    (hms : (Json.obj ms).Distinct) (hes : sectionMembers name ms = .ok es)
    (ht : entities read es = .ok t)
    (hread : ∀ key x a, x.Distinct → read key x = .ok a → Describes Retains x a) :
    SectionRetains Retains name ms t := by
  have hsection := retained_of_sectionMembers hes
  have hdistinct : (Json.obj es).Distinct := by
    cases hsection with
    | missing | null => simp [Json.distinct_obj_iff, Entries.keys]
    | value hget _ hx => exact hx ▸ hms.of_get? hget
  obtain ⟨hnodup, hvalues⟩ := Json.distinct_obj_iff.mp hdistinct
  have hboth := (List.forall₂_and_left es t.entries).mpr ⟨hvalues, forall₂_of_entities hnodup ht⟩
  refine ⟨es, hsection, hboth.imp fun e f hparts => ?_⟩
  obtain ⟨hvalue, hname, hok⟩ := hparts
  exact ⟨hname, hread e.1 e.2 f.2 hvalue hok⟩

/-- Normalization drops nothing. Each section of the composition has the names of the section
of the document in the same order, under each name what the members there stand for, and
next to it the members that have no field, null or not, unchanged and in their order. -/
theorem document_retains {doc : Json} {c : Composition} (hdoc : doc.Distinct)
    (h : document doc = .ok c) : ∃ ms, doc = .obj ms ∧ DocumentRetains ms c := by
  obtain ⟨ms, rfl, hof⟩ := document_eq_ok_iff.mp h
  obtain ⟨services, networks, volumes, hservices, hnetworks, hvolumes, hnetworkTable,
    hvolumeTable, hserviceTable⟩ := hof.sections
  refine ⟨ms, rfl, ?_⟩
  exact {
    version := hof.version_eq ▸ hof.version
    services := sectionRetains_of_entities hdoc hservices hserviceTable
      fun _ _ _ => describes_of_service
    networks := sectionRetains_of_entities hdoc hnetworks hnetworkTable
      fun _ _ _ => describes_of_resource
    volumes := sectionRetains_of_entities hdoc hvolumes hvolumeTable
      fun _ _ _ => describes_of_resource
    nothingElse := hof.keys }

/-- A document with what is easily lost: sections out of order, members without a field of
their own, null ones among them, and a path that is listed twice. -/
def packedDocument : Entries Json := [
  ("volumes", .obj [("data", .obj [("x-size", .null), ("driver", .str "local")])]),
  ("version", .str "2.1"),
  ("services", .obj [
    ("web", .obj [
      ("restart", .null),
      ("build", .obj [("x-cache", .arr [.null]), ("context", .str "site"), ("pull", .bool true)]),
      ("env_file", .arr [.str "./shared", .str "keys", .str "shared"]),
      ("extra_hosts", .obj [("cache", .num (.int 10)), ("store", .null)]),
      ("x-notes", .obj [("owner", .null)]),
      ("depends_on", .arr [.str "db"]),
      ("networks", .arr [.str "inner"])]),
    ("db", .obj [
      ("image", .str "store"),
      ("ports", .arr [.num (.int 80), .str "80:80"]),
      ("cap_add", .arr [.str "ALL"])])]),
  ("networks", .obj [("inner", .obj [("external", .null), ("x-mtu", .num (.int 1400))])])]

def packedFiles : List EnvPath :=
  [⟨["shared".toList], by simp, by decide +kernel⟩, ⟨["keys".toList], by simp, by decide +kernel⟩]

def packed : Composition where
  version := "2.1"
  services := .ofEntries [
    ("web", {
      build := some {
        context := "site"
        extra := .ofEntries [("x-cache", .arr [.null]), ("pull", .bool true)] }
      envFiles := some packedFiles
      extraHosts := ["cache:10", "store:"]
      dependsOn := ["db"]
      networks := some (.list ["inner"])
      extra := .ofEntries [("restart", .null), ("x-notes", .obj [("owner", .null)])] }),
    ("db", {
      image := some "store"
      ports := ["80", "80:80"]
      extra := .ofEntries [("cap_add", .arr [.str "ALL"])] })]
  networks := .ofEntries [("inner", {
    external := some .null
    extra := .ofEntries [("x-mtu", .num (.int 1400))] })]
  volumes := .ofEntries [("data", {
    driver := some "local"
    extra := .ofEntries [("x-size", .null)] })]

theorem document_packed : document (.obj packedDocument) = .ok packed := by
  refine document_obj_eq_ok_iff.mpr ⟨rfl, rfl, by decide +kernel,
    ⟨_, _, _, rfl, rfl, rfl, by decide +kernel, by decide +kernel, by decide +kernel⟩, ?_⟩
  exact (Composition.exists_startupOrder_iff packed).mp ⟨["db", "web"], by cbv⟩

theorem packed_retains : (Json.obj packedDocument).Distinct ∧
    document (.obj packedDocument) = .ok packed ∧ DocumentRetains packedDocument packed := by
  have hdistinct : (Json.obj packedDocument).Distinct := by
    simp [packedDocument, Json.Distinct, Json.DistinctMembers, Json.DistinctItems, Entries.keys]
  obtain ⟨_, hms, hretains⟩ := document_retains hdistinct document_packed
  cases hms
  exact ⟨hdistinct, document_packed, hretains⟩

end Normal

end ContainerStack
