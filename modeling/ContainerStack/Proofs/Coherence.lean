import ContainerStack.Proofs.EnvPath
import ContainerStack.Proofs.Pipeline

/-!
Coherent compositions. Whatever document is normalized, with the schema or
without it, the services of the result have an image or a build, refer to declared
services and volumes only, can be started in some order, and all names of labels
and texts under names are in their one form.
-/

namespace ContainerStack

open Text ContainerStack.Normal

structure Build.Coherent (b : Build) : Prop where
  args_trimmed : ∀ v ∈ b.args.values, Trimmed v
  labels_trimmed : ∀ v ∈ b.labels.values, Trimmed v
  labels_named : ∀ key ∈ b.labels.keys, LabelName key

/-- A service among declared services and volumes. -/
structure Service.Coherent (services volumes : List String) (s : Service) : Prop where
  hasSource : s.image ≠ none ∨ s.build ≠ none
  build : ∀ b, s.build = some b → b.Coherent
  environment_trimmed : ∀ v ∈ s.environment.values, Trimmed v
  envFiles_nodup : ∀ paths, s.envFiles = some paths → (paths.map EnvPath.text).Nodup
  dependsOn_nodup : s.dependsOn.Nodup
  dependsOn_declared : ∀ d ∈ s.dependsOn, d ∈ services
  labels_trimmed : ∀ v ∈ s.labels.values, Trimmed v
  labels_named : ∀ key ∈ s.labels.keys, LabelName key
  volumes_named : ∀ entry ∈ s.volumes, NamedMount volumes entry

structure Resource.Coherent (r : Resource) : Prop where
  labels_trimmed : ∀ v ∈ r.labels.values, Trimmed v
  labels_named : ∀ key ∈ r.labels.keys, LabelName key

/-- The invariants of compositions across and within their entities. -/
structure Composition.Coherent (c : Composition) : Prop where
  version : c.version = "2.1"
  services : ∀ s ∈ c.services.values, s.Coherent c.services.keys c.volumes.keys
  networks : ∀ r ∈ c.networks.values, r.Coherent
  volumes : ∀ r ∈ c.volumes.values, r.Coherent
  acyclic : c.Acyclic

/-- Between slashes, a path has names only. -/
def EnvPath.Plain (p : EnvPath) : Prop :=
  ∀ segment ∈ pieces (· == '/') p.text.toList,
    segment ≠ [] ∧ segment ≠ ['.'] ∧ segment ≠ ['.', '.']

/-- The env files that services list. -/
def Composition.EnvFile (c : Composition) (p : EnvPath) : Prop :=
  ∃ s ∈ c.services.values, ∃ paths, s.envFiles = some paths ∧ p ∈ paths

theorem EnvPath.plain (p : EnvPath) : p.Plain := by
  intro segment hsegment
  rw [pieces_slash_text] at hsegment
  obtain ⟨hnil, hdot, hup, -⟩ := p.proper segment hsegment
  exact ⟨hnil, hdot, hup⟩

theorem Normal.NamedMount.mono {volumes declared : List String} {entry : String}
    (h : NamedMount volumes entry) (hsub : ∀ v ∈ volumes, v ∈ declared) :
    NamedMount declared entry := by
  obtain ⟨source, target, hentry, hcolon, hsource, htarget, hslash, hback, hmem⟩ := h
  exact ⟨source, target, hentry, hcolon, hsource, htarget, hslash, hback, hsub _ hmem⟩

namespace Normal

/-- Texts under names are trimmed wherever an entity has them. -/
theorem trimmed_of_readField {key field : String} {ms : Entries Json} {t : KeyValues}
    (h : readField key ms .empty (assignments field) = .ok t) : ∀ v ∈ t.values, Trimmed v := by
  rcases readField_eq_ok_iff.mp h with ⟨-, rfl⟩ | ⟨x, -, hx⟩
  · simp
  · exact trimmed_of_assignments hx

theorem coherent_of_build {name : String} {raw : Json} {b : Build}
    (h : build name raw = .ok b) : b.Coherent := by
  obtain ⟨hform, hlabels⟩ := build_eq_ok_iff.mp h
  rcases hform with ⟨context, -, rfl⟩ | ⟨ms, -, hb⟩
  · refine ⟨?_, ?_, hlabels⟩ <;> simp
  · exact ⟨trimmed_of_readField hb.args, trimmed_of_readField hb.labels, hlabels⟩

theorem nodup_of_envFiles {raw : Json} {paths : List EnvPath} (h : envFiles raw = .ok paths) :
    (paths.map EnvPath.text).Nodup := by
  simp only [envFiles, bind_eq_ok_iff, Except.ok.injEq] at h
  obtain ⟨texts, -, found, -, rfl⟩ := h
  exact (EnvPath.nodup_distinct found).map fun _ _ heq => EnvPath.text_injective heq

theorem ServiceOf.coherent {declared : Declarations} {name : String} {ms : Entries Json}
    {s : Service} {services volumes : List String} (h : ServiceOf declared name ms s)
    (hservices : ∀ d ∈ declared.services, d ∈ services)
    (hvolumes : ∀ v ∈ declared.volumes, v ∈ volumes) : s.Coherent services volumes where
  hasSource := h.hasSource
  build := by
    intro b hb
    obtain ⟨x, -, hread⟩ := exists_read_of_readOption (hb ▸ h.build)
    exact coherent_of_build hread
  environment_trimmed := trimmed_of_readField h.environment
  envFiles_nodup := by
    intro paths hpaths
    obtain ⟨x, -, hread⟩ := exists_read_of_readOption (hpaths ▸ h.envFiles)
    exact nodup_of_envFiles hread
  dependsOn_nodup := h.dependsOn_nodup
  dependsOn_declared := fun d hd => hservices d (h.dependsOn_declared d hd)
  labels_trimmed := trimmed_of_readField h.labels
  labels_named := h.labels_named
  volumes_named := fun entry hentry => (h.volumes_named entry hentry).mono hvolumes

theorem ResourceOf.coherent {ms : Entries Json} {r : Resource} (h : ResourceOf ms r) :
    r.Coherent :=
  ⟨trimmed_of_readField h.labels, h.labels_named⟩

theorem coherent_of_resources {kind : EntityKind} {es : Entries Json} {t : Table Resource}
    (h : entities (resource kind) es = .ok t) : ∀ r ∈ t.values, r.Coherent := by
  refine forall_of_entities h fun name x r hread => ?_
  obtain ⟨ms, -, hof⟩ := resource_eq_ok_iff.mp hread
  exact hof.coherent

theorem coherent_of_documentOf {ms : Entries Json} {c : Composition} (hof : DocumentOf ms c) :
    c.Coherent := by
  obtain ⟨services, networks, volumes, -, -, -, hnetworks, hvolumes, hservices⟩ := hof.sections
  refine ⟨hof.version_eq, forall_of_entities hservices fun name x s hread => ?_,
    coherent_of_resources hnetworks, coherent_of_resources hvolumes, hof.acyclic⟩
  obtain ⟨members, -, hservice⟩ := service_eq_ok_iff.mp hread
  exact hservice.coherent (fun d hd => ((mem_of_entities hservices).1 d).mpr hd)
    (fun v hv => ((mem_of_entities hvolumes).1 v).mpr hv)

end Normal

/-- Every normalized composition is coherent, and its env files are listed by
paths that name each of their segments. -/
theorem coherent_of_normalize {checking : Checking} {doc : Json} {c : Composition}
    (h : normalize checking doc = .ok c) :
    c.Coherent ∧ ∀ p, c.EnvFile p → p.Plain := by
  obtain ⟨v, tidied, ms, -, -, -, -, hof⟩ := normalize_eq_ok_iff.mp h
  exact ⟨coherent_of_documentOf hof, fun p _ => p.plain⟩

/-- A document of an earlier format, with labels in a list, a port as a number, a
build and an env file in short, and an empty volume. -/
def shopDocument : Json := .obj [
  ("version", .str "2"),
  ("services", .obj [
    ("web", .obj [
      ("build", .str "site"),
      ("depends_on", .arr [.str "db"]),
      ("env_file", .str "./env//web"),
      ("labels", .arr [.str "org.tier-1 =  front "]),
      ("ports", .arr [.num (.int 8080), .str "80:80"]),
      ("restart", .str "always")]),
    ("db", .obj [
      ("image", .str "store"),
      ("environment", .obj [("SIZE", .str " 5 ")]),
      ("volumes", .arr [.str "data:/var/data"])])]),
  ("volumes", .obj [("data", .null)])]

def shopFile : EnvPath :=
  ⟨["env".toList, "web".toList], by simp, by decide +kernel⟩

def shop : Composition where
  version := "2.1"
  services := .ofEntries [
    ("web", {
      build := some { context := "site" }
      dependsOn := ["db"]
      envFiles := some [shopFile]
      labels := .ofEntries [("org.tier-1", "front")]
      ports := ["8080", "80:80"]
      extra := .ofEntries [("restart", .str "always")] }),
    ("db", {
      image := some "store"
      environment := .ofEntries [("SIZE", "5")]
      volumes := ["data:/var/data"] })]
  volumes := .ofEntries [("data", {})]

theorem normalize_shop : normalize .schema shopDocument = .ok shop := by
  refine normalize_eq_ok_iff.mpr ⟨.v20, _, _, rfl, rfl, by decide +kernel, rfl, ?_⟩
  refine ⟨rfl, rfl, by decide +kernel,
    ⟨_, _, _, rfl, rfl, rfl, by decide +kernel, by decide +kernel, by decide +kernel⟩, ?_⟩
  exact (Composition.exists_startupOrder_iff shop).mp ⟨["db", "web"], by cbv⟩

theorem coherent_shop :
    normalize .schema shopDocument = .ok shop ∧
      shop.Coherent ∧ ∀ p, shop.EnvFile p → p.Plain :=
  ⟨normalize_shop, coherent_of_normalize normalize_shop⟩

end ContainerStack
