import ContainerStack.Proofs.FixedPoint
import ContainerStack.Proofs.Schema.Written

/-!
Normalizing twice. What the second pass of the pipeline returns, if anything, is
the composition of the first. It returns something exactly when no path of an env
file is blank or looks absolute and the ports and hosts, now lists of texts, are such as
the schema allows: ports that were numbers need not have the form of a port, a
port may be given as a number and as a text, and two hosts of a mapping may be
written alike.
-/

namespace ContainerStack

open Text ContainerStack.Normal

namespace Normal

theorem extraUnnamed_of_build {name : String} {x : Json} {b : Build}
    (h : build name x = .ok b) : b.ExtraUnnamed := by
  obtain ⟨⟨context, -, rfl⟩ | ⟨ms, -, hof⟩, -⟩ := build_eq_ok_iff.mp h
  · simp [Build.ExtraUnnamed]
  · rw [Build.ExtraUnnamed, hof.extra]
    exact notMem_extraMembers _ _

theorem extraUnnamed_of_service {declared : Declarations} {name : String} {x : Json} {s : Service}
    (h : service declared name x = .ok s) : s.ExtraUnnamed := by
  obtain ⟨ms, -, hof⟩ := service_eq_ok_iff.mp h
  refine ⟨?_, fun b hb => ?_⟩
  · rw [hof.extra]
    exact notMem_extraMembers _ _
  · have hbuild := hof.build
    rw [Option.mem_def.mp hb] at hbuild
    obtain ⟨x, -, hread⟩ := exists_read_of_readOption hbuild
    exact extraUnnamed_of_build hread

theorem extraUnnamed_of_resource {kind : EntityKind} {name : String} {x : Json} {r : Resource}
    (h : resource kind name x = .ok r) : r.ExtraUnnamed := by
  obtain ⟨ms, -, hof⟩ := resource_eq_ok_iff.mp h
  rw [Resource.ExtraUnnamed, hof.extra]
  exact notMem_extraMembers _ _

/-- The extra members of what is read are those without a field. -/
theorem extraUnnamed_of_document {ms : Entries Json} {c : Composition} (h : DocumentOf ms c) :
    c.ExtraUnnamed := by
  obtain ⟨services, networks, volumes, -, -, -, hnetworks, hvolumes, hservices⟩ := h.sections
  exact ⟨forall_of_entities hservices fun _ _ _ => extraUnnamed_of_service,
    forall_of_entities hnetworks fun _ _ _ => extraUnnamed_of_resource,
    forall_of_entities hvolumes fun _ _ _ => extraUnnamed_of_resource⟩

end Normal

/-- A written composition is normalized when it passes the check and can be read. -/
theorem normalize_toJson_iff {checking : Checking} {c found : Composition}
    (hversion : c.version = "2.1") :
    normalize checking c.toJson = .ok found ↔
      checking.require .v21 c.toJson = .ok () ∧ Normal.document c.toJson = .ok found := by
  rw [normalize_tidied_eq_ok_iff (Document.resolveVersion_toJson hversion)
    (Document.tidy_toJson hversion), document_eq_ok_iff]
  simp only [Document.upgrade, Except.ok.injEq]

theorem normalize_toJson_eq_ok_iff {c found : Composition} (hversion : c.version = "2.1") :
    normalize .schema c.toJson = .ok found ↔
      (Schema.ofVersion .v21).Valid c.toJson ∧ Normal.document c.toJson = .ok found := by
  rw [normalize_toJson_iff hversion, Checking.require_eq_ok_iff]

/-- What the written form of a normalized composition must not run into: the path of
an env file is refused when it is blank or begins as an absolute one does. -/
structure Composition.Renormalizable (c : Composition) : Prop where
  envFiles_visible : ∀ p, c.EnvFile p → trimChars p.text.toList ≠ []
  envFiles_relative : ∀ p, c.EnvFile p → EnvPath.isAbsolute p.text.toList = false
  lists : ∀ s ∈ c.services.values, s.ListsValid

theorem Composition.forall_envFile_iff (c : Composition) {P : EnvPath → Prop} :
    (∀ p, c.EnvFile p → P p) ↔
      ∀ s ∈ c.services.values, ∀ paths ∈ s.envFiles, ∀ p ∈ paths, P p := by
  constructor
  · exact fun h s hs paths hpaths p hp => h p ⟨s, hs, paths, hpaths, hp⟩
  · rintro h p ⟨s, hs, paths, hpaths, hp⟩
    exact h s hs paths hpaths p hp

theorem Composition.renormalizable_iff {c : Composition} :
    c.Renormalizable ↔
      (∀ p, c.EnvFile p → p.Stable) ∧ ∀ s ∈ c.services.values, s.ListsValid := by
  constructor
  · intro h
    refine ⟨fun p hp => ?_, h.lists⟩
    exact EnvPath.stable_iff.mpr ⟨h.envFiles_visible p hp, h.envFiles_relative p hp⟩
  · intro h
    obtain ⟨hstable, hlists⟩ := h
    exact ⟨fun p hp => (EnvPath.stable_iff.mp (hstable p hp)).1,
      fun p hp => (EnvPath.stable_iff.mp (hstable p hp)).2, hlists⟩

instance (c : Composition) : Decidable c.Renormalizable :=
  decidable_of_iff ((∀ s ∈ c.services.values, ∀ paths ∈ s.envFiles, ∀ p ∈ paths, p.Stable) ∧
      ∀ s ∈ c.services.values, s.ListsValid)
    (by rw [Composition.renormalizable_iff, c.forall_envFile_iff])

/-- Normalizing the result of normalization changes nothing, and succeeds exactly
when the paths, ports and hosts of the result allow it. -/
theorem renormalize_eq_ok_iff {doc : Json} {c : Composition}
    (h : normalize .schema doc = .ok c) :
    (normalize .schema c.toJson = .ok c ↔ c.Renormalizable) ∧
      ∀ found, normalize .schema c.toJson = .ok found → found = c := by
  obtain ⟨v, tidied, ms, -, -, hrequire, hupgrade, hof⟩ := normalize_eq_ok_iff.mp h
  have hcoherent := coherent_of_documentOf hof
  have hextra := extraUnnamed_of_document hof
  have hsections :=
    Schema.sectionsValid_of_upgrade (Checking.require_eq_ok_iff.mp hrequire) hupgrade
  have hlists := Schema.valid_toJson_iff hsections hof
  have hread : ∀ found, Normal.document c.toJson = .ok found →
      (∀ p, c.EnvFile p → p.Stable) ∧ found = c := by
    intro found hfound
    have hstable := stable_of_document hextra hfound
    rw [document_toJson hextra hcoherent hstable, Except.ok.injEq] at hfound
    exact ⟨hstable, hfound.symm⟩
  simp only [normalize_toJson_eq_ok_iff hcoherent.version, hlists,
    Composition.renormalizable_iff]
  refine ⟨⟨?_, ?_⟩, ?_⟩
  · intro hparts
    obtain ⟨hlists, hdocument⟩ := hparts
    exact ⟨(hread c hdocument).1, hlists⟩
  · intro hparts
    obtain ⟨hstable, hlists⟩ := hparts
    exact ⟨hlists, document_toJson hextra hcoherent hstable⟩
  · intro found hparts
    exact (hread found hparts.2).2

theorem renormalize_shop :
    normalize .schema shopDocument = .ok shop ∧ shop.Renormalizable ∧
      normalize .schema shop.toJson = .ok shop := by
  have hshop : shop.Renormalizable := by decide +kernel
  exact ⟨normalize_shop, hshop, (renormalize_eq_ok_iff normalize_shop).1.mpr hshop⟩

/-- The same port, as a number and as a text. -/
def portTwiceDocument : Json := .obj [
  ("version", .str "2.1"),
  ("services", .obj [
    ("web", .obj [
      ("image", .str "store"),
      ("ports", .arr [.num (.int 8080), .str "8080"])])])]

def portTwice : Composition where
  version := "2.1"
  services := .ofEntries [("web", { image := some "store", ports := ["8080", "8080"] })]

/-- The schema allows a port as a number beside the text of that number, but not the
two equal texts that are written for them. -/
theorem not_renormalized_portTwice :
    normalize .schema portTwiceDocument = .ok portTwice ∧
      normalize .schema portTwice.toJson ≠ .ok portTwice := by
  constructor
  · refine normalize_eq_ok_iff.mpr ⟨.v21, _, _, rfl, rfl, by decide +kernel, rfl, ?_⟩
    refine ⟨rfl, rfl, by decide +kernel,
      ⟨_, _, _, rfl, rfl, rfl, by decide +kernel, by decide +kernel, by decide +kernel⟩, ?_⟩
    exact (Composition.exists_startupOrder_iff portTwice).mp ⟨["web"], by cbv⟩
  · intro h
    obtain ⟨hvalid, -⟩ := (normalize_toJson_eq_ok_iff rfl).mp h
    exact absurd hvalid (by decide +kernel)

end ContainerStack
