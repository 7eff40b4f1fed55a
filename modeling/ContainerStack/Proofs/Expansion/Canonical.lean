import ContainerStack.Proofs.EnvPath.Rereading
import ContainerStack.Proofs.Outline

/-!
Expanded compositions are canonical up to white space. Files and variables bring in
names of variables and texts only, and no check looks at either; so what expansion gives
is coherent as soon as its texts are trimmed. Without lists of env files, no path can keep
it from being read again, and reading it does the trimming.
-/

namespace ContainerStack

open Text

namespace Composition

/-- Compositions of one outline can be started alike. -/
theorem acyclic_iff_of_outline {c d : Composition} (h : c.outline = d.outline) :
    c.Acyclic ↔ d.Acyclic := by
  rw [← c.exists_startupOrder_iff, ← d.exists_startupOrder_iff, startupOrder_eq_of_outline h]

theorem outline_trimmed (c : Composition) : c.trimmed.outline = c.outline := by
  simp [outline, trimmed, Table.map, Service.outline, Service.trimmed, Build.trimmed,
    Function.comp_def]

end Composition

namespace Expansion

variable {value : String → Outcome String}

theorem TextsReplaced.keys_trimmed {t u : KeyValues}
    (h : TextsReplaced value t.entries u.entries) : (u.map trim).keys = t.keys :=
  (Table.keys_map trim u).trans h.keys_eq

/-- Whatever replaces the texts of a coherent build, they need trimming at most. -/
theorem BuildReplaced.coherent {b d : Build} (h : BuildReplaced value b d) (hb : b.Coherent) :
    d.trimmed.Coherent where
  args_trimmed := trimmed_of_mem_map
  labels_trimmed := trimmed_of_mem_map
  labels_named := by
    rw [Build.trimmed, h.labels.keys_trimmed]
    exact hb.labels_named

theorem ServiceReplaced.coherent {services volumes : List String} {s t : Service}
    (h : ServiceReplaced value s t) (hs : s.Coherent services volumes) :
    t.trimmed.Coherent services volumes where
  hasSource := by
    have hsource := Service.source?_outline_ne_none_iff.mpr hs.hasSource
    rw [← h.outline] at hsource
    simpa [Service.trimmed] using Service.source?_outline_ne_none_iff.mp hsource
  build := by
    intro trimmed htrimmed
    obtain ⟨d, hd, rfl⟩ := Option.map_eq_some_iff.mp htrimmed
    obtain ⟨b, hb, hparts⟩ := h.exists_build hd
    exact hparts.coherent (hs.build b hb)
  environment_trimmed := trimmed_of_mem_map
  envFiles_nodup := by
    have hnone : t.envFiles = none := by rw [h.others]
    intro paths hpaths
    rw [Service.trimmed, hnone] at hpaths
    cases hpaths
  dependsOn_nodup := by
    rw [Service.trimmed, h.others]
    exact hs.dependsOn_nodup
  dependsOn_declared := by
    rw [Service.trimmed, h.others]
    exact hs.dependsOn_declared
  labels_trimmed := trimmed_of_mem_map
  labels_named := by
    rw [Service.trimmed, h.labels.keys_trimmed]
    exact hs.labels_named
  volumes_named := by
    rw [Service.trimmed, h.others]
    exact hs.volumes_named

theorem ResourceReplaced.coherent {r q : Resource} (h : ResourceReplaced value r q)
    (hr : r.Coherent) : q.trimmed.Coherent where
  labels_trimmed := trimmed_of_mem_map
  labels_named := by
    rw [Resource.trimmed, h.labels.keys_trimmed]
    exact hr.labels_named

theorem ResourceReplaced.extraUnnamed {r q : Resource} (h : ResourceReplaced value r q)
    (hr : r.ExtraUnnamed) : q.ExtraUnnamed := by
  rw [h.others]
  exact hr

namespace Replaced

variable {c e : Composition}

theorem extraUnnamed (h : Replaced value c e) (hc : c.ExtraUnnamed) : e.ExtraUnnamed := by
  obtain ⟨hservices, hnetworks, hvolumes⟩ := hc
  exact ⟨h.services.forall_values (fun _ _ _ => ServiceReplaced.extraUnnamed) hservices,
    h.networks.forall_values (fun _ _ _ => ResourceReplaced.extraUnnamed) hnetworks,
    h.volumes.forall_values (fun _ _ _ => ResourceReplaced.extraUnnamed) hvolumes⟩

theorem not_envFile (h : Replaced value c e) (p : EnvPath) : ¬e.EnvFile p := by
  rintro ⟨t, ht, paths, hpaths, -⟩
  have hnone : ∀ t ∈ e.services.values, t.envFiles = none :=
    h.services.forall_values (P := fun _ => True) (fun _ _ _ hparts _ => by rw [hparts.others])
      fun _ _ => trivial
  rw [hnone t ht] at hpaths
  cases hpaths

/-- No check on a coherent composition can fail on account of new texts and variables. -/
theorem coherent (h : Replaced value c e) (hc : c.Coherent) : e.trimmed.Coherent := by
  have hservices : e.services.keys = c.services.keys := h.services.keys_eq
  have hvolumes : e.volumes.keys = c.volumes.keys := h.volumes.keys_eq
  refine {
    version := ?_, services := ?_, networks := ?_, volumes := ?_, acyclic := ?_ }
  · rw [Composition.trimmed, h.others]
    exact hc.version
  · simp only [Composition.trimmed, Table.keys_map, Table.values_map, List.forall_mem_map,
      hservices, hvolumes]
    exact h.services.forall_values (fun _ _ _ => ServiceReplaced.coherent) hc.services
  · simp only [Composition.trimmed, Table.values_map, List.forall_mem_map]
    exact h.networks.forall_values (fun _ _ _ => ResourceReplaced.coherent) hc.networks
  · simp only [Composition.trimmed, Table.values_map, List.forall_mem_map]
    exact h.volumes.forall_values (fun _ _ _ => ResourceReplaced.coherent) hc.volumes
  · exact (Composition.acyclic_iff_of_outline (e.outline_trimmed.trans h.outline)).mpr hc.acyclic

/-- Whatever replaces its texts, a composition that was read from a document is read back
from its written form with these texts trimmed. -/
theorem document_toJson {doc : Json} {c e : Composition} (h : Replaced value c e)
    (hdocument : Normal.document doc = .ok c) : Normal.document e.toJson = .ok e.trimmed := by
  obtain ⟨ms, -, hof⟩ := Normal.document_eq_ok_iff.mp hdocument
  have hextra : e.ExtraUnnamed := h.extraUnnamed (Normal.extraUnnamed_of_document hof)
  have hcoherent : e.trimmed.Coherent := h.coherent (Normal.coherent_of_documentOf hof)
  exact Normal.document_toJson_trimmed hextra hcoherent fun p hp => absurd hp (h.not_envFile p)

end Replaced

end Expansion

/-- What expansion makes of a normalized composition is read back from its written form
with the texts of environments, labels and build arguments trimmed, and nothing else
about it is different. -/
theorem document_toJson_of_expand {doc : Json} {c e : Composition} {files : ProjectFiles}
    {lookup : Template.Lookup} (h : Normal.document doc = .ok c)
    (he : (c.expand files lookup).result = .ok e) :
    Normal.document e.toJson = .ok e.trimmed :=
  (Composition.replaced_of_expand he).document_toJson h

/-- A document that lists a file under a path which cannot be written and read again. -/
def paddedDocument : Json := .obj [
  ("version", .str "2.1"),
  ("services", .obj [
    ("web", .obj [
      ("image", .str "site"),
      ("env_file", .str "./~/x"),
      ("environment", .obj [("A", .str " $B ")])])])]

def padded : Composition where
  version := "2.1"
  services := .ofEntries [("web", {
    image := some "site"
    environment := .ofEntries [("A", "$B")]
    envFiles := some [EnvPath.tildeFile] })]

/-- The composition with the variable of the file, where `B` stands for a padded text. -/
def expandedPadded : Composition where
  version := "2.1"
  services := .ofEntries [("web", {
    image := some "site"
    environment := .ofEntries [("A", " b "), ("C", " b  b ")] })]

def paddedFiles : ProjectFiles := fun _ => .content "C=$B$B".toUTF8

def paddedB : Template.Lookup := fun name =>
  if name = "B" then some " b " else none

theorem expandedPadded_read_trimmed :
    Normal.document paddedDocument = .ok padded ∧
      (padded.expand paddedFiles paddedB).result = .ok expandedPadded ∧
      Normal.document expandedPadded.toJson = .ok expandedPadded.trimmed ∧
      expandedPadded.trimmed ≠ expandedPadded := by
  have hread : Normal.document paddedDocument = .ok padded := by
    refine Normal.document_eq_ok_iff.mpr ⟨_, rfl, rfl, rfl, by decide +kernel,
      ⟨_, _, _, rfl, rfl, rfl, rfl, rfl, by decide +kernel⟩, ?_⟩
    exact (Composition.exists_startupOrder_iff padded).mp ⟨["web"], by cbv⟩
  have hexpand : (padded.expand paddedFiles paddedB).result = .ok expandedPadded := by
    decide +kernel
  exact ⟨hread, hexpand, document_toJson_of_expand hread hexpand, by decide +kernel⟩

end ContainerStack
