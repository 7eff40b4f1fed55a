import ContainerStack.Proofs.Coherence

/-!
Trimmed compositions. The texts of environments, labels and build arguments lose the
blanks at their ends, and all else stays: the names, their order and every other field.
A coherent composition is trimmed as it is.
-/

namespace ContainerStack

open Text

def Build.trimmed (b : Build) : Build :=
  { b with args := b.args.map trim, labels := b.labels.map trim }

def Service.trimmed (s : Service) : Service :=
  { s with
    environment := s.environment.map trim
    labels := s.labels.map trim
    build := s.build.map Build.trimmed }

def Resource.trimmed (r : Resource) : Resource :=
  { r with labels := r.labels.map trim }

def Composition.trimmed (c : Composition) : Composition :=
  { c with
    services := c.services.map Service.trimmed
    networks := c.networks.map Resource.trimmed
    volumes := c.volumes.map Resource.trimmed }

theorem trimmed_of_mem_map {t : KeyValues} : ∀ v ∈ (t.map trim).values, Trimmed v := by
  rw [Table.values_map, List.forall_mem_map]
  exact fun v _ => trimmed_trim v

theorem Build.Coherent.trimmed_eq {b : Build} (h : b.Coherent) : b.trimmed = b := by
  rw [Build.trimmed, Table.map_eq_self_iff.mpr h.args_trimmed,
    Table.map_eq_self_iff.mpr h.labels_trimmed]

theorem Service.Coherent.trimmed_eq {services volumes : List String} {s : Service}
    (h : s.Coherent services volumes) : s.trimmed = s := by
  have hbuild : s.build.map Build.trimmed = s.build := by
    cases hb : s.build with
    | none => rfl
    | some b => rw [Option.map_some, (h.build b hb).trimmed_eq]
  rw [Service.trimmed, Table.map_eq_self_iff.mpr h.environment_trimmed,
    Table.map_eq_self_iff.mpr h.labels_trimmed, hbuild]

theorem Resource.Coherent.trimmed_eq {r : Resource} (h : r.Coherent) : r.trimmed = r := by
  rw [Resource.trimmed, Table.map_eq_self_iff.mpr h.labels_trimmed]

theorem Composition.Coherent.trimmed_eq {c : Composition} (h : c.Coherent) : c.trimmed = c := by
  rw [Composition.trimmed,
    Table.map_eq_self_iff.mpr fun s hs => (h.services s hs).trimmed_eq,
    Table.map_eq_self_iff.mpr fun r hr => (h.networks r hr).trimmed_eq,
    Table.map_eq_self_iff.mpr fun r hr => (h.volumes r hr).trimmed_eq]

end ContainerStack
