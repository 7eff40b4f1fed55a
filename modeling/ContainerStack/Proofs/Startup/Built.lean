import ContainerStack.Proofs.Startup.Composition
import Mathlib.Data.List.Induction
import Mathlib.Data.List.Permutation

/-!
Graphs as they are built, one service or dependency at a time. Every dependency joins
services that the graph already has, so the search meets nodes only, and a graph has a
startup order exactly when it is acyclic. The order then lists each node once, after
all that it depends on. For a composition the nodes are its services and the
dependencies are the listed names that are declared.
-/

namespace ContainerStack

namespace DependencyGraph

/-- The graphs that adding services and dependencies leads to. Names may be equal,
and a dependency may be added again or join a service to itself. -/
inductive Built : DependencyGraph → Prop
  | empty : Built .empty
  | service {g : DependencyGraph} (name : String) : Built g → Built (g.addService name).2
  | dependency {g : DependencyGraph} {dependent dependency : Nat} : Built g →
      dependent ∈ g.nodes → dependency ∈ g.nodes → Built (g.addDependency dependent dependency)

theorem nodes_subset_addService (g : DependencyGraph) (name : String) :
    ∀ n ∈ g.nodes, n ∈ (g.addService name).2.nodes := by
  intro n hn
  have hlt : n < g.names.length := List.mem_range.mp hn
  refine List.mem_range.mpr ?_
  simp only [addService, List.length_append, List.length_singleton]
  omega

theorem Built.edgesInside {g : DependencyGraph} (h : g.Built) : g.EdgesInside := by
  induction h with
  | empty =>
    intro a b hedge
    cases hedge
  | @service g name _ ih =>
    intro a b hedge
    obtain ⟨ha, hb⟩ := ih a b hedge
    exact ⟨g.nodes_subset_addService name a ha, g.nodes_subset_addService name b hb⟩
  | @dependency g dependent dependency _ hdependent hdependency ih =>
    intro a b hedge
    rcases List.mem_cons.mp hedge with heq | hold
    · obtain ⟨rfl, rfl⟩ := Prod.mk.inj heq
      exact ⟨hdependency, hdependent⟩
    · exact ih a b hold

theorem built_names (names : List String) : Built { names } := by
  induction names using List.reverseRecOn with
  | nil => exact .empty
  | append_singleton rest name ih => exact .service name ih

theorem mem_nodes_of_indexOf? {g : DependencyGraph} {name : String} {i : Nat}
    (h : indexOf? name g.names = some i) : i ∈ g.nodes := by
  obtain ⟨hmem, rfl⟩ := indexOf?_eq_some_iff.mp h
  exact List.mem_range.mpr (List.idxOf_lt_length_iff.mpr hmem)

theorem Built.addDependencies {g : DependencyGraph} (h : g.Built) (name : String)
    (dependsOn : List String) : (g.addDependencies name dependsOn).Built := by
  induction dependsOn generalizing g with
  | nil => exact h
  | cons dependency rest ih =>
    rw [addDependencies_cons]
    split
    · rename_i dependent target hdependent htarget
      exact ih (h.dependency (mem_nodes_of_indexOf? hdependent) (mem_nodes_of_indexOf? htarget))
    · exact ih h

theorem built_ofComposition (c : Composition) : (ofComposition c).Built := by
  have hfold : ∀ (es : Entries Service) (g : DependencyGraph), g.Built →
      (es.foldl (fun g e => g.addDependencies e.1 e.2.dependsOn) g).Built := by
    intro es
    induction es with
    | nil => exact fun g h => h
    | cons e rest ih => exact fun g h => ih _ (h.addDependencies e.1 e.2.dependsOn)
  exact hfold _ _ (built_names _)

theorem startupOrder_eq_ok_iff {g : DependencyGraph} {names : List String} :
    g.startupOrder = .ok names ↔
      ∃ order, g.sortedNodes = .ok order ∧ order.map g.nameOf = names := by
  unfold startupOrder
  split
  · rename_i order hsorted
    simp [hsorted]
  · rename_i n hsorted
    simp [hsorted, reject]

/-- A built graph has a startup order exactly when no node reaches itself. -/
theorem Built.exists_startupOrder_iff {g : DependencyGraph} (h : g.Built) :
    (∃ names, g.startupOrder = .ok names) ↔ g.Acyclic := by
  rw [← exists_sortedNodes_iff h.edgesInside]
  constructor
  · intro hnames
    obtain ⟨names, hnames⟩ := hnames
    obtain ⟨order, hsorted, -⟩ := startupOrder_eq_ok_iff.mp hnames
    exact ⟨order, hsorted⟩
  · intro horder
    obtain ⟨order, hsorted⟩ := horder
    exact ⟨_, startupOrder_eq_ok_iff.mpr ⟨order, hsorted, rfl⟩⟩

/-- The names of a startup order are those of all nodes, each once, dependencies first. -/
theorem Built.orderedNodes_of_startupOrder {g : DependencyGraph} {names : List String}
    (h : g.Built) (hnames : g.startupOrder = .ok names) :
    ∃ order, order.map g.nameOf = names ∧ g.OrderedNodes order := by
  obtain ⟨order, hsorted, hmap⟩ := startupOrder_eq_ok_iff.mp hnames
  exact ⟨order, hmap, orderedNodes_of_sortedNodes h.edgesInside hsorted⟩

theorem OrderedNodes.perm {g : DependencyGraph} {order : List Nat} (h : g.OrderedNodes order) :
    order.Perm g.nodes :=
  (List.perm_ext_iff_of_nodup h.nodup List.nodup_range).mpr h.mem_iff

theorem map_nameOf_nodes (g : DependencyGraph) : g.nodes.map g.nameOf = g.names := by
  refine List.ext_getElem (by simp [nodes]) fun i hleft hright => ?_
  simp [nodes, nameOf, hright]

end DependencyGraph

open DependencyGraph

theorem idxOf_map_of_forall {α : Type} [DecidableEq α] {f : α → String} {a : α} {xs : List α}
    (h : ∀ x ∈ xs, f x = f a → x = a) : (xs.map f).idxOf (f a) = xs.idxOf a := by
  induction xs with
  | nil => rfl
  | cons x rest ih =>
    have hrest := ih fun y hy => h y (List.mem_cons_of_mem _ hy)
    by_cases hx : x = a
    · simp [hx]
    · have hne : f x ≠ f a := fun heq => hx (h x List.mem_cons_self heq)
      rw [List.map_cons, List.idxOf_cons_ne _ hne, List.idxOf_cons_ne _ hx, hrest]

namespace Composition

variable {c : Composition} {names : List String}

theorem nameOf_idxOf {name : String} (h : name ∈ c.services.keys) :
    (ofComposition c).nameOf (c.services.keys.idxOf name) = name := by
  simp [nameOf, (ofComposition_spec c).1, h]

/-- The places of services in the graph are told apart by their names. -/
theorem eq_of_nameOf_eq {n : Nat} {name : String} (hn : n ∈ (ofComposition c).nodes)
    (h : (ofComposition c).nameOf n = name) : n = c.services.keys.idxOf name := by
  have hlt : n < c.services.keys.length := by
    rw [← (ofComposition_spec c).1]
    exact List.mem_range.mp hn
  have hname : c.services.keys[n] = name := by
    simpa [nameOf, (ofComposition_spec c).1, hlt] using h
  have hnodup : c.services.keys.Nodup := c.services.nodup
  rw [← hname, hnodup.idxOf_getElem n hlt]

/-- The startup order of a composition is a rearrangement of its services. -/
theorem perm_of_startupOrder (h : c.startupOrder = .ok names) : names.Perm c.services.keys := by
  obtain ⟨order, rfl, horder⟩ := (built_ofComposition c).orderedNodes_of_startupOrder h
  have hperm := horder.perm.map (ofComposition c).nameOf
  rwa [map_nameOf_nodes, (ofComposition_spec c).1] at hperm

/-- A declared dependency stands before every service that lists it. -/
theorem idxOf_lt_of_dependsOn (h : c.startupOrder = .ok names) {a b : String}
    (hab : c.DependsOn a b) (hb : b ∈ c.services.keys) : names.idxOf b < names.idxOf a := by
  obtain ⟨order, rfl, horder⟩ := (built_ofComposition c).orderedNodes_of_startupOrder h
  -- Names of services differ, so a name has the position of its node.
  have hplace : ∀ name ∈ c.services.keys, (order.map (ofComposition c).nameOf).idxOf name =
      order.idxOf (c.services.keys.idxOf name) := by
    intro name hname
    have hplaces : ∀ n ∈ order, (ofComposition c).nameOf n =
        (ofComposition c).nameOf (c.services.keys.idxOf name) → n = c.services.keys.idxOf name := by
      intro n hn heq
      rw [nameOf_idxOf hname] at heq
      exact eq_of_nameOf_eq ((horder.mem_iff n).mp hn) heq
    have hmap := idxOf_map_of_forall hplaces
    rwa [nameOf_idxOf hname] at hmap
  rw [hplace b hb, hplace a hab.mem_keys]
  exact horder.before _ _ (edge_ofComposition_iff.mpr ⟨a, b, hab, hb, rfl, rfl⟩)

end Composition

/-- A graph, however it was built, has a startup order exactly when no node reaches
itself, and the order lists every node once, after its dependencies. The graph of a
composition is built from its services and joins those that list each other, so the
same holds of the services by name. -/
theorem startupOrder_iff_acyclic :
    (∀ g : DependencyGraph, g.Built →
      ((∃ names, g.startupOrder = .ok names) ↔ g.Acyclic) ∧
        ∀ names, g.startupOrder = .ok names →
          ∃ order, order.map g.nameOf = names ∧ g.OrderedNodes order) ∧
    ∀ c : Composition, (ofComposition c).Built ∧
      (∀ m n, (ofComposition c).Edge m n ↔ ∃ a b, c.DependsOn a b ∧ b ∈ c.services.keys ∧
        c.services.keys.idxOf a = n ∧ c.services.keys.idxOf b = m) ∧
      ((∃ names, c.startupOrder = .ok names) ↔ c.Acyclic) ∧
      ∀ names, c.startupOrder = .ok names → names.Perm c.services.keys ∧
        ∀ a b, c.DependsOn a b → b ∈ c.services.keys → names.idxOf b < names.idxOf a := by
  constructor
  · exact fun g h => ⟨h.exists_startupOrder_iff, fun names => h.orderedNodes_of_startupOrder⟩
  · intro c
    exact ⟨built_ofComposition c, fun m n => edge_ofComposition_iff, c.exists_startupOrder_iff,
      fun names h => ⟨Composition.perm_of_startupOrder h,
        fun a b hab hb => Composition.idxOf_lt_of_dependsOn h hab hb⟩⟩

/-- Two services of one name, the second of which depends twice on a third. -/
def twins : DependencyGraph where
  names := ["app", "app", "store"]
  edges := [(2, 1), (2, 1)]

theorem twins_startupOrder :
    twins.Built ∧ twins.startupOrder = .ok ["store", "app", "app"] ∧
      ∃ order, order.map twins.nameOf = ["store", "app", "app"] ∧ twins.OrderedNodes order := by
  have hbuilt : twins.Built := by
    refine .dependency (g := { names := ["app", "app", "store"], edges := [(2, 1)] })
      (.dependency (built_names _) ?_ ?_) ?_ ?_ <;> decide
  have hnames : twins.startupOrder = .ok ["store", "app", "app"] := by cbv
  exact ⟨hbuilt, hnames, (startupOrder_iff_acyclic.1 twins hbuilt).2 _ hnames⟩

end ContainerStack
