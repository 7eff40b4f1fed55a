import ContainerStack.Proofs.Startup.Order

/-!
Dependencies between the services of a composition. An edge of its graph joins
the places of a declared dependency and of the service that lists it, and a name
that is not declared lists nothing. A composition therefore has a startup order
exactly when no service reaches itself along the dependencies that are listed.
-/

namespace ContainerStack

/-- The service `a` lists `b` among its dependencies. -/
def Composition.DependsOn (c : Composition) (a b : String) : Prop :=
  ∃ e ∈ c.services.entries, e.1 = a ∧ b ∈ e.2.dependsOn

/-- No service reaches itself along one or more dependencies. -/
def Composition.Acyclic (c : Composition) : Prop :=
  ∀ name, ¬ Relation.TransGen c.DependsOn name name

theorem Composition.DependsOn.mem_keys {c : Composition} {a b : String} (h : c.DependsOn a b) :
    a ∈ c.services.keys := by
  obtain ⟨e, he, rfl, -⟩ := h
  exact List.mem_map_of_mem he

namespace DependencyGraph

theorem indexOf?_eq_some_iff {name : String} {names : List String} {i : Nat} :
    indexOf? name names = some i ↔ name ∈ names ∧ names.idxOf name = i := by
  induction names generalizing i with
  | nil => simp [indexOf?]
  | cons first rest ih =>
    simp only [indexOf?]
    by_cases hfirst : first = name
    · simp [hfirst]
    · simp only [hfirst, ite_false, Option.map_eq_some_iff, ih, List.mem_cons,
        List.idxOf_cons_ne _ hfirst, Ne.symm (a := first) hfirst, false_or]
      constructor
      · intro h
        obtain ⟨j, ⟨hmem, rfl⟩, rfl⟩ := h
        exact ⟨hmem, rfl⟩
      · intro h
        obtain ⟨hmem, rfl⟩ := h
        exact ⟨_, ⟨hmem, rfl⟩, rfl⟩

theorem addDependencies_cons (g : DependencyGraph) (name dependency : String)
    (rest : List String) :
    g.addDependencies name (dependency :: rest) =
      (match indexOf? name g.names, indexOf? dependency g.names with
        | some dependent, some dependency => g.addDependency dependent dependency
        | _, _ => g).addDependencies name rest := rfl

/-- The dependencies of one service add edges to it and no nodes. -/
theorem addDependencies_spec (g : DependencyGraph) (name : String) (dependsOn : List String) :
    (g.addDependencies name dependsOn).names = g.names ∧
      ∀ a b, (g.addDependencies name dependsOn).Edge a b ↔ g.Edge a b ∨
        indexOf? name g.names = some b ∧ ∃ d ∈ dependsOn, indexOf? d g.names = some a := by
  induction dependsOn generalizing g with
  | nil => simp [addDependencies]
  | cons dependency rest ih =>
    rw [addDependencies_cons]
    split
    · rename_i dependent target hdependent htarget
      obtain ⟨hnames, hedges⟩ := ih (g.addDependency dependent target)
      refine ⟨hnames, fun a b => ?_⟩
      rw [hedges]
      simp only [Edge, addDependency, List.mem_cons, Prod.mk.injEq, exists_eq_or_imp,
        hdependent, htarget, Option.some.injEq]
      grind
    · rename_i hnone
      obtain ⟨hnames, hedges⟩ := ih g
      refine ⟨hnames, fun a b => ?_⟩
      rw [hedges]
      simp only [List.mem_cons, exists_eq_or_imp]
      grind

/-- Edges of a composition's graph are the declared dependencies of its services. -/
theorem ofComposition_spec (c : Composition) :
    (ofComposition c).names = c.services.keys ∧
      ∀ a b, (ofComposition c).Edge a b ↔ ∃ e ∈ c.services.entries,
        indexOf? e.1 c.services.keys = some b ∧
          ∃ d ∈ e.2.dependsOn, indexOf? d c.services.keys = some a := by
  have hfold : ∀ (es : Entries Service) (g : DependencyGraph),
      (es.foldl (fun g e => g.addDependencies e.1 e.2.dependsOn) g).names = g.names ∧
        ∀ a b, (es.foldl (fun g e => g.addDependencies e.1 e.2.dependsOn) g).Edge a b ↔
          g.Edge a b ∨ ∃ e ∈ es, indexOf? e.1 g.names = some b ∧
            ∃ d ∈ e.2.dependsOn, indexOf? d g.names = some a := by
    intro es
    induction es with
    | nil => simp
    | cons e rest ih =>
      intro g
      obtain ⟨hnames, hedges⟩ := g.addDependencies_spec e.1 e.2.dependsOn
      obtain ⟨hnames', hedges'⟩ := ih (g.addDependencies e.1 e.2.dependsOn)
      refine ⟨by rw [List.foldl_cons, hnames', hnames], fun a b => ?_⟩
      rw [List.foldl_cons, hedges', hedges, hnames]
      simp only [List.mem_cons, exists_eq_or_imp, or_assoc]
  obtain ⟨hnames, hedges⟩ := hfold c.services.entries { names := c.services.keys }
  exact ⟨hnames, fun a b => by rw [ofComposition, hedges]; simp [Edge]⟩

theorem edge_ofComposition_iff {c : Composition} {a b : Nat} :
    (ofComposition c).Edge a b ↔ ∃ x y, c.DependsOn x y ∧ y ∈ c.services.keys ∧
      c.services.keys.idxOf x = b ∧ c.services.keys.idxOf y = a := by
  rw [(ofComposition_spec c).2]
  simp only [indexOf?_eq_some_iff, Composition.DependsOn]
  constructor
  · intro h
    obtain ⟨e, he, ⟨-, hb⟩, d, hd, hmem, ha⟩ := h
    exact ⟨e.1, d, ⟨e, he, rfl, hd⟩, hmem, hb, ha⟩
  · intro h
    obtain ⟨x, y, ⟨e, he, rfl, hd⟩, hmem, hb, ha⟩ := h
    exact ⟨e, he, ⟨List.mem_map_of_mem he, hb⟩, y, hd, hmem, ha⟩

theorem edgesInside_ofComposition (c : Composition) : (ofComposition c).EdgesInside := by
  intro a b hedge
  obtain ⟨x, y, hxy, hy, rfl, rfl⟩ := edge_ofComposition_iff.mp hedge
  rw [nodes, (ofComposition_spec c).1]
  exact ⟨List.mem_range.mpr (List.idxOf_lt_length_iff.mpr hy),
    List.mem_range.mpr (List.idxOf_lt_length_iff.mpr hxy.mem_keys)⟩

theorem dependsOn_of_edge {c : Composition} {a b : Nat} (h : (ofComposition c).Edge a b) :
    c.DependsOn ((ofComposition c).nameOf b) ((ofComposition c).nameOf a) := by
  obtain ⟨x, y, hxy, hy, rfl, rfl⟩ := edge_ofComposition_iff.mp h
  simpa [nameOf, (ofComposition_spec c).1, hy, hxy.mem_keys] using hxy

/-- Along edges of the graph, services lead back to those that they depend on. -/
theorem transGen_dependsOn_of_edge {c : Composition} {a b : Nat}
    (h : Relation.TransGen (ofComposition c).Edge a b) :
    Relation.TransGen c.DependsOn ((ofComposition c).nameOf b) ((ofComposition c).nameOf a) := by
  have hstep : ∀ m n, (ofComposition c).Edge m n →
      Function.swap c.DependsOn ((ofComposition c).nameOf m) ((ofComposition c).nameOf n) :=
    fun _ _ => dependsOn_of_edge
  exact Relation.transGen_swap.mp (Relation.TransGen.lift (ofComposition c).nameOf hstep a b h)

/-- Cycles of the graph are cycles of listed dependencies, and the other way round. -/
theorem acyclic_ofComposition_iff (c : Composition) :
    (ofComposition c).Acyclic ↔ c.Acyclic := by
  constructor
  · intro hgraph name hcycle
    have hpath : ∀ x y, Relation.TransGen c.DependsOn x y → y ∈ c.services.keys →
        Relation.TransGen (ofComposition c).Edge (c.services.keys.idxOf y)
          (c.services.keys.idxOf x) := by
      intro x y hxy
      induction hxy with
      | single hstep =>
        exact fun hy => .single (edge_ofComposition_iff.mpr ⟨_, _, hstep, hy, rfl, rfl⟩)
      | tail _ hstep ih =>
        exact fun hy => .head (edge_ofComposition_iff.mpr ⟨_, _, hstep, hy, rfl, rfl⟩)
          (ih hstep.mem_keys)
    have hname : name ∈ c.services.keys := by
      obtain ⟨next, hstep, -⟩ := Relation.TransGen.head'_iff.mp hcycle
      exact hstep.mem_keys
    exact hgraph _ (hpath name name hcycle hname)
  · exact fun hnames n hcycle => hnames _ (transGen_dependsOn_of_edge hcycle)

end DependencyGraph

/-- A composition has a startup order exactly when its dependencies are acyclic. -/
theorem Composition.exists_startupOrder_iff (c : Composition) :
    (∃ names, c.startupOrder = .ok names) ↔ c.Acyclic := by
  rw [← DependencyGraph.acyclic_ofComposition_iff,
    ← DependencyGraph.exists_sortedNodes_iff (DependencyGraph.edgesInside_ofComposition c)]
  unfold Composition.startupOrder DependencyGraph.startupOrder
  split
  · rename_i order hsorted
    simp [hsorted]
  · rename_i n hsorted
    simp [hsorted, reject]

end ContainerStack
