import ContainerStack.Proofs.Startup.Built

/-!
The service that a failed startup order names. The search leaves a node before one
that depends on it only if the dependent is still open and so reaches the node. A
dependency that the final check finds behind its dependent therefore lies on a cycle
with it. Nodes that merely lead to a cycle, or are led to by one, are never named.
-/

namespace ContainerStack

namespace DependencyGraph

variable {g : DependencyGraph}

/-- The final check reports a dependency that was neither seen nor listed before its
dependent. -/
theorem exists_of_verify_eq_error {seen rest : List Nat} {late : Nat}
    (h : g.verify seen rest = .error late) :
    ∃ left n right, rest = left ++ n :: right ∧ g.Edge late n ∧ late ≠ n ∧ late ∉ left ∧
      late ∉ seen := by
  induction rest generalizing seen with
  | nil => simp [verify] at h
  | cons first rest ih =>
    simp only [verify] at h
    split at h
    · rename_i found hlast
      rw [Except.error.injEq] at h
      subst h
      obtain ⟨hdependency, hnew⟩ := List.mem_filter.mp (List.mem_of_getLast? hlast)
      simp only [List.mem_cons, not_or, decide_eq_true_eq] at hnew
      exact ⟨[], first, rest, rfl, mem_dependencies_iff.mp hdependency, hnew.1, List.not_mem_nil,
        hnew.2⟩
    · obtain ⟨left, n, right, rfl, hedge, hne, hleft, hseen⟩ := ih h
      rw [List.mem_cons, not_or] at hseen
      exact ⟨first :: left, n, right, rfl, hedge, hne, by simp [hseen.1, hleft], hseen.2⟩

theorem sortedNodes_eq_error_iff {n : Nat} :
    g.sortedNodes = .error n ↔ g.search g.nodes [] [] = .error n ∨
      ∃ order, g.search g.nodes [] [] = .ok order ∧ g.verify [] order = .error n := by
  unfold sortedNodes
  split
  · rename_i m hsearch
    simp [hsearch]
  · rename_i order hsearch
    split
    · rename_i m hverify
      simp [hsearch, hverify]
    · rename_i hverify
      simp [hsearch, hverify]

/-- The node at which sorting fails reaches itself. -/
theorem cycle_of_sortedNodes (hinside : g.EdgesInside) {n : Nat} (h : g.sortedNodes = .error n) :
    Relation.TransGen g.Edge n n := by
  rcases sortedNodes_eq_error_iff.mp h with hsearch | ⟨order, hsearch, hverify⟩
  · exact .single (edge_of_search_eq_error hsearch)
  · obtain ⟨hnodup, hmem, -⟩ := search_spec g.progress_nodes.unseen_nodup List.nodup_nil hsearch
    have hsettled := settled_of_search hinside g.progress_nodes hsearch
    obtain ⟨left, m, right, rfl, hedge, hne, hleft, -⟩ := exists_of_verify_eq_error hverify
    -- The search lists every node, so the late one stands behind its dependent `m`.
    have hright : n ∈ right := by
      have hlisted : n ∈ left ++ m :: right := (hmem n).mpr (Or.inl (hinside n m hedge).1)
      simp only [List.mem_append, List.mem_cons] at hlisted
      tauto
    exact .head hedge (hsettled.reaches_of_mem_right hnodup hedge hright)

theorem startupOrder_eq_error_iff {error : StackError} :
    g.startupOrder = .error error ↔
      ∃ n, g.sortedNodes = .error n ∧ error = .fault (.cyclicDependency (g.nameOf n)) := by
  unfold startupOrder
  split
  · rename_i order hsorted
    simp [hsorted]
  · rename_i n hsorted
    simp [hsorted, reject, eq_comm]

theorem getElem?_names_of_mem_nodes {n : Nat} (h : n ∈ g.nodes) :
    g.names[n]? = some (g.nameOf n) := by
  have hlt : n < g.names.length := List.mem_range.mp h
  simp [nameOf, hlt]

end DependencyGraph

open DependencyGraph

/-- A graph that has no startup order, however it was built, is refused in the name of
a node that reaches itself along its edges; so a composition is refused in the name of
a service that depends, over one or more steps, on itself. -/
theorem startupOrder_names_cycle {error : StackError} :
    (∀ g : DependencyGraph, g.Built → g.startupOrder = .error error →
      ∃ n name, g.names[n]? = some name ∧ Relation.TransGen g.Edge n n ∧
        error = .fault (.cyclicDependency name) ∧
        error.message =
          "cyclic dependency detected in depends_on involving service '" ++ name ++ "'") ∧
    ∀ c : Composition, c.startupOrder = .error error →
      ∃ name, Relation.TransGen c.DependsOn name name ∧
        error = .fault (.cyclicDependency name) := by
  constructor
  · intro g hbuilt h
    obtain ⟨n, hsorted, rfl⟩ := startupOrder_eq_error_iff.mp h
    have hcycle := cycle_of_sortedNodes hbuilt.edgesInside hsorted
    obtain ⟨next, hedge, -⟩ := Relation.TransGen.head'_iff.mp hcycle
    exact ⟨n, g.nameOf n, getElem?_names_of_mem_nodes (hbuilt.edgesInside n next hedge).1, hcycle,
      rfl, rfl⟩
  · intro c h
    obtain ⟨n, hsorted, rfl⟩ := startupOrder_eq_error_iff.mp h
    have hcycle := cycle_of_sortedNodes (edgesInside_ofComposition c) hsorted
    exact ⟨_, transGen_dependsOn_of_edge hcycle, rfl⟩

/-- A cycle of `api` and `cache`, which depends on `log` and on which `web` depends. -/
def entangled : DependencyGraph where
  names := ["web", "api", "cache", "log"]
  edges := [(3, 1), (1, 2), (2, 1), (1, 0)]

theorem entangled_names_cache :
    entangled.Built ∧ entangled.startupOrder = .error (.fault (.cyclicDependency "cache")) ∧
      ∃ n name, entangled.names[n]? = some name ∧ Relation.TransGen entangled.Edge n n ∧
        StackError.fault (.cyclicDependency "cache") = .fault (.cyclicDependency name) ∧
        (StackError.fault (.cyclicDependency "cache")).message =
          "cyclic dependency detected in depends_on involving service '" ++ name ++ "'" := by
  have hbuilt : entangled.Built := by
    refine .dependency (.dependency (.dependency (.dependency (built_names _) ?_ ?_) ?_ ?_)
      ?_ ?_) ?_ ?_ <;> decide
  have herror : entangled.startupOrder = .error (.fault (.cyclicDependency "cache")) := by cbv
  exact ⟨hbuilt, herror, startupOrder_names_cycle.1 entangled hbuilt herror⟩

end ContainerStack
