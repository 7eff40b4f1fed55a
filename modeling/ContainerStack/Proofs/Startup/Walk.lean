import ContainerStack.Proofs.Startup.Order

/-!
The final check of a startup order as a walk. From every node of the order a walk
against the edges starts, which does not enter what earlier walks have discovered. A
walk that finds a second node has found a cycle, and this node is reported. No walk
goes further than that, so looking at the direct dependencies of each node, as
`DependencyGraph.verify` does, gives the same answer.
-/

namespace ContainerStack.DependencyGraph

variable {g : DependencyGraph}

/-- The next node of a walk against the edges, with what is then discovered and left on
the stack. Entries of the stack that were discovered since they were pushed are skipped. -/
def nextAgainst (g : DependencyGraph) (discovered : List Nat) :
    List Nat → Option (Nat × List Nat × List Nat)
  | [] => none
  | n :: below =>
    if n ∈ discovered then nextAgainst g discovered below
    else some (n, n :: discovered,
      ((g.dependencies n).filter (· ∉ n :: discovered)).reverse ++ below)

/-- Walks against the edges from each node in turn; the second node of a walk is an error. -/
def walkAgainst (g : DependencyGraph) (discovered : List Nat) : List Nat → Except Nat Unit
  | [] => .ok ()
  | n :: rest =>
    match g.nextAgainst discovered [n] with
    | none => walkAgainst g discovered rest
    | some (_, discovered, stack) =>
      match g.nextAgainst discovered stack with
      | some (late, _, _) => .error late
      | none => walkAgainst g discovered rest

/-- A stack of nodes that were not discovered gives its top. -/
theorem map_fst_nextAgainst {discovered stack : List Nat} (h : ∀ n ∈ stack, n ∉ discovered) :
    (g.nextAgainst discovered stack).map Prod.fst = stack.head? := by
  cases stack with
  | nil => rfl
  | cons n below => simp [nextAgainst, h n List.mem_cons_self]

theorem map_fst_second (g : DependencyGraph) (discovered : List Nat) (n : Nat) :
    (g.nextAgainst (n :: discovered)
      (((g.dependencies n).filter (· ∉ n :: discovered)).reverse ++ [])).map Prod.fst =
      ((g.dependencies n).filter (· ∉ n :: discovered)).getLast? := by
  rw [List.append_nil, map_fst_nextAgainst, List.head?_reverse]
  intro d hd
  simpa using (List.mem_filter.mp (List.mem_reverse.mp hd)).2

/-- From nodes that were not discovered, the walks report what the check by direct
dependencies reports. -/
theorem walkAgainst_eq_verify {discovered order : List Nat} (hnodup : order.Nodup)
    (hfresh : ∀ n ∈ order, n ∉ discovered) :
    g.walkAgainst discovered order = g.verify discovered order := by
  induction order generalizing discovered with
  | nil => rfl
  | cons n rest ih =>
    obtain ⟨hn, hrest⟩ := List.nodup_cons.mp hnodup
    have hlater : ∀ m ∈ rest, m ∉ n :: discovered := by
      intro m hm hmem
      rcases List.mem_cons.mp hmem with rfl | hold
      · exact hn hm
      · exact hfresh m (List.mem_cons_of_mem _ hm) hold
    have hstart : g.nextAgainst discovered [n] = some (n, n :: discovered,
        ((g.dependencies n).filter (· ∉ n :: discovered)).reverse ++ []) := by
      simp only [nextAgainst, if_neg (hfresh n List.mem_cons_self)]
    -- A walk takes its first node in any case; the second is the top of what that pushed.
    have hsecond := g.map_fst_second discovered n
    simp only [walkAgainst, verify, hstart]
    rw [← hsecond]
    cases g.nextAgainst (n :: discovered)
        (((g.dependencies n).filter (· ∉ n :: discovered)).reverse ++ []) with
    | none => exact ih hrest hlater
    | some step => rfl

/-- Sorting is the search followed by the walks against the edges. -/
theorem sortedNodes_eq_walk (g : DependencyGraph) :
    g.sortedNodes = match g.search g.nodes [] [] with
      | .error n => .error n
      | .ok order => (g.walkAgainst [] order).map fun _ => order := by
  unfold sortedNodes
  cases hsearch : g.search g.nodes [] [] with
  | error n => rfl
  | ok order =>
    obtain ⟨hnodup, -, -⟩ := search_spec g.progress_nodes.unseen_nodup List.nodup_nil hsearch
    have hwalk := walkAgainst_eq_verify (g := g) hnodup fun n _ => List.not_mem_nil (a := n)
    simp only [hwalk]
    cases g.verify [] order with
    | error n => rfl
    | ok => rfl

end ContainerStack.DependencyGraph
