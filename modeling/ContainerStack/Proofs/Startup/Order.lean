import ContainerStack.Proofs.Startup.Search

/-!
Startup orders exist exactly on acyclic graphs. A list that passes the final
check puts every dependency before what depends on it, so a chain of edges can
only move forward in it; conversely the search of an acyclic graph returns such
a list. For compositions the edges are the dependencies between services.
-/

namespace ContainerStack.DependencyGraph

variable {g : DependencyGraph}

/-- The list holds every node once, dependencies first. -/
structure OrderedNodes (g : DependencyGraph) (order : List Nat) : Prop where
  nodup : order.Nodup
  mem_iff : ∀ n, n ∈ order ↔ n ∈ g.nodes
  before : ∀ a b, g.Edge a b → order.idxOf a < order.idxOf b

/-- The final check passes when every dependency is known before or is the node
itself. -/
theorem verify_eq_ok_iff (seen rest : List Nat) :
    g.verify seen rest = .ok () ↔
      ∀ left n right, rest = left ++ n :: right →
        ∀ d, g.Edge d n → d = n ∨ d ∈ left ∨ d ∈ seen := by
  induction rest generalizing seen with
  | nil => simp [verify]
  | cons first rest ih =>
    have hhead : ((g.dependencies first).filter (· ∉ first :: seen)).getLast? = none ↔
        ∀ d, g.Edge d first → d = first ∨ d ∈ seen := by
      simp only [List.getLast?_eq_none_iff, List.filter_eq_nil_iff, mem_dependencies_iff,
        decide_eq_true_eq, not_not, List.mem_cons]
    constructor
    · intro h left n right hsplit d hd
      simp only [verify] at h
      split at h
      · contradiction
      · rename_i hnone
        cases left with
        | nil =>
          simp only [List.nil_append, List.cons.injEq] at hsplit
          obtain ⟨rfl, rfl⟩ := hsplit
          rcases hhead.mp hnone d hd with heq | hseen
          · exact Or.inl heq
          · exact Or.inr (Or.inr hseen)
        | cons other left =>
          simp only [List.cons_append, List.cons.injEq] at hsplit
          obtain ⟨rfl, rfl⟩ := hsplit
          have hrest := (ih (first :: seen)).mp h left n right rfl d hd
          simp only [List.mem_cons] at hrest ⊢
          tauto
    · intro h
      have hnone := hhead.mpr fun d hd => by simpa using h [] first rest rfl d hd
      simp only [verify, hnone]
      refine (ih (first :: seen)).mpr fun left n right hsplit d hd => ?_
      have hrest := h (first :: left) n right (by rw [hsplit, List.cons_append]) d hd
      simp only [List.mem_cons] at hrest ⊢
      tauto

/-- In a settled list, a node reaches whatever it depends on and stands before. -/
theorem Settled.reaches_of_mem_right {left right : List Nat} {n d : Nat}
    (hsettled : g.Settled (left ++ n :: right)) (hnodup : (left ++ n :: right).Nodup)
    (hd : g.Edge d n) (hright : d ∈ right) : Relation.TransGen g.Edge n d := by
  induction left with
  | nil =>
    have hn : n ∉ right := (List.nodup_cons.mp hnodup).1
    have hrest : g.Settled right := hsettled.2
    clear hsettled hnodup
    induction right with
    | nil => exact absurd hright List.not_mem_nil
    | cons first rest ih =>
      have hnrest : n ∉ rest := fun hmem => hn (List.mem_cons_of_mem _ hmem)
      rcases List.mem_cons.mp hright with rfl | hlater
      · exact (hrest.1 n hd).resolve_left hnrest
      · exact ih hlater hnrest hrest.2
  | cons first left ih => exact ih hsettled.2 (List.nodup_cons.mp hnodup).2

theorem sortedNodes_eq_ok_iff {order : List Nat} :
    g.sortedNodes = .ok order ↔
      g.search g.nodes [] [] = .ok order ∧ g.verify [] order = .ok () := by
  unfold sortedNodes
  split
  · rename_i hsearch
    simp [hsearch]
  · rename_i found hsearch
    split
    · rename_i hverify
      simp only [reduceCtorEq, hsearch, Except.ok.injEq, false_iff, not_and]
      rintro rfl
      simp [hverify]
    · rename_i hverify
      simp only [Except.ok.injEq, hsearch]
      constructor
      · rintro rfl
        exact ⟨rfl, hverify⟩
      · exact fun h => h.1

/-- An order that is found lists every node once, dependencies first. -/
theorem orderedNodes_of_sortedNodes {order : List Nat} (hinside : g.EdgesInside)
    (h : g.sortedNodes = .ok order) : g.OrderedNodes order := by
  obtain ⟨hsearch, hverify⟩ := sortedNodes_eq_ok_iff.mp h
  obtain ⟨hnodup, hmem, hloops⟩ :=
    search_spec g.progress_nodes.unseen_nodup List.nodup_nil hsearch
  have hnodes : ∀ n, n ∈ order ↔ n ∈ g.nodes := by simpa using hmem
  refine ⟨hnodup, hnodes, fun a b hab => ?_⟩
  obtain ⟨left, right, hsplit, hleft⟩ :=
    List.eq_append_cons_of_mem ((hnodes b).mpr (hinside a b hab).2)
  have hfirst : a ∈ left := by
    rcases (verify_eq_ok_iff [] order).mp hverify left b right hsplit a hab with rfl | hl | hs
    · exact absurd hab (hloops a (hinside a a hab).1)
    · exact hl
    · exact absurd hs List.not_mem_nil
  subst hsplit
  rw [List.idxOf_append_of_mem hfirst, List.idxOf_append_of_notMem hleft, List.idxOf_cons_self]
  simpa using List.idxOf_lt_length_iff.mpr hfirst

theorem acyclic_of_orderedNodes {order : List Nat} (h : g.OrderedNodes order) :
    g.Acyclic := by
  intro n hcycle
  have hforward : ∀ b, Relation.TransGen g.Edge n b → order.idxOf n < order.idxOf b := by
    intro b hreach
    induction hreach with
    | single hedge => exact h.before _ _ hedge
    | tail _ hedge ih => exact Nat.lt_trans ih (h.before _ _ hedge)
  exact Nat.lt_irrefl _ (hforward n hcycle)

/-- A graph has a startup order exactly when it is acyclic. -/
theorem exists_sortedNodes_iff (hinside : g.EdgesInside) :
    (∃ order, g.sortedNodes = .ok order) ↔ g.Acyclic := by
  constructor
  · intro hparts
    obtain ⟨order, h⟩ := hparts
    exact acyclic_of_orderedNodes (orderedNodes_of_sortedNodes hinside h)
  · intro hacyclic
    cases hsearch : g.search g.nodes [] [] with
    | error n => exact absurd (.single (edge_of_search_eq_error hsearch)) (hacyclic n)
    | ok order =>
      obtain ⟨hnodup, hmem, -⟩ := search_spec g.progress_nodes.unseen_nodup List.nodup_nil hsearch
      have hsettled := settled_of_search hinside g.progress_nodes hsearch
      refine ⟨order, sortedNodes_eq_ok_iff.mpr ⟨hsearch, ?_⟩⟩
      refine (verify_eq_ok_iff [] order).mpr fun left n right hsplit d hd => ?_
      have hlisted : d ∈ order := (hmem d).mpr (Or.inl (hinside d n hd).1)
      subst hsplit
      have hright : d ∉ right := fun hmem =>
        hacyclic n ((hsettled.reaches_of_mem_right hnodup hd hmem).tail hd)
      simp only [List.mem_append, List.mem_cons] at hlisted
      tauto

end ContainerStack.DependencyGraph
