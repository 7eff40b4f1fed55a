import ContainerStack.Startup
import Mathlib.Data.List.Nodup
import Mathlib.Logic.Relation
import Mathlib.Tactic.Tauto

/-!
The depth-first search behind the startup order. Every node of the graph is at
all times unseen, on the stack or finished, and everything above the first
occurrence of an open node can be reached from it. A node is therefore left only
when each of its dependents has been left or reaches it, and the search lists
every node once, before those of its dependents that do not reach it, whenever it
meets no node that depends on itself.
-/

namespace ContainerStack.DependencyGraph

variable {g : DependencyGraph}

/-- The node `b` depends directly on the node `a`. -/
def Edge (g : DependencyGraph) (a b : Nat) : Prop :=
  (a, b) ∈ g.edges

/-- No node reaches itself along one or more edges. -/
def Acyclic (g : DependencyGraph) : Prop :=
  ∀ n, ¬ Relation.TransGen g.Edge n n

/-- Edges join nodes of the graph. -/
def EdgesInside (g : DependencyGraph) : Prop :=
  ∀ a b, g.Edge a b → a ∈ g.nodes ∧ b ∈ g.nodes

theorem mem_dependents_iff {a b : Nat} : b ∈ g.dependents a ↔ g.Edge a b := by
  simp only [dependents, List.mem_filterMap, Edge]
  constructor
  · intro hparts
    obtain ⟨⟨a', b'⟩, hmem, heq⟩ := hparts
    split at heq
    · rename_i ha
      simp only [Option.some.injEq] at heq
      subst ha
      subst heq
      exact hmem
    · contradiction
  · intro h
    exact ⟨(a, b), h, by simp⟩

theorem mem_dependencies_iff {a b : Nat} : a ∈ g.dependencies b ↔ g.Edge a b := by
  simp only [dependencies, List.mem_filterMap, Edge]
  constructor
  · intro hparts
    obtain ⟨⟨a', b'⟩, hmem, heq⟩ := hparts
    split at heq
    · rename_i hb
      simp only [Option.some.injEq] at heq
      subst hb
      subst heq
      exact hmem
    · contradiction
  · intro h
    exact ⟨(a, b), h, by simp⟩

/-- The nodes that the stack gains above `n` when `n` is reached. -/
def opened (g : DependencyGraph) (n : Nat) (unseen : List Nat) : List Nat :=
  ((g.dependents n).filter (· ∈ unseen)).reverse

theorem push_eq (n : Nat) (unseen below : List Nat) :
    g.push n unseen below = g.opened n unseen ++ n :: below := rfl

theorem mem_opened_iff {n a : Nat} {unseen : List Nat} :
    a ∈ g.opened n unseen ↔ g.Edge n a ∧ a ∈ unseen := by
  simp [opened, mem_dependents_iff]

theorem finish_eq_insert (n : Nat) (finished : List Nat) :
    (if n ∈ finished then finished else n :: finished) = finished.insert n := by
  split
  · rename_i hn
    rw [List.insert_of_mem hn]
  · rename_i hn
    rw [List.insert_of_not_mem hn]

/-- What a search that succeeds returns: each node that it started with, once,
and no node that depends on itself was unseen. -/
theorem search_spec {unseen stack finished order : List Nat}
    (hunseen : unseen.Nodup) (hfinished : finished.Nodup)
    (hsearch : g.search unseen stack finished = .ok order) :
    order.Nodup ∧ (∀ n, n ∈ order ↔ n ∈ unseen ∨ n ∈ stack ∨ n ∈ finished) ∧
      ∀ n ∈ unseen, ¬ g.Edge n n := by
  induction unseen, stack, finished using search.induct g with
  | case1 finished =>
    simp only [search, Except.ok.injEq] at hsearch
    subst hsearch
    exact ⟨hfinished, by simp, by simp⟩
  | case2 finished n rest hloop =>
    simp [search, hloop] at hsearch
  | case3 finished n rest hloop ih =>
    simp only [search, hloop, ite_false] at hsearch
    obtain ⟨hnodup, hmem, hloops⟩ := ih (List.nodup_cons.mp hunseen).2 hfinished hsearch
    refine ⟨hnodup, fun m => ?_, fun m hm => ?_⟩
    · rw [hmem m, push_eq]
      simp only [List.mem_append, mem_opened_iff, List.mem_cons, List.not_mem_nil]
      tauto
    · rcases List.mem_cons.mp hm with rfl | hm
      · rwa [← mem_dependents_iff]
      · exact hloops m hm
  | case4 unseen finished n below hseen hloop =>
    rw [search] at hsearch
    simp [hseen, hloop] at hsearch
  | case5 unseen finished n below hseen hloop ih =>
    rw [search] at hsearch
    simp only [hseen, hloop, ite_true, ite_false] at hsearch
    obtain ⟨hnodup, hmem, hloops⟩ := ih (hunseen.erase n) hfinished hsearch
    refine ⟨hnodup, fun m => ?_, fun m hm => ?_⟩
    · rw [hmem m, push_eq]
      simp only [List.mem_append, mem_opened_iff, List.mem_cons, hunseen.mem_erase_iff]
      by_cases hmn : m = n
      · simp [hmn, hseen]
      · simp only [hmn, ne_eq, not_false_eq_true, true_and, false_or]
        tauto
    · by_cases hmn : m = n
      · subst hmn
        rwa [← mem_dependents_iff]
      · exact hloops m (hunseen.mem_erase_iff.mpr ⟨hmn, hm⟩)
  | case6 unseen finished n below hseen ih =>
    rw [search] at hsearch
    simp only [hseen, ite_false] at hsearch
    rw [finish_eq_insert] at hsearch
    simp only [dite_eq_ite, finish_eq_insert] at ih
    obtain ⟨hnodup, hmem, hloops⟩ := ih hunseen hfinished.insert hsearch
    refine ⟨hnodup, fun m => ?_, hloops⟩
    rw [hmem m, List.mem_insert_iff, List.mem_cons]
    tauto

/-- A search fails at a node that depends on itself. -/
theorem edge_of_search_eq_error {unseen stack finished : List Nat} {n : Nat}
    (hsearch : g.search unseen stack finished = .error n) : g.Edge n n := by
  induction unseen, stack, finished using search.induct g with
  | case1 finished => simp [search] at hsearch
  | case2 finished m rest hloop =>
    simp only [search, hloop, ite_true, Except.error.injEq] at hsearch
    exact hsearch ▸ mem_dependents_iff.mp hloop
  | case3 finished m rest hloop ih =>
    simp only [search, hloop, ite_false] at hsearch
    exact ih hsearch
  | case4 unseen finished m below hseen hloop =>
    rw [search] at hsearch
    simp only [hseen, hloop, ite_true, Except.error.injEq] at hsearch
    exact hsearch ▸ mem_dependents_iff.mp hloop
  | case5 unseen finished m below hseen hloop ih =>
    rw [search] at hsearch
    simp only [hseen, hloop, ite_true, ite_false] at hsearch
    exact ih hsearch
  | case6 unseen finished m below hseen ih =>
    rw [search] at hsearch
    simp only [hseen, ite_false] at hsearch
    simp only [dite_eq_ite] at ih
    exact ih hsearch

/-- Every dependent of a node of the list stands after the node or reaches it. -/
def Settled (g : DependencyGraph) : List Nat → Prop
  | [] => True
  | n :: rest =>
    (∀ d, g.Edge n d → d ∈ rest ∨ Relation.TransGen g.Edge d n) ∧ g.Settled rest

/-- What holds between two steps of a search. An open node is one that was seen
and not left; above its first place on the stack stand nodes that it reaches,
among them its dependents that are neither finished nor reach it. -/
structure Progress (g : DependencyGraph) (unseen stack finished : List Nat) : Prop where
  unseen_nodup : unseen.Nodup
  covered : ∀ n ∈ g.nodes, n ∈ unseen ∨ n ∈ stack ∨ n ∈ finished
  settled : g.Settled finished
  reaches : ∀ above n below, stack = above ++ n :: below → n ∉ above → n ∉ unseen →
    n ∉ finished → ∀ a ∈ above, Relation.TransGen g.Edge n a
  pending : ∀ above n below, stack = above ++ n :: below → n ∉ above → n ∉ unseen →
    n ∉ finished → ∀ d, g.Edge n d → d ∈ above ∨ d ∈ finished ∨ Relation.TransGen g.Edge d n

namespace Progress

variable {unseen stack finished below : List Nat} {n : Nat}

/-- The place of an open node on the stack after `n` was reached: it is `n` with
all that was opened above it, or it stood below `n` before. -/
private theorem split_opened {above rest below kids : List Nat} {m : Nat}
    (hsplit : kids ++ n :: below = above ++ m :: rest) (hm : m ∉ above) (hkids : m ∉ kids) :
    (m = n ∧ above = kids) ∨
      ∃ middle, above = kids ++ n :: middle ∧ below = middle ++ m :: rest := by
  rcases List.append_eq_append_iff.mp hsplit with ⟨extra, rfl, htail⟩ | ⟨extra, rfl, htail⟩
  · cases extra with
    | nil =>
      simp only [List.nil_append, List.cons.injEq] at htail
      exact Or.inl ⟨htail.1.symm, by simp⟩
    | cons first middle =>
      simp only [List.cons_append, List.cons.injEq] at htail
      obtain ⟨rfl, rfl⟩ := htail
      exact Or.inr ⟨middle, rfl, rfl⟩
  · cases extra with
    | nil =>
      simp only [List.nil_append, List.cons.injEq] at htail
      exact Or.inl ⟨htail.1, by simp⟩
    | cons first middle =>
      simp only [List.cons_append, List.cons.injEq] at htail
      exact absurd (by simp [htail.1]) hkids

/-- Reaching an unseen node from the top of the stack keeps the invariant. -/
theorem reach (hinside : g.EdgesInside) (hloop : ¬ g.Edge n n)
    (h : g.Progress unseen (n :: below) finished) (hn : n ∈ unseen) :
    g.Progress (unseen.erase n) (g.push n (unseen.erase n) below) finished where
  unseen_nodup := h.unseen_nodup.erase n
  covered := by
    intro m hm
    rw [push_eq]
    simp only [h.unseen_nodup.mem_erase_iff, List.mem_append, List.mem_cons]
    have hcover := h.covered m hm
    rw [List.mem_cons] at hcover
    tauto
  settled := h.settled
  reaches := by
    intro above m rest hsplit hm hunseen hfinished a ha
    have hkids : m ∉ g.opened n (unseen.erase n) := fun hk => hunseen (mem_opened_iff.mp hk).2
    rcases split_opened hsplit hm hkids with ⟨rfl, rfl⟩ | ⟨middle, rfl, rfl⟩
    · exact .single (mem_opened_iff.mp ha).1
    · have hmn : m ≠ n := fun hmn => hm (by simp [hmn])
      have hold := h.reaches (n :: middle) m rest rfl
        (fun hmem => hm (List.mem_append_right _ hmem))
        (fun hmem => hunseen ((List.mem_erase_of_ne hmn).mpr hmem)) hfinished
      rcases List.mem_append.mp ha with hkid | hmiddle
      · exact (hold n List.mem_cons_self).tail (mem_opened_iff.mp hkid).1
      · exact hold a hmiddle
  pending := by
    intro above m rest hsplit hm hunseen hfinished d hd
    have hkids : m ∉ g.opened n (unseen.erase n) := fun hk => hunseen (mem_opened_iff.mp hk).2
    rcases split_opened hsplit hm hkids with ⟨rfl, rfl⟩ | ⟨middle, rfl, rfl⟩
    · have hdm : d ≠ m := fun hdm => hloop (hdm ▸ hd)
      by_cases hdunseen : d ∈ unseen
      · exact Or.inl (mem_opened_iff.mpr ⟨hd, (List.mem_erase_of_ne hdm).mpr hdunseen⟩)
      · by_cases hdfinished : d ∈ finished
        · exact Or.inr (Or.inl hdfinished)
        · -- Otherwise `d` is open below the top of the stack and so reaches it.
          have hdstack : d ∈ m :: below := by
            rcases h.covered d (hinside m d hd).2 with hu | hs | hf
            · exact absurd hu hdunseen
            · exact hs
            · exact absurd hf hdfinished
          obtain ⟨before, after, hplace, hbefore⟩ := List.eq_append_cons_of_mem hdstack
          cases before with
          | nil =>
            simp only [List.nil_append, List.cons.injEq] at hplace
            exact absurd hplace.1.symm hdm
          | cons first others =>
            have hfirst : first = m := by
              simp only [List.cons_append, List.cons.injEq] at hplace
              exact hplace.1.symm
            exact Or.inr (Or.inr (h.reaches (first :: others) d after hplace hbefore hdunseen
              hdfinished m (hfirst ▸ List.mem_cons_self)))
    · have hmn : m ≠ n := fun hmn => hm (by simp [hmn])
      have hold := h.pending (n :: middle) m rest rfl
        (fun hmem => hm (List.mem_append_right _ hmem))
        (fun hmem => hunseen ((List.mem_erase_of_ne hmn).mpr hmem)) hfinished d hd
      rcases hold with habove | hrest
      · exact Or.inl (List.mem_append_right _ habove)
      · exact Or.inr hrest

/-- Starting over from an unseen node on an empty stack keeps the invariant. -/
theorem start {rest : List Nat} (h : g.Progress (n :: rest) [] finished) :
    g.Progress (n :: rest) [n] finished where
  unseen_nodup := h.unseen_nodup
  covered := by
    intro m hm
    have hcover := h.covered m hm
    simp only [List.not_mem_nil] at hcover
    tauto
  settled := h.settled
  reaches := by
    intro above m below hsplit _ hunseen
    have hm : m ∈ [n] := hsplit ▸ List.mem_append_right _ List.mem_cons_self
    exact absurd (List.mem_singleton.mp hm ▸ List.mem_cons_self) hunseen
  pending := by
    intro above m below hsplit _ hunseen
    have hm : m ∈ [n] := hsplit ▸ List.mem_append_right _ List.mem_cons_self
    exact absurd (List.mem_singleton.mp hm ▸ List.mem_cons_self) hunseen

/-- Leaving a seen node keeps the invariant: each of its dependents is finished or
reaches it. -/
theorem leave (h : g.Progress unseen (n :: below) finished) (hn : n ∉ unseen) :
    g.Progress unseen below (finished.insert n) where
  unseen_nodup := h.unseen_nodup
  covered := by
    intro m hm
    rw [List.mem_insert_iff]
    have hcover := h.covered m hm
    rw [List.mem_cons] at hcover
    tauto
  settled := by
    by_cases hfinished : n ∈ finished
    · rw [List.insert_of_mem hfinished]
      exact h.settled
    · rw [List.insert_of_not_mem hfinished]
      refine ⟨fun d hd => ?_, h.settled⟩
      have hdone := h.pending [] n below rfl List.not_mem_nil hn hfinished d hd
      simpa using hdone
  reaches := by
    intro above m rest hsplit hm hunseen hfinished a ha
    rw [List.mem_insert_iff, not_or] at hfinished
    exact h.reaches (n :: above) m rest (by rw [hsplit, List.cons_append])
      (by simp [hm, hfinished.1]) hunseen hfinished.2 a (List.mem_cons_of_mem _ ha)
  pending := by
    intro above m rest hsplit hm hunseen hfinished d hd
    rw [List.mem_insert_iff, not_or] at hfinished
    have hold := h.pending (n :: above) m rest (by rw [hsplit, List.cons_append])
      (by simp [hm, hfinished.1]) hunseen hfinished.2 d hd
    rw [List.mem_insert_iff]
    rw [List.mem_cons] at hold
    tauto

end Progress

/-- A search that succeeds settles what it lists. -/
theorem settled_of_search (hinside : g.EdgesInside) {unseen stack finished order : List Nat}
    (h : g.Progress unseen stack finished)
    (hsearch : g.search unseen stack finished = .ok order) : g.Settled order := by
  induction unseen, stack, finished using search.induct g with
  | case1 finished =>
    simp only [search, Except.ok.injEq] at hsearch
    exact hsearch ▸ h.settled
  | case2 finished n rest hloop => simp [search, hloop] at hsearch
  | case3 finished n rest hloop ih =>
    simp only [search, hloop, ite_false] at hsearch
    have hnext := Progress.reach hinside (mt mem_dependents_iff.mpr hloop) h.start
      List.mem_cons_self
    rw [List.erase_cons_head] at hnext
    exact ih hnext hsearch
  | case4 unseen finished n below hseen hloop =>
    rw [search] at hsearch
    simp [hseen, hloop] at hsearch
  | case5 unseen finished n below hseen hloop ih =>
    rw [search] at hsearch
    simp only [hseen, hloop, ite_true, ite_false] at hsearch
    exact ih (Progress.reach hinside (mt mem_dependents_iff.mpr hloop) h hseen) hsearch
  | case6 unseen finished n below hseen ih =>
    rw [search] at hsearch
    simp only [hseen, ite_false, finish_eq_insert] at hsearch
    simp only [dite_eq_ite, finish_eq_insert] at ih
    exact ih (h.leave hseen) hsearch

/-- The invariant holds where the search of a whole graph begins. -/
theorem progress_nodes (g : DependencyGraph) : g.Progress g.nodes [] [] where
  unseen_nodup := List.nodup_range
  covered := fun _ hn => Or.inl hn
  settled := trivial
  reaches := by simp
  pending := by simp

end ContainerStack.DependencyGraph
