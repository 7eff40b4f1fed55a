import ContainerStack.Proofs.Expansion.Opening
import Mathlib.Logic.Relation

/-!
Fetching with a limit on how many files are open at a time. Files are opened in order
while there is room, their answers come in any order, and the first failure that comes
ends the stage. Whatever the limit, a stage that succeeds has the variables of every path
and one that fails reports an unusable file. With room for one file there is no choice:
the stage does what fetching the paths one after another does.
-/

namespace ContainerStack.Expansion

/-- The paths that wait, those whose files are open, all that were opened so far, and the
variables that were fetched. -/
structure Stage where
  waiting : List EnvPath
  active : List EnvPath
  opened : List EnvPath
  fetched : Cache

namespace Stage

def start (ps : List EnvPath) : Stage :=
  ⟨ps, [], [], []⟩

/-- A waiting file is opened when there is room, and an open one comes back at any time. A
limit of zero leaves room for one file. -/
inductive Step (files : ProjectFiles) (limit : Nat) : Stage → Stage → Prop
  | opens {p : EnvPath} {waiting active opened : List EnvPath} {fetched : Cache}
      (hroom : active.length < max limit 1) :
      Step files limit ⟨p :: waiting, active, opened, fetched⟩
        ⟨waiting, active ++ [p], opened ++ [p], fetched⟩
  | returns {p : EnvPath} {vars : KeyValues} {waiting active opened : List EnvPath}
      {fetched : Cache} (hp : p ∈ active) (hfetch : fetch files p = .ok vars) :
      Step files limit ⟨waiting, active, opened, fetched⟩
        ⟨waiting, active.erase p, opened, fetched ++ [(p, vars)]⟩

/-- How a stage ends: with all files fetched, or with one that cannot be used. -/
inductive Ends (files : ProjectFiles) : Stage → Outcome Cache → Prop
  | done {opened : List EnvPath} {fetched : Cache} : Ends files ⟨[], [], opened, fetched⟩ (.ok fetched)
  | fails {stage : Stage} {p : EnvPath} {e : StackError} (hp : p ∈ stage.active)
      (hfetch : fetch files p = .error e) : Ends files stage (.error e)

abbrev Run (files : ProjectFiles) (limit : Nat) : Stage → Stage → Prop :=
  Relation.ReflTransGen (Step files limit)

variable {files : ProjectFiles} {limit : Nat} {ps : List EnvPath} {stage next : Stage}

/-- What has still to be done. -/
def remaining (stage : Stage) : Nat :=
  2 * stage.waiting.length + stage.active.length

theorem remaining_lt_of_step (h : Step files limit stage next) :
    next.remaining < stage.remaining := by
  cases h with
  | opens hroom =>
    simp only [remaining, List.length_cons, List.length_append, List.length_nil]
    omega
  | returns hp hfetch =>
    have hlength := List.length_erase_of_mem hp
    have hpos := List.length_pos_of_mem hp
    simp only [remaining, hlength]
    omega

/-- A stage that has not ended goes on. -/
theorem ends_or_steps (files : ProjectFiles) (limit : Nat) (stage : Stage) :
    (∃ result, Ends files stage result) ∨ ∃ next, Step files limit stage next := by
  obtain ⟨waiting, active, opened, fetched⟩ := stage
  match active, waiting with
  | [], [] => exact .inl ⟨_, .done⟩
  | [], p :: rest => exact .inr ⟨_, .opens (by simp)⟩
  | p :: others, _ =>
    cases hfetch : fetch files p with
    | ok vars => exact .inr ⟨_, .returns List.mem_cons_self hfetch⟩
    | error e => exact .inl ⟨_, .fails (p := p) List.mem_cons_self hfetch⟩

/-- Every stage comes to an end. -/
theorem exists_run_ends (files : ProjectFiles) (limit : Nat) (stage : Stage) :
    ∃ last result, Run files limit stage last ∧ Ends files last result := by
  rcases ends_or_steps files limit stage with ⟨result, hends⟩ | ⟨next, hstep⟩
  · exact ⟨stage, result, .refl, hends⟩
  · obtain ⟨last, result, hrun, hends⟩ := exists_run_ends files limit next
    exact ⟨last, result, .head hstep hrun, hends⟩
termination_by stage.remaining
decreasing_by exact remaining_lt_of_step hstep

/-- What holds of a stage while it fetches the paths, whatever the limit. The opened files
are those that came back and those that did not, in no certain order. -/
structure Sound (files : ProjectFiles) (ps : List EnvPath) (stage : Stage) : Prop where
  paths : stage.opened ++ stage.waiting = ps
  opened : (stage.fetched.map Prod.fst ++ stage.active).Perm stage.opened
  fetched : ∀ e ∈ stage.fetched, fetch files e.1 = .ok e.2

theorem sound_start (files : ProjectFiles) (ps : List EnvPath) : Sound files ps (start ps) :=
  ⟨rfl, .nil, List.forall_mem_nil _⟩

theorem Sound.step (h : Sound files ps stage) (hstep : Step files limit stage next) :
    Sound files ps next := by
  obtain ⟨hpaths, hopened, hfetched⟩ := h
  cases hstep with
  | @opens p waiting active opened fetched hroom =>
    refine ⟨by rw [← hpaths, List.append_assoc, List.singleton_append], ?_, hfetched⟩
    rw [← List.append_assoc]
    exact hopened.append_right [p]
  | @returns p vars waiting active opened fetched hp hfetch =>
    refine ⟨hpaths, ?_, ?_⟩
    · rw [List.map_append, List.map_singleton, List.append_assoc, List.singleton_append]
      exact ((List.perm_cons_erase hp).symm.append_left _).trans hopened
    · simpa only [List.forall_mem_append, List.forall_mem_singleton] using ⟨hfetched, hfetch⟩

theorem Sound.run (h : Sound files ps stage) (hrun : Run files limit stage next) :
    Sound files ps next := by
  induction hrun with
  | refl => exact h
  | tail _ hstep ih => exact ih.step hstep

/-- Fetched variables are determined by their paths. -/
theorem eq_map_of_fetched {cache : Cache} (h : ∀ e ∈ cache, fetch files e.1 = .ok e.2) :
    cache = (cache.map Prod.fst).map fun p => (p, fileVariables files p) := by
  rw [List.map_map]
  refine (List.map_id cache).symm.trans (List.map_congr_left fun e he => ?_)
  rw [Function.comp_apply, fileVariables, h e he]
  rfl

theorem usable_of_fetched {cache : Cache} (h : ∀ e ∈ cache, fetch files e.1 = .ok e.2) :
    ∀ p ∈ cache.map Prod.fst, Usable files p := by
  intro p hp
  obtain ⟨e, he, rfl⟩ := List.mem_map.mp hp
  exact usable_iff.mpr (fetch_eq_ok (h e he))

/-- With nothing left to do, every path is found with its variables. -/
theorem Sound.lookup_of_done {opened : List EnvPath} {fetched : Cache}
    (h : Sound files ps ⟨[], [], opened, fetched⟩) :
    ∀ p ∈ ps, Usable files p ∧ fetched.lookup p = some (fileVariables files p) := by
  intro p hp
  have hopened : p ∈ opened := by
    have hpaths : opened ++ [] = ps := h.paths
    rwa [← hpaths, List.append_nil] at hp
  have hfetched : p ∈ fetched.map Prod.fst := by
    have hperm := h.opened
    rw [List.append_nil] at hperm
    exact hperm.mem_iff.mpr hopened
  refine ⟨usable_of_fetched h.fetched p hfetched, ?_⟩
  have hcache : fetched = _ := eq_map_of_fetched h.fetched
  rw [hcache]
  exact lookup_map hfetched

/-- A file that is open is one of the paths. -/
theorem Sound.mem_of_active (h : Sound files ps stage) {p : EnvPath} (hp : p ∈ stage.active) :
    p ∈ ps := by
  have hopened : p ∈ stage.opened := h.opened.mem_iff.mp (List.mem_append_right _ hp)
  exact h.paths ▸ List.mem_append_left _ hopened

/-- What holds besides with room for one file: answers come in the order of opening. -/
structure Sequential (stage : Stage) : Prop where
  room : stage.active.length ≤ 1
  order : stage.fetched.map Prod.fst ++ stage.active = stage.opened

theorem eq_singleton_of_mem {active : List EnvPath} (hroom : active.length ≤ 1) {p : EnvPath}
    (hp : p ∈ active) : active = [p] := by
  match active with
  | [q] => rw [List.mem_singleton.mp hp]

theorem sequential_start (ps : List EnvPath) : Sequential (start ps) :=
  ⟨Nat.zero_le 1, rfl⟩

theorem Sequential.step (hlimit : limit ≤ 1) (h : Sequential stage)
    (hstep : Step files limit stage next) : Sequential next := by
  obtain ⟨hroom, horder⟩ := h
  cases hstep with
  | @opens p waiting active opened fetched hfree =>
    have hnil : active = [] := List.length_eq_zero_iff.mp (by omega)
    subst hnil
    rw [List.append_nil] at horder
    exact ⟨le_rfl, by rw [List.nil_append, horder]⟩
  | @returns p vars waiting active opened fetched hp hfetch =>
    have hone : active = [p] := eq_singleton_of_mem hroom hp
    subst hone
    refine ⟨by simp, ?_⟩
    rw [← horder, List.erase_cons_head, List.append_nil, List.map_append, List.map_singleton]

theorem Sequential.run (hlimit : limit ≤ 1) (h : Sequential stage)
    (hrun : Run files limit stage next) : Sequential next := by
  induction hrun with
  | refl => exact h
  | tail _ hstep ih => exact ih.step hlimit hstep

/-- With room for one file, a stage ends as fetching the paths one after another does. -/
theorem ends_as_fetchAll (hlimit : limit ≤ 1) {result : Outcome Cache}
    (hrun : Run files limit (start ps) stage) (hends : Ends files stage result) :
    (stage.opened, result) = fetchAll files ps := by
  have hsound : Sound files ps stage := (sound_start files ps).run hrun
  have hsequential : Sequential stage := (sequential_start ps).run hlimit hrun
  have hfetched := usable_of_fetched hsound.fetched
  cases hends with
  | @done opened fetched =>
    have hopened : opened = ps := by
      have hpaths := hsound.paths
      rwa [List.append_nil] at hpaths
    have horder : fetched.map Prod.fst = ps := by
      have horder := hsequential.order
      rwa [List.append_nil, hopened] at horder
    have hcache := eq_map_of_fetched hsound.fetched
    rw [horder] at hfetched hcache
    rw [fetchAll_of_usable hfetched, hopened, ← hcache]
  | @fails stage p e hp hfetch =>
    -- The one open file is the failing one; all that were opened before it came back.
    have hactive : stage.active = [p] := eq_singleton_of_mem hsequential.room hp
    have hopened : stage.opened = stage.fetched.map Prod.fst ++ [p] := by
      rw [← hsequential.order, hactive]
    have hpaths : ps = stage.fetched.map Prod.fst ++ p :: stage.waiting := by
      rw [← hsound.paths, hopened, List.append_assoc, List.singleton_append]
    obtain ⟨problem, hproblem, rfl⟩ := fetch_eq_error_iff.mp hfetch
    rw [hpaths, fetchAll_of_unusable hfetched hproblem, hopened]

end Stage

end ContainerStack.Expansion
