import ContainerStack.Expansion
import ContainerStack.Proofs.EnvPath
import ContainerStack.Proofs.Expansion.Fill

/-!
Fetched files and what becomes of them. When all files can be used, each path is
found with the variables of its file, whoever lists it, and merging the files of a
service fills its environment from them in the order of the list.
-/

namespace ContainerStack.Expansion

/-- The variables of a file, none if it cannot be used. -/
def fileVariables (files : ProjectFiles) (path : EnvPath) : KeyValues :=
  match fetch files path with
  | .ok vars => vars
  | .error _ => .empty

theorem fetch_eq_ok {files : ProjectFiles} {path : EnvPath} {vars : KeyValues}
    (h : fetch files path = .ok vars) : fetch files path = .ok (fileVariables files path) := by
  rw [fileVariables, h]

/-- Fetching succeeds when every file can be used, and keeps each path with the
variables of its file. -/
theorem fetchAll_eq_ok_iff {files : ProjectFiles} {listed : List EnvPath} {cache : Cache} :
    (fetchAll files listed).2 = .ok cache ↔
      (∀ p ∈ listed, fetch files p = .ok (fileVariables files p)) ∧
        cache = listed.map fun p => (p, fileVariables files p) := by
  induction listed generalizing cache with
  | nil => simp [fetchAll, eq_comm]
  | cons path rest ih =>
    cases hfetch : fetch files path with
    | error e =>
      simp [fetchAll, hfetch]
    | ok vars =>
      have hvars : fileVariables files path = vars := by
        rw [fileVariables, hfetch]
      simp only [fetchAll, hfetch, map_eq_ok_iff, ih, List.forall_mem_cons, hvars, true_and,
        List.map_cons]
      constructor
      · intro h
        obtain ⟨_, ⟨hrest, rfl⟩, rfl⟩ := h
        exact ⟨hrest, rfl⟩
      · intro h
        obtain ⟨hrest, rfl⟩ := h
        exact ⟨_, ⟨hrest, rfl⟩, rfl⟩

theorem lookup_map {f : EnvPath → KeyValues} {listed : List EnvPath} {p : EnvPath}
    (h : p ∈ listed) : (listed.map fun p => (p, f p)).lookup p = some (f p) := by
  induction listed with
  | nil => simp at h
  | cons first rest ih =>
    rw [List.map_cons, List.lookup_cons]
    by_cases heq : p = first
    · simp [heq]
    · have hne : (p == first) = false := by simpa using heq
      rw [hne]
      exact ih ((List.mem_cons.mp h).resolve_left heq)

theorem mem_paths_iff {c : Composition} {p : EnvPath} :
    p ∈ paths c ↔ ∃ s ∈ c.services.values, p ∈ s.envFiles.getD [] := by
  rw [paths, EnvPath.mem_distinct_iff, List.mem_flatMap]

/-- Merging fetched files fills the environment from each of them in turn. -/
theorem mergeFiles_eq_ok {cache : Cache} {f : EnvPath → KeyValues} {listed : List EnvPath}
    (h : ∀ p ∈ listed, cache.lookup p = some (f p)) (name : String) (environment : KeyValues) :
    mergeFiles cache name environment listed =
      .ok ((listed.map f).foldl Table.fillFrom environment) := by
  induction listed generalizing environment with
  | nil => rfl
  | cons path rest ih =>
    obtain ⟨hpath, hrest⟩ := List.forall_mem_cons.mp h
    rw [mergeFiles, hpath]
    exact ih hrest (environment.fillFrom (f path))

end ContainerStack.Expansion
