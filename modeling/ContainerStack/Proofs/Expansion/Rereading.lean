import ContainerStack.Proofs.Errors
import ContainerStack.Proofs.Expansion.Stage

/-!
The law of fetching. Every listed path is opened once, in the order in which the paths
are first listed, and the variables are kept for all services. Nothing is lost by that: the
result is the one of reading the files again at every merge. An unusable file ends the
expansion before any reference is replaced. Whatever the limit on open files and the order
of the answers, no merge ever misses a file, and expansions that succeed give the same.
-/

namespace ContainerStack

open Template (Lookup)

namespace Expansion

/-- Adds the variables of files, in order, to an environment, reading each of them now. -/
def mergeRereading (files : ProjectFiles) : KeyValues → List EnvPath → Outcome KeyValues
  | environment, [] => .ok environment
  | environment, path :: rest => do
    let vars ← fetch files path
    mergeRereading files (environment.fillFrom vars) rest

def expandServiceRereading (files : ProjectFiles) (lookup : Lookup) (s : Service) :
    Outcome Service := do
  let merged ← mergeRereading files s.environment (s.envFiles.getD [])
  let environment ← expandTable lookup merged
  let labels ← expandTable lookup s.labels
  let build ← expandOptionalBuild lookup s.build
  .ok { s with environment, labels, build, envFiles := none }

/-- The expansion that keeps no variables: a file is read as often as it is merged. -/
def expandRereading (files : ProjectFiles) (lookup : Lookup) (c : Composition) :
    Outcome Composition := do
  let services ← c.services.traverse fun _ s => expandServiceRereading files lookup s
  let networks ← c.networks.traverse fun _ r => expandResource lookup r
  let volumes ← c.volumes.traverse fun _ r => expandResource lookup r
  .ok { c with services, networks, volumes }

variable {files : ProjectFiles} {lookup : Lookup} {limit : Nat} {c : Composition} {cache : Cache}

theorem mergeRereading_eq_ok {ps : List EnvPath} (h : ∀ p ∈ ps, Usable files p)
    (environment : KeyValues) :
    mergeRereading files environment ps =
      .ok ((ps.map (fileVariables files)).foldl Table.fillFrom environment) := by
  induction ps generalizing environment with
  | nil => rfl
  | cons p rest ih =>
    obtain ⟨hp, hrest⟩ := List.forall_mem_cons.mp h
    rw [mergeRereading, fetch_of_usable hp]
    exact ih hrest _

/-- Kept variables are as good as those that are read at every merge. -/
theorem expandWith_eq_rereading
    (h : ∀ p ∈ paths c, Usable files p ∧ cache.lookup p = some (fileVariables files p)) :
    expandWith cache lookup c = expandRereading files lookup c := by
  have hservices : c.services.traverse (expandService cache lookup) =
      c.services.traverse fun _ s => expandServiceRereading files lookup s := by
    refine Table.traverse_congr fun e he => ?_
    have hlisted : ∀ p ∈ e.2.envFiles.getD [],
        Usable files p ∧ cache.lookup p = some (fileVariables files p) := fun p hp =>
      h p (mem_paths_iff.mpr ⟨e.2, Table.mem_values_iff.mpr ⟨e.1, he⟩, hp⟩)
    rw [expandService, expandServiceRereading, mergeFiles_eq_ok (fun p hp => (hlisted p hp).2),
      mergeRereading_eq_ok fun p hp => (hlisted p hp).1]
  rw [expandWith, expandRereading, hservices]

end Expansion

/-- An expansion with a limit on how many files are open at a time. -/
def Composition.ExpandsTo (files : ProjectFiles) (limit : Nat) (lookup : Lookup) (c : Composition)
    (e : Expansion) : Prop :=
  ∃ stage fetched, Expansion.Stage.Run files limit (.start (Expansion.paths c)) stage ∧
    Expansion.Stage.Ends files stage fetched ∧ e.opened = stage.opened ∧
    e.result = fetched.bind fun cache => Expansion.expandWith cache lookup c

namespace Expansion

variable {files : ProjectFiles} {lookup : Lookup} {limit : Nat} {c : Composition} {e : Expansion}

/-- Whatever the limit, an expansion reports an unusable file that is listed, or gives what
reading the files at every merge gives. -/
theorem result_of_expandsTo (h : c.ExpandsTo files limit lookup e) :
    (∃ p ∈ paths c, ∃ problem, Unusable files p problem ∧
        e.result = .error (.envFile p problem)) ∨
      (∀ p ∈ paths c, Usable files p) ∧ e.result = expandRereading files lookup c := by
  obtain ⟨stage, fetched, hrun, hends, -, hresult⟩ := h
  have hsound : Stage.Sound files (paths c) stage := (Stage.sound_start files _).run hrun
  cases hends with
  | @done opened cache =>
    have hfound := hsound.lookup_of_done
    refine .inr ⟨fun p hp => (hfound p hp).1, ?_⟩
    rw [hresult, ← expandWith_eq_rereading hfound]
    rfl
  | @fails stage p failure hp hfetch =>
    obtain ⟨problem, hproblem, rfl⟩ := fetch_eq_error_iff.mp hfetch
    exact .inl ⟨p, hsound.mem_of_active hp, problem, hproblem, hresult⟩

/-- At every limit some expansion comes to an end. -/
theorem exists_expandsTo (files : ProjectFiles) (limit : Nat) (lookup : Lookup)
    (c : Composition) : ∃ e, c.ExpandsTo files limit lookup e := by
  obtain ⟨stage, fetched, hrun, hends⟩ := Stage.exists_run_ends files limit (.start (paths c))
  exact ⟨⟨stage.opened, _⟩, stage, fetched, hrun, hends, rfl, rfl⟩

theorem eq_expand_of_expandsTo (hlimit : limit ≤ 1) (h : c.ExpandsTo files limit lookup e) :
    e = c.expand files lookup := by
  obtain ⟨stage, fetched, hrun, hends, hopened, hresult⟩ := h
  obtain ⟨opened, result⟩ := e
  rw [Composition.expand, ← Stage.ends_as_fetchAll hlimit hrun hends, Expansion.mk.injEq]
  exact ⟨hopened, hresult⟩

/-- With room for one file at a time there is one expansion. -/
theorem expandsTo_iff (hlimit : limit ≤ 1) :
    c.ExpandsTo files limit lookup e ↔ e = c.expand files lookup := by
  refine ⟨eq_expand_of_expandsTo hlimit, ?_⟩
  rintro rfl
  obtain ⟨found, hfound⟩ := exists_expandsTo files limit lookup c
  exact eq_expand_of_expandsTo hlimit hfound ▸ hfound

/-- Whatever the limit, an expansion fails only because of a file or a variable. -/
theorem failsOnly_of_expandsTo (h : c.ExpandsTo files limit lookup e) :
    FailsOnly StackError.IsExpansion e.result := by
  obtain ⟨stage, fetched, hrun, hends, -, hresult⟩ := h
  have hsound : Stage.Sound files (paths c) stage := (Stage.sound_start files _).run hrun
  rw [hresult]
  cases hends with
  | done => exact failsOnly_expandWith fun p hp => (hsound.lookup_of_done p hp).2
  | fails hp hfetch => exact .error (failsOnly_fetch files _ _ hfetch)

theorem expand_of_usable (h : ∀ p ∈ paths c, Usable files p) :
    c.expand files lookup = ⟨paths c, expandRereading files lookup c⟩ := by
  rw [Composition.expand, fetchAll_of_usable h,
    ← expandWith_eq_rereading fun p hp => ⟨h p hp, lookup_map hp⟩]
  rfl

/-- An expansion that finds every file usable ends as the one that fetches the files one
after another. -/
theorem result_eq_of_usable (h : c.ExpandsTo files limit lookup e)
    (husable : ∀ p ∈ paths c, Usable files p) : e.result = (c.expand files lookup).result := by
  rcases result_of_expandsTo h with ⟨p, hp, problem, hproblem, -⟩ | ⟨-, hresult⟩
  · exact absurd hproblem (husable p hp problem)
  · rw [hresult, expand_of_usable husable]

/-- Whatever the limit, an expansion succeeds with what fetching the files one after another
gives, and only if that succeeds. -/
theorem result_eq_ok_iff (h : c.ExpandsTo files limit lookup e) {d : Composition} :
    e.result = .ok d ↔ (c.expand files lookup).result = .ok d := by
  rcases result_of_expandsTo h with ⟨p, hp, problem, hproblem, herror⟩ | ⟨husable, -⟩
  · have hfails : (c.expand files lookup).result ≠ .ok d := by
      intro hresult
      obtain ⟨hfetched, -⟩ := Composition.expand_eq_ok_iff.mp hresult
      exact usable_iff.mpr (hfetched p hp) problem hproblem
    simp [herror, hfails]
  · rw [result_eq_of_usable h husable]

theorem expand_of_unusable {before after : List EnvPath} {p : EnvPath} {problem : EnvFileProblem}
    (hsplit : paths c = before ++ p :: after) (hbefore : ∀ q ∈ before, Usable files q)
    (hp : Unusable files p problem) :
    c.expand files lookup = ⟨before ++ [p], .error (.envFile p problem)⟩ := by
  rw [Composition.expand, hsplit, fetchAll_of_unusable hbefore hp]
  rfl

end Expansion

open Expansion (Usable Unusable listed expandRereading)

/-- With room for one open file, the opened paths are the listed ones without repetitions,
up to the first that is unusable. If one is, it is reported, whatever the variables are;
if none is, each was opened once and the result is that of reading the files at every
merge. Whatever the limit, no merge misses a file. -/
theorem expansion_opens_once (files : ProjectFiles) (lookup : Lookup) (c : Composition) :
    (∀ limit ≤ 1, ∀ e, c.ExpandsTo files limit lookup e ↔ e = c.expand files lookup) ∧
    ((∀ p ∈ listed c, Usable files p) →
      (c.expand files lookup).opened = (listed c).eraseDups ∧
      (∀ p ∈ listed c, (c.expand files lookup).opened.count p = 1) ∧
      (c.expand files lookup).result = expandRereading files lookup c) ∧
    ((∃ p ∈ listed c, ¬Usable files p) →
      ∃ before p after problem, (listed c).eraseDups = before ++ p :: after ∧
        (∀ q ∈ before, Usable files q) ∧ Unusable files p problem ∧
        (c.expand files lookup).opened = before ++ [p] ∧
        (c.expand files lookup).result = .error (.envFile p problem)) ∧
    ∀ limit e, c.ExpandsTo files limit lookup e → ∀ path service,
      e.result ≠ .error (.inconsistent (.notFetched path service)) := by
  refine ⟨fun limit hlimit e => Expansion.expandsTo_iff hlimit, fun husable => ?_,
    fun hunusable => ?_, fun limit e h path service hmissed => ?_⟩
  · have hexpand : c.expand files lookup = ⟨_, expandRereading files lookup c⟩ :=
      Expansion.expand_of_usable fun p hp => husable p (Expansion.mem_listed_iff.mpr hp)
    rw [hexpand, Expansion.paths_eq]
    refine ⟨rfl, fun p hp => ?_, rfl⟩
    rw [← Expansion.paths_eq]
    exact List.count_eq_one_of_mem (EnvPath.nodup_distinct _) (Expansion.mem_listed_iff.mp hp)
  · obtain ⟨q, hq, hbad⟩ := hunusable
    rcases forall_or_exists_first (Usable files) (listed c).eraseDups with
      hall | ⟨before, p, after, hsplit, hbefore, hp⟩
    · exact absurd (hall q (List.mem_eraseDups.mpr hq)) hbad
    · obtain ⟨problem, hproblem⟩ := not_forall_not.mp hp
      have hexpand : c.expand files lookup = ⟨before ++ [p], .error (.envFile p problem)⟩ :=
        Expansion.expand_of_unusable ((Expansion.paths_eq c).trans hsplit) hbefore hproblem
      rw [hexpand]
      exact ⟨before, p, after, problem, hsplit, hbefore, hproblem, rfl, rfl⟩
  · rcases Expansion.failsOnly_of_expandsTo h _ hmissed with ⟨_, _, heq⟩ | ⟨_, _, heq⟩
    · cases heq
    · cases heq

/-- The first file has a line without a name, and the second does not exist. -/
def brokenFiles : ProjectFiles := fun p =>
  if p = firstFile then .content "A=1\n =2".toUTF8 else .notOpened "no such file"

theorem twoFilesComposition_opens_once :
    twoFilesComposition.ExpandsTo twoFiles 0 (fun _ => none)
        (twoFilesComposition.expand twoFiles fun _ => none) ∧
      (twoFilesComposition.expand twoFiles fun _ => none).opened = [firstFile, secondFile] ∧
      (twoFilesComposition.expand twoFiles fun _ => none).result =
        expandRereading twoFiles (fun _ => none) twoFilesComposition ∧
      (∀ path service, (twoFilesComposition.expand twoFiles fun _ => none).result ≠
        .error (.inconsistent (.notFetched path service))) ∧
      ∃ p problem, Unusable brokenFiles p problem ∧
        (twoFilesComposition.expand brokenFiles fun _ => none).result =
          .error (.envFile p problem) := by
  have husable : ∀ p ∈ listed twoFilesComposition, Usable twoFiles p := by
    simp only [Expansion.usable_iff]
    decide +kernel
  have hlisted : (listed twoFilesComposition).eraseDups = [firstFile, secondFile] := by
    decide +kernel
  have hlines : Text.lines "A=1\n =2".toList = ["A=1".toList] ++ " =2".toList :: [] := by
    decide +kernel
  have hbroken : Unusable brokenFiles firstFile (.namelessLine 2) :=
    .nameless (if_pos rfl) hlines (by decide +kernel) (by decide +kernel)
  obtain ⟨hruns, hopens, -, hmisses⟩ :=
    expansion_opens_once twoFiles (fun _ => none) twoFilesComposition
  obtain ⟨-, -, hfails, -⟩ :=
    expansion_opens_once brokenFiles (fun _ => none) twoFilesComposition
  have hrun := (hruns 0 (Nat.zero_le 1) _).mpr rfl
  obtain ⟨hopened, -, hresult⟩ := hopens husable
  obtain ⟨_, p, _, problem, -, -, hp, -, herror⟩ :=
    hfails ⟨firstFile, by decide +kernel, fun h => h _ hbroken⟩
  exact ⟨hrun, hopened.trans hlisted, hresult, hmisses 0 _ hrun, p, problem, hp, herror⟩

end ContainerStack
