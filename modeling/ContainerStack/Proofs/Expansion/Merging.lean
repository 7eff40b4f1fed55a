import ContainerStack.Proofs.Expansion.Fetch

/-!
The law of env file merging. An expanded environment has the inline names and then
those that only files define, and each value is what the first text that was given
to the name stands for. Expansion fails as the first text does that is left after
merging, and texts that an earlier one has displaced play no part in it.
-/

namespace ContainerStack

open Template (Lookup)

namespace Template

theorem items_of_plain {cs : List Char} (h : ∀ c ∈ cs, isPlain c = true) (hne : cs ≠ []) :
    items cs = [.plain cs] := by
  cases cs with
  | nil => exact absurd rfl hne
  | cons c rest =>
    obtain ⟨hc, hrest⟩ := List.forall_mem_cons.mp h
    have htake : rest.takeWhile isPlain = rest := List.takeWhile_eq_self_iff.mpr hrest
    have hdrop : rest.dropWhile isPlain = [] := List.dropWhile_eq_nil_iff.mpr hrest
    rw [items, if_pos hc, htake, hdrop, items]

/-- A text without a dollar stands for itself. -/
theorem expand_of_notMem {value : String} (lookup : Lookup) (h : '$' ∉ value.toList) :
    expand lookup value = .ok value := by
  have hplain : ∀ c ∈ value.toList, isPlain c = true := by
    intro c hc
    have hne : c ≠ '$' := fun heq => h (heq ▸ hc)
    simpa [isPlain] using hne
  have hrender : render lookup (ofString value) = .ok value.toList := by
    by_cases hnil : value.toList = []
    · rw [ofString, hnil, items]
      rfl
    · rw [ofString, items_of_plain hplain hnil]
      simp [render, Item.value]
  rw [expand, hrender, Except.map, String.ofList_toList]

end Template

namespace Expansion

theorem expandValue_eq (lookup : Lookup) (value : String) :
    expandValue lookup value = Template.expand lookup value := by
  unfold expandValue
  split
  · rfl
  · rename_i h
    exact (Template.expand_of_notMem lookup h).symm

/-- The variables of the files that a service lists, in order. -/
def listedVariables (files : ProjectFiles) (s : Service) : List KeyValues :=
  (s.envFiles.getD []).map (fileVariables files)

/-- The names in the merged environment: the inline ones, then those that only files
define. -/
def mergedNames (files : ProjectFiles) (s : Service) : List String :=
  s.environment.keys ++
    (((listedVariables files s).flatMap Table.keys).filter (· ∉ s.environment.keys)).eraseDups

/-- The text of a name in the merged environment: the inline one, or else that of the
first file which defines the name. -/
def mergedText? (files : ProjectFiles) (s : Service) (name : String) : Option String :=
  (s.environment.get? name).or ((listedVariables files s).findSome? (·.get? name))

def buildTexts : Option Build → List String
  | none => []
  | some b => b.args.values ++ b.labels.values

def serviceTexts (files : ProjectFiles) (s : Service) : List String :=
  (mergedNames files s).filterMap (mergedText? files s) ++ s.labels.values ++ buildTexts s.build

/-- The texts that are left when files are merged, in the order in which their
references are replaced. -/
def survivingTexts (files : ProjectFiles) (c : Composition) : List String :=
  c.services.values.flatMap (serviceTexts files) ++
    c.networks.values.flatMap (fun r => r.labels.values) ++
    c.volumes.values.flatMap fun r => r.labels.values

/-- The error of the first text that stands for nothing. -/
def firstFailure (lookup : Lookup) (texts : List String) : Option StackError :=
  texts.findSome? fun text => failure? (Template.expand lookup text)

theorem firstFailure_append (lookup : Lookup) (xs ys : List String) :
    firstFailure lookup (xs ++ ys) = (firstFailure lookup xs).or (firstFailure lookup ys) :=
  List.findSome?_append

theorem firstFailure_flatMap {α : Type} (lookup : Lookup) (texts : α → List String) (xs : List α) :
    firstFailure lookup (xs.flatMap texts) =
      xs.findSome? fun x => firstFailure lookup (texts x) := by
  induction xs with
  | nil => rfl
  | cons x rest ih =>
    rw [List.flatMap_cons, firstFailure_append, ih, List.findSome?_cons]
    cases firstFailure lookup (texts x) <;> rfl

/-- The environment with the variables of the listed files. -/
def mergedEnvironment (files : ProjectFiles) (s : Service) : KeyValues :=
  (listedVariables files s).foldl Table.fillFrom s.environment

theorem keys_mergedEnvironment (files : ProjectFiles) (s : Service) :
    (mergedEnvironment files s).keys = mergedNames files s :=
  Table.keys_foldl_fillFrom _ _

theorem get?_mergedEnvironment (files : ProjectFiles) (s : Service) (name : String) :
    (mergedEnvironment files s).get? name = mergedText? files s name :=
  Table.get?_foldl_fillFrom _ _ name

theorem values_mergedEnvironment (files : ProjectFiles) (s : Service) :
    (mergedEnvironment files s).values = (mergedNames files s).filterMap (mergedText? files s) := by
  rw [Table.values_eq_filterMap, keys_mergedEnvironment]
  exact List.filterMap_congr fun name _ => get?_mergedEnvironment files s name

theorem failure?_expandTable (lookup : Lookup) (t : KeyValues) :
    failure? (expandTable lookup t) = firstFailure lookup t.values := by
  rw [expandTable, Table.failure?_traverse, firstFailure, Table.values, List.findSome?_map]
  simp only [expandValue_eq, Function.comp_def]

theorem failure?_expandOptionalBuild (lookup : Lookup) (b : Option Build) :
    failure? (expandOptionalBuild lookup b) = firstFailure lookup (buildTexts b) := by
  cases b with
  | none => rfl
  | some b =>
    have hbuild : failure? (expandBuild lookup b) =
        (failure? (expandTable lookup b.args)).or (failure? (expandTable lookup b.labels)) := by
      exact failure?_bind fun args _ => failure?_bind_ok _ _
    rw [expandOptionalBuild, failure?_map, hbuild, failure?_expandTable, failure?_expandTable,
      buildTexts, firstFailure_append]

theorem failure?_expandResource (lookup : Lookup) (r : Resource) :
    failure? (expandResource lookup r) = firstFailure lookup r.labels.values := by
  rw [expandResource, ← failure?_expandTable]
  exact failure?_bind_ok _ _

/-- A service fails as the first text that is left after merging. -/
theorem failure?_expandService {files : ProjectFiles} {cache : Cache} {lookup : Lookup}
    {s : Service}
    (h : ∀ p ∈ s.envFiles.getD [], cache.lookup p = some (fileVariables files p))
    (name : String) :
    failure? (expandService cache lookup name s) = firstFailure lookup (serviceTexts files s) := by
  have hmerge := mergeFiles_eq_ok h name s.environment
  have hservice : failure? (expandService cache lookup name s) =
      (failure? (expandTable lookup (mergedEnvironment files s))).or
        ((failure? (expandTable lookup s.labels)).or
          (failure? (expandOptionalBuild lookup s.build))) := by
    rw [expandService, hmerge]
    change failure? (expandTable lookup (mergedEnvironment files s) >>= _) = _
    exact failure?_bind fun environment _ => failure?_bind fun labels _ => failure?_bind_ok _ _
  rw [hservice, failure?_expandTable, failure?_expandTable, failure?_expandOptionalBuild,
    values_mergedEnvironment, serviceTexts, firstFailure_append, firstFailure_append,
    Option.or_assoc]

theorem failure?_traverse_texts {α β : Type} {lookup : Lookup} {texts : α → List String}
    {f : String → α → Outcome β} {t : Table α}
    (h : ∀ e ∈ t.entries, failure? (f e.1 e.2) = firstFailure lookup (texts e.2)) :
    failure? (t.traverse f) = firstFailure lookup (t.values.flatMap texts) := by
  rw [Table.failure?_traverse, Table.values, List.flatMap_map, firstFailure_flatMap]
  generalize t.entries = es at h
  induction es with
  | nil => rfl
  | cons e rest ih =>
    obtain ⟨hfirst, hrest⟩ := List.forall_mem_cons.mp h
    rw [List.findSome?_cons, List.findSome?_cons, hfirst, ih hrest]

/-- With all files fetched, expansion fails as the first text that is left. -/
theorem failure?_expandWith {files : ProjectFiles} {cache : Cache} {lookup : Lookup}
    {c : Composition} (h : ∀ p ∈ paths c, cache.lookup p = some (fileVariables files p)) :
    failure? (expandWith cache lookup c) = firstFailure lookup (survivingTexts files c) := by
  have hservices : failure? (c.services.traverse (expandService cache lookup)) =
      firstFailure lookup (c.services.values.flatMap (serviceTexts files)) := by
    refine failure?_traverse_texts fun e he => failure?_expandService (fun p hp => h p ?_) e.1
    exact mem_paths_iff.mpr ⟨e.2, Table.mem_values_iff.mpr ⟨e.1, he⟩, hp⟩
  have hresources : ∀ t : Table Resource,
      failure? (t.traverse fun _ r => expandResource lookup r) =
        firstFailure lookup (t.values.flatMap fun r => r.labels.values) := fun t =>
    failure?_traverse_texts fun e _ => failure?_expandResource lookup e.2
  have hsteps : failure? (expandWith cache lookup c) =
      (failure? (c.services.traverse (expandService cache lookup))).or
        ((failure? (c.networks.traverse fun _ r => expandResource lookup r)).or
          (failure? (c.volumes.traverse fun _ r => expandResource lookup r))) :=
    failure?_bind fun _ _ => failure?_bind fun _ _ => failure?_bind_ok _ _
  rw [hsteps, hservices, hresources, hresources, survivingTexts, firstFailure_append,
    firstFailure_append, Option.or_assoc]

/-- The environment that a service has after its files were merged and references
replaced. -/
structure MergedInto (files : ProjectFiles) (lookup : Lookup) (s : Service)
    (environment : KeyValues) : Prop where
  fetched : ∀ p ∈ s.envFiles.getD [], fetch files p = .ok (fileVariables files p)
  names : environment.keys = mergedNames files s
  values : ∀ name ∈ environment.keys, ∃ text value, mergedText? files s name = some text ∧
    Template.expand lookup text = .ok value ∧ environment.get? name = some value

/-- The composition that is left when every service has its files merged. -/
structure Merged (files : ProjectFiles) (lookup : Lookup) (c e : Composition) : Prop where
  names : e.services.keys = c.services.keys
  services : ∀ name s, c.services.get? name = some s → ∃ t, e.services.get? name = some t ∧
    MergedInto files lookup s t.environment

theorem mergedInto_of_expandService {files : ProjectFiles} {cache : Cache} {lookup : Lookup}
    {name : String} {s t : Service}
    (hfetched : ∀ p ∈ s.envFiles.getD [], fetch files p = .ok (fileVariables files p))
    (hcache : ∀ p ∈ s.envFiles.getD [], cache.lookup p = some (fileVariables files p))
    (h : expandService cache lookup name s = .ok t) :
    MergedInto files lookup s t.environment := by
  have hmerge := mergeFiles_eq_ok hcache name s.environment
  simp only [expandService, hmerge, bind_eq_ok_iff, Except.ok.injEq] at h
  obtain ⟨_, rfl, environment, henvironment, _, _, _, _, rfl⟩ := h
  have hkeys : environment.keys = mergedNames files s := by
    rw [Table.keys_traverse henvironment]
    exact keys_mergedEnvironment files s
  refine ⟨hfetched, hkeys, fun key hkey => ?_⟩
  rw [Table.keys_traverse henvironment] at hkey
  obtain ⟨text, hmem⟩ := Table.mem_keys_iff.mp hkey
  have htext : (mergedEnvironment files s).get? key = some text :=
    Table.get?_eq_some_iff.mpr hmem
  obtain ⟨value, hvalue, hget⟩ := Table.get?_traverse henvironment htext
  rw [expandValue_eq] at hvalue
  exact ⟨text, value, get?_mergedEnvironment files s key ▸ htext, hvalue, hget⟩

theorem lookup_cache {files : ProjectFiles} {c : Composition} {s : Service}
    (hs : s ∈ c.services.values) : ∀ p ∈ s.envFiles.getD [],
      ((paths c).map fun p => (p, fileVariables files p)).lookup p =
        some (fileVariables files p) :=
  fun _ hp => lookup_map (mem_paths_iff.mpr ⟨s, hs, hp⟩)

end Expansion

theorem Composition.expand_eq_ok_iff {files : ProjectFiles} {lookup : Lookup}
    {c e : Composition} :
    (c.expand files lookup).result = .ok e ↔
      (∀ p ∈ Expansion.paths c,
        Expansion.fetch files p = .ok (Expansion.fileVariables files p)) ∧
      Expansion.expandWith ((Expansion.paths c).map fun p => (p, Expansion.fileVariables files p))
        lookup c = .ok e := by
  have hbind : (c.expand files lookup).result = .ok e ↔ ∃ cache,
      (Expansion.fetchAll files (Expansion.paths c)).2 = .ok cache ∧
        Expansion.expandWith cache lookup c = .ok e :=
    bind_eq_ok_iff
  rw [hbind]
  constructor
  · intro h
    obtain ⟨cache, hfetch, hexpand⟩ := h
    obtain ⟨hall, rfl⟩ := Expansion.fetchAll_eq_ok_iff.mp hfetch
    exact ⟨hall, hexpand⟩
  · intro h
    obtain ⟨hall, hexpand⟩ := h
    exact ⟨_, Expansion.fetchAll_eq_ok_iff.mpr ⟨hall, rfl⟩, hexpand⟩

theorem Composition.expand_of_fetched {files : ProjectFiles} {lookup : Lookup} {c : Composition}
    (h : ∀ p ∈ Expansion.paths c, ∃ vars, Expansion.fetch files p = .ok vars) :
    (c.expand files lookup).result =
      Expansion.expandWith ((Expansion.paths c).map fun p => (p, Expansion.fileVariables files p))
        lookup c := by
  have hall : ∀ p ∈ Expansion.paths c,
      Expansion.fetch files p = .ok (Expansion.fileVariables files p) := by
    intro p hp
    obtain ⟨vars, hvars⟩ := h p hp
    exact Expansion.fetch_eq_ok hvars
  have hfetch := Expansion.fetchAll_eq_ok_iff.mpr ⟨hall, rfl⟩
  simp only [Composition.expand, hfetch, Except.bind]

theorem Composition.merged_of_expand {files : ProjectFiles} {lookup : Lookup}
    {c e : Composition} (h : (c.expand files lookup).result = .ok e) :
    Expansion.Merged files lookup c e := by
  obtain ⟨hfetched, hexpand⟩ := Composition.expand_eq_ok_iff.mp h
  simp only [Expansion.expandWith, bind_eq_ok_iff, Except.ok.injEq] at hexpand
  obtain ⟨services, hservices, networks, -, volumes, -, rfl⟩ := hexpand
  refine ⟨Table.keys_traverse hservices, fun name s hs => ?_⟩
  obtain ⟨t, ht, hget⟩ := Table.get?_traverse hservices hs
  have hmem : s ∈ c.services.values :=
    Table.mem_values_iff.mpr ⟨name, Table.get?_eq_some_iff.mp hs⟩
  have hlisted : ∀ p ∈ s.envFiles.getD [], p ∈ Expansion.paths c :=
    fun p hp => Expansion.mem_paths_iff.mpr ⟨s, hmem, hp⟩
  exact ⟨t, hget, Expansion.mergedInto_of_expandService (fun p hp => hfetched p (hlisted p hp))
    (Expansion.lookup_cache hmem) ht⟩

/-- With all files fetched, the error is that of the first text that is left. -/
theorem Composition.expand_eq_error_iff {files : ProjectFiles} {lookup : Lookup}
    {c : Composition} (h : ∀ p ∈ Expansion.paths c, ∃ vars, Expansion.fetch files p = .ok vars)
    {failure : StackError} :
    (c.expand files lookup).result = .error failure ↔
      Expansion.firstFailure lookup (Expansion.survivingTexts files c) = some failure := by
  rw [← failure?_eq_some_iff, Composition.expand_of_fetched h,
    Expansion.failure?_expandWith fun p hp => Expansion.lookup_map hp]

/-- Expanding a composition merges the env files of every service into its
environment; with all files fetched, it fails exactly as the first text that is left
after merging. -/
theorem expand_merges_files (files : ProjectFiles) (lookup : Lookup) (c : Composition) :
    (∀ e, (c.expand files lookup).result = .ok e →
      e.services.keys = c.services.keys ∧
        ∀ name s, c.services.get? name = some s → ∃ t, e.services.get? name = some t ∧
          Expansion.MergedInto files lookup s t.environment) ∧
    ((∀ p ∈ Expansion.paths c, ∃ vars, Expansion.fetch files p = .ok vars) →
      ((∃ failure, (c.expand files lookup).result = .error failure) ↔
        ∃ text ∈ Expansion.survivingTexts files c,
          ∃ failure, Template.expand lookup text = .error failure) ∧
      ∀ failure, (c.expand files lookup).result = .error failure ↔
        Expansion.firstFailure lookup (Expansion.survivingTexts files c) = some failure) := by
  constructor
  · intro e he
    have hmerged := Composition.merged_of_expand he
    exact ⟨hmerged.names, hmerged.services⟩
  · intro hfetched
    refine ⟨?_, fun failure => Composition.expand_eq_error_iff hfetched⟩
    simp only [Composition.expand_eq_error_iff hfetched, ← Option.isSome_iff_exists,
      Expansion.firstFailure, List.isSome_findSome?, List.any_eq_true]
    refine exists_congr fun text => and_congr_right fun _ => ?_
    rw [Option.isSome_iff_exists]
    exact exists_congr fun failure => failure?_eq_some_iff

def firstFile : EnvPath :=
  ⟨["first.env".toList], by simp, by decide +kernel⟩

def secondFile : EnvPath :=
  ⟨["second.env".toList], by simp, by decide +kernel⟩

/-- Two files. The first has a text for `B` that requires a variable. -/
def twoFiles : ProjectFiles := fun p =>
  if p = firstFile then .content "A=1\nB=$\x7bX?no X\x7d".toUTF8
  else if p = secondFile then .content "B=2\nC=$A".toUTF8
  else .notOpened "no such file"

/-- A service that defines `B` itself. -/
def inlineService : Service where
  image := some "site"
  environment := .ofEntries [("B", "$Y!")]
  envFiles := some [firstFile, secondFile]

def twoFilesComposition : Composition where
  version := "2.1"
  services := .ofEntries [
    ("web", inlineService),
    ("db", { image := some "store", envFiles := some [secondFile] })]

theorem twoFilesComposition_merges :
    (∀ p ∈ Expansion.paths twoFilesComposition, ∃ vars, Expansion.fetch twoFiles p = .ok vars) ∧
      ∃ e t, (twoFilesComposition.expand twoFiles fun _ => none).result = .ok e ∧
        e.services.get? "web" = some t ∧ t.environment.keys = ["B", "A", "C"] ∧
        Expansion.MergedInto twoFiles (fun _ => none) inlineService t.environment := by
  have hfetched : ∀ p ∈ Expansion.paths twoFilesComposition,
      ∃ vars, Expansion.fetch twoFiles p = .ok vars := by
    simp only [← failure?_eq_none_iff]
    decide +kernel
  have htexts : Expansion.survivingTexts twoFiles twoFilesComposition =
      ["$Y!", "1", "$A", "2", "$A"] := by decide +kernel
  have hnone : Expansion.firstFailure (fun _ => none) ["$Y!", "1", "$A", "2", "$A"] = none := by cbv
  obtain ⟨hmerged, hfailing⟩ := expand_merges_files twoFiles (fun _ => none) twoFilesComposition
  obtain ⟨e, he⟩ : ∃ e, (twoFilesComposition.expand twoFiles fun _ => none).result = .ok e := by
    cases hresult : (twoFilesComposition.expand twoFiles fun _ => none).result with
    | ok e => exact ⟨e, rfl⟩
    | error failure =>
      have hfailure := ((hfailing hfetched).2 failure).mp hresult
      rw [htexts, hnone] at hfailure
      contradiction
  obtain ⟨t, ht, hinto⟩ := (hmerged e he).2 "web" inlineService (by decide +kernel)
  have hnames : Expansion.mergedNames twoFiles inlineService = ["B", "A", "C"] := by decide +kernel
  exact ⟨hfetched, e, t, he, ht, hinto.names.trans hnames, hinto⟩

end ContainerStack
