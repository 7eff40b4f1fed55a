import ContainerStack.Proofs.Expansion.Merging
import ContainerStack.Proofs.Matched

/-!
What expansion leaves alone. The expander is written once more with the treatment of a
single text as a parameter. Whatever is done to texts, the result differs from the
composition in the texts of environments, labels and build arguments, in the entries
that files add behind an environment, and in the lists of env files, which are dropped.
Reading every text is as good as reading those with a dollar, and where no text has
one nothing is changed at all.
-/

namespace ContainerStack

open Template (Lookup)
open Entries (Matched)

namespace Expansion

theorem entries_prefix_mergeFiles {cache : Cache} {service : String} {listed : List EnvPath}
    {environment merged : KeyValues}
    (h : mergeFiles cache service environment listed = .ok merged) :
    environment.entries <+: merged.entries := by
  induction listed generalizing environment with
  | nil =>
    rw [mergeFiles, Except.ok.injEq] at h
    exact h ▸ List.prefix_rfl
  | cons path rest ih =>
    rw [mergeFiles] at h
    split at h
    · cases h
    · exact (environment.entries_prefix_fillFrom _).trans (ih h)

section Replacing

variable (value : String → Outcome String)

def replaceTable (t : KeyValues) : Outcome KeyValues :=
  t.traverse fun _ text => value text

def replaceBuild (b : Build) : Outcome Build := do
  let args ← replaceTable value b.args
  let labels ← replaceTable value b.labels
  .ok { b with args, labels }

def replaceOptionalBuild : Option Build → Outcome (Option Build)
  | none => .ok none
  | some b => (replaceBuild value b).map some

def replaceService (cache : Cache) (name : String) (s : Service) : Outcome Service := do
  let merged ← mergeFiles cache name s.environment (s.envFiles.getD [])
  let environment ← replaceTable value merged
  let labels ← replaceTable value s.labels
  let build ← replaceOptionalBuild value s.build
  .ok { s with environment, labels, build, envFiles := none }

def replaceResource (r : Resource) : Outcome Resource := do
  let labels ← replaceTable value r.labels
  .ok { r with labels }

/-- The composition with the fetched files merged and every text replaced by its value. -/
def replaceTexts (cache : Cache) (c : Composition) : Outcome Composition := do
  let services ← c.services.traverse (replaceService value cache)
  let networks ← c.networks.traverse fun _ r => replaceResource value r
  let volumes ← c.volumes.traverse fun _ r => replaceResource value r
  .ok { c with services, networks, volumes }

/-- The names of the entries in their order, each with the value of its text. -/
def TextsReplaced (es fs : Entries String) : Prop :=
  Matched (fun _ text found => value text = .ok found) es fs

structure BuildReplaced (b d : Build) : Prop where
  args : TextsReplaced value b.args.entries d.args.entries
  labels : TextsReplaced value b.labels.entries d.labels.entries
  others : d = { b with args := d.args, labels := d.labels }

/-- The inline variables of a service stay in front, and those that were added follow. -/
structure ServiceReplaced (s t : Service) : Prop where
  environment : ∃ added, TextsReplaced value (s.environment.entries ++ added) t.environment.entries
  labels : TextsReplaced value s.labels.entries t.labels.entries
  build : Option.Rel (BuildReplaced value) s.build t.build
  others : t = { s with
    environment := t.environment, labels := t.labels, build := t.build, envFiles := none }

structure ResourceReplaced (r q : Resource) : Prop where
  labels : TextsReplaced value r.labels.entries q.labels.entries
  others : q = { r with labels := q.labels }

/-- The same entities in the same order, each with nothing changed but its texts. -/
structure Replaced (c e : Composition) : Prop where
  services : Matched (fun _ => ServiceReplaced value) c.services.entries e.services.entries
  networks : Matched (fun _ => ResourceReplaced value) c.networks.entries e.networks.entries
  volumes : Matched (fun _ => ResourceReplaced value) c.volumes.entries e.volumes.entries
  others : e = { c with services := e.services, networks := e.networks, volumes := e.volumes }

end Replacing

variable {value : String → Outcome String} {cache : Cache}

/-- A build after replacing comes from one before it. -/
theorem ServiceReplaced.exists_build {s t : Service} (h : ServiceReplaced value s t) {d : Build}
    (hd : t.build = some d) : ∃ b, s.build = some b ∧ BuildReplaced value b d := by
  have hrel := h.build
  rw [hd] at hrel
  generalize s.build = old at hrel ⊢
  cases hrel with
  | some hparts => exact ⟨_, rfl, hparts⟩

theorem replaceTable_eq_ok_iff {t u : KeyValues} :
    replaceTable value t = .ok u ↔ TextsReplaced value t.entries u.entries := by
  rw [replaceTable, Table.traverse_eq_ok_iff, Entries.traverse_eq_ok_iff]
  rfl

theorem replaceBuild_eq_ok_iff {b d : Build} :
    replaceBuild value b = .ok d ↔ BuildReplaced value b d := by
  simp only [replaceBuild, bind_eq_ok_iff, Except.ok.injEq, replaceTable_eq_ok_iff]
  constructor
  · rintro ⟨args, hargs, labels, hlabels, rfl⟩
    exact ⟨hargs, hlabels, rfl⟩
  · rintro ⟨hargs, hlabels, hothers⟩
    exact ⟨d.args, hargs, d.labels, hlabels, hothers.symm⟩

theorem replaceOptionalBuild_eq_ok_iff {b d : Option Build} :
    replaceOptionalBuild value b = .ok d ↔ Option.Rel (BuildReplaced value) b d := by
  cases b with
  | none => cases d <;> simp [replaceOptionalBuild]
  | some b =>
    rw [replaceOptionalBuild, map_eq_ok_iff]
    cases d <;> simp [replaceBuild_eq_ok_iff]

theorem serviceReplaced_of_replaceService {name : String} {s t : Service}
    (h : replaceService value cache name s = .ok t) : ServiceReplaced value s t := by
  simp only [replaceService, bind_eq_ok_iff, Except.ok.injEq, replaceTable_eq_ok_iff,
    replaceOptionalBuild_eq_ok_iff] at h
  obtain ⟨merged, hmerged, environment, henvironment, labels, hlabels, build, hbuild, rfl⟩ := h
  obtain ⟨added, hadded⟩ := entries_prefix_mergeFiles hmerged
  exact ⟨⟨added, hadded ▸ henvironment⟩, hlabels, hbuild, rfl⟩

theorem replaceResource_eq_ok_iff {r q : Resource} :
    replaceResource value r = .ok q ↔ ResourceReplaced value r q := by
  simp only [replaceResource, bind_eq_ok_iff, Except.ok.injEq, replaceTable_eq_ok_iff]
  constructor
  · rintro ⟨labels, hlabels, rfl⟩
    exact ⟨hlabels, rfl⟩
  · rintro ⟨hlabels, hothers⟩
    exact ⟨q.labels, hlabels, hothers.symm⟩

/-- Going through a table by name matches its entries with the results. -/
theorem matched_of_traverse {α β : Type} {f : String → α → Outcome β} {R : String → α → β → Prop}
    {t : Table α} {u : Table β} (h : t.traverse f = .ok u)
    (hf : ∀ key a b, f key a = .ok b → R key a b) : Matched R t.entries u.entries :=
  (Entries.traverse_eq_ok_iff.mp (Table.traverse_eq_ok_iff.mp h)).imp fun _ _ hparts =>
    ⟨hparts.1, hf _ _ _ hparts.2⟩

/-- Whatever is done to texts, the entities and all else about them stay. -/
theorem replaced_of_replaceTexts {c e : Composition} (h : replaceTexts value cache c = .ok e) :
    Replaced value c e := by
  simp only [replaceTexts, bind_eq_ok_iff, Except.ok.injEq] at h
  obtain ⟨services, hservices, networks, hnetworks, volumes, hvolumes, rfl⟩ := h
  exact {
    services := matched_of_traverse hservices fun _ _ _ => serviceReplaced_of_replaceService
    networks := matched_of_traverse hnetworks fun _ _ _ => replaceResource_eq_ok_iff.mp
    volumes := matched_of_traverse hvolumes fun _ _ _ => replaceResource_eq_ok_iff.mp
    others := rfl }

/-- Going through a table changes nothing if it changes no value. -/
theorem traverse_self {α : Type} {f : String → α → Outcome α} {t : Table α}
    (h : ∀ key, ∀ a ∈ t.values, f key a = .ok a) : t.traverse f = .ok t := by
  rw [Table.traverse_eq_ok_iff, Entries.traverse_eq_ok_iff, List.forall₂_same]
  exact fun e he => ⟨rfl, h e.1 e.2 (Table.mem_values_iff.mpr ⟨e.1, he⟩)⟩

theorem replaceTable_self {t : KeyValues} (h : ∀ text ∈ t.values, value text = .ok text) :
    replaceTable value t = .ok t :=
  traverse_self fun _ => h

theorem replaceOptionalBuild_self {b : Option Build}
    (h : ∀ text ∈ buildTexts b, value text = .ok text) : replaceOptionalBuild value b = .ok b := by
  cases b with
  | none => rfl
  | some b =>
    obtain ⟨hargs, hlabels⟩ := List.forall_mem_append.mp h
    rw [replaceOptionalBuild, replaceBuild, replaceTable_self hargs, replaceTable_self hlabels]
    rfl

theorem replaceService_self {s : Service} (hfiles : s.envFiles = none)
    (henvironment : ∀ text ∈ s.environment.values, value text = .ok text)
    (hlabels : ∀ text ∈ s.labels.values, value text = .ok text)
    (hbuild : ∀ text ∈ buildTexts s.build, value text = .ok text) (name : String) :
    replaceService value cache name s = .ok s := by
  rw [replaceService, hfiles]
  change (replaceTable value s.environment >>= _) = _
  rw [replaceTable_self henvironment, replaceTable_self hlabels, replaceOptionalBuild_self hbuild,
    ← hfiles]
  rfl

theorem replaceResource_self {r : Resource} (h : ∀ text ∈ r.labels.values, value text = .ok text) :
    replaceResource value r = .ok r := by
  rw [replaceResource, replaceTable_self h]
  rfl

theorem templates_eq (cache : Cache) (c : Composition) :
    templates cache c = cache.flatMap (fun e => e.2.values) ++
      c.services.values.flatMap (fun s =>
        s.environment.values ++ s.labels.values ++ buildTexts s.build) ++
      (c.networks.values ++ c.volumes.values).flatMap fun r => r.labels.values := by
  rw [templates]
  refine congrArg₂ (· ++ ·) (congrArg₂ (· ++ ·) rfl (List.flatMap_congr fun s _ => ?_)) rfl
  cases s.build <;> rfl

/-- Texts that stand for themselves are left as they are. -/
theorem replaceTexts_self {c : Composition} (hfiles : ∀ s ∈ c.services.values, s.envFiles = none)
    (h : ∀ text ∈ templates [] c, value text = .ok text) : replaceTexts value cache c = .ok c := by
  simp only [templates_eq, List.flatMap_nil, List.nil_append, List.flatMap_append,
    List.forall_mem_append, List.forall_mem_flatMap] at h
  obtain ⟨hservice, hnetwork, hvolume⟩ := h
  have hservices : c.services.traverse (replaceService value cache) = .ok c.services :=
    traverse_self fun name s hs =>
      have ⟨⟨henvironment, hlabels⟩, hbuild⟩ := hservice s hs
      replaceService_self (hfiles s hs) henvironment hlabels hbuild name
  have hnetworks : c.networks.traverse (fun _ r => replaceResource value r) = .ok c.networks :=
    traverse_self fun _ r hr => replaceResource_self (hnetwork r hr)
  have hvolumes : c.volumes.traverse (fun _ r => replaceResource value r) = .ok c.volumes :=
    traverse_self fun _ r hr => replaceResource_self (hvolume r hr)
  rw [replaceTexts, hservices, hnetworks, hvolumes]
  rfl

theorem expandWith_eq_replaceTexts (cache : Cache) (lookup : Lookup) (c : Composition) :
    expandWith cache lookup c = replaceTexts (Template.expand lookup) cache c := by
  rw [← funext (expandValue_eq lookup)]
  rfl

theorem paths_eq_nil {c : Composition} (hfiles : ∀ s ∈ c.services.values, s.envFiles = none) :
    paths c = [] := by
  refine List.eq_nil_iff_forall_not_mem.mpr fun p hp => ?_
  obtain ⟨s, hs, hlisted⟩ := mem_paths_iff.mp hp
  rw [hfiles s hs] at hlisted
  exact List.not_mem_nil hlisted

end Expansion

/-- Expands a composition as usual, but with a given treatment of every single text. -/
def Composition.expandBy (value : String → Outcome String) (files : ProjectFiles)
    (c : Composition) : Expansion :=
  let (opened, fetched) := Expansion.fetchAll files (Expansion.paths c)
  { opened, result := fetched.bind fun cache => Expansion.replaceTexts value cache c }

theorem Composition.expand_eq_expandBy (files : ProjectFiles) (lookup : Lookup)
    (c : Composition) : c.expand files lookup = c.expandBy (Template.expand lookup) files := by
  simp only [Composition.expand, Composition.expandBy, Expansion.expandWith_eq_replaceTexts]

theorem Composition.replaced_of_expand {files : ProjectFiles} {lookup : Lookup}
    {c e : Composition} (h : (c.expand files lookup).result = .ok e) :
    Expansion.Replaced (Template.expand lookup) c e := by
  rw [c.expand_eq_expandBy] at h
  obtain ⟨cache, -, hreplace⟩ := bind_eq_ok_iff.mp h
  exact Expansion.replaced_of_replaceTexts hreplace

/-- A finished expansion has replaced the texts of environments, labels and build
arguments, added variables behind the inline ones and dropped the lists of env files;
nothing else differs from the composition. It is the expansion that reads every text,
and it is the composition itself when there are no env files and no text has a dollar. -/
theorem expand_touches_texts_only (files : ProjectFiles) (lookup : Lookup) (c : Composition) :
    (∀ e, (c.expand files lookup).result = .ok e →
      Expansion.Replaced (Template.expand lookup) c e) ∧
    c.expand files lookup = c.expandBy (Template.expand lookup) files ∧
    ((∀ s ∈ c.services.values, s.envFiles = none) →
      (∀ text ∈ Expansion.templates [] c, '$' ∉ text.toList) →
      c.expand files lookup = ⟨[], .ok c⟩) := by
  refine ⟨fun e => Composition.replaced_of_expand, c.expand_eq_expandBy files lookup,
    fun hfiles hplain => ?_⟩
  have hself : Expansion.replaceTexts (Template.expand lookup) [] c = .ok c :=
    Expansion.replaceTexts_self hfiles fun text htext =>
      Template.expand_of_notMem lookup (hplain text htext)
  rw [c.expand_eq_expandBy, Composition.expandBy, Expansion.paths_eq_nil hfiles]
  simp only [Expansion.fetchAll, Except.bind, hself]

/-- A service with dollars in texts that are replaced and in others. -/
def dollarService : Service where
  image := some "site:$TAG"
  build := some { context := "$DIR", args := .ofEntries [("MODE", "$MODE.")] }
  environment := .ofEntries [("A", "$B")]
  envFiles := some [secondFile]
  labels := .ofEntries [("$TIER", "$B-5")]
  ports := ["$PORT"]
  extra := .ofEntries [("restart", .str "$POLICY")]

def dollarComposition : Composition where
  version := "2.1"
  services := .ofEntries [("web", dollarService)]
  volumes := .ofEntries
    [("data", { driver := some "$DRIVER", labels := .ofEntries [("kind", "$B")] })]

/-- The composition with the second file merged and `B` replaced by `b`. -/
def replacedComposition : Composition where
  version := "2.1"
  services := .ofEntries [("web", { dollarService with
    build := some { context := "$DIR", args := .ofEntries [("MODE", ".")] }
    environment := .ofEntries [("A", "b"), ("B", "2"), ("C", "")]
    envFiles := none
    labels := .ofEntries [("$TIER", "b-5")] })]
  volumes := .ofEntries
    [("data", { driver := some "$DRIVER", labels := .ofEntries [("kind", "b")] })]

def onlyB : Lookup := fun name =>
  if name = "B" then some "b" else none

theorem dollarComposition_texts_only :
    (dollarComposition.expand twoFiles onlyB).result = .ok replacedComposition ∧
      Expansion.Replaced (Template.expand onlyB) dollarComposition replacedComposition ∧
      replacedComposition.expand twoFiles onlyB = ⟨[], .ok replacedComposition⟩ := by
  have hresult : (dollarComposition.expand twoFiles onlyB).result = .ok replacedComposition := by
    decide +kernel
  obtain ⟨hframe, -, -⟩ := expand_touches_texts_only twoFiles onlyB dollarComposition
  obtain ⟨-, -, hself⟩ := expand_touches_texts_only twoFiles onlyB replacedComposition
  exact ⟨hresult, hframe _ hresult, hself (by decide +kernel) (by decide +kernel)⟩

end ContainerStack
