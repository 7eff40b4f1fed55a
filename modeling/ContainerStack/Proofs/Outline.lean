import ContainerStack.Image
import ContainerStack.Proofs.Expansion.Frame
import ContainerStack.Proofs.Renormalization

/-!
The outline of a composition: of each service the image, the place of the build and the
dependencies. Startup order and images, apart from the arguments and labels of builds,
depend on nothing else. Expansion and reading back what was written replace texts
elsewhere, so both keep the outline.
-/

namespace ContainerStack

open Text ContainerStack.Normal

structure Outline where
  image : Option String
  build : Option (String × Option String)
  dependsOn : List String
deriving DecidableEq

def Service.outline (s : Service) : Outline where
  image := s.image
  build := s.build.map fun b => (b.context, b.dockerfile)
  dependsOn := s.dependsOn

def Composition.outline (c : Composition) : Entries Outline :=
  c.services.entries.map fun e => (e.1, e.2.outline)

/-- The image of a service, without the arguments and labels of a build. -/
def Outline.source? (o : Outline) : Option ImageSource :=
  match o.image, o.build with
  | some reference, none => some (.pull reference)
  | tag, some (context, dockerfile) => some (.build { context, dockerfile, tag })
  | none, none => none

def ImageSource.core : ImageSource → ImageSource
  | .pull reference => .pull reference
  | .build plan => .build { plan with args := .empty, labels := .empty }

def Image.core (image : Image) : Image :=
  { image with source := image.source.core }

theorem ImageSource.core_of_ofService {name : String} {s : Service} {source : ImageSource}
    (h : ofService name s = .ok source) : s.outline.source? = some source.core := by
  cases himage : s.image <;> cases hbuild : s.build <;>
    simp only [ofService, himage, hbuild, reduceCtorEq, Except.ok.injEq] at h
  all_goals
    subst h
    simp [Service.outline, Outline.source?, core, himage, hbuild]

theorem Service.source?_outline_ne_none_iff {s : Service} :
    s.outline.source? ≠ none ↔ s.image ≠ none ∨ s.build ≠ none := by
  cases himage : s.image <;> cases hbuild : s.build <;>
    simp [outline, Outline.source?, himage, hbuild]

theorem ImageSource.exists_ofService {s : Service} (h : s.outline.source? ≠ none)
    (name : String) : ∃ source, ofService name s = .ok source := by
  rw [Service.source?_outline_ne_none_iff] at h
  cases himage : s.image <;> cases hbuild : s.build <;> simp_all [ofService]

namespace Composition

variable {c d : Composition}

theorem keys_outline (c : Composition) : Entries.keys c.outline = c.services.keys :=
  Entries.keys_map _ _

theorem outline_eq_of_forall₂
    (h : List.Forall₂ (fun e f => f.1 = e.1 ∧ f.2.outline = e.2.outline) c.services.entries
      d.services.entries) : d.outline = c.outline := by
  unfold outline
  generalize c.services.entries = es, d.services.entries = fs at h
  induction h with
  | nil => rfl
  | cons hfirst _ ih =>
    obtain ⟨hname, houtline⟩ := hfirst
    rw [List.map_cons, List.map_cons, ih, hname, houtline]

/-- Compositions of one outline start in the same order. -/
theorem startupOrder_eq_of_outline (h : c.outline = d.outline) :
    c.startupOrder = d.startupOrder := by
  have hgraph : ∀ c : Composition, DependencyGraph.ofComposition c =
      c.outline.foldl (fun g e => g.addDependencies e.1 e.2.dependsOn)
        { names := Entries.keys c.outline } := by
    intro c
    rw [keys_outline, outline, List.foldl_map]
    rfl
  unfold startupOrder
  rw [hgraph c, hgraph d, h]

/-- The images that the outline asks for. -/
def outlinedImages (c : Composition) : List Image :=
  c.outline.filterMap fun e => e.2.source?.map fun source => ⟨e.1, source⟩

theorem images_eq_ok_iff (h : c.version = "2.1") {images : List Image} :
    c.images = .ok images ↔ List.Forall₂ (fun e image =>
      image.service = e.1 ∧ ImageSource.ofService e.1 e.2 = .ok image.source)
        c.services.entries images := by
  have hcanonical : (FormatVersion.ofTag? c.version).any FormatVersion.isCanonical = true := by
    rw [h]
    decide +kernel
  rw [Composition.images, if_pos hcanonical, mapM_eq_ok_iff]
  have hstep : ∀ (e : String × Service) (image : Image),
      ((ImageSource.ofService e.1 e.2).map fun source => (⟨e.1, source⟩ : Image)) = .ok image ↔
        image.service = e.1 ∧ ImageSource.ofService e.1 e.2 = .ok image.source := by
    intro e image
    rw [map_eq_ok_iff]
    constructor
    · intro hparts
      obtain ⟨source, hsource, rfl⟩ := hparts
      exact ⟨rfl, hsource⟩
    · intro hparts
      obtain ⟨hname, hsource⟩ := hparts
      exact ⟨image.source, hsource, by rw [← hname]⟩
  simp only [hstep]

/-- There is an image for each service, in order, and the outline says which, apart from
the arguments and labels of builds. -/
theorem core_of_images (h : c.version = "2.1") {images : List Image}
    (himages : c.images = .ok images) :
    images.map Image.service = c.services.keys ∧ images.map Image.core = c.outlinedImages := by
  have hpairs := (images_eq_ok_iff h).mp himages
  unfold outlinedImages outline Table.keys Entries.keys
  clear himages
  generalize c.services.entries = es at hpairs
  induction hpairs with
  | nil => exact ⟨rfl, rfl⟩
  | @cons e image _ _ hfirst _ ih =>
    obtain ⟨hname, hsource⟩ := hfirst
    obtain ⟨hnames, hcores⟩ := ih
    have hcore := ImageSource.core_of_ofService hsource
    simp only [List.map_cons, hnames, hname, hcores, List.filterMap_cons, hcore, Option.map_some,
      true_and]
    rw [Image.core, hname]

theorem exists_images (h : c.version = "2.1") (hsource : ∀ e ∈ c.outline, e.2.source? ≠ none) :
    ∃ images, c.images = .ok images := by
  simp only [images_eq_ok_iff h]
  have hentries : ∀ e ∈ c.services.entries, e.2.outline.source? ≠ none :=
    fun e he => hsource (e.1, e.2.outline) (List.mem_map_of_mem he)
  generalize c.services.entries = es at hentries
  induction es with
  | nil => exact ⟨[], .nil⟩
  | cons e rest ih =>
    obtain ⟨hfirst, hrest⟩ := List.forall_mem_cons.mp hentries
    obtain ⟨source, hsource⟩ := ImageSource.exists_ofService hfirst e.1
    obtain ⟨images, himages⟩ := ih hrest
    exact ⟨⟨e.1, source⟩ :: images, .cons ⟨rfl, hsource⟩ himages⟩

end Composition

namespace Expansion

variable {value : String → Outcome String}

/-- Whatever replaces texts, a service keeps its outline. -/
theorem ServiceReplaced.outline {s t : Service} (h : ServiceReplaced value s t) :
    t.outline = s.outline := by
  have hbuild : t.build.map (fun b => (b.context, b.dockerfile)) =
      s.build.map fun b => (b.context, b.dockerfile) := by
    have hrel := h.build
    generalize s.build = old, t.build = new at hrel ⊢
    cases hrel with
    | none => rfl
    | some hparts => rw [hparts.others]; rfl
  have himage : t.image = s.image := by rw [h.others]
  have hdependsOn : t.dependsOn = s.dependsOn := by rw [h.others]
  rw [Service.outline, himage, hbuild, hdependsOn, Service.outline]

theorem BuildReplaced.extraUnnamed {b d : Build} (h : BuildReplaced value b d)
    (hb : b.ExtraUnnamed) : d.ExtraUnnamed := by
  rw [h.others]
  exact hb

theorem ServiceReplaced.extraUnnamed {s t : Service} (h : ServiceReplaced value s t)
    (hs : s.ExtraUnnamed) : t.ExtraUnnamed := by
  have hextra : t.extra = s.extra := by rw [h.others]
  refine ⟨hextra ▸ hs.1, fun d hd => ?_⟩
  obtain ⟨b, hb, hparts⟩ := h.exists_build hd
  exact hparts.extraUnnamed (hs.2 b hb)

theorem Replaced.outline {c e : Composition} (h : Replaced value c e) : e.outline = c.outline :=
  Composition.outline_eq_of_forall₂ (h.services.imp fun _ _ hparts => ⟨hparts.1, hparts.2.outline⟩)

end Expansion

/-- Expansion keeps the version, the outline, and the services' extra members apart from
their fields. -/
theorem Composition.outline_of_expand {files : ProjectFiles} {lookup : Template.Lookup}
    {c d : Composition} (h : (c.expand files lookup).result = .ok d) :
    d.version = c.version ∧ d.outline = c.outline ∧
      ((∀ s ∈ c.services.values, s.ExtraUnnamed) → ∀ s ∈ d.services.values, s.ExtraUnnamed) := by
  have hreplaced := replaced_of_expand h
  exact ⟨by rw [hreplaced.others], hreplaced.outline,
    hreplaced.services.forall_values fun _ _ _ hparts => hparts.extraUnnamed⟩

namespace Normal

/-- What is read from a written build stands in the same place. -/
theorem place_of_build {name : String} {b found : Build} (hextra : b.ExtraUnnamed)
    (h : build name b.toJson = .ok found) :
    found.context = b.context ∧ found.dockerfile = b.dockerfile := by
  have hget : ∀ key o, (key, o) ∈ b.fields → Entries.get? key (written b.fields b.extra) = o :=
    fun key o => get?_fields b.names_fields (by decide) hextra
  rw [b.toJson_eq] at h
  obtain ⟨⟨_, heq, -⟩ | ⟨ms, hms, hof⟩, -⟩ := build_eq_ok_iff.mp h
  · cases heq
  · rw [Json.obj.injEq] at hms
    subst hms
    obtain ⟨context, hcontext, hdefault⟩ := hof.context
    have hdockerfile := hof.dockerfile
    rw [hget "context" (some (.str b.context)) (by simp [Build.fields])] at hcontext
    rw [hget "dockerfile" (b.dockerfile.map .str) (by simp [Build.fields]),
      optionalText_toJson, Except.ok.injEq] at hdockerfile
    cases hcontext
    exact ⟨hdefault, hdockerfile.symm⟩

/-- What is read from a written service has the outline of the service. -/
theorem outline_of_service {declared : Declarations} {name : String} {s found : Service}
    (hextra : s.ExtraUnnamed) (h : service declared name s.toJson = .ok found) :
    found.outline = s.outline := by
  have hget : ∀ key o, (key, o) ∈ s.fields → Entries.get? key (written s.fields s.extra) = o :=
    fun key o => get?_fields s.names_fields (by decide) hextra.1
  rw [s.toJson_eq] at h
  obtain ⟨ms, hms, hof⟩ := service_eq_ok_iff.mp h
  simp only [entityMembers, Except.ok.injEq] at hms
  subst hms
  have himage : found.image = s.image := by
    have hread := hof.image
    rw [hget "image" (s.image.map .str) (by simp [Service.fields]), optionalText_toJson,
      Except.ok.injEq] at hread
    exact hread.symm
  have hdependsOn : found.dependsOn = s.dependsOn := by
    have hread := readField_listField
      (hget "depends_on" (listField s.dependsOn) (by simp [Service.fields]))
      (dependencies_textsToJson name s.dependsOn)
    rw [hof.dependsOn, Except.ok.injEq] at hread
    exact hread
  have hbuild : found.build.map (fun b => (b.context, b.dockerfile)) =
      s.build.map fun b => (b.context, b.dockerfile) := by
    have hfield := hget "build" (s.build.map Build.toJson) (by simp [Service.fields])
    cases hold : s.build with
    | none =>
      rw [hold, Option.map_none] at hfield
      rcases readOption_eq_ok_iff.mp hof.build with ⟨-, hnone⟩ | ⟨x, hx, -⟩
      · rw [hnone]
      · rw [(field?_eq_some_iff.mp hx).1] at hfield
        cases hfield
    | some b =>
      rw [hold, Option.map_some] at hfield
      rcases readOption_eq_ok_iff.mp hof.build with ⟨hnone, -⟩ | ⟨x, hx, b', hread, hsome⟩
      · have hthere : field? "build" (written s.fields s.extra) = some b.toJson :=
          field?_eq_some_iff.mpr ⟨hfield, by simp [Build.toJson]⟩
        rw [hthere] at hnone
        cases hnone
      · rw [(field?_eq_some_iff.mp hx).1, Option.some.injEq] at hfield
        subst hfield
        obtain ⟨hcontext, hdockerfile⟩ := place_of_build (hextra.2 b hold) hread
        simp [hsome, hcontext, hdockerfile]
  simp only [Service.outline, himage, hdependsOn, hbuild]

/-- A section whose names differ is read entry by entry. -/
theorem forall₂_of_entities {α : Type} {read : String → Json → Outcome α} {es : Entries Json}
    {t : Table α} (hes : (Entries.keys es).Nodup) (h : entities read es = .ok t) :
    List.Forall₂ (fun e f => f.1 = e.1 ∧ read e.1 e.2 = .ok f.2) es t.entries := by
  obtain ⟨found, hfound, rfl⟩ := entities_eq_ok_iff.mp h
  have hkeys : (Entries.keys found).Nodup := Entries.keys_traverse hfound ▸ hes
  rw [Table.entries_ofEntries hkeys]
  exact Entries.traverse_eq_ok_iff.mp hfound

/-- What is read from a written composition has its outline. -/
theorem outline_of_document {c found : Composition}
    (hextra : ∀ s ∈ c.services.values, s.ExtraUnnamed) (h : document c.toJson = .ok found) :
    found.outline = c.outline := by
  obtain ⟨ms, hms, hof⟩ := document_eq_ok_iff.mp h
  rw [c.toJson_eq, Json.obj.injEq] at hms
  subst hms
  obtain ⟨services, _, _, hsection, -, -, -, -, hread⟩ := hof.sections
  rw [sectionMembers_services, Except.ok.injEq] at hsection
  subst hsection
  have hnames : (Entries.keys (c.services.entries.map fun e => (e.1, e.2.toJson))).Nodup := by
    rw [Entries.keys_map]
    exact c.services.nodup
  -- The names of services differ, so each is read at its own place in the section.
  have hpairs := forall₂_of_entities hnames hread
  rw [List.forall₂_map_left_iff] at hpairs
  have hservices : ∀ e ∈ c.services.entries, e.2.ExtraUnnamed :=
    fun e he => hextra e.2 (Table.mem_values_iff.mpr ⟨e.1, he⟩)
  have hboth := (List.forall₂_and_left c.services.entries found.services.entries).mpr
    ⟨hservices, hpairs⟩
  refine Composition.outline_eq_of_forall₂ (hboth.imp fun e f hparts => ?_)
  obtain ⟨hunnamed, hname, hservice⟩ := hparts
  exact ⟨hname, outline_of_service hunnamed hservice⟩

end Normal

end ContainerStack
