import ContainerStack.Proofs.Errors
import ContainerStack.Proofs.Outline

/-!
Runs of calls that follow a normalization. Each call expands the current composition or
normalizes its written form again, and one that fails leaves the composition as it
was. The calls keep the outline of the first composition, and with it the services, the
order in which they start and where their images come from; so on no composition that a
run reaches does anything fail for a reason inside the library.
-/

namespace ContainerStack

/-- A call on the current composition of a run. -/
inductive Call where
  | expand (files : ProjectFiles) (lookup : Template.Lookup)
  | renormalize (checking : Checking)

def Call.outcome (c : Composition) : Call → Outcome Composition
  | .expand files lookup => (c.expand files lookup).result
  | .renormalize checking => normalize checking c.toJson

namespace Composition

/-- The current composition after a call; one that fails leaves it as it was. -/
def after (c : Composition) (call : Call) : Composition :=
  match call.outcome c with
  | .ok found => found
  | .error _ => c

def afterAll (c : Composition) (calls : List Call) : Composition :=
  calls.foldl after c

/-- The composition is canonical and has kept the outline of the first one, and its
services can be written and read back. -/
structure Follows (first c : Composition) : Prop where
  version : c.version = "2.1"
  outline : c.outline = first.outline
  extraUnnamed : ∀ s ∈ c.services.values, s.ExtraUnnamed

/-- What can be relied on at any point of a run that began with `first`. -/
structure Sound (first c : Composition) : Prop where
  normalize_fails : ∀ checking e, normalize checking c.toJson = .error e → e.isValidation = true
  expand_fails : ∀ files lookup e, (c.expand files lookup).result = .error e →
    (∃ path problem, e = .envFile path problem) ∨ ∃ name word, e = .missingVariable name word
  names : c.services.keys = first.services.keys
  images : ∃ images firstImages, c.images = .ok images ∧ first.images = .ok firstImages ∧
    images.map Image.service = c.services.keys ∧ images.map Image.core = firstImages.map Image.core
  startupOrder : ∃ names, c.startupOrder = .ok names ∧ first.startupOrder = .ok names

end Composition

namespace Composition.Follows

variable {first c d : Composition}

theorem of_normalize {checking : Checking} {doc : Json} (h : normalize checking doc = .ok first) :
    first.Follows first := by
  obtain ⟨v, tidied, ms, -, -, -, -, hof⟩ := normalize_eq_ok_iff.mp h
  exact ⟨hof.version_eq, rfl, (Normal.extraUnnamed_of_document hof).1⟩

theorem expand {files : ProjectFiles} {lookup : Template.Lookup} (h : first.Follows c)
    (hd : (c.expand files lookup).result = .ok d) : first.Follows d := by
  obtain ⟨hversion, houtline, hextra⟩ := outline_of_expand hd
  exact ⟨hversion.trans h.version, houtline.trans h.outline, hextra h.extraUnnamed⟩

theorem renormalize {checking : Checking} (h : first.Follows c)
    (hd : normalize checking c.toJson = .ok d) : first.Follows d := by
  obtain ⟨-, hdocument⟩ := (normalize_toJson_iff h.version).mp hd
  have houtline := Normal.outline_of_document h.extraUnnamed hdocument
  obtain ⟨ms, -, hof⟩ := Normal.document_eq_ok_iff.mp hdocument
  exact ⟨hof.version_eq, houtline.trans h.outline, (Normal.extraUnnamed_of_document hof).1⟩

/-- One call, successful or not, keeps what the first composition fixed. -/
theorem after (h : first.Follows c) (call : Call) : first.Follows (c.after call) := by
  unfold Composition.after
  split
  · rename_i found hfound
    cases call with
    | expand files lookup => exact h.expand hfound
    | renormalize checking => exact h.renormalize hfound
  · exact h

theorem afterAll (h : first.Follows c) (calls : List Call) : first.Follows (c.afterAll calls) := by
  induction calls generalizing c with
  | nil => exact h
  | cons call rest ih => exact ih (h.after call)

/-- The outline of a coherent composition decides all that a run promises. -/
theorem sound (h : first.Follows c) (hfirst : first.Coherent) : first.Sound c := by
  have hnames : c.services.keys = first.services.keys := by
    rw [← keys_outline, h.outline, keys_outline]
  have hsource : ∀ e ∈ first.outline, e.2.source? ≠ none := by
    intro e he
    obtain ⟨⟨name, s⟩, hs, rfl⟩ := List.mem_map.mp he
    have hservice := hfirst.services s (Table.mem_values_iff.mpr ⟨name, hs⟩)
    exact Service.source?_outline_ne_none_iff.mpr hservice.hasSource
  obtain ⟨firstImages, hfirstImages⟩ := exists_images hfirst.version hsource
  obtain ⟨images, himages⟩ := exists_images h.version (h.outline ▸ hsource)
  obtain ⟨-, hfirstCores⟩ := core_of_images hfirst.version hfirstImages
  obtain ⟨hservices, hcores⟩ := core_of_images h.version himages
  have hsame : images.map Image.core = firstImages.map Image.core := by
    rw [hcores, hfirstCores, outlinedImages, h.outline, outlinedImages]
  obtain ⟨names, hordered⟩ := (exists_startupOrder_iff first).mpr hfirst.acyclic
  exact {
    normalize_fails := fun checking e => isValidation_of_normalize checking c.toJson e
    expand_fails := fun files lookup e => failsOnly_expand files lookup c e
    names := hnames
    images := ⟨images, firstImages, himages, hfirstImages, hservices, hsame⟩
    startupOrder := ⟨names, (startupOrder_eq_of_outline h.outline).trans hordered, hordered⟩ }

end Composition.Follows

/-- Once a document has been normalized, expanding and normalizing again, as often and in
whatever order, fail only because of the document, a file or a variable, and the
services keep their names, their startup order and the origin of their images. -/
theorem sound_of_normalize {checking : Checking} {doc : Json} {first : Composition}
    (h : normalize checking doc = .ok first) (calls : List Call) :
    first.Sound (first.afterAll calls) := by
  obtain ⟨v, tidied, ms, -, -, -, -, hof⟩ := normalize_eq_ok_iff.mp h
  have hfollows := (Composition.Follows.of_normalize h).afterAll calls
  exact hfollows.sound (Normal.coherent_of_documentOf hof)

/-- The file that the services list, with a reference in it. -/
def shopFiles : ProjectFiles := fun _ => .content "MODE=$KIND-1".toUTF8

/-- A call that fails for want of a file, and two that do not. -/
def shopCalls : List Call := [
  .expand (fun _ => .notOpened "no such file") (fun _ => none),
  .expand shopFiles (fun _ => none),
  .renormalize .schema]

theorem sound_shopCalls :
    normalize .schema shopDocument = .ok shop ∧ shop.Sound (shop.afterAll shopCalls) :=
  ⟨normalize_shop, sound_of_normalize normalize_shop shopCalls⟩

end ContainerStack
