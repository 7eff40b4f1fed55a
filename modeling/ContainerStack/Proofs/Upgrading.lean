import ContainerStack.Proofs.Document.Chain
import ContainerStack.Proofs.Document.Upgraded

/-!
Upgrading keeps what a document means. A legacy document and the versioned document
that has it as its services lead to the same compositions, and a document of the
versioned format leads to nothing else once it declares the canonical one. The schemas
agree with this: each format accepts the documents of the one before it, rewritten by
the step between them. Without schemas a document may go back to the older format as
well.
-/

namespace ContainerStack

open Document

theorem resolveVersion_wrap (doc : Json) :
    resolveVersion (wrap FormatVersion.v20.tag doc) = .ok .v20 :=
  resolveVersion_of_tag rfl

/-- The members of a tidied mapping are told apart by their names as before. -/
def tidyTable (v : FormatVersion) (d : Table Json) : Table Json :=
  ⟨tidyMembers v d.entries, by
    cases v with
    | v1 => exact d.nodup.sublist (Entries.keys_erase_subset "version" d.entries)
    | v20 | v21 =>
      simp only [tidyMembers, keys_alter]
      exact Entries.nodup_keys_put d.nodup _ _⟩

/-- A legacy document means what its services mean in a versioned document. -/
theorem normalize_wrap_iff {checking : Checking} {m : Table Json} {c : Composition}
    (h : m.get? "version" = none) :
    normalize checking (.obj m.entries) = .ok c ↔
      normalize checking (wrap FormatVersion.v20.tag (.obj m.entries)) = .ok c := by
  have hlegacy : tidyMembers .v1 m.entries = m.entries := Entries.erase_of_get?_eq_none h
  have hrequire : checking.require .v1 (.obj m.entries) = .ok () ↔
      checking.require .v20 (wrap FormatVersion.v20.tag (.obj m.entries)) = .ok () :=
    ⟨Checking.require_mono Schema.valid_wrap_iff.mpr,
      Checking.require_mono Schema.valid_wrap_iff.mp⟩
  have htidied : tidy .v1 (.obj m.entries) = .ok (.obj m.entries) :=
    congrArg (fun ms => Except.ok (Json.obj ms)) hlegacy
  rw [normalize_tidied_eq_ok_iff (resolveVersion_unversioned h) htidied, hrequire]
  exact (normalize_tidied_eq_ok_iff (resolveVersion_wrap (.obj m.entries)) rfl).symm

/-- The mapping, tidied and declared to be canonical. -/
def canonicalMembers (d : Table Json) : Table Json :=
  (tidyTable .v20 d).insert "version" (.str FormatVersion.v21.tag)

theorem normalize_versioned_iff {checking : Checking} {d : Table Json} {c : Composition}
    (h : resolveVersion (.obj d.entries) = .ok .v20) :
    normalize checking (.obj d.entries) = .ok c ↔
      checking.require .v20 (.obj (tidyTable .v20 d).entries) = .ok () ∧
        Normal.DocumentOf (canonicalMembers d).entries c := by
  have htidied : tidy .v20 (.obj d.entries) = .ok (.obj (tidyTable .v20 d).entries) := rfl
  rw [normalize_tidied_eq_ok_iff h htidied]
  -- The check is the same on both sides; what is read has got the canonical tag.
  refine and_congr_right fun _ => ?_
  simp only [upgrade, retag_eq_ok_iff, Json.obj.injEq]
  constructor
  · intro hparts
    obtain ⟨_, ⟨_, rfl, rfl⟩, hof⟩ := hparts
    exact hof
  · exact fun hof => ⟨_, ⟨_, rfl, rfl⟩, hof⟩

/-- Declaring the canonical format changes what is checked, and nothing else. -/
theorem normalize_retagged_iff {checking : Checking} {d : Table Json} {c : Composition} :
    normalize checking (.obj (d.insert "version" (.str FormatVersion.v21.tag)).entries) = .ok c ↔
      checking.require .v21 (.obj (canonicalMembers d).entries) = .ok () ∧
        Normal.DocumentOf (canonicalMembers d).entries c := by
  have hcanonical : resolveVersion
      (.obj (d.insert "version" (.str FormatVersion.v21.tag)).entries) = .ok .v21 :=
    resolveVersion_of_tag (Entries.get?_put_self _ _ _)
  have htidied : tidy .v21 (.obj (d.insert "version" (.str FormatVersion.v21.tag)).entries) =
      .ok (.obj (canonicalMembers d).entries) :=
    congrArg (fun ms => Except.ok (Json.obj ms)) (tidyMembers_put d.entries)
  rw [normalize_tidied_eq_ok_iff hcanonical htidied]
  simp [upgrade]

/-- Upgrading does not change what a document means. A mapping without a version leads
to what the versioned document with these services leads to; a document of the
versioned format leads to the same when it declares the canonical one, and without
schemas only then. A valid document can be upgraded and is then valid in the canonical
format, as it is in each later format on the way there. -/
theorem upgrading_keeps_meaning :
    (∀ (checking : Checking) (m : Table Json) (c : Composition), m.get? "version" = none →
      (normalize checking (.obj m.entries) = .ok c ↔
        normalize checking (.obj [("version", .str "2.0"), ("services", .obj m.entries)]) =
          .ok c)) ∧
    (∀ (checking : Checking) (d : Table Json) (c : Composition),
      resolveVersion (.obj d.entries) = .ok .v20 → normalize checking (.obj d.entries) = .ok c →
        normalize checking (.obj (d.insert "version" (.str "2.1")).entries) = .ok c) ∧
    (∀ (d : Table Json) (c : Composition), resolveVersion (.obj d.entries) = .ok .v20 →
      (normalize .off (.obj d.entries) = .ok c ↔
        normalize .off (.obj (d.insert "version" (.str "2.1")).entries) = .ok c)) ∧
    ∀ (v : FormatVersion) (d : Table Json), (Schema.ofVersion v).Valid (.obj d.entries) →
      (∃ found, upgrade v (.obj d.entries) = .ok found ∧ (Schema.ofVersion .v21).Valid found) ∧
      ∀ w, Later v w → ∃ found, Run (v, .obj d.entries) (w, found) ∧
        (Schema.ofVersion w).Valid found := by
  refine ⟨fun checking m c h => normalize_wrap_iff h, fun checking d c h hc => ?_,
    fun d c h => ?_, fun v d hvalid => ?_⟩
  · obtain ⟨hrequire, hof⟩ := (normalize_versioned_iff h).mp hc
    have hcanonical := Checking.require_mono Schema.valid_insert_canonical hrequire
    exact normalize_retagged_iff.mpr ⟨hcanonical, hof⟩
  · have hunchecked : Checking.off.require .v20 (.obj (tidyTable .v20 d).entries) = .ok () ↔
        Checking.off.require .v21 (.obj (canonicalMembers d).entries) = .ok () :=
      ⟨fun _ => Checking.require_off _ _, fun _ => Checking.require_off _ _⟩
    rw [normalize_versioned_iff h, hunchecked]
    exact normalize_retagged_iff.symm
  · have hconforms : Conforms (v, .obj d.entries) := ⟨⟨d, rfl⟩, hvalid⟩
    constructor
    · obtain ⟨found, hfound⟩ := hconforms.exists_upgrade
      exact ⟨found, hfound, (hconforms.run (upgrade_eq_ok_iff.mp hfound)).valid⟩
    · intro w hlater
      obtain ⟨found, hrun⟩ := hconforms.exists_run hlater
      exact ⟨found, hrun, (hconforms.run hrun).valid⟩

/-- One service from an image, without a version. -/
def storeServices : Table Json :=
  ⟨[("web", .obj [("image", .str "store")])], by simp [Entries.keys]⟩

def store : Composition where
  version := "2.1"
  services := .ofEntries [("web", { image := some "store" })]

theorem normalize_storeServices : normalize .schema (.obj storeServices.entries) = .ok store := by
  refine normalize_eq_ok_iff.mpr ⟨.v1, _, _, rfl, rfl, by decide +kernel, rfl, ?_⟩
  refine ⟨rfl, rfl, by decide +kernel,
    ⟨_, _, _, rfl, rfl, rfl, by decide +kernel, by decide +kernel, by decide +kernel⟩, ?_⟩
  exact (Composition.exists_startupOrder_iff store).mp ⟨["web"], by cbv⟩

theorem store_upgraded :
    normalize .schema (.obj storeServices.entries) = .ok store ∧
      normalize .schema (.obj
        ((wrapped "2.0" (.obj storeServices.entries)).insert "version" (.str "2.1")).entries) =
          .ok store ∧
      (∃ found, upgrade .v1 (.obj storeServices.entries) = .ok found ∧
        (Schema.ofVersion .v21).Valid found) ∧
      ∃ found, Run (.v1, .obj storeServices.entries) (.v20, found) ∧
        (Schema.ofVersion .v20).Valid found := by
  obtain ⟨hlegacy, hversioned, -, hvalid⟩ := upgrading_keeps_meaning
  have hwrapped := (hlegacy .schema storeServices store rfl).mp normalize_storeServices
  have hretagged := hversioned .schema (wrapped "2.0" (.obj storeServices.entries)) store
    (resolveVersion_wrap (.obj storeServices.entries)) hwrapped
  obtain ⟨hupgraded, hlater⟩ := hvalid .v1 storeServices (by decide +kernel)
  exact ⟨normalize_storeServices, hretagged, hupgraded, hlater .v20 (.single rfl)⟩

/-- Once it has reached the canonical format, a legacy document is not valid in the
versioned format, which asks for its own tag. -/
theorem not_valid_in_every_later_format :
    ¬∀ (v w : FormatVersion) (doc found : Json), (Schema.ofVersion v).Valid doc →
      upgrade v doc = .ok found → Later v w → (Schema.ofVersion w).Valid found := by
  intro h
  have hvalid := h .v1 .v20 (.obj storeServices.entries) _ (by decide +kernel) rfl (.single rfl)
  exact absurd hvalid (by decide +kernel)

end ContainerStack
