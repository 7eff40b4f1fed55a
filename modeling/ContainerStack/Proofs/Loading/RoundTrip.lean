import ContainerStack.Proofs.Loading.Images
import ContainerStack.Proofs.Renormalization

/-!
Compositions and images read back. What loading gives has no extra member with the name
of a field and no null reference, whatever value it was loaded from. A composition is
therefore loaded from its written form as itself exactly when this holds of it and the
paths of its env files are read as themselves. A normalized composition may still have a
null reference, which is the one thing that loading does not give back.
-/

namespace ContainerStack

open Text ContainerStack.Normal

namespace Loading

variable {α β : Type} {step : α → String → Json → Result α} {draft loaded : α}

/-- What each member keeps of a draft holds of the loaded value. -/
theorem fill_induction {P : α → Prop} {ms : Entries Json} (hdraft : P draft)
    (hstep : ∀ d key x next, P d → step d key x = .ok next → P next)
    (h : fill step draft ms = .ok loaded) : P loaded := by
  induction ms generalizing draft with
  | nil =>
    rw [fill, List.foldlM_nil] at h
    exact Except.ok.inj h ▸ hdraft
  | cons m rest ih =>
    rw [fill, List.foldlM_cons] at h
    obtain ⟨next, hnext, hrest⟩ := bind_eq_ok_iff.mp h
    exact ih (hstep draft m.1 m.2 next hdraft hnext) hrest

theorem record_induction {P : α → Prop} {form : RecordForm} {x : Json} (hdraft : P draft)
    (hstep : ∀ d key x next, P d → step d key x = .ok next → P next)
    (h : record form step draft x = .ok loaded) : P loaded := by
  unfold record at h
  split at h
  · obtain ⟨_, hfill, hrest⟩ := bind_eq_ok_iff.mp h
    obtain ⟨_, -, hloaded⟩ := bind_eq_ok_iff.mp hrest
    exact Except.ok.inj hloaded ▸ fill_induction hdraft hstep hfill
  · obtain ⟨_, hfill, hrest⟩ := bind_eq_ok_iff.mp h
    obtain ⟨_, -, hloaded⟩ := bind_eq_ok_iff.mp hrest
    exact Except.ok.inj hloaded ▸ fill_induction hdraft hstep hfill
  · contradiction

/-- Loading succeeds only if every member is accepted. -/
theorem exists_step_of_fill {ms : Entries Json} (h : fill step draft ms = .ok loaded) :
    ∀ m ∈ ms, ∃ d next, step d m.1 m.2 = .ok next := by
  induction ms generalizing draft with
  | nil => simp
  | cons m rest ih =>
    rw [fill, List.foldlM_cons] at h
    obtain ⟨next, hnext, hrest⟩ := bind_eq_ok_iff.mp h
    exact List.forall_mem_cons.mpr ⟨⟨draft, next, hnext⟩, ih hrest⟩

theorem optional_eq_ok_iff {load : Json → Result β} {x : Json} {o : Option β} :
    optional load x = .ok o ↔
      (x = .null ∧ o = none) ∨ x ≠ .null ∧ ∃ b, load x = .ok b ∧ o = some b := by
  unfold optional
  split
  · simp [eq_comm]
  · rename_i hx
    have hne : x ≠ .null := hx
    simp only [map_eq_ok_iff, hne, false_and, false_or, ne_eq, not_false_eq_true, true_and,
      eq_comm (a := o)]

theorem exists_load_of_table {load : Json → Result β} {x : Json} {t : Table β}
    (h : table load x = .ok t) : ∀ b ∈ t.values, ∃ y, load y = .ok b := by
  obtain ⟨ms, -, hms⟩ := bind_eq_ok_iff.mp h
  obtain ⟨es, hes, ht⟩ := bind_eq_ok_iff.mp hms
  intro b hb
  obtain ⟨name, hmem⟩ := Table.mem_values_iff.mp hb
  rw [← Except.ok.inj ht] at hmem
  obtain ⟨m, -, -, hload⟩ :=
    exists_mem_left_of_forall₂ (Entries.traverse_eq_ok_iff.mp hes) _ (Table.mem_of_mem_ofEntries hmem)
  exact ⟨m.2, hload⟩

end Loading

open Loading

theorem notMem_of_mem_insert {named : List String} {t : Table Json} {key : String}
    (ht : ∀ k ∈ t.keys, k ∉ named) (hkey : key ∉ named) (x : Json) :
    ∀ k ∈ (t.insert key x).keys, k ∉ named := by
  intro k hk
  rw [Table.keys_insert] at hk
  split at hk
  · exact ht k hk
  · rcases List.mem_append.mp hk with hold | hnew
    · exact ht k hold
    · exact List.mem_singleton.mp hnew ▸ hkey

theorem Build.ExtraUnnamed.withMember {b next : Build} {key : String} {x : Json}
    (hb : b.ExtraUnnamed) (h : b.withMember key x = .ok next) : next.ExtraUnnamed := by
  unfold Build.withMember at h
  split at h
  case h_5 =>
    have hkey : key ∉ buildFields := by simp_all [buildFields]
    exact Except.ok.inj h ▸ notMem_of_mem_insert hb hkey x
  all_goals
    obtain ⟨_, -, rfl⟩ := map_eq_ok_iff.mp h
    exact hb

theorem Build.extraUnnamed_of_load {x : Json} {b : Build} (h : Build.load x = .ok b) :
    b.ExtraUnnamed := by
  obtain ⟨ms, -, hrest⟩ := bind_eq_ok_iff.mp h
  obtain ⟨_, hfill, hlast⟩ := bind_eq_ok_iff.mp hrest
  obtain ⟨_, -, hb⟩ := bind_eq_ok_iff.mp hlast
  have hdraft : ({ context := "" } : Build).ExtraUnnamed := List.forall_mem_nil _
  exact Except.ok.inj hb ▸ fill_induction hdraft (fun _ _ _ _ => ExtraUnnamed.withMember) hfill

theorem Service.ExtraUnnamed.withMember {s next : Service} {key : String} {x : Json}
    (hs : s.ExtraUnnamed) (h : s.withMember key x = .ok next) : next.ExtraUnnamed := by
  unfold Service.withMember at h
  split at h
  case h_2 =>
    obtain ⟨build, hbuild, rfl⟩ := map_eq_ok_iff.mp h
    refine ⟨hs.1, fun b hb => ?_⟩
    rcases optional_eq_ok_iff.mp hbuild with ⟨-, hnone⟩ | ⟨-, loaded, hload, hsome⟩
    · exact absurd (hb.symm.trans hnone) (Option.some_ne_none b)
    · exact Option.some.inj (hsome.symm.trans hb) ▸ Build.extraUnnamed_of_load hload
  case h_11 =>
    have hkey : key ∉ serviceFields := by simp_all [serviceFields]
    exact Except.ok.inj h ▸ ⟨notMem_of_mem_insert hs.1 hkey x, hs.2⟩
  all_goals
    obtain ⟨_, -, rfl⟩ := map_eq_ok_iff.mp h
    exact hs

theorem Service.extraUnnamed_of_load {x : Json} {s : Service} (h : Service.load x = .ok s) :
    s.ExtraUnnamed := by
  obtain ⟨ms, -, hfill⟩ := bind_eq_ok_iff.mp h
  have hdraft : ({} : Service).ExtraUnnamed := ⟨List.forall_mem_nil _, by simp⟩
  exact fill_induction hdraft (fun _ _ _ _ => ExtraUnnamed.withMember) hfill

/-- No reference of the resource is null. -/
def Resource.NoNullReference (r : Resource) : Prop :=
  r.external ≠ some .null

instance (r : Resource) : Decidable r.NoNullReference :=
  inferInstanceAs (Decidable (r.external ≠ some .null))

theorem Resource.keeps_withMember {r next : Resource} {key : String} {x : Json}
    (hr : r.ExtraUnnamed ∧ r.NoNullReference) (h : r.withMember key x = .ok next) :
    next.ExtraUnnamed ∧ next.NoNullReference := by
  unfold Resource.withMember at h
  split at h
  case h_3 =>
    obtain ⟨external, hexternal, rfl⟩ := map_eq_ok_iff.mp h
    refine ⟨hr.1, fun hnull => ?_⟩
    rcases optional_eq_ok_iff.mp hexternal with ⟨-, hnone⟩ | ⟨hx, loaded, hload, hsome⟩
    · exact absurd (hnull.symm.trans hnone) (Option.some_ne_none _)
    · have hloaded : loaded = .null := Option.some.inj (hsome.symm.trans hnull)
      exact hx ((Except.ok.inj hload).trans hloaded)
  case h_4 =>
    have hkey : key ∉ resourceFields := by simp_all [resourceFields]
    exact Except.ok.inj h ▸ ⟨notMem_of_mem_insert hr.1 hkey x, hr.2⟩
  all_goals
    obtain ⟨_, -, rfl⟩ := map_eq_ok_iff.mp h
    exact hr

theorem Resource.keeps_of_load {expected : String} {x : Json} {r : Resource}
    (h : Resource.load expected x = .ok r) : r.ExtraUnnamed ∧ r.NoNullReference := by
  obtain ⟨ms, -, hfill⟩ := bind_eq_ok_iff.mp h
  have hdraft : ({} : Resource).ExtraUnnamed ∧ ({} : Resource).NoNullReference :=
    ⟨List.forall_mem_nil _, by simp [Resource.NoNullReference]⟩
  exact fill_induction (P := fun r => r.ExtraUnnamed ∧ r.NoNullReference) hdraft
    (fun _ _ _ _ => keeps_withMember) hfill

def Composition.NoNullReference (c : Composition) : Prop :=
  (∀ r ∈ c.networks.values, r.NoNullReference) ∧ ∀ r ∈ c.volumes.values, r.NoNullReference

instance (c : Composition) : Decidable c.NoNullReference :=
  inferInstanceAs (Decidable (_ ∧ _))

theorem Composition.keeps_withMember {c next : Composition} {key : String} {x : Json}
    (hc : c.ExtraUnnamed ∧ c.NoNullReference) (h : c.withMember key x = .ok next) :
    next.ExtraUnnamed ∧ next.NoNullReference := by
  obtain ⟨⟨hservices, hnetworks, hvolumes⟩, hnetworkNulls, hvolumeNulls⟩ := hc
  have hresources : ∀ {expected} {t : Table Resource},
      table (Resource.load expected) x = .ok t →
        ∀ r ∈ t.values, r.ExtraUnnamed ∧ r.NoNullReference := by
    intro expected t ht r hr
    obtain ⟨y, hy⟩ := exists_load_of_table ht r hr
    exact Resource.keeps_of_load hy
  unfold Composition.withMember at h
  split at h
  case h_1 =>
    obtain ⟨_, -, rfl⟩ := map_eq_ok_iff.mp h
    exact ⟨⟨hservices, hnetworks, hvolumes⟩, hnetworkNulls, hvolumeNulls⟩
  case h_2 =>
    obtain ⟨services, hload, rfl⟩ := map_eq_ok_iff.mp h
    refine ⟨⟨fun s hs => ?_, hnetworks, hvolumes⟩, hnetworkNulls, hvolumeNulls⟩
    obtain ⟨y, hy⟩ := exists_load_of_table hload s hs
    exact Service.extraUnnamed_of_load hy
  case h_3 =>
    obtain ⟨networks, hload, rfl⟩ := map_eq_ok_iff.mp h
    have hall := hresources hload
    exact ⟨⟨hservices, fun r hr => (hall r hr).1, hvolumes⟩, fun r hr => (hall r hr).2,
      hvolumeNulls⟩
  case h_4 =>
    obtain ⟨volumes, hload, rfl⟩ := map_eq_ok_iff.mp h
    have hall := hresources hload
    exact ⟨⟨hservices, hnetworks, fun r hr => (hall r hr).1⟩, hnetworkNulls,
      fun r hr => (hall r hr).2⟩
  case h_5 =>
    exact Except.ok.inj h ▸ ⟨⟨hservices, hnetworks, hvolumes⟩, hnetworkNulls, hvolumeNulls⟩

/-- Whatever value it is loaded from, a composition has no extra member with the name of
a field and no null reference. -/
theorem Composition.keeps_of_load {v : Json} {c : Composition} (h : Composition.load v = .ok c) :
    c.ExtraUnnamed ∧ c.NoNullReference := by
  have hdraft : ({ version := "" } : Composition).ExtraUnnamed ∧
      ({ version := "" } : Composition).NoNullReference :=
    ⟨⟨List.forall_mem_nil _, List.forall_mem_nil _, List.forall_mem_nil _⟩,
      List.forall_mem_nil _, List.forall_mem_nil _⟩
  exact record_induction (P := fun c => c.ExtraUnnamed ∧ c.NoNullReference) hdraft
    (fun _ _ _ _ => keeps_withMember) h

theorem Resource.withoutNull_eq_self_iff {r : Resource} :
    r.withoutNull = r ↔ r.NoNullReference := by
  cases r with
  | mk driver labels external extra =>
    cases external <;> simp [withoutNull, NoNullReference, Option.filter]

theorem Composition.withoutNulls_eq_self_iff {c : Composition} :
    c.withoutNulls = c ↔ c.NoNullReference := by
  cases c with
  | mk version services networks volumes =>
    simp [withoutNulls, NoNullReference, Table.map_eq_self_iff, Resource.withoutNull_eq_self_iff]

/-- A written path that is loaded at all is read as itself. -/
theorem EnvPath.stable_of_load {p q : EnvPath} (h : Loading.envPath (.str p.text) = .ok q) :
    p.Stable := by
  simp only [Loading.envPath, Loading.text, bind, Except.bind] at h
  split at h
  · rename_i found hfound
    rw [EnvPath.Stable, hfound, EnvPath.eq_of_parse_text hfound]
  · contradiction

theorem Service.stable_of_load {s found : Service} (h : Service.load s.toJson = .ok found) :
    ∀ paths, s.envFiles = some paths → ∀ p ∈ paths, p.Stable := by
  intro paths hpaths p hp
  rw [s.toJson_eq] at h
  obtain ⟨ms, hms, hfill⟩ := bind_eq_ok_iff.mp h
  have hmember : ("env_file", textsToJson (paths.map EnvPath.text)) ∈ ms := by
    rw [← Except.ok.inj hms, mem_written_iff]
    exact .inl (by simp [Service.fields, hpaths])
  obtain ⟨_, _, hstep⟩ := exists_step_of_fill hfill _ hmember
  obtain ⟨o, ho, -⟩ := map_eq_ok_iff.mp hstep
  rcases optional_eq_ok_iff.mp ho with ⟨hnull, -⟩ | ⟨-, loaded, hload, -⟩
  · exact absurd hnull (textsToJson_ne_null _)
  · obtain ⟨xs, hxs, hlist⟩ := bind_eq_ok_iff.mp hload
    rw [← Except.ok.inj hxs, List.map_map, mapM_eq_ok_iff, List.forall₂_map_left_iff] at hlist
    obtain ⟨q, -, hq⟩ := exists_mem_right_of_forall₂ hlist p hp
    exact EnvPath.stable_of_load hq

/-- A written composition is loaded only if every path of an env file is read as itself. -/
theorem Composition.stable_of_load {c found : Composition}
    (h : Composition.load c.toJson = .ok found) : ∀ p, c.EnvFile p → p.Stable := by
  rintro p ⟨s, hs, paths, hpaths, hp⟩
  rw [c.toJson_eq] at h
  obtain ⟨_, hfill, -⟩ := bind_eq_ok_iff.mp h
  have hmember : ("services", sectionToJson Service.toJson c.services) ∈
      written c.fields .empty := by
    rw [mem_written_iff]
    exact .inl (by simp [Composition.fields])
  obtain ⟨_, _, hstep⟩ := exists_step_of_fill hfill _ hmember
  obtain ⟨t, ht, -⟩ := map_eq_ok_iff.mp hstep
  obtain ⟨ms, hms, hrest⟩ := bind_eq_ok_iff.mp ht
  obtain ⟨loaded, hloaded, -⟩ := bind_eq_ok_iff.mp hrest
  rw [← Except.ok.inj hms, Entries.traverse_eq_ok_iff, List.forall₂_map_left_iff] at hloaded
  obtain ⟨name, hmem⟩ := Table.mem_values_iff.mp hs
  obtain ⟨_, -, -, hservice⟩ := exists_mem_right_of_forall₂ hloaded _ hmem
  exact Service.stable_of_load hservice paths hpaths p hp

theorem Composition.load_toJson_eq_ok_iff {c : Composition} (hextra : c.ExtraUnnamed) :
    Composition.load c.toJson = .ok c ↔ c.NoNullReference ∧ ∀ p, c.EnvFile p → p.Stable := by
  constructor
  · intro h
    exact ⟨(keeps_of_load h).2, stable_of_load h⟩
  · intro hparts
    obtain ⟨hnulls, hstable⟩ := hparts
    rw [load_toJson hextra hstable, withoutNulls_eq_self_iff.mpr hnulls]

/-- What was loaded is loaded again from its written form, with all tables in their order,
if the paths of its env files are read as themselves; a different composition is never
loaded. Images are loaded again without condition. -/
theorem loaded_from_written :
    (∀ v c, Composition.load v = .ok c →
      (Composition.load c.toJson = .ok c ↔ ∀ p, c.EnvFile p → p.Stable) ∧
        ∀ found, Composition.load c.toJson = .ok found → found = c) ∧
      ∀ images, loadImages (imagesToJson images) = .ok images := by
  refine ⟨fun v c h => ?_, loadImages_imagesToJson⟩
  obtain ⟨hextra, hnulls⟩ := Composition.keeps_of_load h
  refine ⟨?_, fun found hfound => ?_⟩
  · rw [Composition.load_toJson_eq_ok_iff hextra]
    exact and_iff_right hnulls
  · have hstable := Composition.stable_of_load hfound
    rw [(Composition.load_toJson_eq_ok_iff hextra).mpr ⟨hnulls, hstable⟩] at hfound
    exact (Except.ok.inj hfound).symm

/-- Members in another order than they are written, nulls for what is absent, and members
that no entity names. -/
def looseValue : Json := .obj [
  ("name", .str "shop"),
  ("networks", .obj [("front", .obj [("external", .null), ("ipam", .null)])]),
  ("services", .obj [
    ("web", .obj [
      ("restart", .str "always"),
      ("networks", .obj [("front", .null)]),
      ("env_file", .arr [.str "env/web"]),
      ("build", .obj [("target", .num (.int 1)), ("context", .str "."), ("dockerfile", .null)]),
      ("image", .null)])]),
  ("version", .str "2.1")]

def loose : Composition where
  version := "2.1"
  services := .ofEntries [
    ("web", {
      build := some { context := ".", extra := .ofEntries [("target", .num (.int 1))] }
      envFiles := some [shopFile]
      networks := some (.table (.ofEntries [("front", .null)]))
      extra := .ofEntries [("restart", .str "always")] })]
  networks := .ofEntries [("front", { extra := .ofEntries [("ipam", .null)] })]

theorem loose_from_written :
    Composition.load looseValue = .ok loose ∧ Composition.load loose.toJson = .ok loose := by
  have hload : Composition.load looseValue = .ok loose := by decide +kernel
  have hstable : ∀ p, loose.EnvFile p → p.Stable := by
    rw [Composition.forall_envFile_iff]
    decide +kernel
  exact ⟨hload, (loaded_from_written.1 looseValue loose hload).1.mpr hstable⟩

/-- A normalized composition without env files is normalized again from its written form
as itself. Loaded from it, it has lost its null references and nothing else. -/
theorem load_toJson_of_document {doc : Json} {c : Composition}
    (h : Normal.document doc = .ok c) (hfiles : ∀ p, ¬c.EnvFile p) :
    Normal.document c.toJson = .ok c ∧ Composition.load c.toJson = .ok c.withoutNulls ∧
      (Composition.load c.toJson = .ok c ↔ c.NoNullReference) := by
  obtain ⟨ms, -, hof⟩ := document_eq_ok_iff.mp h
  have hextra := extraUnnamed_of_document hof
  have hstable : ∀ p, c.EnvFile p → p.Stable := fun p hp => absurd hp (hfiles p)
  refine ⟨document_toJson hextra (coherent_of_documentOf hof) hstable,
    Composition.load_toJson hextra hstable, ?_⟩
  rw [Composition.load_toJson_eq_ok_iff hextra]
  exact and_iff_left hstable

/-- One network, with the given reference. -/
def frontDocument (reference : Json) : Json := .obj [
  ("version", .str "2.1"),
  ("services", .obj [("web", .obj [("image", .str "store")])]),
  ("networks", .obj [("front", .obj [("external", reference)])])]

def front (reference : Json) : Composition where
  version := "2.1"
  services := .ofEntries [("web", { image := some "store" })]
  networks := .ofEntries [("front", { external := some reference })]

theorem document_front (reference : Json) :
    Normal.document (frontDocument reference) = .ok (front reference) := by
  refine document_eq_ok_iff.mpr ⟨_, rfl, rfl, rfl, by simp [Entries.keys, topLevelFields],
    ⟨_, _, _, rfl, rfl, rfl, rfl, rfl, rfl⟩, ?_⟩
  exact (Composition.exists_startupOrder_iff _).mp ⟨["web"], by cbv⟩

theorem front_without_envFile (reference : Json) (p : EnvPath) :
    ¬(front reference).EnvFile p := by
  rintro ⟨s, hs, paths, hpaths, -⟩
  have hweb : s = { image := some "store" } := List.mem_singleton.mp hs
  rw [hweb] at hpaths
  contradiction

theorem load_front_true :
    Composition.load (front (.bool true)).toJson = .ok (front (.bool true)) := by
  obtain ⟨-, -, hload⟩ :=
    load_toJson_of_document (document_front (.bool true)) (front_without_envFile _)
  exact hload.mpr (by decide +kernel)

/-- Normalization keeps a null reference, which loading takes for an absent one. -/
theorem not_loaded_front_null :
    Normal.document (frontDocument .null) = .ok (front .null) ∧
      (∀ p, ¬(front .null).EnvFile p) ∧
      Composition.load (front .null).toJson ≠ .ok (front .null) :=
  ⟨document_front .null, front_without_envFile .null, by decide +kernel⟩

end ContainerStack
