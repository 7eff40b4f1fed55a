import ContainerStack.Proofs.Coherence
import ContainerStack.Proofs.Matched

/-!
The order of declaration. A document may list its services, networks and volumes in any
order: names are resolved in the whole section, whether before or after their use, and
the search for a cycle finds one in whatever order it visits the services. So another
order of a section is normalized exactly when the first one is, to the same entities in
the other order.
-/

namespace ContainerStack

open Entries (Matched)

theorem Json.distinctMembers_iff {ms : Entries Json} :
    DistinctMembers ms ↔ ∀ m ∈ ms, m.2.Distinct := by
  induction ms with
  | nil => simp [DistinctMembers]
  | cons m rest ih => rw [DistinctMembers, List.forall_mem_cons, ih]

theorem Json.distinct_obj_iff {ms : Entries Json} :
    (Json.obj ms).Distinct ↔ (Entries.keys ms).Nodup ∧ ∀ m ∈ ms, m.2.Distinct := by
  rw [Distinct, distinctMembers_iff]

/-- The same entities under the same names, whatever their order. -/
structure Composition.SameEntities (c d : Composition) : Prop where
  version : d.version = c.version
  services : c.services.entries.Perm d.services.entries
  networks : c.networks.entries.Perm d.networks.entries
  volumes : c.volumes.entries.Perm d.volumes.entries

/-- Dependencies do not depend on the order of services. -/
theorem Composition.SameEntities.acyclic {c d : Composition} (h : c.SameEntities d)
    (hc : c.Acyclic) : d.Acyclic := by
  have hdepends : d.DependsOn = c.DependsOn := by
    funext a b
    simp only [DependsOn, h.services.mem_iff]
  intro name hcycle
  exact hc name (hdepends ▸ hcycle)

namespace Document

def sections : List String :=
  ["services", "networks", "volumes"]

/-- The member is as it was, or it is a section with its entries in another order. -/
inductive MemberReordered : String → Json → Json → Prop
  | same (key : String) (x : Json) : MemberReordered key x x
  | entries {key : String} {es fs : Entries Json} (hkey : key ∈ sections) (hperm : es.Perm fs) :
      MemberReordered key (.obj es) (.obj fs)

/-- The entries of sections are in another order; in the legacy format, which has no
sections, the members of the document itself. -/
inductive Reordered : Json → Json → Prop
  | same (doc : Json) : Reordered doc doc
  | legacy {ms ns : Entries Json} (hversion : resolveVersion (.obj ms) = .ok .v1)
      (hperm : ms.Perm ns) : Reordered (.obj ms) (.obj ns)
  | versioned {ms ns : Entries Json} (hversion : resolveVersion (.obj ms) ≠ .ok .v1)
      (hmembers : Matched MemberReordered ms ns) : Reordered (.obj ms) (.obj ns)

/-- The names of the entries of a mapping; nothing else has names. -/
def memberNames : Option Json → List String
  | some (.obj es) => Entries.keys es
  | _ => []

/-- The names in a section of the document, in order; the services of a legacy document
are its own members. -/
def entityNames (name : String) : Json → List String
  | .obj ms =>
    match resolveVersion (.obj ms) with
    | .ok .v1 => if name = "services" then Entries.keys (Entries.erase "version" ms) else []
    | _ => memberNames (Entries.get? name ms)
  | _ => []

namespace MemberReordered

variable {key : String} {x y : Json}

theorem symm (h : MemberReordered key x y) : MemberReordered key y x := by
  cases h with
  | same => exact .same _ _
  | entries hkey hperm => exact .entries hkey hperm.symm

theorem eq_of_version (h : MemberReordered "version" x y) : x = y := by
  cases h with
  | same => rfl
  | entries hkey => exact absurd hkey (by decide)

theorem fillSection (h : MemberReordered key x y) :
    MemberReordered key (fillSection x) (fillSection y) := by
  cases h with
  | same => exact .same _ _
  | entries hkey hperm => exact .entries hkey (hperm.map _)

theorem distinct (h : MemberReordered key x y) (hx : x.Distinct) : y.Distinct := by
  cases h with
  | same => exact hx
  | entries _ hperm =>
    obtain ⟨hnodup, hdistinct⟩ := Json.distinct_obj_iff.mp hx
    exact Json.distinct_obj_iff.mpr ⟨(hperm.map Prod.fst).nodup_iff.mp hnodup,
      fun m hm => hdistinct m (hperm.mem_iff.mpr hm)⟩

/-- A section is valid in any order. -/
theorem valid_sectionOf_iff (h : MemberReordered key x y) {entity : Schema} {closed : Bool} :
    (Schema.sectionOf entity closed).Valid x ↔ (Schema.sectionOf entity closed).Valid y := by
  cases h with
  | same => rfl
  | entries _ hperm =>
    simp only [Schema.valid_sectionOf_obj_iff, hperm.mem_iff]

/-- The members of a versioned document but the version are sections. -/
theorem valid_member_iff (h : MemberReordered key x y) {tag : String} {s n v each : Schema}
    (heach : Entries.get? key (Schema.versionedMembers tag s n v) = some each) :
    each.Valid x ↔ each.Valid y := by
  cases h with
  | same => rfl
  | entries hkey hperm =>
    have hsection : ∀ entity closed, (Schema.sectionOf entity closed).Valid (.obj _) ↔
        (Schema.sectionOf entity closed).Valid (.obj _) :=
      fun _ _ => (entries hkey hperm).valid_sectionOf_iff
    simp only [sections, List.mem_cons, List.not_mem_nil, or_false] at hkey
    rcases hkey with rfl | rfl | rfl
    all_goals
      cases heach
      exact hsection _ _

end MemberReordered

namespace Reordered

variable {d d' : Json}

theorem distinct (h : Reordered d d') (hd : d.Distinct) : d'.Distinct := by
  cases h with
  | same => exact hd
  | legacy _ hperm =>
    have hservices : MemberReordered "services" _ _ := .entries (by decide) hperm
    exact hservices.distinct hd
  | versioned _ hmembers =>
    obtain ⟨hnodup, hdistinct⟩ := Json.distinct_obj_iff.mp hd
    refine Json.distinct_obj_iff.mpr ⟨hmembers.keys_eq ▸ hnodup, fun n hn => ?_⟩
    obtain ⟨m, hm, -, hmn⟩ := exists_mem_left_of_forall₂ hmembers n hn
    exact hmn.distinct (hdistinct m hm)

theorem resolveVersion_eq (h : Reordered d d') (hd : d.Distinct) :
    resolveVersion d' = resolveVersion d := by
  cases h with
  | same => rfl
  | legacy _ hperm =>
    exact resolveVersion_congr (Entries.get?_of_perm hperm (Json.distinct_obj_iff.mp hd).1 _)
  | versioned _ hmembers =>
    exact resolveVersion_congr (hmembers.get?_eq fun _ _ => MemberReordered.eq_of_version)

theorem symm (h : Reordered d d') (hd : d.Distinct) : Reordered d' d := by
  have hresolve := h.resolveVersion_eq hd
  cases h with
  | same => exact .same _
  | legacy hversion hperm => exact .legacy (hresolve ▸ hversion) hperm.symm
  | versioned hversion hmembers =>
    exact .versioned (hresolve ▸ hversion) (hmembers.symm fun _ _ _ => MemberReordered.symm)

/-- The canonical documents that a document and its reordering are upgraded to differ in
the order of their sections. -/
theorem upgraded {v : FormatVersion} {ms ns : Entries Json} (h : Reordered (.obj ms) (.obj ns))
    (hv : resolveVersion (.obj ms) = .ok v) :
    Matched MemberReordered (upgradedMembers v ms) (upgradedMembers v ns) := by
  cases h with
  | same => exact .refl .same _
  | legacy hversion hperm =>
    cases hv.symm.trans hversion
    have hkey : "services" ∈ sections := by decide
    exact .cons ⟨rfl, .same _ _⟩ (.cons ⟨rfl, .entries hkey (hperm.filter _)⟩ .nil)
  | versioned hversion hmembers =>
    have htidied : Matched MemberReordered (tidyMembers .v21 ms) (tidyMembers .v21 ns) :=
      hmembers.tidyMembers (by decide) (.same _) fun _ _ _ => MemberReordered.fillSection
    cases v with
    | v1 => exact absurd hv hversion
    | v20 | v21 => exact htidied

/-- A document is valid in any order of its sections. -/
theorem valid {v : FormatVersion} {ms ns : Entries Json} (h : Reordered (.obj ms) (.obj ns))
    (hv : resolveVersion (.obj ms) = .ok v)
    (hvalid : (Schema.ofVersion v).Valid (.obj (tidyMembers v ms))) :
    (Schema.ofVersion v).Valid (.obj (tidyMembers v ns)) := by
  cases h with
  | same => exact hvalid
  | legacy hversion hperm =>
    cases hv.symm.trans hversion
    have hsection : MemberReordered "services" (.obj (tidyMembers .v1 ms))
        (.obj (tidyMembers .v1 ns)) := .entries (by decide) (hperm.filter _)
    exact hsection.valid_sectionOf_iff.mp hvalid
  | versioned hversion hmembers =>
    have hv1 : v ≠ .v1 := fun heq => hversion (heq ▸ hv)
    have htidied : Matched MemberReordered (tidyMembers v ms) (tidyMembers v ns) :=
      hmembers.tidyMembers hv1 (.same _) fun _ _ _ => MemberReordered.fillSection
    cases v with
    | v1 => exact absurd rfl hv1
    | v20 | v21 =>
      exact (Schema.valid_versionedDocument_iff_of_matched htidied
        (fun _ _ => MemberReordered.eq_of_version)
        fun _ _ _ _ hxy => hxy.valid_member_iff).mp hvalid

end Reordered

end Document

namespace Normal

open Document (MemberReordered)

/-- A service may be read among more declared names than it was. -/
theorem ServiceOf.mono {declared wider : Declarations} {name : String} {ms : Entries Json}
    {s : Service} (h : ServiceOf declared name ms s)
    (hservices : ∀ d ∈ declared.services, d ∈ wider.services)
    (hvolumes : ∀ v ∈ declared.volumes, v ∈ wider.volumes) : ServiceOf wider name ms s :=
  { h with
    dependsOn_declared := fun d hd => hservices d (h.dependsOn_declared d hd)
    volumes_named := fun entry hentry => (h.volumes_named entry hentry).mono hvolumes }

theorem sectionMembers_reordered {us ws es : Entries Json} {name : String}
    (h : Matched MemberReordered us ws) (hes : sectionMembers name us = .ok es) :
    ∃ fs, sectionMembers name ws = .ok fs ∧ es.Perm fs := by
  unfold sectionMembers at hes ⊢
  cases hget : Entries.get? name us with
  | none =>
    rw [hget] at hes
    rw [h.get?_eq_none hget]
    exact ⟨es, hes, .refl es⟩
  | some x =>
    obtain ⟨y, hy, hxy⟩ := h.exists_get? hget
    rw [hget] at hes
    rw [hy]
    cases hxy with
    | same => exact ⟨es, hes, .refl es⟩
    | entries _ hperm =>
      cases hes
      exact ⟨_, rfl, hperm⟩

/-- Entities in another order are read to the same ones in that order. -/
theorem entities_of_perm {α : Type} {read other : String → Json → Outcome α}
    {es fs : Entries Json} {t : Table α} (h : es.Perm fs) (hes : (Entries.keys es).Nodup)
    (hread : ∀ name x a, read name x = .ok a → other name x = .ok a)
    (ht : entities read es = .ok t) :
    ∃ u, entities other fs = .ok u ∧ t.entries.Perm u.entries := by
  obtain ⟨bs, hbs, rfl⟩ := entities_eq_ok_iff.mp ht
  have hother : Entries.traverse other es = .ok bs :=
    Entries.traverse_eq_ok_iff.mpr ((Entries.traverse_eq_ok_iff.mp hbs).imp
      fun e b hparts => ⟨hparts.1, hread _ _ _ hparts.2⟩)
  obtain ⟨cs, hcs, hperm⟩ := Entries.traverse_of_perm h hother
  have hkeys : (Entries.keys bs).Nodup := Entries.keys_traverse hbs ▸ hes
  refine ⟨_, entities_eq_ok_iff.mpr ⟨cs, hcs, rfl⟩, ?_⟩
  rw [Table.entries_ofEntries hkeys,
    Table.entries_ofEntries ((hperm.map Prod.fst).nodup_iff.mp hkeys)]
  exact hperm

/-- No section names an entity twice. -/
def SectionsDistinct (us : Entries Json) : Prop :=
  ∀ name ∈ Document.sections, ∀ es, sectionMembers name us = .ok es → (Entries.keys es).Nodup

/-- What the members describe is described in any order of the sections. -/
theorem DocumentOf.reordered {us ws : Entries Json} {c : Composition} (hof : DocumentOf us c)
    (h : Matched MemberReordered us ws) (hdistinct : SectionsDistinct us) :
    ∃ d, DocumentOf ws d ∧ c.SameEntities d := by
  obtain ⟨services, networks, volumes, hservices, hnetworks, hvolumes, hnetworkTable,
    hvolumeTable, hserviceTable⟩ := hof.sections
  obtain ⟨services', hservices', hservicePerm⟩ := sectionMembers_reordered h hservices
  obtain ⟨networks', hnetworks', hnetworkPerm⟩ := sectionMembers_reordered h hnetworks
  obtain ⟨volumes', hvolumes', hvolumePerm⟩ := sectionMembers_reordered h hvolumes
  obtain ⟨networkTable, hnetworkTable', hnetworkSame⟩ := entities_of_perm hnetworkPerm
    (hdistinct _ (by decide) _ hnetworks) (fun _ _ _ => id) hnetworkTable
  obtain ⟨volumeTable, hvolumeTable', hvolumeSame⟩ := entities_of_perm hvolumePerm
    (hdistinct _ (by decide) _ hvolumes) (fun _ _ _ => id) hvolumeTable
  -- A service refers to names of the sections, which are the same in any order.
  have hservice : ∀ name x s, service ⟨Entries.keys services, Entries.keys volumes⟩ name x = .ok s →
      service ⟨Entries.keys services', Entries.keys volumes'⟩ name x = .ok s := by
    intro name x s hs
    obtain ⟨ms, hms, hserviceOf⟩ := service_eq_ok_iff.mp hs
    exact service_eq_ok_iff.mpr ⟨ms, hms, hserviceOf.mono
      (fun d => (hservicePerm.map Prod.fst).mem_iff.mp)
      fun v => (hvolumePerm.map Prod.fst).mem_iff.mp⟩
  obtain ⟨serviceTable, hserviceTable', hserviceSame⟩ := entities_of_perm hservicePerm
    (hdistinct _ (by decide) _ hservices) hservice hserviceTable
  have hsame : c.SameEntities ⟨c.version, serviceTable, networkTable, volumeTable⟩ :=
    ⟨rfl, hserviceSame, hnetworkSame, hvolumeSame⟩
  refine ⟨_, ?_, hsame⟩
  exact {
    version := (h.get?_eq fun _ _ => MemberReordered.eq_of_version).trans hof.version
    version_eq := hof.version_eq
    keys := h.keys_eq ▸ hof.keys
    sections := ⟨services', networks', volumes', hservices', hnetworks', hvolumes', hnetworkTable',
      hvolumeTable', hserviceTable'⟩
    acyclic := hsame.acyclic hof.acyclic }

/-- Tidying leaves a section as it is or fills in what is null. -/
theorem get?_tidyMembers (ms : Entries Json) {name : String} (hname : name ∈ Document.sections) :
    Entries.get? name (Document.tidyMembers .v21 ms) = Entries.get? name ms ∨
      Entries.get? name (Document.tidyMembers .v21 ms) =
        (Entries.get? name ms).map Document.fillSection := by
  simp only [Document.sections, List.mem_cons, List.not_mem_nil, or_false] at hname
  rcases hname with rfl | rfl | rfl
  · left
    rw [Document.tidyMembers, Document.get?_alter_of_ne (by decide),
      Document.get?_alter_of_ne (by decide), Entries.get?_put_of_ne (by decide)]
  · right
    rw [Document.tidyMembers, Document.get?_alter_of_ne (by decide), Document.get?_alter_self,
      Entries.get?_put_of_ne (by decide)]
  · right
    rw [Document.tidyMembers, Document.get?_alter_self, Document.get?_alter_of_ne (by decide),
      Entries.get?_put_of_ne (by decide)]

theorem keys_eq_memberNames {ms es : Entries Json} {name : String}
    (hname : name ∈ Document.sections)
    (hes : sectionMembers name (Document.tidyMembers .v21 ms) = .ok es) :
    Entries.keys es = Document.memberNames (Entries.get? name ms) := by
  unfold sectionMembers at hes
  rcases get?_tidyMembers ms hname with htidied | htidied
  all_goals
    rw [htidied] at hes
    cases hget : Entries.get? name ms with
    | none =>
      rw [hget] at hes
      cases hes
      rfl
    | some x =>
      rw [hget] at hes
      cases x with
      | null => cases hes; rfl
      | obj fs => cases hes; simp [Entries.keys, Document.memberNames]
      | _ => cases hes

/-- The names in a section of the canonical document are those of the document that is
upgraded to it. -/
theorem keys_eq_entityNames {v : FormatVersion} {ms es : Entries Json} {name : String}
    (hname : name ∈ Document.sections) (hv : Document.resolveVersion (.obj ms) = .ok v)
    (hes : sectionMembers name (Document.upgradedMembers v ms) = .ok es) :
    Entries.keys es = Document.entityNames name (.obj ms) := by
  simp only [Document.entityNames, hv]
  cases v with
  | v1 =>
    simp only [Document.sections, List.mem_cons, List.not_mem_nil, or_false] at hname
    rcases hname with rfl | rfl | rfl
    all_goals
      cases hes
      rfl
  | v20 | v21 => exact keys_eq_memberNames hname hes

end Normal

namespace Document

theorem nodup_memberNames {ms : Entries Json} (h : ∀ m ∈ ms, m.2.Distinct) (name : String) :
    (memberNames (Entries.get? name ms)).Nodup := by
  unfold memberNames
  split
  · rename_i es hget
    exact (Json.distinct_obj_iff.mp (h _ (Entries.mem_of_get? hget))).1
  · exact List.nodup_nil

theorem nodup_entityNames {doc : Json} (h : doc.Distinct) (name : String) :
    (entityNames name doc).Nodup := by
  unfold entityNames
  split
  · obtain ⟨hnodup, hmembers⟩ := Json.distinct_obj_iff.mp h
    split
    · split
      · exact hnodup.sublist (Entries.keys_erase_subset "version" _)
      · exact List.nodup_nil
    · exact nodup_memberNames hmembers name
  · exact List.nodup_nil

end Document

/-- The entities of the composition are in the order in which the document names them. -/
structure Composition.FollowsOrder (c : Composition) (doc : Json) : Prop where
  services : c.services.keys = Document.entityNames "services" doc
  networks : c.networks.keys = Document.entityNames "networks" doc
  volumes : c.volumes.keys = Document.entityNames "volumes" doc

/-- The same entities in the same order are the same composition. -/
theorem Composition.SameEntities.eq {c d : Composition} {doc : Json} (h : c.SameEntities d)
    (hc : c.FollowsOrder doc) (hd : d.FollowsOrder doc) : c = d := by
  have hversion : d.version = c.version := h.version
  have hservices := Table.eq_of_perm h.services (hc.services.trans hd.services.symm)
  have hnetworks := Table.eq_of_perm h.networks (hc.networks.trans hd.networks.symm)
  have hvolumes := Table.eq_of_perm h.volumes (hc.volumes.trans hd.volumes.symm)
  cases c
  cases d
  simp only at hversion hservices hnetworks hvolumes
  subst hversion hservices hnetworks hvolumes
  rfl

namespace Normal

theorem sectionsDistinct_of_distinct {v : FormatVersion} {ms : Entries Json}
    (hv : Document.resolveVersion (.obj ms) = .ok v) (h : (Json.obj ms).Distinct) :
    SectionsDistinct (Document.upgradedMembers v ms) := by
  intro name hname es hes
  rw [keys_eq_entityNames hname hv hes]
  exact Document.nodup_entityNames h name

/-- Entities with distinct names keep the order in which they stand. -/
theorem keys_entities {α : Type} {read : String → Json → Outcome α} {es : Entries Json}
    {t : Table α} (ht : entities read es = .ok t) (hes : (Entries.keys es).Nodup) :
    t.keys = Entries.keys es := by
  obtain ⟨bs, hbs, rfl⟩ := entities_eq_ok_iff.mp ht
  have hkeys : Entries.keys bs = Entries.keys es := Entries.keys_traverse hbs
  rw [Table.keys, Table.entries_ofEntries (hkeys ▸ hes), hkeys]

theorem DocumentOf.followsOrder {v : FormatVersion} {ms : Entries Json} {c : Composition}
    (hof : DocumentOf (Document.upgradedMembers v ms) c)
    (hv : Document.resolveVersion (.obj ms) = .ok v) (h : (Json.obj ms).Distinct) :
    c.FollowsOrder (.obj ms) := by
  have hdistinct := sectionsDistinct_of_distinct hv h
  have hkeys : ∀ {α : Type} {read : String → Json → Outcome α} {name : String}
      {es : Entries Json} {t : Table α}, name ∈ Document.sections →
        sectionMembers name (Document.upgradedMembers v ms) = .ok es → entities read es = .ok t →
          t.keys = Document.entityNames name (.obj ms) := by
    intro α read name es t hname hes ht
    rw [keys_entities ht (hdistinct name hname es hes), keys_eq_entityNames hname hv hes]
  obtain ⟨services, networks, volumes, hservices, hnetworks, hvolumes, hnetworkTable,
    hvolumeTable, hserviceTable⟩ := hof.sections
  exact ⟨hkeys (by decide) hservices hserviceTable, hkeys (by decide) hnetworks hnetworkTable,
    hkeys (by decide) hvolumes hvolumeTable⟩

end Normal

open Document

theorem exists_mapping_of_normalize {checking : Checking} {doc : Json} {c : Composition}
    (h : normalize checking doc = .ok c) : ∃ ms, doc = .obj ms := by
  obtain ⟨v, _, _, -, htidy, -, -, -⟩ := normalize_eq_ok_iff.mp h
  obtain ⟨ms, hms, -⟩ := tidy_eq_ok_iff.mp htidy
  exact ⟨ms, hms⟩

theorem followsOrder_of_normalize {checking : Checking} {doc : Json} {c : Composition}
    (hdoc : doc.Distinct) (h : normalize checking doc = .ok c) : c.FollowsOrder doc := by
  obtain ⟨ms, rfl⟩ := exists_mapping_of_normalize h
  obtain ⟨v, hv, -, hof⟩ := normalize_obj_eq_ok_iff.mp h
  exact hof.followsOrder hv hdoc

/-- Whatever a document is normalized to, its reordering is normalized to the same entities. -/
theorem exists_normalize_of_reordered {checking : Checking} {d d' : Json} {c : Composition}
    (hd : d.Distinct) (h : Reordered d d') (hc : normalize checking d = .ok c) :
    ∃ c', normalize checking d' = .ok c' ∧ c.SameEntities c' := by
  have hresolve := h.resolveVersion_eq hd
  obtain ⟨ms, rfl⟩ := exists_mapping_of_normalize hc
  obtain ⟨v, hv, hrequire, hof⟩ := normalize_obj_eq_ok_iff.mp hc
  obtain ⟨ns, rfl⟩ : ∃ ns, d' = .obj ns := by
    cases h with
    | same => exact ⟨_, rfl⟩
    | legacy => exact ⟨_, rfl⟩
    | versioned => exact ⟨_, rfl⟩
  obtain ⟨c', hof', hsame⟩ :=
    hof.reordered (h.upgraded hv) (Normal.sectionsDistinct_of_distinct hv hd)
  refine ⟨c', normalize_obj_eq_ok_iff.mpr ⟨v, hresolve.trans hv, ?_, hof'⟩, hsame⟩
  exact Checking.require_mono (h.valid hv) hrequire

/-- Whether a document is accepted, and what its entities are, does not depend on the order
of declaration: it is normalized to a composition in its own order exactly when its
reordering is normalized to the same entities in the other order. -/
theorem normalize_reordered_iff {checking : Checking} {d d' : Json} {c : Composition}
    (hd : d.Distinct) (h : Reordered d d') :
    normalize checking d = .ok c ↔ c.FollowsOrder d ∧
      ∃ c', normalize checking d' = .ok c' ∧ c'.FollowsOrder d' ∧ c.SameEntities c' := by
  constructor
  · intro hc
    obtain ⟨c', hc', hsame⟩ := exists_normalize_of_reordered hd h hc
    exact ⟨followsOrder_of_normalize hd hc, c', hc',
      followsOrder_of_normalize (h.distinct hd) hc', hsame⟩
  · intro hparts
    obtain ⟨horder, c', hc', -, hsame⟩ := hparts
    obtain ⟨found, hfound, hback⟩ :=
      exists_normalize_of_reordered (h.distinct hd) (h.symm hd) hc'
    -- What the reordering leads back to has the entities of `c` in the order of `d`.
    have hsame' : c.SameEntities found := ⟨hback.version.trans hsame.version,
      hsame.services.trans hback.services, hsame.networks.trans hback.networks,
      hsame.volumes.trans hback.volumes⟩
    rw [hsame'.eq horder (followsOrder_of_normalize hd hfound)]
    exact hfound

/-- The services of the shop, the other way round. -/
def shopReordered : Json := .obj [
  ("version", .str "2"),
  ("services", .obj [
    ("db", .obj [
      ("image", .str "store"),
      ("environment", .obj [("SIZE", .str " 5 ")]),
      ("volumes", .arr [.str "data:/var/data"])]),
    ("web", .obj [
      ("build", .str "site"),
      ("depends_on", .arr [.str "db"]),
      ("env_file", .str "./env//web"),
      ("labels", .arr [.str "org.tier-1 =  front "]),
      ("ports", .arr [.num (.int 8080), .str "80:80"]),
      ("restart", .str "always")])]),
  ("volumes", .obj [("data", .null)])]

theorem distinct_shopDocument : shopDocument.Distinct := by
  simp [shopDocument, Json.Distinct, Json.DistinctMembers, Json.DistinctItems, Entries.keys]

theorem reordered_shopDocument : Reordered shopDocument shopReordered := by
  refine .versioned (by decide +kernel) (.cons ⟨rfl, .same _ _⟩ (.cons ⟨rfl, ?_⟩ ?_))
  · exact .entries (by decide) (.swap _ _ _)
  · exact .cons ⟨rfl, .same _ _⟩ .nil

theorem shop_normalize_reordered :
    shopDocument.Distinct ∧ Reordered shopDocument shopReordered ∧
      shop.FollowsOrder shopDocument ∧ ∃ c, normalize .schema shopReordered = .ok c ∧
        c.FollowsOrder shopReordered ∧ shop.SameEntities c :=
  ⟨distinct_shopDocument, reordered_shopDocument,
    (normalize_reordered_iff distinct_shopDocument reordered_shopDocument).mp normalize_shop⟩

end ContainerStack
