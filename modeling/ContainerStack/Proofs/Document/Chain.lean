import ContainerStack.Proofs.Schema.Documents
import Mathlib.Logic.Relation

/-!
The chain of formats, one step at a time. A step leads to the next format and
rewrites the document: the legacy document becomes the section of services, a later
one gets the tag of the next format. Upgrading is the run of these steps to the end of
the chain. A step keeps documents valid, since each format allows all that the one
before it does, so a run from a valid document passes through valid ones only.
-/

namespace ContainerStack

namespace Document

/-- One format comes later in the chain than another. -/
def Later : FormatVersion → FormatVersion → Prop :=
  Relation.TransGen fun v next => v.next? = some next

theorem later_canonical (v : FormatVersion) : v = .v21 ∨ Later v .v21 := by
  cases v with
  | v1 => exact Or.inr (.tail (.single rfl) rfl)
  | v20 => exact Or.inr (.single rfl)
  | v21 => exact Or.inl rfl

/-- One step of the chain of formats, to the given next one. -/
def step (v next : FormatVersion) (doc : Json) : Outcome Json :=
  match v with
  | .v1 => .ok (wrap next.tag doc)
  | .v20 | .v21 => retag next.tag doc

/-- Steps between documents, each with the format that it is in. -/
inductive Step : FormatVersion × Json → FormatVersion × Json → Prop
  | next {v next : FormatVersion} {doc found : Json} (hnext : v.next? = some next)
      (hfound : step v next doc = .ok found) : Step (v, doc) (next, found)

/-- The documents and formats that upgrading passes through. -/
def Run : FormatVersion × Json → FormatVersion × Json → Prop :=
  Relation.ReflTransGen Step

theorem run_iff {v w : FormatVersion} {doc found : Json} :
    Run (v, doc) (w, found) ↔ (v = w ∧ doc = found) ∨
      ∃ next between, v.next? = some next ∧ step v next doc = .ok between ∧
        Run (next, between) (w, found) := by
  rw [Run, Relation.ReflTransGen.cases_head_iff, Prod.mk.injEq]
  refine or_congr_right ?_
  constructor
  · intro h
    obtain ⟨_, ⟨hnext, hbetween⟩, hrun⟩ := h
    exact ⟨_, _, hnext, hbetween, hrun⟩
  · intro h
    obtain ⟨next, between, hnext, hbetween, hrun⟩ := h
    exact ⟨_, .next hnext hbetween, hrun⟩

theorem run_canonical_iff {w : FormatVersion} {doc found : Json} :
    Run (.v21, doc) (w, found) ↔ .v21 = w ∧ doc = found := by
  rw [run_iff]
  simp [FormatVersion.next?]

theorem run_versioned_iff {w : FormatVersion} {doc found : Json} :
    Run (.v20, doc) (w, found) ↔
      (.v20 = w ∧ doc = found) ∨ (.v21 = w ∧ retag FormatVersion.v21.tag doc = .ok found) := by
  rw [run_iff]
  refine or_congr_right ?_
  constructor
  · intro h
    obtain ⟨_, _, hnext, hretag, hrun⟩ := h
    cases hnext
    obtain ⟨hw, rfl⟩ := run_canonical_iff.mp hrun
    exact ⟨hw, hretag⟩
  · intro h
    obtain ⟨hw, hretag⟩ := h
    exact ⟨_, _, rfl, hretag, run_canonical_iff.mpr ⟨hw, rfl⟩⟩

/-- Upgrading is the run of the steps to the end of the chain. -/
theorem upgrade_eq_ok_iff {v : FormatVersion} {doc found : Json} :
    upgrade v doc = .ok found ↔ Run (v, doc) (.v21, found) := by
  cases v with
  | v1 =>
    rw [run_iff]
    simp [FormatVersion.next?, step, run_versioned_iff, upgrade]
  | v20 => simp [run_versioned_iff, upgrade]
  | v21 => simp [run_canonical_iff, upgrade]

end Document

namespace Schema

theorem valid_tag (tag : String) : (Schema.all [text, .oneOfTexts [tag]]).Valid (.str tag) := by
  simp [valid_all_cons, valid_all_nil, valid_text_iff, valid_oneOfTexts_iff]

/-- The legacy format accepts a map of services exactly when the next one accepts it as
its only section. -/
theorem valid_wrap_iff {doc : Json} :
    (ofVersion .v20).Valid (Document.wrap FormatVersion.v20.tag doc) ↔
      (ofVersion .v1).Valid doc := by
  simp only [Document.wrap, ofVersion, valid_versionedDocument_iff]
  simp [MembersValid, versionedMembers, Entries.get?, valid_tag]

/-- Putting a valid member keeps a mapping valid when all other members may stay. -/
theorem MembersValid.insert {members wider : Entries Schema} {t : Table Json} {key : String}
    {each : Schema} {x : Json} (h : MembersValid members t.entries)
    (hkey : Entries.get? key wider = some each) (hx : each.Valid x)
    (hwider : ∀ name, name ≠ key → ∀ old, Entries.get? name members = some old →
      ∃ new, Entries.get? name wider = some new ∧ ∀ y, old.Valid y → new.Valid y) :
    MembersValid wider (t.insert key x).entries := by
  intro m hm
  -- Names are distinct, so the only member of the name is the one that was put.
  by_cases hname : m.1 = key
  · have hself : (t.insert key x).get? key = some m.2 :=
      Table.get?_eq_some_iff.mpr (hname ▸ hm)
    rw [Table.get?_insert_self, Option.some.injEq] at hself
    exact ⟨each, hname ▸ hkey, hself ▸ hx⟩
  · rcases Table.eq_or_mem_of_mem_insert hm with heq | hmem
    · exact absurd (congrArg Prod.fst heq) hname
    · obtain ⟨old, hold, hvalid⟩ := h m hmem
      obtain ⟨new, hnew, hmono⟩ := hwider m.1 hname old hold
      exact ⟨new, hnew, hmono _ hvalid⟩

/-- Under the tag of a format whose entities may be wider a document stays valid. -/
theorem valid_versionedDocument_insert {tag new : String} {s n v s' n' v' : Schema}
    {d : Table Json} (hs : ∀ y, s.Valid y → s'.Valid y) (hn : ∀ y, n.Valid y → n'.Valid y)
    (hv : ∀ y, v.Valid y → v'.Valid y) (h : (versionedDocument tag s n v).Valid (.obj d.entries)) :
    (versionedDocument new s' n' v').Valid (.obj (d.insert "version" (.str new)).entries) := by
  obtain ⟨-, hmembers⟩ := valid_versionedDocument_iff.mp h
  refine valid_versionedDocument_iff.mpr ⟨?_, hmembers.insert rfl (valid_tag new) ?_⟩
  · have hversion : (d.insert "version" (.str new)).get? "version" = some (.str new) :=
      Table.get?_insert_self d _ _
    intro hnone
    cases hversion.symm.trans hnone
  · intro name hname old hold
    simp only [versionedMembers, Entries.get?, Ne.symm hname, if_false] at hold ⊢
    split_ifs at hold ⊢
    all_goals cases hold
    · exact ⟨_, rfl, fun y => valid_sectionOf_mono hs⟩
    · exact ⟨_, rfl, fun y => valid_sectionOf_mono hn⟩
    · exact ⟨_, rfl, fun y => valid_sectionOf_mono hv⟩

theorem valid_insert_canonical {d : Table Json} (h : (ofVersion .v20).Valid (.obj d.entries)) :
    (ofVersion .v21).Valid
      (.obj (d.insert "version" (.str FormatVersion.v21.tag)).entries) :=
  valid_versionedDocument_insert (fun _ => valid_closedRecord_append)
    (fun _ => valid_closedRecord_append) (fun _ => valid_closedRecord_append) h

end Schema

namespace Document

/-- A mapping that is valid in the format it is said to be in. -/
structure Conforms (s : FormatVersion × Json) : Prop where
  mapping : ∃ d : Table Json, s.2 = .obj d.entries
  valid : (Schema.ofVersion s.1).Valid s.2

/-- What a legacy document is wrapped in. -/
def wrapped (tag : String) (doc : Json) : Table Json :=
  ⟨[("version", .str tag), ("services", doc)], by simp [Entries.keys]⟩

/-- One step keeps a document valid. -/
theorem Conforms.step {s t : FormatVersion × Json} (h : Conforms s) (hstep : Step s t) :
    Conforms t := by
  obtain ⟨⟨d, hd⟩, hvalid⟩ := h
  cases hstep with
  | @next v next doc found hnext hfound =>
    cases v with
    | v1 =>
      cases hnext
      cases hfound
      exact ⟨⟨wrapped _ doc, rfl⟩, Schema.valid_wrap_iff.mpr hvalid⟩
    | v20 =>
      cases hnext
      have hdoc : doc = .obj d.entries := hd
      subst hdoc
      have hfound' : found = .obj (d.insert "version" (.str FormatVersion.v21.tag)).entries :=
        (Except.ok.inj hfound).symm
      subst hfound'
      exact ⟨⟨_, rfl⟩, Schema.valid_insert_canonical hvalid⟩
    | v21 => cases hnext

theorem Conforms.exists_step {v next : FormatVersion} {doc : Json} (h : Conforms (v, doc))
    (hnext : v.next? = some next) : ∃ found, Step (v, doc) (next, found) := by
  obtain ⟨⟨d, hd⟩, -⟩ := h
  have hdoc : doc = .obj d.entries := hd
  subst hdoc
  cases v with
  | v1 => exact ⟨_, .next hnext rfl⟩
  | v20 => exact ⟨_, .next hnext rfl⟩
  | v21 => cases hnext

/-- Upgrading a valid document passes through valid documents only. -/
theorem Conforms.run {s t : FormatVersion × Json} (h : Conforms s) (hrun : Run s t) :
    Conforms t := by
  induction hrun with
  | refl => exact h
  | tail _ hstep ih => exact ih.step hstep

/-- A valid document can be brought to every later format. -/
theorem Conforms.exists_run {v w : FormatVersion} {doc : Json} (h : Conforms (v, doc))
    (hlater : Later v w) : ∃ found, Run (v, doc) (w, found) := by
  induction hlater with
  | single hnext =>
    obtain ⟨found, hstep⟩ := h.exists_step hnext
    exact ⟨found, .single hstep⟩
  | tail _ hnext ih =>
    obtain ⟨between, hrun⟩ := ih
    obtain ⟨found, hstep⟩ := (h.run hrun).exists_step hnext
    exact ⟨found, hrun.tail hstep⟩

/-- A valid document can be upgraded. -/
theorem Conforms.exists_upgrade {v : FormatVersion} {doc : Json} (h : Conforms (v, doc)) :
    ∃ found, upgrade v doc = .ok found := by
  rcases later_canonical v with rfl | hlater
  · exact ⟨doc, rfl⟩
  · obtain ⟨found, hrun⟩ := h.exists_run hlater
    exact ⟨found, upgrade_eq_ok_iff.mpr hrun⟩

end Document

end ContainerStack
