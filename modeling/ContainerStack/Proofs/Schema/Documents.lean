import ContainerStack.Proofs.Document.Upgrade
import ContainerStack.Proofs.Schema.Validity
import ContainerStack.Schema.Documents

/-!
The values that are valid under the schemas of documents. The forms of single
fields are spelled out, each later format allows all members of the one before,
and so the sections of an upgraded document are valid in the canonical format
whichever format the document was checked in.
-/

namespace ContainerStack.Schema

open ContainerStack (textsToJson)

theorem valid_text_iff {x : Json} : text.Valid x ↔ ∃ s, x = .str s := by
  cases x <;> simp [text, valid_kinds_iff, Kind.holds]

theorem valid_array_iff {x : Json} : (kinds [.array]).Valid x ↔ ∃ xs, x = .arr xs := by
  cases x <;> simp [valid_kinds_iff, Kind.holds]

theorem valid_object_iff {x : Json} : (kinds [.object]).Valid x ↔ ∃ ms, x = .obj ms := by
  cases x <;> simp [valid_kinds_iff, Kind.holds]

theorem forall_text_iff {xs : List Json} :
    (∀ x ∈ xs, text.Valid x) ↔ ∃ ts : List String, xs = ts.map .str := by
  constructor
  · intro h
    induction xs with
    | nil => exact ⟨[], rfl⟩
    | cons x rest ih =>
      obtain ⟨hx, hrest⟩ := List.forall_mem_cons.mp h
      obtain ⟨s, rfl⟩ := valid_text_iff.mp hx
      obtain ⟨ts, rfl⟩ := ih hrest
      exact ⟨s :: ts, rfl⟩
  · intro hparts x hx
    obtain ⟨ts, rfl⟩ := hparts
    obtain ⟨s, -, rfl⟩ := List.mem_map.mp hx
    exact valid_text_iff.mpr ⟨s, rfl⟩

theorem allDifferentBy_texts {equal : Json → Json → Bool}
    (hequal : ∀ s t : String, equal (.str s) (.str t) = (s == t)) (ts : List String) :
    allDifferentBy equal (ts.map .str) = true ↔ ts.Nodup := by
  induction ts with
  | nil => simp [allDifferentBy]
  | cons t rest ih =>
    have hany : (rest.map Json.str).any (equal (.str t)) = true ↔ t ∈ rest := by
      simp [hequal]
    rw [List.map_cons, allDifferentBy, Bool.and_eq_true, ih, List.nodup_cons, ← hany]
    simp

/-- Texts are told apart by what they are, however many there are. -/
theorem allDifferent_texts (ts : List String) :
    allDifferent (ts.map .str) = true ↔ ts.Nodup := by
  unfold allDifferent
  split
  · exact allDifferentBy_texts (fun s t => by simp [Json.equalData, Json.agree]) ts
  · exact allDifferentBy_texts (fun s t => by simp [Json.equalSignedData, Json.agree]) ts

theorem valid_textList_iff {x : Json} : textList.Valid x ↔ ∃ ts, x = textsToJson ts := by
  simp only [textList, valid_all_cons, valid_all_nil, and_true,
    valid_array_iff]
  constructor
  · intro h
    obtain ⟨⟨xs, rfl⟩, hitems⟩ := h
    obtain ⟨ts, rfl⟩ := forall_text_iff.mp (valid_items_iff.mp hitems)
    exact ⟨ts, rfl⟩
  · intro h
    obtain ⟨ts, rfl⟩ := h
    exact ⟨⟨_, rfl⟩, valid_items_iff.mpr (forall_text_iff.mpr ⟨ts, rfl⟩)⟩

theorem valid_distinctTexts_iff {x : Json} :
    distinctTexts.Valid x ↔ ∃ ts : List String, ts.Nodup ∧ x = textsToJson ts := by
  have hsplit : distinctTexts.Valid x ↔ textList.Valid x ∧ uniqueItems.Valid x := by
    simp [distinctTexts, textList, valid_all_iff, and_assoc]
  rw [hsplit, valid_textList_iff]
  constructor
  · intro h
    obtain ⟨⟨ts, rfl⟩, hunique⟩ := h
    exact ⟨ts, (allDifferent_texts ts).mp (valid_uniqueItems_iff.mp hunique), rfl⟩
  · intro h
    obtain ⟨ts, hnodup, rfl⟩ := h
    exact ⟨⟨ts, rfl⟩, valid_uniqueItems_iff.mpr ((allDifferent_texts ts).mpr hnodup)⟩

/-- Texts are a list of distinct texts only if no text is repeated. -/
theorem valid_distinctTexts_texts (ts : List String) :
    distinctTexts.Valid (textsToJson ts) ↔ ts.Nodup := by
  rw [valid_distinctTexts_iff]
  constructor
  · intro h
    obtain ⟨us, hnodup, heq⟩ := h
    have hmap : ts.map Json.str = us.map Json.str := Json.arr.inj heq
    rwa [List.map_injective_iff.mpr (fun _ _ => Json.str.inj) hmap]
  · exact fun hnodup => ⟨ts, hnodup, rfl⟩

theorem valid_textOrTextList_texts (ts : List String) :
    textOrTextList.Valid (textsToJson ts) := by
  refine valid_oneOf_iff.mpr (Or.inr ⟨?_, valid_textList_iff.mpr ⟨ts, rfl⟩⟩)
  rw [valid_text_iff]
  intro h
  obtain ⟨s, hs⟩ := h
  cases hs

theorem valid_closedRecord_iff {members : Entries Schema} {x : Json} :
    (closedRecord members).Valid x ↔ ∃ ms, x = .obj ms ∧ MembersValid members ms := by
  simp only [closedRecord, valid_all_cons, valid_all_nil, and_true,
    valid_object_iff]
  constructor
  · intro h
    obtain ⟨⟨ms, rfl⟩, hrecord⟩ := h
    exact ⟨ms, rfl, valid_record_iff.mp hrecord⟩
  · intro h
    obtain ⟨ms, rfl, hmembers⟩ := h
    exact ⟨⟨ms, rfl⟩, valid_record_iff.mpr hmembers⟩

theorem valid_closedRecord_obj_iff {members : Entries Schema} {ms : Entries Json} :
    (closedRecord members).Valid (.obj ms) ↔ MembersValid members ms := by
  simp [valid_closedRecord_iff]

theorem valid_sectionOf_iff {entity : Schema} {closed : Bool} {x : Json} :
    (sectionOf entity closed).Valid x ↔ ∃ ms, x = .obj ms ∧
      ∀ m ∈ ms, (KeyPattern.entityName.holds m.1 = true → entity.Valid m.2) ∧
        (closed = true → KeyPattern.entityName.holds m.1 = true) := by
  simp only [sectionOf, valid_all_cons, valid_all_nil, and_true,
    valid_object_iff]
  constructor
  · intro h
    obtain ⟨⟨ms, rfl⟩, hdictionary⟩ := h
    exact ⟨ms, rfl, valid_dictionary_iff.mp hdictionary⟩
  · intro h
    obtain ⟨ms, rfl, hmembers⟩ := h
    exact ⟨⟨ms, rfl⟩, valid_dictionary_iff.mpr hmembers⟩

theorem valid_sectionOf_obj_iff {entity : Schema} {closed : Bool} {ms : Entries Json} :
    (sectionOf entity closed).Valid (.obj ms) ↔
      ∀ m ∈ ms, (KeyPattern.entityName.holds m.1 = true → entity.Valid m.2) ∧
        (closed = true → KeyPattern.entityName.holds m.1 = true) := by
  simp [valid_sectionOf_iff]

/-- A scalar or nothing. -/
def scalar : Schema :=
  .kinds [.boolean, .null, .number, .string]

theorem valid_scalar_iff {x : Json} :
    scalar.Valid x ↔ ∃ text, Normal.scalarText? x = some text := by
  cases x <;> simp [scalar, valid_kinds_iff, Kind.holds, Normal.scalarText?]

theorem valid_assignments_iff {x : Json} :
    assignments.Valid x ↔
      (∃ ms, x = .obj ms ∧
        ∀ m ∈ ms, KeyPattern.anyLetter.holds m.1 = true ∧ scalar.Valid m.2) ∨
      ∃ ts : List String, ts.Nodup ∧ x = textsToJson ts := by
  have hmapping : (Schema.all [.kinds [.object], .dictionary .anyLetter scalar true]).Valid x ↔
      ∃ ms, x = .obj ms ∧
        ∀ m ∈ ms, KeyPattern.anyLetter.holds m.1 = true ∧ scalar.Valid m.2 := by
    simp only [valid_all_cons, valid_all_nil, and_true, valid_object_iff]
    constructor
    · intro h
      obtain ⟨⟨ms, rfl⟩, hdictionary⟩ := h
      refine ⟨ms, rfl, fun m hm => ?_⟩
      obtain ⟨hvalid, hholds⟩ := valid_dictionary_iff.mp hdictionary m hm
      exact ⟨hholds rfl, hvalid (hholds rfl)⟩
    · intro h
      obtain ⟨ms, rfl, hmembers⟩ := h
      exact ⟨⟨ms, rfl⟩, valid_dictionary_iff.mpr fun m hm =>
        ⟨fun _ => (hmembers m hm).2, fun _ => (hmembers m hm).1⟩⟩
  rw [assignments, valid_oneOf_iff_or, valid_distinctTexts_iff]
  · exact or_congr_left hmapping
  · intro hobject htexts
    obtain ⟨ms, hms, -⟩ := hmapping.mp hobject
    obtain ⟨ts, -, hts⟩ := valid_distinctTexts_iff.mp htexts
    rw [hms] at hts
    cases hts

theorem valid_assignments_texts (ts : List String) :
    assignments.Valid (textsToJson ts) ↔ ts.Nodup := by
  rw [← valid_distinctTexts_texts, valid_distinctTexts_iff, valid_assignments_iff]
  refine or_iff_right ?_
  intro h
  obtain ⟨ms, hms, -⟩ := h
  cases hms

/-- Ports written as texts must be different and each have the form of one. -/
theorem valid_portList_texts (ts : List String) :
    (portList .ports).Valid (textsToJson ts) ↔
      (∀ t ∈ ts, Format.isPortMapping t = true) ∧ ts.Nodup := by
  have hitem : ∀ t, (Schema.all [quantity, .format .ports]).Valid (.str t) ↔
      Format.isPortMapping t = true := by
    intro t
    simp only [valid_all_cons, valid_all_nil, and_true, valid_format_iff, TextFormat.holds,
      quantity, valid_kinds_iff]
    exact and_iff_right ⟨.string, by simp, rfl⟩
  have hitems : (Schema.items (.all [quantity, .format .ports])).Valid (textsToJson ts) ↔
      ∀ t ∈ ts, Format.isPortMapping t = true := by
    rw [textsToJson, valid_items_iff, List.forall_mem_map]
    exact forall₂_congr fun t _ => hitem t
  have hunique : uniqueItems.Valid (textsToJson ts) ↔ ts.Nodup := by
    rw [textsToJson, valid_uniqueItems_iff, allDifferent_texts]
  rw [portList, valid_all_cons, valid_all_cons, valid_all_cons, hitems, hunique, valid_array_iff]
  constructor
  · intro h
    obtain ⟨-, hformat, hnodup, -⟩ := h
    exact ⟨hformat, hnodup⟩
  · intro h
    obtain ⟨hformat, hnodup⟩ := h
    exact ⟨⟨_, rfl⟩, hformat, hnodup, valid_all_nil _⟩

theorem get?_append_of_get? {members later : Entries Schema} {key : String} {each : Schema}
    (h : Entries.get? key members = some each) :
    Entries.get? key (members ++ later) = some each := by
  rw [Entries.get?_append, h, Option.some_or]

/-- A record with more members allowed accepts no less. -/
theorem valid_closedRecord_append {members later : Entries Schema} {x : Json}
    (h : (closedRecord members).Valid x) : (closedRecord (members ++ later)).Valid x := by
  obtain ⟨ms, rfl, hmembers⟩ := valid_closedRecord_iff.mp h
  refine valid_closedRecord_iff.mpr ⟨ms, rfl, fun m hm => ?_⟩
  obtain ⟨each, hget, hvalid⟩ := hmembers m hm
  exact ⟨each, get?_append_of_get? hget, hvalid⟩

theorem valid_sectionOf_mono {entity wider : Schema} {closed : Bool} {x : Json}
    (hwider : ∀ y, entity.Valid y → wider.Valid y) (h : (sectionOf entity closed).Valid x) :
    (sectionOf wider closed).Valid x := by
  obtain ⟨ms, rfl, hmembers⟩ := valid_sectionOf_iff.mp h
  refine valid_sectionOf_iff.mpr ⟨ms, rfl, fun m hm => ?_⟩
  exact ⟨fun hholds => hwider _ ((hmembers m hm).1 hholds), (hmembers m hm).2⟩

def versionedMembers (tag : String) (service network volume : Schema) : Entries Schema := [
  ("version", .all [text, .oneOfTexts [tag]]),
  ("services", sectionOf service true),
  ("networks", sectionOf network false),
  ("volumes", sectionOf volume true)]

theorem valid_versionedDocument_iff {tag : String} {s n v : Schema} {ms : Entries Json} :
    (versionedDocument tag s n v).Valid (.obj ms) ↔
      Entries.get? "version" ms ≠ none ∧ MembersValid (versionedMembers tag s n v) ms := by
  have hobject : (kinds [.object]).Valid (.obj ms) := valid_object_iff.mpr ⟨ms, rfl⟩
  rw [← valid_record_iff, versionedDocument, valid_all_cons, valid_all_cons, valid_all_cons,
    valid_required_iff, List.forall_mem_singleton]
  constructor
  · intro h
    obtain ⟨-, hversion, hrecord, -⟩ := h
    exact ⟨hversion, hrecord⟩
  · intro h
    obtain ⟨hversion, hrecord⟩ := h
    exact ⟨hobject, hversion, hrecord, valid_all_nil _⟩

/-- The service of the canonical format. -/
def service : Schema :=
  closedRecord (serviceMembers ++ laterServiceMembers)

def network : Schema :=
  closedRecord (networkMembers ++ laterNetworkMembers)

def volume : Schema :=
  closedRecord (volumeMembers ++ laterVolumeMembers)

/-- The sections that are there are valid in the canonical format. -/
structure SectionsValid (ms : Entries Json) : Prop where
  services : ∀ x, Entries.get? "services" ms = some x → (sectionOf service true).Valid x
  networks : ∀ x, Entries.get? "networks" ms = some x → (sectionOf network false).Valid x
  volumes : ∀ x, Entries.get? "volumes" ms = some x → (sectionOf volume true).Valid x

theorem sectionsValid_of_versionedDocument {tag : String} {s n v : Schema} {ms : Entries Json}
    (hs : ∀ y, s.Valid y → service.Valid y) (hn : ∀ y, n.Valid y → network.Valid y)
    (hv : ∀ y, v.Valid y → volume.Valid y)
    (h : (versionedDocument tag s n v).Valid (.obj ms)) : SectionsValid ms := by
  obtain ⟨-, hmembers⟩ := valid_versionedDocument_iff.mp h
  exact ⟨
    fun x hx => valid_sectionOf_mono hs (hmembers.valid_of_get? rfl hx),
    fun x hx => valid_sectionOf_mono hn (hmembers.valid_of_get? rfl hx),
    fun x hx => valid_sectionOf_mono hv (hmembers.valid_of_get? rfl hx)⟩

/-- A document that is valid in its own format is upgraded to one whose sections
are valid in the canonical format. -/
theorem sectionsValid_of_upgrade {v : FormatVersion} {doc : Json} {ms : Entries Json}
    (hvalid : (ofVersion v).Valid doc) (hupgrade : Document.upgrade v doc = .ok (.obj ms)) :
    SectionsValid ms := by
  cases v with
  | v1 =>
    rw [Document.upgrade_legacy, Except.ok.injEq, Json.obj.injEq] at hupgrade
    subst hupgrade
    refine ⟨fun x hx => ?_, fun x hx => ?_, fun x hx => ?_⟩
    · have hdoc : doc = x := by simpa [Entries.get?] using hx
      exact hdoc ▸ valid_sectionOf_mono (fun _ => valid_closedRecord_append) hvalid
    · simp [Entries.get?] at hx
    · simp [Entries.get?] at hx
  | v20 =>
    obtain ⟨old, rfl, rfl⟩ := Document.retag_eq_ok_iff.mp hupgrade
    have hsections : SectionsValid old := sectionsValid_of_versionedDocument
      (fun _ => valid_closedRecord_append) (fun _ => valid_closedRecord_append)
      (fun _ => valid_closedRecord_append) hvalid
    refine ⟨fun x hx => hsections.services x ?_, fun x hx => hsections.networks x ?_,
      fun x hx => hsections.volumes x ?_⟩
    all_goals rwa [Entries.get?_put_of_ne (by decide)] at hx
  | v21 =>
    simp only [Document.upgrade, Except.ok.injEq] at hupgrade
    subst hupgrade
    exact sectionsValid_of_versionedDocument (fun _ => id) (fun _ => id) (fun _ => id) hvalid

end ContainerStack.Schema
