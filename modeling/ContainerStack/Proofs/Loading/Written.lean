import ContainerStack.Loading.Composition
import ContainerStack.Proofs.FixedPoint

/-!
Loading what was written. A field is loaded as it was written, a field that was left
out keeps its default, and the extra members are collected in their order, so entities
are loaded back as themselves. The one exception is an `external` reference that is
null: it is written as a null member, and loading takes such a member for an absent one.
-/

namespace ContainerStack

open Text ContainerStack.Normal

namespace Loading

variable {α β : Type} {step : α → String → Json → Result α} {draft next : α} {key : String}

theorem fill_append (step : α → String → Json → Result α) (draft : α) (ms later : Entries Json) :
    fill step draft (ms ++ later) =
      (fill step draft ms >>= fun draft => fill step draft later) :=
  List.foldlM_append

/-- Loading goes on with the fields after one that was loaded. -/
theorem fill_field {o : Option Json} (h : fill step draft (optionalMember key o) = .ok next)
    (fields : List (String × Option Json)) (extra : Table Json) :
    fill step draft (written ((key, o) :: fields) extra) =
      fill step next (written fields extra) := by
  rw [written, List.flatMap_cons, List.append_assoc, fill_append, h]
  rfl

/-- The extra members are collected once all fields are loaded. -/
theorem fill_extra (put : Table Json → α) (hput : put .empty = draft) {extra : Table Json}
    (hstep : ∀ t, ∀ m ∈ extra.entries, step (put t) m.1 m.2 = .ok (put (t.insert m.1 m.2))) :
    fill step draft (written [] extra) = .ok (put extra) := by
  have hfold : ∀ ms : Entries Json, (∀ m ∈ ms, m ∈ extra.entries) → ∀ t,
      fill step (put t) ms = .ok (put (ms.foldl (fun t e => t.insert e.1 e.2) t)) := by
    intro ms
    induction ms with
    | nil => exact fun _ t => rfl
    | cons m rest ih =>
      intro hmem t
      obtain ⟨hm, hrest⟩ := List.forall_mem_cons.mp hmem
      rw [fill, List.foldlM_cons, hstep t m hm, List.foldl_cons]
      exact ih hrest (t.insert m.1 m.2)
  have hall := hfold extra.entries (fun m hm => hm) .empty
  have hextra : extra.entries.foldl (fun t e => t.insert e.1 e.2) .empty = extra :=
    Table.ofEntries_entries extra
  rw [hput, hextra] at hall
  exact hall

theorem fill_value (put : β → α) (load : Json → Result β) {x : Json} {b : β}
    (hstep : step draft key x = (load x).map put) (hload : load x = .ok b) :
    fill step draft (optionalMember key (some x)) = .ok (put b) := by
  simp [fill, optionalMember, hstep, hload, Except.map]

/-- An option is loaded if what was written for its value is. -/
theorem fill_option (put : Option β → α) (load : Json → Result β) (write : β → Json)
    {o : Option β} (hput : put none = draft)
    (hstep : ∀ x, step draft key x = (optional load x).map put)
    (hnull : ∀ b, write b ≠ .null) (hload : ∀ b, o = some b → load (write b) = .ok b) :
    fill step draft (optionalMember key (o.map write)) = .ok (put o) := by
  cases o with
  | none => exact congrArg Except.ok hput.symm
  | some b =>
    refine fill_value put (optional load) (hstep (write b)) ?_
    have hwrite := hload b rfl
    unfold optional
    split
    · rename_i heq
      exact absurd heq (hnull b)
    · rw [hwrite, Except.map]

theorem str_ne_null (s : String) : Json.str s ≠ .null := by
  simp

theorem textsToJson_ne_null (ts : List String) : textsToJson ts ≠ .null := by
  simp [textsToJson]

theorem texts_textsToJson (ts : List String) : texts (textsToJson ts) = .ok ts := by
  refine bind_eq_ok_iff.mpr ⟨ts.map Json.str, rfl, ?_⟩
  exact mapM_map_eq_ok fun t _ => rfl

theorem fill_list (put : List String → α) {ts : List String} (hput : put [] = draft)
    (hstep : ∀ x, step draft key x = (texts x).map put) :
    fill step draft (optionalMember key (listField ts)) = .ok (put ts) := by
  unfold listField
  split
  · rename_i hempty
    rw [List.isEmpty_iff.mp hempty]
    exact congrArg Except.ok hput.symm
  · exact fill_value put texts (hstep _) (texts_textsToJson ts)

/-- A written section is loaded entry by entry. -/
theorem table_written {load : Json → Result β} {write : α → Json} {t : Table α} {u : Table β}
    (h : List.Forall₂ (fun e f => f.1 = e.1 ∧ load (write e.2) = .ok f.2) t.entries u.entries) :
    table load (.obj (t.entries.map fun e => (e.1, write e.2))) = .ok u := by
  refine bind_eq_ok_iff.mpr ⟨_, rfl, bind_eq_ok_iff.mpr ⟨u.entries, ?_, ?_⟩⟩
  · rw [Entries.traverse_eq_ok_iff, List.forall₂_map_left_iff]
    exact h
  · rw [Table.ofEntries_entries]

theorem keyValues_toJson (t : KeyValues) : keyValues t.toJson = .ok t := by
  have htexts : List.Forall₂ (fun e f => f.1 = e.1 ∧ text (.str e.2) = .ok f.2) t.entries
      t.entries := List.forall₂_same.mpr fun _ _ => ⟨rfl, rfl⟩
  exact table_written htexts

theorem fill_table (put : KeyValues → α) {t : KeyValues} (hput : put .empty = draft)
    (hstep : ∀ x, step draft key x = (keyValues x).map put) :
    fill step draft (optionalMember key (tableField t)) = .ok (put t) := by
  unfold tableField
  split
  · rename_i hempty
    rw [Table.entries_eq_nil_of_isEmpty hempty]
    exact congrArg Except.ok hput.symm
  · exact fill_value put keyValues (hstep _) (keyValues_toJson t)

end Loading

open Loading

theorem Attachments.load_toJson (a : Attachments) : Attachments.load a.toJson = .ok a := by
  cases a with
  | list names =>
    have hnames := texts_textsToJson names
    simp only [toJson, textsToJson] at hnames ⊢
    simp only [load, hnames]
  | table options => simp only [toJson, load, Table.ofEntries_entries]

theorem Attachments.toJson_ne_null (a : Attachments) : a.toJson ≠ .null := by
  cases a <;> simp [toJson, textsToJson]

theorem Build.toJson_ne_null (b : Build) : b.toJson ≠ .null := by
  simp [toJson]

theorem Build.withMember_of_notMem {key : String} (h : key ∉ buildFields) (b : Build) (x : Json) :
    b.withMember key x = .ok { b with extra := b.extra.insert key x } := by
  unfold withMember
  split
  iterate 4 exact absurd (by decide) h
  rfl

theorem Service.withMember_of_notMem {key : String} (h : key ∉ serviceFields) (s : Service)
    (x : Json) : s.withMember key x = .ok { s with extra := s.extra.insert key x } := by
  unfold withMember
  split
  iterate 10 exact absurd (by decide) h
  rfl

theorem Resource.withMember_of_notMem {key : String} (h : key ∉ resourceFields) (r : Resource)
    (x : Json) : r.withMember key x = .ok { r with extra := r.extra.insert key x } := by
  unfold withMember
  split
  iterate 3 exact absurd (by decide) h
  rfl

theorem Build.fill_written {b : Build} (hextra : b.ExtraUnnamed) :
    fill withMember { context := "" } (written b.fields b.extra) = .ok b := by
  rw [Build.fields,
    fill_field (fill_value (fun v : String => ({ context := v } : Build)) text rfl rfl),
    fill_field (fill_option (fun v => ({ context := b.context, dockerfile := v } : Build)) text .str
      rfl (fun _ => rfl) str_ne_null fun _ _ => rfl),
    fill_field (fill_table (fun v =>
      ({ context := b.context, dockerfile := b.dockerfile, args := v } : Build)) rfl fun _ => rfl),
    fill_field (fill_table (fun v => ({ b with labels := v, extra := .empty } : Build)) rfl
      fun _ => rfl)]
  exact fill_extra (fun t => { b with extra := t }) rfl fun t m hm =>
    withMember_of_notMem (hextra m.1 (List.mem_map_of_mem hm)) _ _

theorem Build.load_toJson {b : Build} (hextra : b.ExtraUnnamed) : Build.load b.toJson = .ok b := by
  rw [b.toJson_eq]
  exact bind_eq_ok_iff.mpr ⟨_, rfl, bind_eq_ok_iff.mpr
    ⟨b, fill_written hextra, bind_eq_ok_iff.mpr ⟨(), rfl, rfl⟩⟩⟩

/-- Paths that are read as themselves are loaded as they were written. -/
theorem list_envPath_written {paths : List EnvPath} (h : ∀ p ∈ paths, p.Stable) :
    list envPath (textsToJson (paths.map EnvPath.text)) = .ok paths := by
  refine bind_eq_ok_iff.mpr ⟨_, rfl, ?_⟩
  rw [List.map_map]
  refine mapM_map_eq_ok fun p hp => ?_
  have hparse : EnvPath.parse p.text = .ok p := h p hp
  simp [Loading.envPath, text, hparse, bind, Except.bind]

theorem Service.fill_written {s : Service} (hextra : s.ExtraUnnamed)
    (hstable : ∀ paths, s.envFiles = some paths → ∀ p ∈ paths, p.Stable) :
    fill withMember {} (written s.fields s.extra) = .ok s := by
  rw [Service.fields,
    fill_field (fill_option (fun v => ({ image := v } : Service)) text .str rfl (fun _ => rfl)
      str_ne_null fun _ _ => rfl),
    fill_field (fill_option (fun v => ({ image := s.image, build := v } : Service)) Build.load
      Build.toJson rfl (fun _ => rfl) Build.toJson_ne_null fun b hb =>
        Build.load_toJson (hextra.2 b hb)),
    fill_field (fill_table (fun v =>
      ({ image := s.image, build := s.build, environment := v } : Service)) rfl fun _ => rfl),
    fill_field (fill_option (fun v =>
      ({ image := s.image, build := s.build, environment := s.environment, envFiles := v } :
        Service)) (list envPath) (fun paths => textsToJson (paths.map EnvPath.text)) rfl
      (fun _ => rfl) (fun _ => textsToJson_ne_null _) fun paths hpaths =>
        list_envPath_written (hstable paths hpaths)),
    fill_field (fill_list (fun v =>
      ({ image := s.image, build := s.build, environment := s.environment, envFiles := s.envFiles,
         dependsOn := v } : Service)) rfl fun _ => rfl),
    fill_field (fill_table (fun v =>
      ({ s with labels := v, ports := [], volumes := [], extraHosts := [], networks := none,
                extra := .empty } : Service)) rfl fun _ => rfl),
    fill_field (fill_list (fun v =>
      ({ s with ports := v, volumes := [], extraHosts := [], networks := none, extra := .empty } :
        Service)) rfl fun _ => rfl),
    fill_field (fill_list (fun v =>
      ({ s with volumes := v, extraHosts := [], networks := none, extra := .empty } : Service))
      rfl fun _ => rfl),
    fill_field (fill_list (fun v =>
      ({ s with extraHosts := v, networks := none, extra := .empty } : Service)) rfl fun _ => rfl),
    fill_field (fill_option (fun v => ({ s with networks := v, extra := .empty } : Service))
      Attachments.load Attachments.toJson rfl (fun _ => rfl) Attachments.toJson_ne_null
      fun a _ => a.load_toJson)]
  exact fill_extra (fun t => { s with extra := t }) rfl fun t m hm =>
    withMember_of_notMem (hextra.1 m.1 (List.mem_map_of_mem hm)) _ _

theorem Service.load_toJson {s : Service} (hextra : s.ExtraUnnamed)
    (hstable : ∀ paths, s.envFiles = some paths → ∀ p ∈ paths, p.Stable) :
    Service.load s.toJson = .ok s := by
  rw [s.toJson_eq]
  exact bind_eq_ok_iff.mpr ⟨_, rfl, fill_written hextra hstable⟩

/-- The resource as it is loaded: an `external` reference that is null is none. -/
def Resource.withoutNull (r : Resource) : Resource :=
  { r with external := r.external.filter (· ≠ .null) }

theorem Resource.fill_external {r : Resource} {o : Option Json} (h : r.external = none) :
    fill withMember r (optionalMember "external" o) =
      .ok { r with external := o.filter (· ≠ .null) } := by
  cases o with
  | none =>
    have hsame : { r with external := none } = r := by rw [← h]
    exact congrArg Except.ok hsame.symm
  | some x => cases x <;> rfl

theorem Resource.fill_written {r : Resource} (hextra : r.ExtraUnnamed) :
    fill withMember {} (written r.fields r.extra) = .ok r.withoutNull := by
  rw [Resource.fields,
    fill_field (fill_option (fun v => ({ driver := v } : Resource)) text .str rfl (fun _ => rfl)
      str_ne_null fun _ _ => rfl),
    fill_field (fill_table (fun v => ({ driver := r.driver, labels := v } : Resource)) rfl
      fun _ => rfl),
    fill_field (fill_external rfl)]
  exact fill_extra (fun t => { r.withoutNull with extra := t }) rfl fun t m hm =>
    withMember_of_notMem (hextra m.1 (List.mem_map_of_mem hm)) _ _

theorem Resource.load_toJson (expected : String) {r : Resource} (hextra : r.ExtraUnnamed) :
    Resource.load expected r.toJson = .ok r.withoutNull := by
  rw [r.toJson_eq]
  exact bind_eq_ok_iff.mpr ⟨_, rfl, fill_written hextra⟩

/-- The composition as it is loaded: no resource has a null `external` reference. -/
def Composition.withoutNulls (c : Composition) : Composition :=
  { c with
    networks := c.networks.map Resource.withoutNull
    volumes := c.volumes.map Resource.withoutNull }

/-- A written section of resources is loaded without its null references. -/
theorem Loading.fill_resources {α : Type} {step : α → String → Json → Result α} {draft : α}
    {key expected : String} (put : Table Resource → α) {t : Table Resource}
    (hput : put .empty = draft)
    (hstep : ∀ x, step draft key x = (table (Resource.load expected) x).map put)
    (hextra : ∀ r ∈ t.values, r.ExtraUnnamed) :
    fill step draft (optionalMember key (sectionField t)) =
      .ok (put (t.map Resource.withoutNull)) := by
  unfold sectionField
  split
  · rename_i hempty
    rw [Table.entries_eq_nil_of_isEmpty hempty]
    exact congrArg Except.ok hput.symm
  · refine fill_value put (table (Resource.load expected)) (hstep _) (table_written ?_)
    rw [Table.map, List.forall₂_map_right_iff, List.forall₂_same]
    exact fun e he => ⟨rfl, Resource.load_toJson expected (hextra e.2 (List.mem_map_of_mem he))⟩

/-- A written composition is loaded if every path is read as itself; it comes back as it
was, but for null references. -/
theorem Composition.load_toJson {c : Composition} (hextra : c.ExtraUnnamed)
    (hstable : ∀ p, c.EnvFile p → p.Stable) : Composition.load c.toJson = .ok c.withoutNulls := by
  obtain ⟨hservices, hnetworks, hvolumes⟩ := hextra
  have hsection : table Service.load (sectionToJson Service.toJson c.services) =
      .ok c.services := by
    refine table_written (List.forall₂_same.mpr fun e he => ⟨rfl, ?_⟩)
    have hmem : e.2 ∈ c.services.values := List.mem_map_of_mem he
    exact Service.load_toJson (hservices e.2 hmem) fun paths hpaths p hp =>
      hstable p ⟨e.2, hmem, paths, hpaths, hp⟩
  have hfill : fill withMember { version := "" } (written c.fields .empty) =
      .ok c.withoutNulls := by
    rw [Composition.fields,
      fill_field (fill_value (fun v : String => ({ version := v } : Composition)) text rfl rfl),
      fill_field (fill_value (fun v => ({ version := c.version, services := v } : Composition))
        (table Service.load) rfl hsection),
      fill_field (fill_resources (fun v =>
        ({ c with networks := v, volumes := .empty } : Composition)) rfl (fun _ => rfl) hnetworks),
      fill_field (fill_resources (fun v =>
        ({ c with networks := c.networks.map Resource.withoutNull, volumes := v } : Composition))
        rfl (fun _ => rfl) hvolumes)]
    rfl
  rw [c.toJson_eq]
  exact bind_eq_ok_iff.mpr ⟨_, hfill, bind_eq_ok_iff.mpr ⟨(), rfl, rfl⟩⟩

end ContainerStack
