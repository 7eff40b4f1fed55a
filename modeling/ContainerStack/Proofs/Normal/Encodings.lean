import ContainerStack.Proofs.Matched
import ContainerStack.Proofs.Schema.Written

/-!
Encodings of the same data. A mapping of scalars may be written as the list of the texts
that join each name to its scalar, a build as its context alone, and a list of env files as
a single one. When the names leave no doubt where a text is cut, the schema of the field
accepts both encodings and the reader of the field takes the same from either.
-/

namespace ContainerStack

open Text
open Entries (Matched)

/-- A mapping of scalars, and the list of the texts of its members in their order. -/
inductive Listed (separator : String) (proper : String → Prop) : Json → Json → Prop
  | mk (t : Table Json) (scalars : Entries String) (hproper : ∀ key ∈ t.keys, proper key)
      (hscalars : Matched (fun _ x text => Normal.scalarText? x = some text) t.entries scalars) :
      Listed separator proper (.obj t.entries)
        (textsToJson (scalars.map fun e => e.1 ++ separator ++ e.2))

/-- A name that stands before an equals sign as it is. -/
structure AssignedName (key : String) : Prop where
  ne_empty : key ≠ ""
  trimmed : Trimmed key
  separate : '=' ∉ key.toList

/-- A host that stands before a colon as it is. -/
structure HostName (host : String) : Prop where
  ne_empty : host ≠ ""
  separate : ':' ∉ host.toList
  unblanked : ∀ c ∈ host.toList, isBlank c = false

instance (key : String) : Decidable (AssignedName key) :=
  decidable_of_iff (key ≠ "" ∧ Trimmed key ∧ '=' ∉ key.toList)
    ⟨fun ⟨hne, htrimmed, hseparate⟩ => ⟨hne, htrimmed, hseparate⟩,
      fun h => ⟨h.ne_empty, h.trimmed, h.separate⟩⟩

instance (host : String) : Decidable (HostName host) :=
  decidable_of_iff (host ≠ "" ∧ ':' ∉ host.toList ∧ host.toList.all (!isBlank ·))
    ⟨fun ⟨hne, hseparate, hblanks⟩ => ⟨hne, hseparate, by simpa using hblanks⟩,
      fun h => ⟨h.ne_empty, h.separate, by simpa using h.unblanked⟩⟩

def AssignmentsListed : Json → Json → Prop :=
  Listed "=" AssignedName

def HostsListed : Json → Json → Prop :=
  Listed ":" HostName

/-- One path, and the list of it. -/
inductive PathListed : Json → Json → Prop
  | mk (path : String) : PathListed (.str path) (.arr [.str path])

/-- Ways to write a value differently, by the name that the value stands under. -/
abbrev Encodings :=
  Entries (Json → Json → Prop)

/-- A member that is as it was, or is in the other encoding that its name allows. -/
def MemberRecoded (encodings : Encodings) (key : String) (x y : Json) : Prop :=
  x = y ∨ ∃ R, Entries.get? key encodings = some R ∧ R x y

def buildEncodings : Encodings :=
  [("args", AssignmentsListed), ("labels", AssignmentsListed)]

/-- A build that was its context alone, or has members in their other encoding. -/
inductive BuildRecoded : Json → Json → Prop
  | context (context : String) : BuildRecoded (.str context) (.obj [("context", .str context)])
  | members {ms ns : Entries Json} (h : Matched (MemberRecoded buildEncodings) ms ns) :
      BuildRecoded (.obj ms) (.obj ns)

def serviceEncodings : Encodings :=
  [("environment", AssignmentsListed), ("labels", AssignmentsListed),
    ("extra_hosts", HostsListed), ("env_file", PathListed), ("build", BuildRecoded)]

/-- The encodings of a network or volume. -/
def resourceEncodings : Encodings :=
  [("labels", AssignmentsListed)]

/-- The schema and the reader of a field do not tell the encodings apart. -/
structure Interchangeable {α : Type} (R : Json → Json → Prop) (each : Schema)
    (read : Json → Outcome α) : Prop where
  ne_null : ∀ {x y}, R x y → x ≠ .null ∧ y ≠ .null
  valid_iff : ∀ {x y}, R x y → (each.Valid x ↔ each.Valid y)
  read_eq : ∀ {x y}, R x y → read x = read y

namespace Normal

theorem splitAssignment_joined {key : String} (hkey : AssignedName key) (text : String) :
    splitAssignment (key ++ "=" ++ text).toList = (key, trim text) := by
  have hcut : splitFirst '=' (key ++ "=" ++ text).toList = some (key.toList, text.toList) :=
    splitFirst_eq_some_iff.mpr ⟨by simp, hkey.separate⟩
  have hname : String.ofList (trimChars key.toList) = key := hkey.trimmed
  simp only [splitAssignment, hcut, hname]
  rfl

/-- The list of the assignments of a mapping is read as the mapping is. -/
theorem assignmentsOfItems_joined (field : String) {ms : Entries Json} {scalars : Entries String}
    (hnames : ∀ key ∈ Entries.keys ms, AssignedName key)
    (h : Matched (fun _ x text => scalarText? x = some text) ms scalars) (done : KeyValues) :
    assignmentsOfItems field done (scalars.map fun e => .str (e.1 ++ "=" ++ e.2)) =
      assignmentsOfMembers field done ms := by
  induction h generalizing done with
  | nil => rfl
  | @cons m e _ _ hfirst _ ih =>
    obtain ⟨hname, htext⟩ := hfirst
    obtain ⟨hkey, hrest⟩ := List.forall_mem_cons.mp hnames
    have hentry : entryText? (.str (m.1 ++ "=" ++ e.2)) = some (m.1 ++ "=" ++ e.2) := rfl
    rw [List.map_cons, hname, assignmentsOfItems, hentry, assignmentsOfMembers, htext]
    simp only [splitAssignment_joined hkey, hkey.ne_empty, ite_false]
    exact ih hrest _

theorem assignments_eq_of_listed (field : String) {x y : Json} (h : AssignmentsListed x y) :
    assignments field x = assignments field y := by
  cases h with
  | mk t scalars hnames hscalars =>
    simp only [assignments, textsToJson, List.map_map]
    exact (assignmentsOfItems_joined field hnames hscalars .empty).symm

theorem hosts_eq_of_listed {x y : Json} (h : HostsListed x y) : hosts x = hosts y := by
  cases h with
  | mk t scalars _ hscalars =>
    rw [hosts_textsToJson]
    refine mapM_eq_ok_iff.mpr (List.forall₂_map_right_iff.mpr (hscalars.imp fun m e hparts => ?_))
    obtain ⟨hname, htext⟩ := hparts
    rw [hostOfMember, htext, hname]

end Normal

namespace Schema

/-- Joined texts differ where the names do, if these do not contain the separator. -/
theorem nodup_joined {separator : String} {c : Char} (hc : separator.toList = [c])
    {es : Entries String} (hnodup : (Entries.keys es).Nodup)
    (hseparate : ∀ key ∈ Entries.keys es, c ∉ key.toList) :
    (es.map fun e => e.1 ++ separator ++ e.2).Nodup := by
  have hcut : ∀ e ∈ es, splitFirst c (e.1 ++ separator ++ e.2).toList =
      some (e.1.toList, e.2.toList) := by
    intro e he
    refine splitFirst_eq_some_iff.mpr ⟨by simp [hc], hseparate _ (List.mem_map_of_mem he)⟩
  refine List.Nodup.map_on (fun a ha b hb heq => ?_) (List.Nodup.of_map Prod.fst hnodup)
  have hsides := hcut a ha
  rw [heq, hcut b hb, Option.some.injEq, Prod.mk.injEq] at hsides
  exact List.inj_on_of_nodup_map hnodup ha hb (String.toList_inj.mp hsides.1.symm)

theorem valid_of_listed {separator : String} {proper : String → Prop} {c : Char} {x y : Json}
    (hc : separator.toList = [c]) (hletter : ∀ key, proper key → KeyPattern.anyLetter.holds key)
    (hseparate : ∀ key, proper key → c ∉ key.toList) (h : Listed separator proper x y) :
    assignments.Valid x ∧ assignments.Valid y := by
  cases h with
  | mk t scalars hproper hscalars =>
    constructor
    · refine valid_assignments_iff.mpr (Or.inl ⟨_, rfl, fun m hm => ⟨?_, ?_⟩⟩)
      · exact hletter _ (hproper _ (List.mem_map_of_mem hm))
      · obtain ⟨e, -, -, htext⟩ := exists_mem_right_of_forall₂ hscalars m hm
        exact valid_scalar_iff.mpr ⟨_, htext⟩
    · have hkeys : Entries.keys scalars = t.keys := hscalars.keys_eq
      rw [valid_assignments_texts]
      refine nodup_joined hc (hkeys ▸ t.nodup) fun key hkey => ?_
      exact hseparate key (hproper key (hkeys ▸ hkey))

theorem anyLetter_of_hostName {host : String} (h : HostName host) :
    KeyPattern.anyLetter.holds host = true := by
  obtain ⟨c, hc⟩ := List.exists_mem_of_ne_nil _ (mt String.toList_eq_nil_iff.mp h.ne_empty)
  have hline : c ≠ '\n' := by
    rintro rfl
    exact absurd (h.unblanked _ hc) (by decide)
  exact List.any_eq_true.mpr ⟨c, hc, by simpa [KeyPattern.isLineChar] using hline⟩

theorem valid_of_assignmentsListed {x y : Json} (h : AssignmentsListed x y) :
    assignments.Valid x ∧ assignments.Valid y :=
  valid_of_listed rfl (fun _ hkey => anyLetter_of_trimmed hkey.trimmed hkey.ne_empty)
    (fun _ hkey => hkey.separate) h

theorem valid_of_hostsListed {x y : Json} (h : HostsListed x y) :
    assignments.Valid x ∧ assignments.Valid y :=
  valid_of_listed rfl (fun _ => anyLetter_of_hostName) (fun _ hhost => hhost.separate) h

theorem valid_of_pathListed {x y : Json} (h : PathListed x y) :
    textOrTextList.Valid x ∧ textOrTextList.Valid y := by
  cases h with
  | mk path =>
    refine ⟨valid_oneOf_iff.mpr (Or.inl ⟨valid_text_iff.mpr ⟨path, rfl⟩, ?_⟩),
      valid_textOrTextList_texts [path]⟩
    rw [valid_textList_iff]
    intro h
    obtain ⟨ts, hts⟩ := h
    cases hts

theorem valid_buildContext (context : String) :
    build.Valid (.str context) ∧ build.Valid (.obj [("context", .str context)]) := by
  refine ⟨valid_build_iff.mpr (Or.inl ⟨context, rfl⟩), valid_build_iff.mpr (Or.inr ?_)⟩
  refine valid_closedRecord_obj_iff.mpr fun m hm => ?_
  rw [List.mem_singleton.mp hm]
  exact ⟨text, rfl, valid_text_iff.mpr ⟨context, rfl⟩⟩

end Schema

theorem Listed.ne_null {separator : String} {proper : String → Prop} {x y : Json}
    (h : Listed separator proper x y) : x ≠ .null ∧ y ≠ .null := by
  cases h
  exact ⟨Json.noConfusion, Json.noConfusion⟩

theorem interchangeable_assignments (field : String) :
    Interchangeable AssignmentsListed Schema.assignments (Normal.assignments field) where
  ne_null := Listed.ne_null
  valid_iff h := iff_of_true (Schema.valid_of_assignmentsListed h).1
    (Schema.valid_of_assignmentsListed h).2
  read_eq := Normal.assignments_eq_of_listed field

theorem interchangeable_hosts : Interchangeable HostsListed Schema.assignments Normal.hosts where
  ne_null := Listed.ne_null
  valid_iff h := iff_of_true (Schema.valid_of_hostsListed h).1 (Schema.valid_of_hostsListed h).2
  read_eq := Normal.hosts_eq_of_listed

theorem interchangeable_envFiles :
    Interchangeable PathListed Schema.textOrTextList Normal.envFiles where
  ne_null h := by
    cases h
    exact ⟨Json.noConfusion, Json.noConfusion⟩
  valid_iff h := iff_of_true (Schema.valid_of_pathListed h).1 (Schema.valid_of_pathListed h).2
  read_eq h := by
    cases h
    rfl

section Members

variable {encodings : Encodings} {key : String} {x y : Json} {ms ns : Entries Json}

namespace MemberRecoded

theorem refl (encodings : Encodings) (key : String) (x : Json) : MemberRecoded encodings key x x :=
  Or.inl rfl

/-- A member whose name allows no other encoding is as it was. -/
theorem eq_of_get?_eq_none (h : MemberRecoded encodings key x y)
    (hkey : Entries.get? key encodings = none) : x = y := by
  rcases h with rfl | ⟨R, hR, -⟩
  · rfl
  · cases hkey.symm.trans hR

theorem eq_or {R : Json → Json → Prop} (h : MemberRecoded encodings key x y)
    (hkey : Entries.get? key encodings = some R) : x = y ∨ R x y := by
  rcases h with rfl | ⟨R', hR', hxy⟩
  · exact Or.inl rfl
  · cases hkey.symm.trans hR'
    exact Or.inr hxy

/-- What all encodings keep is the same for the member as it was and is. -/
theorem iff {P : Json → Prop} (h : MemberRecoded encodings key x y)
    (hP : ∀ R, Entries.get? key encodings = some R → ∀ x y, R x y → (P x ↔ P y)) :
    P x ↔ P y := by
  rcases h with rfl | ⟨R, hR, hxy⟩
  · rfl
  · exact hP R hR x y hxy

end MemberRecoded

namespace Normal

theorem get?_eq_of_recoded (h : Matched (MemberRecoded encodings) ms ns)
    (hkey : Entries.get? key encodings = none) :
    Entries.get? key ns = Entries.get? key ms :=
  h.get?_eq fun _ _ hxy => hxy.eq_of_get?_eq_none hkey

/-- A field is read from either of its encodings as from the other. -/
theorem readField_eq_of_recoded {α : Type} {absent : α} {R : Json → Json → Prop} {each : Schema}
    {read : Json → Outcome α} (h : Matched (MemberRecoded encodings) ms ns)
    (hkey : Entries.get? key encodings = some R) (hR : Interchangeable R each read) :
    readField key ms absent read = readField key ns absent read := by
  cases hx : Entries.get? key ms with
  | none => simp only [readField, field?, hx, h.get?_eq_none hx]
  | some x =>
    obtain ⟨y, hy, hxy⟩ := h.exists_get? hx
    rcases hxy.eq_or hkey with rfl | hxy
    · simp only [readField, field?, hx, hy]
    · obtain ⟨hxnull, hynull⟩ := hR.ne_null hxy
      have hxfield := field?_eq_some_iff.mpr ⟨hx, hxnull⟩
      have hyfield := field?_eq_some_iff.mpr ⟨hy, hynull⟩
      simp only [readField, hxfield, hyfield, hR.read_eq hxy]

theorem readOption_eq_of_recoded {α : Type} {R : Json → Json → Prop} {each : Schema}
    {read : Json → Outcome α} (h : Matched (MemberRecoded encodings) ms ns)
    (hkey : Entries.get? key encodings = some R) (hR : Interchangeable R each read) :
    readOption key ms read = readOption key ns read :=
  readField_eq_of_recoded h hkey
    { hR with read_eq := fun hxy => congrArg (Except.map some) (hR.read_eq hxy) }

theorem readField_eq_of_get?_eq {α : Type} {absent : α} {read : Json → Outcome α}
    (h : Entries.get? key ns = Entries.get? key ms) :
    readField key ms absent read = readField key ns absent read := by
  simp only [readField, field?, h]

/-- Only members that are named have other encodings, so the others are carried over. -/
theorem extraMembers_eq_of_recoded {named : List String}
    (h : Matched (MemberRecoded encodings) ms ns)
    (hnamed : Entries.keys encodings ⊆ named) : extraMembers named ms = extraMembers named ns := by
  refine congrArg Table.ofEntries ((h.filter fun key => decide (key ∉ named)).eq ?_)
  intro key x y hparts
  obtain ⟨hkey, hxy⟩ := hparts
  refine hxy.eq_of_get?_eq_none (Entries.get?_eq_none_iff.mpr fun hmem => ?_)
  exact of_decide_eq_true hkey (hnamed hmem)

theorem buildOfMembers_eq_of_recoded (h : Matched (MemberRecoded buildEncodings) ms ns) :
    buildOfMembers ms = buildOfMembers ns := by
  have hkept : ∀ key, Entries.get? key buildEncodings = none →
      Entries.get? key ns = Entries.get? key ms := fun key => get?_eq_of_recoded h
  have hcontext := hkept "context" rfl
  have hdockerfile := hkept "dockerfile" rfl
  have hassignments : ∀ key field, Entries.get? key buildEncodings = some AssignmentsListed →
      readField key ms .empty (assignments field) = readField key ns .empty (assignments field) :=
    fun key field hkey => readField_eq_of_recoded h hkey (interchangeable_assignments field)
  have hargs := hassignments "args" "build.args" rfl
  have hlabels := hassignments "labels" "build.labels" rfl
  have hnamed : Entries.keys buildEncodings ⊆ buildFields := by decide
  have hextra := extraMembers_eq_of_recoded h hnamed
  simp only [buildOfMembers, hcontext, hdockerfile, hargs, hlabels, hextra]

end Normal

namespace Schema

/-- Recoded members are valid alike when each encoding is, under the schema for its name. -/
theorem membersValid_iff_of_recoded {members : Entries Schema}
    (h : Matched (MemberRecoded encodings) ms ns)
    (hvalid : ∀ key R each, Entries.get? key encodings = some R →
      Entries.get? key members = some each → ∀ x y, R x y → (each.Valid x ↔ each.Valid y)) :
    MembersValid members ms ↔ MembersValid members ns :=
  membersValid_iff_of_matched h fun key each _ _ hxy heach =>
    hxy.iff fun R hR => hvalid key R each hR heach

theorem valid_build_obj_iff_of_recoded (h : Matched (MemberRecoded buildEncodings) ms ns) :
    build.Valid (.obj ms) ↔ build.Valid (.obj ns) := by
  rw [valid_build_obj_iff, valid_build_obj_iff]
  refine membersValid_iff_of_recoded h fun key R each hR heach x y hxy => ?_
  have hencoding := Entries.mem_of_get? hR
  simp only [buildEncodings, List.mem_cons, Prod.mk.injEq, List.not_mem_nil, or_false]
    at hencoding
  rcases hencoding with ⟨rfl, rfl⟩ | ⟨rfl, rfl⟩
  all_goals
    cases heach
    exact (interchangeable_assignments "").valid_iff hxy

end Schema

end Members

theorem interchangeable_build (name : String) :
    Interchangeable BuildRecoded Schema.build (Normal.build name) where
  ne_null h := by
    cases h <;> exact ⟨Json.noConfusion, Json.noConfusion⟩
  valid_iff h := by
    cases h with
    | context context =>
      exact iff_of_true (Schema.valid_buildContext context).1 (Schema.valid_buildContext context).2
    | members h => exact Schema.valid_build_obj_iff_of_recoded h
  read_eq h := by
    cases h with
    | context => rfl
    | members h => simp only [Normal.build, Normal.buildOfMembers_eq_of_recoded h]

end ContainerStack
