import ContainerStack.Proofs.Expansion.Fill
import ContainerStack.Proofs.Normal.Field

/-!
Which fields texts under names are read from, and what is read. A mapping gives an entry
for each member, whose value must be a scalar or null, and a list one for each item, which
must be a scalar with a name in front of its first equals sign. Entries of the same name
are one in the table that is read, in the place of the first and with the value of the
last. The names of a mapping are taken as they are, so one of them may be empty.
-/

namespace ContainerStack

open Text

/-- The last of the entries of a name has the value. -/
def Entries.LastValue {α : Type} (es : Entries α) (key : String) (value : α) : Prop :=
  ∃ before after, es = before ++ (key, value) :: after ∧ key ∉ Entries.keys after

theorem Entries.lastValue_concat_iff {α : Type} {es : Entries α} {e : String × α} {key : String}
    {value : α} :
    LastValue (es ++ [e]) key value ↔
      if e.1 = key then e.2 = value else es.LastValue key value := by
  constructor
  · intro h
    obtain ⟨before, after, heq, hafter⟩ := h
    rcases List.eq_nil_or_concat after with rfl | ⟨others, last, rfl⟩
    · obtain ⟨-, hlast⟩ := List.append_inj' heq rfl
      rw [List.singleton_inj.mp hlast, if_pos rfl]
    · have hsplit : es ++ [e] = (before ++ (key, value) :: others) ++ [last] := by simp [heq]
      obtain ⟨hes, hlast⟩ := List.append_inj' hsplit rfl
      have hkeys : e.1 ≠ key ∧ key ∉ keys others := by
        rw [List.singleton_inj.mp hlast]
        simpa [keys, not_or, and_comm, eq_comm] using hafter
      rw [if_neg hkeys.1]
      exact ⟨before, others, hes, hkeys.2⟩
  · intro h
    split at h
    · rename_i hkey
      exact ⟨es, [], by rw [← hkey, ← h], List.not_mem_nil⟩
    · rename_i hkey
      obtain ⟨before, after, rfl, hafter⟩ := h
      refine ⟨before, after ++ [e], by simp, ?_⟩
      simp only [keys, List.map_append, List.mem_append, List.map_singleton, List.mem_singleton,
        not_or]
      exact ⟨hafter, Ne.symm hkey⟩

theorem Table.ofEntries_concat {α : Type} (es : Entries α) (e : String × α) :
    ofEntries (es ++ [e]) = (ofEntries es).insert e.1 e.2 := by
  rw [ofEntries, List.foldl_append]
  rfl

/-- A table that is collected from entries has the last value of each name. -/
theorem Table.get?_ofEntries_eq_some_iff {α : Type} {es : Entries α} {key : String} {value : α} :
    (ofEntries es).get? key = some value ↔ es.LastValue key value := by
  induction es using List.reverseRecOn with
  | nil => simp [ofEntries, empty, get?, Entries.get?, Entries.LastValue]
  | append_singleton es e ih =>
    rw [ofEntries_concat, Entries.lastValue_concat_iff]
    split
    · rename_i hkey
      rw [← hkey, get?_insert_self, Option.some.injEq]
    · rename_i hkey
      rw [get?_insert_of_ne (Ne.symm hkey), ih]

namespace Normal

/-- A text, a number or a boolean, and what is written for it. -/
inductive ScalarText : Json → String → Prop
  | text (s : String) : ScalarText (.str s) s
  | number (n : Number) : ScalarText (.num n) (Json.numberText n)
  | yes : ScalarText (.bool true) "true"
  | no : ScalarText (.bool false) "false"

/-- A member gives its name and the trimmed text of its scalar, or no text for null. -/
inductive MemberGives : String × Json → String × String → Prop
  | null (key : String) : MemberGives (key, .null) (key, "")
  | scalar {x : Json} {text : String} (key : String) (hscalar : ScalarText x text) :
      MemberGives (key, x) (key, trim text)

/-- An item gives the texts before and after its first equals sign, both trimmed. Without
the sign all of it is the name, and the value is empty. -/
inductive ItemGives : Json → String × String → Prop
  | cut {item : Json} {text : String} {name value : List Char} (hscalar : ScalarText item text)
      (htext : text.toList = name ++ '=' :: value) (hfirst : '=' ∉ name) :
      ItemGives item (trim (String.ofList name), trim (String.ofList value))
  | whole {item : Json} {text : String} (hscalar : ScalarText item text)
      (hnone : '=' ∉ text.toList) : ItemGives item (trim text, "")

/-- What the field gives, in its order and with repetitions. -/
inductive Gives : Json → Entries String → Prop
  | null : Gives .null []
  | mapping {ms : Entries Json} {es : Entries String} (h : List.Forall₂ MemberGives ms es) :
      Gives (.obj ms) es
  | list {items : List Json} {es : Entries String} (h : List.Forall₂ ItemGives items es) :
      Gives (.arr items) es

/-- There is more than blanks in front of the first equals sign. -/
def NamedText (text : String) : Prop :=
  ∃ c ∈ text.toList.takeWhile (· ≠ '='), isBlank c = false

/-- Null, a mapping to scalars and nulls, or a list of scalars with a name in each. -/
def Assignable : Json → Prop
  | .null => True
  | .obj ms => ∀ m ∈ ms, m.2 = .null ∨ ∃ text, ScalarText m.2 text
  | .arr items => ∀ item ∈ items, ∃ text, ScalarText item text ∧ NamedText text
  | _ => False

theorem entryText?_eq_some_iff {x : Json} {text : String} :
    entryText? x = some text ↔ ScalarText x text := by
  constructor
  · intro h
    cases x with
    | bool b => cases b <;> cases h <;> constructor
    | num n => cases h; exact .number _
    | str s => cases h; exact .text _
    | _ => cases h
  · intro h
    cases h <;> rfl

theorem scalarText?_eq_some_iff {x : Json} {text : String} :
    scalarText? x = some text ↔ (x = .null ∧ text = "") ∨ ScalarText x text := by
  rw [← entryText?_eq_some_iff]
  cases x <;> simp [scalarText?, entryText?, eq_comm]

theorem memberGives_of_assigns {m : String × Json} {e : String × String}
    (h : MemberAssigns m e) : MemberGives m e := by
  obtain ⟨key, x⟩ := m
  obtain ⟨hkey, text, htext, hvalue⟩ := h
  rcases scalarText?_eq_some_iff.mp htext with ⟨rfl, rfl⟩ | hscalar
  · exact (Prod.ext hkey hvalue : e = (key, "")) ▸ .null key
  · exact (Prod.ext hkey hvalue : e = (key, trim text)) ▸ .scalar key hscalar

theorem itemGives_of_assigns {item : Json} {e : String × String} (h : ItemAssigns item e) :
    ItemGives item e := by
  obtain ⟨text, htext, rfl, -⟩ := h
  have hscalar := entryText?_eq_some_iff.mp htext
  unfold splitAssignment
  split
  · rename_i name value hcut
    obtain ⟨hsides, hfirst⟩ := splitFirst_eq_some_iff.mp hcut
    simpa only [trim, String.toList_ofList] using ItemGives.cut hscalar hsides hfirst
  · rename_i hcut
    exact .whole hscalar (splitFirst_eq_none_iff.mp hcut)

/-- What stands in front of the first equals sign is the name. -/
theorem splitAssignment_fst (cs : List Char) :
    (splitAssignment cs).1 = String.ofList (trimChars (cs.takeWhile (· ≠ '='))) := by
  unfold splitAssignment
  split
  · rename_i name value hcut
    obtain ⟨rfl, hfirst⟩ := splitFirst_eq_some_iff.mp hcut
    have hname : ∀ c ∈ name, decide (c ≠ '=') = true := by
      intro c hc
      simpa using fun heq : c = '=' => hfirst (heq ▸ hc)
    rw [List.takeWhile_append_of_pos hname, List.takeWhile_cons_of_neg (by simp), List.append_nil]
  · rename_i hcut
    have hnone := splitFirst_eq_none_iff.mp hcut
    have hname : cs.takeWhile (· ≠ '=') = cs := by
      rw [List.takeWhile_eq_self_iff]
      intro c hc
      simpa using fun heq : c = '=' => hnone (heq ▸ hc)
    rw [hname]

theorem namedText_iff {text : String} :
    NamedText text ↔ (splitAssignment text.toList).1 ≠ "" := by
  rw [splitAssignment_fst, ne_eq, String.ofList_eq_empty_iff, trimChars_eq_nil_iff, NamedText]
  simp

theorem exists_itemAssigns_iff {item : Json} :
    (∃ e, ItemAssigns item e) ↔ ∃ text, ScalarText item text ∧ NamedText text := by
  simp only [ItemAssigns, entryText?_eq_some_iff, namedText_iff]
  constructor
  · intro h
    obtain ⟨e, text, hscalar, rfl, hname⟩ := h
    exact ⟨text, hscalar, hname⟩
  · intro h
    obtain ⟨text, hscalar, hname⟩ := h
    exact ⟨_, text, hscalar, rfl, hname⟩

theorem exists_memberAssigns_iff {m : String × Json} :
    (∃ e, MemberAssigns m e) ↔ m.2 = .null ∨ ∃ text, ScalarText m.2 text := by
  simp only [MemberAssigns, scalarText?_eq_some_iff]
  constructor
  · intro h
    obtain ⟨e, -, text, ⟨hnull, -⟩ | hscalar, -⟩ := h
    · exact Or.inl hnull
    · exact Or.inr ⟨text, hscalar⟩
  · intro h
    rcases h with hnull | ⟨text, hscalar⟩
    · exact ⟨(m.1, ""), rfl, "", Or.inl ⟨hnull, rfl⟩, rfl⟩
    · exact ⟨(m.1, trim text), rfl, text, Or.inr hscalar, rfl⟩

theorem exists_assigns_iff {x : Json} : (∃ es, Assigns x es) ↔ Assignable x := by
  cases x with
  | obj ms => exact exists_forall₂_iff.trans (forall₂_congr fun _ _ => exists_memberAssigns_iff)
  | arr items => exact exists_forall₂_iff.trans (forall₂_congr fun _ _ => exists_itemAssigns_iff)
  | null => simp [Assigns, Assignable]
  | bool b => simp [Assigns, Assignable]
  | num n => simp [Assigns, Assignable]
  | str s => simp [Assigns, Assignable]

theorem gives_of_assigns {x : Json} {es : Entries String} (h : Assigns x es) : Gives x es := by
  cases x with
  | null => exact (h : es = []) ▸ .null
  | obj ms => exact .mapping (h.imp fun _ _ => memberGives_of_assigns)
  | arr items => exact .list (h.imp fun _ _ => itemGives_of_assigns)
  | bool b => exact absurd h id
  | num n => exact absurd h id
  | str s => exact absurd h id

/-- Only a mapping assigns to the empty name. -/
theorem empty_mem_keys_iff {x : Json} {es : Entries String} (h : Assigns x es) :
    "" ∈ Entries.keys es ↔ ∃ ms, x = .obj ms ∧ "" ∈ Entries.keys ms := by
  cases x with
  | null => simp [show es = [] from h, Entries.keys]
  | obj ms =>
    have hkeys : Entries.keys es = Entries.keys ms := by
      have hnames : List.Forall₂ (fun m e => m.1 = e.1) ms es := h.imp fun _ _ hm => hm.1.symm
      rw [Entries.keys, Entries.keys, ← List.forall₂_eq_eq_eq, List.forall₂_map_left_iff,
        List.forall₂_map_right_iff]
      exact hnames.flip.imp fun _ _ => Eq.symm
    simp [hkeys]
  | arr items =>
    have hnamed : "" ∉ Entries.keys es := by
      intro hmem
      obtain ⟨e, he, hkey⟩ := List.mem_map.mp hmem
      obtain ⟨item, -, text, -, -, hname⟩ := exists_mem_left_of_forall₂ h e he
      exact hname hkey
    simp [hnamed]
  | bool b => exact absurd h id
  | num n => exact absurd h id
  | str s => exact absurd h id

/-- Texts under names are read from null, from a mapping to scalars and nulls and from a
list of scalars with names, and from nothing else. What is read has each name that is
given once, in the place where it is given first, and with the trimmed text that is given
for it last. A name is empty only if it is the empty name of a mapping. -/
theorem assignments_collect (field : String) (x : Json) :
    ((∃ t, assignments field x = .ok t) ↔ Assignable x) ∧
    ∀ t, assignments field x = .ok t →
      (∃ es, Gives x es ∧ t.keys = (Entries.keys es).eraseDups ∧
        ∀ key value, t.get? key = some value ↔ es.LastValue key value) ∧
      ("" ∈ t.keys ↔ ∃ ms, x = .obj ms ∧ "" ∈ Entries.keys ms) := by
  constructor
  · rw [← exists_assigns_iff]
    simp only [assignments_eq_ok_iff]
    constructor
    · intro h
      obtain ⟨_, es, hes, -⟩ := h
      exact ⟨es, hes⟩
    · intro h
      obtain ⟨es, hes⟩ := h
      exact ⟨_, es, hes, rfl⟩
  · intro t ht
    obtain ⟨es, hes, rfl⟩ := assignments_eq_ok_iff.mp ht
    refine ⟨⟨es, gives_of_assigns hes, Table.keys_ofEntries es, fun key value => ?_⟩, ?_⟩
    · exact Table.get?_ofEntries_eq_some_iff
    · rw [Table.mem_keys_ofEntries_iff, empty_mem_keys_iff hes]

/-- A name that is given again, a name without a value, and items that are no texts. -/
def repeatedSettings : Json :=
  .arr [.str " A = 1 ", .str "B", .num (.int 80), .bool true, .str "A=2=3"]

theorem repeatedSettings_collect :
    assignments "environment" repeatedSettings =
        .ok (.ofEntries [("A", "2=3"), ("B", ""), ("80", ""), ("true", "")]) ∧
      Assignable repeatedSettings ∧
      ∃ es, Gives repeatedSettings es ∧ (Entries.keys es).eraseDups = ["A", "B", "80", "true"] ∧
        es.LastValue "A" "2=3" := by
  have hread : assignments "environment" repeatedSettings =
      .ok (.ofEntries [("A", "2=3"), ("B", ""), ("80", ""), ("true", "")]) := by
    decide +kernel
  obtain ⟨haccepted, hcollected⟩ := assignments_collect "environment" repeatedSettings
  obtain ⟨⟨es, hes, hkeys, hvalues⟩, -⟩ := hcollected _ hread
  exact ⟨hread, haccepted.mp ⟨_, hread⟩, es, hes, hkeys.symm, (hvalues "A" "2=3").mp rfl⟩

/-- A list refuses an empty name, but a mapping does not. -/
theorem not_refused_emptyName :
    ¬∀ field x, (∃ t, assignments field x = .ok t) ↔
      Assignable x ∧ ∀ ms, x = .obj ms → "" ∉ Entries.keys ms := by
  intro h
  have hread : assignments "environment" (.obj [("", .str "x")]) =
      .ok (.ofEntries [("", "x")]) := by
    decide +kernel
  obtain ⟨-, hnamed⟩ := (h _ _).mp ⟨_, hread⟩
  exact hnamed _ rfl (by simp [Entries.keys])

end Normal

end ContainerStack
