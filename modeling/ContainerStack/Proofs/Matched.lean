import ContainerStack.Proofs.Document.Upgraded
import ContainerStack.Proofs.Schema.Documents

/-!
Entries that match: the same names in the same order, with values that are related. What
is done to entries by name or one by one is done to both sides alike, so matching entries
stay so when a document is tidied, and they are read and checked alike when their values
are.
-/

namespace ContainerStack

namespace Entries

variable {α β γ ε : Type}

/-- The same names in the same order, with values that are related under each name. -/
def Matched (R : String → α → β → Prop) (es : Entries α) (fs : Entries β) : Prop :=
  List.Forall₂ (fun e f => f.1 = e.1 ∧ R e.1 e.2 f.2) es fs

namespace Matched

variable {R : String → α → β → Prop} {es : Entries α} {fs : Entries β}

theorem keys_eq (h : Matched R es fs) : keys fs = keys es := by
  induction h with
  | nil => rfl
  | cons hfirst _ ih => rw [keys, keys, List.map_cons, List.map_cons, hfirst.1, ← keys, ih, keys]

theorem get?_eq_none (h : Matched R es fs) {key : String} (hnone : Entries.get? key es = none) :
    Entries.get? key fs = none := by
  rw [get?_eq_none_iff] at hnone ⊢
  exact h.keys_eq ▸ hnone

/-- What stands under a name has a related value under it on the other side. -/
theorem exists_get? (h : Matched R es fs) {key : String} {a : α}
    (ha : Entries.get? key es = some a) : ∃ b, Entries.get? key fs = some b ∧ R key a b := by
  induction h with
  | nil => cases ha
  | @cons e f _ _ hfirst _ ih =>
    obtain ⟨hname, hvalue⟩ := hfirst
    by_cases hkey : e.1 = key
    · simp only [Entries.get?, hkey, ite_true, Option.some.injEq] at ha
      exact ⟨f.2, by simp only [Entries.get?, hname, hkey, ite_true], hkey ▸ ha ▸ hvalue⟩
    · simp only [Entries.get?, hname, hkey, ite_false] at ha ⊢
      exact ih ha

theorem get?_eq {R : String → α → α → Prop} {es fs : Entries α} {key : String}
    (h : Matched R es fs) (heq : ∀ a b, R key a b → a = b) :
    Entries.get? key fs = Entries.get? key es := by
  cases ha : Entries.get? key es with
  | none => exact h.get?_eq_none ha
  | some a =>
    obtain ⟨b, hb, hab⟩ := h.exists_get? ha
    rw [hb, heq a b hab]

theorem mono {S : String → α → β → Prop} (h : Matched R es fs)
    (hRS : ∀ key a b, R key a b → S key a b) : Matched S es fs :=
  h.imp fun _ _ hparts => ⟨hparts.1, hRS _ _ _ hparts.2⟩

theorem refl {R : String → α → α → Prop} (hR : ∀ key a, R key a a) (es : Entries α) :
    Matched R es es :=
  List.forall₂_same.mpr fun e _ => ⟨rfl, hR e.1 e.2⟩

theorem symm {R : String → α → α → Prop} {es fs : Entries α} (h : Matched R es fs)
    (hR : ∀ key a b, R key a b → R key b a) : Matched R fs es := by
  refine List.Forall₂.flip (h.imp fun e f hparts => ?_)
  obtain ⟨hname, hvalue⟩ := hparts
  exact ⟨hname.symm, hname ▸ hR _ _ _ hvalue⟩

theorem eq {R : String → α → α → Prop} {es fs : Entries α} (h : Matched R es fs)
    (heq : ∀ key a b, R key a b → a = b) : es = fs :=
  List.forall₂_eq_eq_eq ▸ h.imp fun _ _ hparts =>
    Prod.ext hparts.1.symm (heq _ _ _ hparts.2)

/-- What holds of the entries on the one side holds of those they match. -/
theorem forall_mem_iff {P : String → α → Prop} {Q : String → β → Prop} (h : Matched R es fs)
    (hPQ : ∀ key a b, R key a b → (P key a ↔ Q key b)) :
    (∀ e ∈ es, P e.1 e.2) ↔ ∀ f ∈ fs, Q f.1 f.2 := by
  induction h with
  | nil => simp
  | cons hfirst _ ih =>
    obtain ⟨hname, hvalue⟩ := hfirst
    rw [List.forall_mem_cons, List.forall_mem_cons, ih, hname, hPQ _ _ _ hvalue]

/-- What holds of the values of a table is carried over to those they match. -/
theorem forall_values {P : α → Prop} {Q : β → Prop} {t : Table α} {u : Table β}
    (h : Matched R t.entries u.entries) (hPQ : ∀ key a b, R key a b → P a → Q b)
    (hP : ∀ a ∈ t.values, P a) : ∀ b ∈ u.values, Q b := by
  intro b hb
  obtain ⟨key, hmem⟩ := Table.mem_values_iff.mp hb
  obtain ⟨e, he, -, hvalue⟩ := exists_mem_left_of_forall₂ h _ hmem
  exact hPQ e.1 e.2 b hvalue (hP e.2 (Table.mem_values_iff.mpr ⟨e.1, he⟩))

theorem filter (h : Matched R es fs) (p : String → Bool) :
    Matched (fun key a b => p key = true ∧ R key a b) (es.filter fun e => p e.1)
      (fs.filter fun f => p f.1) := by
  induction h with
  | nil => exact .nil
  | cons hfirst _ ih =>
    obtain ⟨hname, hvalue⟩ := hfirst
    rw [List.filter_cons, List.filter_cons, hname]
    split
    · rename_i hp
      exact .cons ⟨hname, hp, hvalue⟩ ih
    · exact ih

theorem put {key : String} {a : α} {b : β} (h : Matched R es fs) (hvalue : R key a b) :
    Matched R (Entries.put key a es) (Entries.put key b fs) := by
  induction h with
  | nil => exact .cons ⟨rfl, hvalue⟩ .nil
  | @cons e f _ _ hfirst hrest ih =>
    rw [Entries.put, Entries.put, hfirst.1]
    split
    · rename_i hkey
      exact .cons ⟨rfl, hkey ▸ hvalue⟩ hrest
    · exact .cons ⟨rfl, hfirst.2⟩ ih

theorem alter {R : String → Json → Json → Prop} {ms ns : Entries Json} {key : String}
    {f : Json → Json} (h : Matched R ms ns) (hf : ∀ x y, R key x y → R key (f x) (f y)) :
    Matched R (Document.alter key f ms) (Document.alter key f ns) := by
  refine List.forall₂_map_left_iff.mpr (List.forall₂_map_right_iff.mpr (h.imp fun m n hparts => ?_))
  obtain ⟨hname, hvalue⟩ := hparts
  rw [hname]
  split
  · rename_i hkey
    exact ⟨rfl, hkey ▸ hf _ _ (hkey ▸ hvalue)⟩
  · exact ⟨hname, hvalue⟩

/-- Versioned documents that match still match when they are tidied, if filling in what is
null keeps values related. -/
theorem tidyMembers {R : String → Json → Json → Prop} {ms ns : Entries Json} {v : FormatVersion}
    (h : Matched R ms ns) (hv : v ≠ .v1) (hversion : ∀ x, R "version" x x)
    (hfill : ∀ key x y, R key x y → R key (Document.fillSection x) (Document.fillSection y)) :
    Matched R (Document.tidyMembers v ms) (Document.tidyMembers v ns) := by
  rw [Document.tidyMembers_versioned hv, Document.tidyMembers_versioned hv]
  exact ((h.put (hversion _)).alter (hfill "networks")).alter (hfill "volumes")

theorem traverse_eq {f : String → α → Except ε γ} {g : String → β → Except ε γ}
    (h : Matched R es fs) (hfg : ∀ key a b, R key a b → f key a = g key b) :
    Entries.traverse f es = Entries.traverse g fs := by
  induction h with
  | nil => rfl
  | @cons e f _ _ hfirst _ ih =>
    obtain ⟨hname, hvalue⟩ := hfirst
    rw [Entries.traverse, Entries.traverse, hname, hfg _ _ _ hvalue, ih]

end Matched

end Entries

namespace Schema

open Entries (Matched)

variable {R : String → Json → Json → Prop} {ms ns : Entries Json}

/-- Matching members are valid alike when each is under the schema for its name. -/
theorem membersValid_iff_of_matched {members : Entries Schema} (h : Matched R ms ns)
    (hR : ∀ key each x y, R key x y → Entries.get? key members = some each →
      (each.Valid x ↔ each.Valid y)) : MembersValid members ms ↔ MembersValid members ns := by
  have hmember : ∀ key x y, R key x y →
      ((∃ each, Entries.get? key members = some each ∧ each.Valid x) ↔
        ∃ each, Entries.get? key members = some each ∧ each.Valid y) :=
    fun key x y hxy => exists_congr fun each => and_congr_right fun heach =>
      hR key each x y hxy heach
  exact h.forall_mem_iff hmember

theorem valid_sectionOf_iff_of_matched {entity : Schema} {closed : Bool} (h : Matched R ms ns)
    (hR : ∀ key x y, R key x y → (entity.Valid x ↔ entity.Valid y)) :
    (sectionOf entity closed).Valid (.obj ms) ↔ (sectionOf entity closed).Valid (.obj ns) := by
  have hentry : ∀ key x y, R key x y →
      (((KeyPattern.entityName.holds key = true → entity.Valid x) ∧
          (closed = true → KeyPattern.entityName.holds key = true)) ↔
        (KeyPattern.entityName.holds key = true → entity.Valid y) ∧
          (closed = true → KeyPattern.entityName.holds key = true)) :=
    fun key x y hxy => and_congr_left fun _ => imp_congr_right fun _ => hR key x y hxy
  rw [valid_sectionOf_obj_iff, valid_sectionOf_obj_iff]
  exact h.forall_mem_iff hentry

/-- Matching documents with the same version are valid alike when their sections are. -/
theorem valid_versionedDocument_iff_of_matched {tag : String} {s n v : Schema}
    (h : Matched R ms ns) (hversion : ∀ x y, R "version" x y → x = y)
    (hR : ∀ key each x y, R key x y → Entries.get? key (versionedMembers tag s n v) = some each →
      (each.Valid x ↔ each.Valid y)) :
    (versionedDocument tag s n v).Valid (.obj ms) ↔
      (versionedDocument tag s n v).Valid (.obj ns) := by
  rw [valid_versionedDocument_iff, valid_versionedDocument_iff, h.get?_eq hversion,
    membersValid_iff_of_matched h hR]

end Schema

end ContainerStack
