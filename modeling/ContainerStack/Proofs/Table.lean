import ContainerStack.Proofs.Outcome
import ContainerStack.Table
import Mathlib.Data.List.Permutation

/-!
Reading and rebuilding entry lists and tables. A name that is put twice keeps
its place, so a table that is collected from entries has their names and holds
only their values, and a table collected from its own entries is the table
itself. Going through a table succeeds on all entries or fails as the first that
does.
-/

namespace ContainerStack

namespace Entries

variable {α β ε : Type}

theorem get?_append (key : String) (es fs : Entries α) :
    get? key (es ++ fs) = (get? key es).or (get? key fs) := by
  induction es with
  | nil => rfl
  | cons e rest ih =>
    by_cases hkey : e.1 = key <;> simp [get?, hkey, ih]

theorem get?_of_notMem {key : String} {es : Entries α} (h : key ∉ keys es) :
    get? key es = none :=
  get?_eq_none_iff.mpr h

theorem mem_of_get? {key : String} {a : α} {es : Entries α} (h : get? key es = some a) :
    (key, a) ∈ es := by
  induction es with
  | nil => simp [get?] at h
  | cons e rest ih =>
    by_cases hkey : e.1 = key
    · simp only [get?, hkey, ite_true, Option.some.injEq] at h
      exact List.mem_cons.mpr (Or.inl (by rw [← hkey, ← h]))
    · simp only [get?, hkey, ite_false] at h
      exact List.mem_cons_of_mem _ (ih h)

theorem get?_eq_some_iff {key : String} {a : α} {es : Entries α} (hes : (keys es).Nodup) :
    get? key es = some a ↔ (key, a) ∈ es := by
  refine ⟨mem_of_get?, fun hmem => ?_⟩
  induction es with
  | nil => simp at hmem
  | cons e rest ih =>
    obtain ⟨hfirst, hrest⟩ := List.nodup_cons.mp hes
    rcases List.mem_cons.mp hmem with rfl | hmem
    · simp [get?]
    · have hne : e.1 ≠ key := fun hkey => hfirst (hkey ▸ List.mem_map_of_mem hmem)
      simp only [get?, hne, ite_false]
      exact ih hrest hmem

theorem keys_map (f : α → β) (es : Entries α) :
    keys (es.map fun e => (e.1, f e.2)) = keys es := by
  simp [keys]

theorem put_of_notMem {key : String} (value : α) {es : Entries α} (h : key ∉ keys es) :
    put key value es = es ++ [(key, value)] := by
  induction es with
  | nil => rfl
  | cons e rest ih =>
    simp only [keys, List.map_cons, List.mem_cons, not_or] at h
    simp only [put, Ne.symm h.1, ite_false, List.cons_append, ih h.2]

theorem put_put (key : String) (a b : α) (es : Entries α) :
    put key b (put key a es) = put key b es := by
  induction es with
  | nil => simp [put]
  | cons e rest ih =>
    by_cases hkey : e.1 = key
    · simp [put, hkey]
    · simp [put, hkey, ih]

theorem put_of_get? {key : String} {a : α} {es : Entries α} (h : get? key es = some a) :
    put key a es = es := by
  induction es with
  | nil => cases h
  | cons e rest ih =>
    obtain ⟨k, b⟩ := e
    by_cases hkey : k = key
    · simp only [get?, hkey, ite_true, Option.some.injEq] at h
      simp [put, hkey, h]
    · simp only [get?, hkey, ite_false] at h
      simp [put, hkey, ih h]

theorem erase_put (key : String) (a : α) (es : Entries α) :
    erase key (put key a es) = erase key es := by
  induction es with
  | nil => simp [put, erase]
  | cons e rest ih =>
    by_cases hkey : e.1 = key
    · simp [put, erase, hkey]
    · simpa [put, erase, hkey] using ih

theorem get?_erase_self (key : String) (es : Entries α) : get? key (erase key es) = none := by
  rw [get?_eq_none_iff]
  simp [keys, erase]

theorem erase_of_get?_eq_none {key : String} {es : Entries α} (h : get? key es = none) :
    erase key es = es := by
  have hkey : key ∉ keys es := get?_eq_none_iff.mp h
  refine List.filter_eq_self.mpr fun e he => ?_
  have hne : e.1 ≠ key := fun heq => hkey (heq ▸ List.mem_map_of_mem he)
  simpa using hne

theorem eq_or_mem_of_mem_put {key : String} {value : α} {es : Entries α} {e : String × α}
    (h : e ∈ put key value es) : e = (key, value) ∨ e ∈ es := by
  induction es with
  | nil => exact Or.inl (List.mem_singleton.mp h)
  | cons first rest ih =>
    simp only [put] at h
    split at h
    · rename_i hkey
      rcases List.mem_cons.mp h with heq | hmem
      · exact Or.inl (by rw [heq, hkey])
      · exact Or.inr (List.mem_cons_of_mem _ hmem)
    · rcases List.mem_cons.mp h with heq | hmem
      · exact Or.inr (heq ▸ List.mem_cons_self)
      · rcases ih hmem with heq | hrest
        · exact Or.inl heq
        · exact Or.inr (List.mem_cons_of_mem _ hrest)

/-- A traversal relates the entries of its argument and result one by one. -/
theorem traverse_eq_ok_iff {f : String → α → Except ε β} {es : Entries α} {bs : Entries β} :
    traverse f es = .ok bs ↔
      List.Forall₂ (fun e b => b.1 = e.1 ∧ f e.1 e.2 = .ok b.2) es bs := by
  induction es generalizing bs with
  | nil => simp [traverse, eq_comm]
  | cons e rest ih =>
    simp only [traverse, List.forall₂_cons_left_iff]
    split
    · rename_i failure hfirst
      simp [hfirst]
    · rename_i b hfirst
      split
      · rename_i failure hrest
        simp only [reduceCtorEq, false_iff, not_exists, not_and]
        intro b' others _ hothers
        rw [ih.mpr hothers] at hrest
        contradiction
      · rename_i others hrest
        simp only [Except.ok.injEq, hfirst]
        constructor
        · rintro rfl
          exact ⟨(e.1, b), others, ⟨rfl, rfl⟩, ih.mp hrest, rfl⟩
        · intro h
          obtain ⟨b', others', ⟨hkey, rfl⟩, hothers, rfl⟩ := h
          rw [ih.mpr hothers] at hrest
          simp only [Except.ok.injEq] at hrest
          rw [← hrest, ← hkey]

theorem get?_of_perm {es fs : Entries α} (h : es.Perm fs) (hes : (keys es).Nodup)
    (key : String) : get? key fs = get? key es := by
  have hfs : (keys fs).Nodup := (h.map Prod.fst).nodup_iff.mp hes
  refine Option.ext fun a => ?_
  rw [get?_eq_some_iff hes, get?_eq_some_iff hfs, h.mem_iff]

/-- Going through the entries in another order gives the results in that order. -/
theorem traverse_of_perm {f : String → α → Except ε β} {es fs : Entries α} {bs : Entries β}
    (h : es.Perm fs) (hbs : traverse f es = .ok bs) :
    ∃ cs, traverse f fs = .ok cs ∧ bs.Perm cs := by
  obtain ⟨cs, hcs, hperm⟩ := List.perm_comp_forall₂ h.symm (traverse_eq_ok_iff.mp hbs)
  exact ⟨cs, traverse_eq_ok_iff.mpr hcs, hperm.symm⟩

theorem traverse_congr {f g : String → α → Except ε β} {es : Entries α}
    (h : ∀ e ∈ es, f e.1 e.2 = g e.1 e.2) : traverse f es = traverse g es := by
  induction es with
  | nil => rfl
  | cons e rest ih =>
    obtain ⟨hfirst, hrest⟩ := List.forall_mem_cons.mp h
    simp only [traverse, hfirst, ih hrest]

/-- Going through entries fails with the first failure among them. -/
theorem failure?_traverse (f : String → α → Except ε β) (es : Entries α) :
    failure? (traverse f es) = es.findSome? fun e => failure? (f e.1 e.2) := by
  induction es with
  | nil => rfl
  | cons e rest ih =>
    cases hfirst : f e.1 e.2 with
    | error failure => simp [traverse, hfirst, failure?]
    | ok b =>
      have hnone : failure? (.ok b : Except ε β) = none := rfl
      rw [List.findSome?_cons, hfirst, hnone, ← ih, traverse, hfirst]
      cases traverse f rest <;> rfl

end Entries

namespace Table

variable {α β ε : Type}

@[simp]
theorem keys_empty : (empty : Table α).keys = [] :=
  rfl

@[simp]
theorem values_empty : (empty : Table α).values = [] :=
  rfl

theorem nodup_keys (t : Table α) : t.keys.Nodup :=
  t.nodup

theorem mem_keys_iff {t : Table α} {key : String} :
    key ∈ t.keys ↔ ∃ a, (key, a) ∈ t.entries := by
  simp [keys, Entries.keys]

theorem mem_values_iff {t : Table α} {a : α} : a ∈ t.values ↔ ∃ key, (key, a) ∈ t.entries := by
  simp [values]

theorem get?_eq_some_iff {t : Table α} {key : String} {a : α} :
    t.get? key = some a ↔ (key, a) ∈ t.entries :=
  Entries.get?_eq_some_iff t.nodup

/-- The values are what the names stand for, in order. -/
theorem values_eq_filterMap (t : Table α) : t.values = t.keys.filterMap t.get? := by
  have hget : ∀ e ∈ t.entries, t.get? e.1 = some e.2 := fun e he => get?_eq_some_iff.mpr he
  rw [keys, Entries.keys, List.filterMap_map, values, ← List.filterMap_eq_map]
  exact List.filterMap_congr fun e he => (hget e he).symm

def map (f : α → β) (t : Table α) : Table β where
  entries := t.entries.map fun e => (e.1, f e.2)
  nodup := by
    rw [Entries.keys_map]
    exact t.nodup

@[simp]
theorem keys_map (f : α → β) (t : Table α) : (t.map f).keys = t.keys :=
  Entries.keys_map f t.entries

@[simp]
theorem values_map (f : α → β) (t : Table α) : (t.map f).values = t.values.map f := by
  simp [values, map]

theorem mem_values_map {f : α → β} {t : Table α} {e : String × α} (he : e ∈ t.entries) :
    f e.2 ∈ (t.map f).values := by
  rw [values_map]
  exact List.mem_map_of_mem (mem_values_iff.mpr ⟨e.1, he⟩)

theorem map_eq_self_iff {f : α → α} {t : Table α} : t.map f = t ↔ ∀ a ∈ t.values, f a = a := by
  have hentries : (t.map f).entries = t.entries.map id ↔ ∀ e ∈ t.entries, (e.1, f e.2) = id e :=
    List.map_inj_left
  rw [List.map_id] at hentries
  rw [Table.ext_iff, hentries, values, List.forall_mem_map]
  simp [Prod.ext_iff]

theorem entries_eq_nil_of_isEmpty {t : Table α} (h : t.isEmpty = true) : t = .empty :=
  Table.ext (List.isEmpty_iff.mp h)

/-- Tables with the same entries and the names in the same order are the same. -/
theorem eq_of_perm {t u : Table α} (h : t.entries.Perm u.entries)
    (hkeys : t.keys = u.keys) : t = u := by
  refine Table.ext (List.ext_getElem h.length_eq fun i hi hi' => ?_)
  have hname : t.entries[i].1 = u.entries[i].1 := by
    have hmap : (t.entries.map Prod.fst)[i]? = (u.entries.map Prod.fst)[i]? :=
      congrArg (·[i]?) hkeys
    simpa [hi, hi'] using hmap
  have hmem : t.entries[i] ∈ u.entries := h.mem_iff.mp (List.getElem_mem hi)
  exact List.inj_on_of_nodup_map u.nodup hmem (List.getElem_mem hi') hname

/-- Inserting entries whose names are new appends them. -/
theorem entries_foldl_insert (t : Table α) (es : Entries α)
    (hes : (t.keys ++ Entries.keys es).Nodup) :
    (es.foldl (fun t e => t.insert e.1 e.2) t).entries = t.entries ++ es := by
  induction es generalizing t with
  | nil => simp
  | cons e rest ih =>
    have hnew : e.1 ∉ t.keys := fun hmem =>
      (List.nodup_append.mp hes).2.2 e.1 hmem e.1 (by simp [Entries.keys]) rfl
    have hentries : (t.insert e.1 e.2).entries = t.entries ++ [e] :=
      Entries.put_of_notMem e.2 hnew
    have hkeys : (t.insert e.1 e.2).keys = t.keys ++ [e.1] := by
      rw [keys_insert, if_neg hnew]
    rw [List.foldl_cons, ih, hentries, List.append_assoc, List.singleton_append]
    rw [hkeys, List.append_assoc]
    exact hes

theorem entries_ofEntries {es : Entries α} (hes : (Entries.keys es).Nodup) :
    (ofEntries es).entries = es :=
  entries_foldl_insert .empty es hes

theorem ofEntries_entries (t : Table α) : ofEntries t.entries = t :=
  Table.ext (entries_ofEntries t.nodup)

theorem eq_or_mem_of_mem_insert {t : Table α} {key : String} {value : α} {e : String × α}
    (h : e ∈ (t.insert key value).entries) : e = (key, value) ∨ e ∈ t.entries :=
  Entries.eq_or_mem_of_mem_put h

theorem mem_of_mem_ofEntries {es : Entries α} {e : String × α}
    (h : e ∈ (ofEntries es).entries) : e ∈ es := by
  have hfold : ∀ t : Table α, e ∈ (es.foldl (fun t e => t.insert e.1 e.2) t).entries →
      e ∈ t.entries ∨ e ∈ es := by
    clear h
    induction es with
    | nil => exact fun t h => Or.inl h
    | cons first rest ih =>
      intro t h
      rcases ih _ h with hmem | hmem
      · rcases eq_or_mem_of_mem_insert hmem with heq | hmem
        · exact Or.inr (heq ▸ List.mem_cons_self)
        · exact Or.inl hmem
      · exact Or.inr (List.mem_cons_of_mem _ hmem)
  rcases hfold .empty h with hmem | hmem
  · exact absurd hmem List.not_mem_nil
  · exact hmem

theorem mem_keys_ofEntries_iff {es : Entries α} {key : String} :
    key ∈ (ofEntries es).keys ↔ key ∈ Entries.keys es := by
  have hfold : ∀ t : Table α, key ∈ (es.foldl (fun t e => t.insert e.1 e.2) t).keys ↔
      key ∈ t.keys ∨ key ∈ Entries.keys es := by
    induction es with
    | nil => simp [Entries.keys]
    | cons first rest ih =>
      intro t
      rw [List.foldl_cons, ih, keys_insert]
      simp only [Entries.keys, List.map_cons, List.mem_cons]
      split
      · rename_i hfirst
        constructor
        · intro hparts
          rcases hparts with h | h
          · exact Or.inl h
          · exact Or.inr (Or.inr h)
        · intro hparts
          rcases hparts with h | rfl | h
          · exact Or.inl h
          · exact Or.inl hfirst
          · exact Or.inr h
      · simp only [List.mem_append, List.mem_singleton, or_assoc]
  exact (hfold .empty).trans (by simp [keys, empty, Entries.keys])

theorem traverse_eq_ok_iff {f : String → α → Except ε β} {t : Table α} {u : Table β} :
    t.traverse f = .ok u ↔ Entries.traverse f t.entries = .ok u.entries := by
  unfold traverse
  split
  · rename_i failure h
    simp [h]
  · rename_i bs h
    simp only [h, Except.ok.injEq]
    exact ⟨fun heq => by rw [← heq], fun heq => Table.ext heq⟩

/-- Results are the same when those on the values of the table are. -/
theorem traverse_congr {f g : String → α → Except ε β} {t : Table α}
    (h : ∀ e ∈ t.entries, f e.1 e.2 = g e.1 e.2) : t.traverse f = t.traverse g := by
  have hentries := Entries.traverse_congr h
  clear h
  unfold traverse
  split <;> split <;> simp_all

theorem keys_traverse {f : String → α → Except ε β} {t : Table α} {u : Table β}
    (h : t.traverse f = .ok u) : u.keys = t.keys :=
  Entries.keys_traverse (traverse_eq_ok_iff.mp h)

/-- Each name stands for the result on what it stood for before. -/
theorem get?_traverse {f : String → α → Except ε β} {t : Table α} {u : Table β} {key : String}
    {a : α} (h : t.traverse f = .ok u) (hget : t.get? key = some a) :
    ∃ b, f key a = .ok b ∧ u.get? key = some b := by
  have hentries := Entries.traverse_eq_ok_iff.mp (traverse_eq_ok_iff.mp h)
  obtain ⟨⟨_, b⟩, hmem, rfl, hb⟩ :=
    exists_mem_right_of_forall₂ hentries (key, a) (get?_eq_some_iff.mp hget)
  exact ⟨b, hb, get?_eq_some_iff.mpr hmem⟩

theorem failure?_traverse (f : String → α → Except ε β) (t : Table α) :
    failure? (t.traverse f) = t.entries.findSome? fun e => failure? (f e.1 e.2) := by
  rw [← Entries.failure?_traverse, traverse]
  split
  · rename_i h
    simp only [h, failure?]
  · rename_i h
    simp only [h, failure?]

end Table

end ContainerStack
