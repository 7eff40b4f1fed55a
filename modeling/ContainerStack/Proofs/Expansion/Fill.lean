import ContainerStack.Proofs.Table

/-!
Filling a table from others. Names come in the order in which they are first
met, over the table itself and then the others one after another, and the value of
a name is the first one that is met. So what stands earlier is never changed, and
a later value for the same name is not looked at.
-/

namespace ContainerStack

variable {α : Type}

theorem eraseDups_of_nodup {names : List String} (h : names.Nodup) : names.eraseDups = names := by
  induction names with
  | nil => rfl
  | cons name rest ih =>
    obtain ⟨hname, hrest⟩ := List.nodup_cons.mp h
    have hkept : rest.filter (fun other => !other == name) = rest := by
      rw [List.filter_eq_self]
      intro other hother
      have hne : other ≠ name := fun heq => hname (heq ▸ hother)
      simpa using hne
    rw [List.eraseDups_cons, hkept, ih hrest]

theorem eraseDups_append_of_nodup {names : List String} (h : names.Nodup) (others : List String) :
    (names ++ others).eraseDups = names ++ (others.filter (· ∉ names)).eraseDups := by
  have hremove : others.removeAll names = others.filter (· ∉ names) := by
    simp [List.removeAll]
  rw [List.eraseDups_append, eraseDups_of_nodup h, hremove]

namespace Table

theorem contains_eq_true_iff {t : Table α} {key : String} :
    t.contains key = true ↔ key ∈ t.keys := by
  rw [contains, Option.isSome_iff_ne_none, ne_eq, get?, Entries.get?_eq_none_iff, not_not, keys]

theorem keys_insertIfNew (t : Table α) (key : String) (value : α) :
    (t.insertIfNew key value).keys = if key ∈ t.keys then t.keys else t.keys ++ [key] := by
  rw [insertIfNew]
  by_cases hkey : key ∈ t.keys
  · rw [if_pos (contains_eq_true_iff.mpr hkey), if_pos hkey]
  · rw [if_neg (mt contains_eq_true_iff.mp hkey), keys_insert]

theorem get?_insertIfNew (t : Table α) (key other : String) (value : α) :
    (t.insertIfNew key value).get? other =
      (t.get? other).or (if key = other then some value else none) := by
  rw [insertIfNew]
  by_cases hkey : key ∈ t.keys
  · rw [if_pos (contains_eq_true_iff.mpr hkey)]
    by_cases heq : key = other
    · subst heq
      have hsome : (t.get? key).isSome := contains_eq_true_iff.mpr hkey
      rw [Option.or_of_isSome hsome]
    · rw [if_neg heq, Option.or_none]
  · rw [if_neg (mt contains_eq_true_iff.mp hkey)]
    by_cases heq : key = other
    · subst heq
      rw [get?_insert_self, get?, Entries.get?_of_notMem hkey, if_pos rfl, Option.none_or]
    · rw [get?_insert_of_ne (Ne.symm heq), if_neg heq, Option.or_none]

theorem entries_prefix_insertIfNew (t : Table α) (key : String) (value : α) :
    t.entries <+: (t.insertIfNew key value).entries := by
  rw [insertIfNew]
  split
  · exact List.prefix_rfl
  · rename_i hkey
    have hput : (t.insert key value).entries = t.entries ++ [(key, value)] :=
      Entries.put_of_notMem value (mt contains_eq_true_iff.mpr hkey)
    rw [hput]
    exact List.prefix_append _ _

/-- Filling a table only appends to it. -/
theorem entries_prefix_fillFrom (t later : Table α) :
    t.entries <+: (t.fillFrom later).entries := by
  rw [fillFrom]
  generalize later.entries = es
  induction es generalizing t with
  | nil => exact List.prefix_rfl
  | cons e rest ih => exact (t.entries_prefix_insertIfNew e.1 e.2).trans (ih _)

/-- When entries are added one after another, each name stands where it is first met. -/
theorem keys_foldl {add : Table α → String × α → Table α}
    (hadd : ∀ t e, (add t e).keys = if e.1 ∈ t.keys then t.keys else t.keys ++ [e.1])
    (es : Entries α) (t : Table α) :
    (es.foldl add t).keys = (t.keys ++ Entries.keys es).eraseDups := by
  induction es generalizing t with
  | nil =>
    have hkeys : Entries.keys ([] : Entries α) = [] := rfl
    rw [List.foldl_nil, hkeys, List.append_nil, eraseDups_of_nodup t.nodup_keys]
  | cons e rest ih =>
    have hkeys : Entries.keys (e :: rest) = e.1 :: Entries.keys rest := rfl
    rw [List.foldl_cons, ih, hadd, hkeys]
    split
    · rename_i hkey
      rw [eraseDups_append_of_nodup t.nodup_keys, eraseDups_append_of_nodup t.nodup_keys,
        List.filter_cons_of_neg (by simpa using hkey)]
    · rw [List.append_assoc, List.singleton_append]

theorem keys_foldl_insertIfNew (es : Entries α) (t : Table α) :
    (es.foldl (fun t e => t.insertIfNew e.1 e.2) t).keys =
      (t.keys ++ Entries.keys es).eraseDups :=
  keys_foldl (fun t e => t.keys_insertIfNew e.1 e.2) es t

theorem keys_ofEntries (es : Entries α) : (ofEntries es).keys = (Entries.keys es).eraseDups :=
  keys_foldl (fun t e => t.keys_insert e.1 e.2) es empty

theorem get?_foldl_insertIfNew (es : Entries α) (t : Table α) (key : String) :
    (es.foldl (fun t e => t.insertIfNew e.1 e.2) t).get? key =
      (t.get? key).or (Entries.get? key es) := by
  induction es generalizing t with
  | nil => simp [Entries.get?]
  | cons e rest ih =>
    rw [List.foldl_cons, ih, get?_insertIfNew, Option.or_assoc]
    by_cases hkey : e.1 = key <;> simp [Entries.get?, hkey]

theorem foldl_fillFrom (others : List (Table α)) (t : Table α) :
    others.foldl fillFrom t =
      (others.flatMap entries).foldl (fun t e => t.insertIfNew e.1 e.2) t := by
  rw [List.foldl_flatMap]
  rfl

/-- The names of a table filled from others: its own and then the new ones, in the
order of the others and of each of them. -/
theorem keys_foldl_fillFrom (others : List (Table α)) (t : Table α) :
    (others.foldl fillFrom t).keys =
      t.keys ++ ((others.flatMap keys).filter (· ∉ t.keys)).eraseDups := by
  have hkeys : Entries.keys (others.flatMap entries) = others.flatMap keys :=
    List.map_flatMap
  rw [foldl_fillFrom, keys_foldl_insertIfNew, hkeys, eraseDups_append_of_nodup t.nodup_keys]

/-- The value of a name is that of the table, or else of the first other one that has
the name. -/
theorem get?_foldl_fillFrom (others : List (Table α)) (t : Table α) (key : String) :
    (others.foldl fillFrom t).get? key = (t.get? key).or (others.findSome? (·.get? key)) := by
  have hget : Entries.get? key (others.flatMap entries) = others.findSome? (·.get? key) := by
    induction others with
    | nil => rfl
    | cons first rest ih =>
      rw [List.flatMap_cons, Entries.get?_append, ih, List.findSome?_cons, get?]
      cases Entries.get? key first.entries <;> rfl
  rw [foldl_fillFrom, get?_foldl_insertIfNew, hget]

end Table

end ContainerStack
