/-!
Named values in the order in which their names first appeared. An entry list
may name a value twice, as a document's text may; reading then finds the first
one. Putting a value keeps the place of a name that is already there, and
erasing keeps the order of what remains.
-/

namespace ContainerStack

abbrev Entries (α : Type u) := List (String × α)

namespace Entries

variable {α β ε : Type u}

def keys (es : Entries α) : List String :=
  es.map Prod.fst

def get? (key : String) : Entries α → Option α
  | [] => none
  | (k, a) :: rest => if k = key then some a else get? key rest

/-- Overwrites in place, or appends when the name is new. -/
def put (key : String) (value : α) : Entries α → Entries α
  | [] => [(key, value)]
  | (k, a) :: rest =>
    if k = key then (k, value) :: rest else (k, a) :: put key value rest

def erase (key : String) (es : Entries α) : Entries α :=
  es.filter fun e => e.1 ≠ key

/-- Applies a fallible function to every value, first to last, and keeps the
names; the first failure is the result. -/
def traverse (f : String → α → Except ε β) : Entries α → Except ε (Entries β)
  | [] => .ok []
  | (k, a) :: rest =>
    match f k a with
    | .error e => .error e
    | .ok b =>
      match traverse f rest with
      | .error e => .error e
      | .ok bs => .ok ((k, b) :: bs)

theorem keys_put (key : String) (value : α) (es : Entries α) :
    keys (put key value es) =
      if key ∈ keys es then keys es else keys es ++ [key] := by
  induction es with
  | nil => simp [put, keys]
  | cons e rest ih =>
    obtain ⟨k, a⟩ := e
    simp only [put]
    by_cases hk : k = key
    · subst hk
      simp [keys]
    · have hne : key ≠ k := fun h => hk h.symm
      simp only [keys, List.map_cons] at ih ⊢
      simp only [hk, ite_false, List.map_cons, ih, List.mem_cons, hne, false_or]
      by_cases hmem : key ∈ rest.map Prod.fst <;> simp [hmem]

theorem nodup_keys_put {es : Entries α} (hes : (keys es).Nodup)
    (key : String) (value : α) : (keys (put key value es)).Nodup := by
  rw [keys_put]
  split
  · exact hes
  · rename_i hkey
    exact List.nodup_append.mpr ⟨hes, by simp, by
      intro a ha b hb
      rw [List.mem_singleton.mp hb]
      exact fun h => hkey (h ▸ ha)⟩

theorem get?_put_self (key : String) (value : α) (es : Entries α) :
    get? key (put key value es) = some value := by
  induction es with
  | nil => simp [put, get?]
  | cons e rest ih =>
    obtain ⟨k, a⟩ := e
    by_cases hk : k = key <;> simp [put, get?, hk, ih]

theorem get?_put_of_ne {key other : String} (hne : other ≠ key) (value : α)
    (es : Entries α) : get? other (put key value es) = get? other es := by
  induction es with
  | nil => simp [put, get?, hne.symm]
  | cons e rest ih =>
    obtain ⟨k, a⟩ := e
    by_cases hk : k = key
    · subst hk
      simp [put, get?, hne.symm]
    · simp [put, get?, hk, ih]

theorem get?_eq_none_iff {key : String} {es : Entries α} :
    get? key es = none ↔ key ∉ keys es := by
  induction es with
  | nil => simp [get?, keys]
  | cons e rest ih =>
    obtain ⟨k, a⟩ := e
    simp only [keys, List.map_cons, List.mem_cons, not_or] at ih ⊢
    by_cases hk : k = key
    · simp [get?, hk]
    · have hne : ¬key = k := fun h => hk h.symm
      simp [get?, hk, hne, ih]

theorem keys_erase_subset (key : String) (es : Entries α) :
    (keys (erase key es)).Sublist (keys es) :=
  (List.filter_sublist (l := es)).map Prod.fst

theorem keys_traverse {f : String → α → Except ε β} {es : Entries α} {bs : Entries β}
    (h : traverse f es = .ok bs) : keys bs = keys es := by
  induction es generalizing bs with
  | nil =>
    simp only [traverse, Except.ok.injEq] at h
    subst h
    rfl
  | cons e rest ih =>
    obtain ⟨k, a⟩ := e
    simp only [traverse] at h
    split at h
    · contradiction
    · split at h
      · contradiction
      · rename_i bs' hbs
        simp only [Except.ok.injEq] at h
        subst h
        simpa [keys] using ih hbs

end Entries

end ContainerStack
