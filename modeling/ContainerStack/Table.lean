import ContainerStack.Entries

/-!
Tables: entries whose names are distinct, in the order of first insertion. The
distinctness is part of the type, so every table that a function returns can be
read by name or in order without ambiguity. Collecting entries into a table
keeps the first place and the last value of each name.
-/

namespace ContainerStack

/-- Values under distinct names, ordered by first insertion. -/
structure Table (α : Type u) where
  entries : Entries α
  nodup : (Entries.keys entries).Nodup

namespace Table

variable {α β ε : Type u}

def empty : Table α :=
  ⟨[], List.nodup_nil⟩

instance : Inhabited (Table α) :=
  ⟨empty⟩

instance : EmptyCollection (Table α) :=
  ⟨empty⟩

instance [DecidableEq α] : DecidableEq (Table α) := fun s t =>
  match s, t with
  | ⟨es, _⟩, ⟨fs, _⟩ =>
    if h : es = fs then isTrue (by subst h; rfl)
    else isFalse fun heq => h (congrArg Table.entries heq)

@[ext]
theorem ext {s t : Table α} (h : s.entries = t.entries) : s = t := by
  cases s
  cases t
  subst h
  rfl

def keys (t : Table α) : List String :=
  Entries.keys t.entries

def values (t : Table α) : List α :=
  t.entries.map Prod.snd

def get? (t : Table α) (key : String) : Option α :=
  Entries.get? key t.entries

def contains (t : Table α) (key : String) : Bool :=
  (t.get? key).isSome

def isEmpty (t : Table α) : Bool :=
  t.entries.isEmpty

def size (t : Table α) : Nat :=
  t.entries.length

/-- Overwrites in place, or appends when the name is new. -/
def insert (t : Table α) (key : String) (value : α) : Table α :=
  ⟨Entries.put key value t.entries, Entries.nodup_keys_put t.nodup key value⟩

/-- Appends when the name is new and leaves a defined name alone. -/
def insertIfNew (t : Table α) (key : String) (value : α) : Table α :=
  if t.contains key then t else t.insert key value

/-- Later values overwrite earlier ones, in the place of the first. -/
def ofEntries (es : Entries α) : Table α :=
  es.foldl (fun t e => t.insert e.1 e.2) empty

/-- Adds the entries of `later` that `t` does not define, in their order. -/
def fillFrom (t later : Table α) : Table α :=
  later.entries.foldl (fun acc e => acc.insertIfNew e.1 e.2) t

/-- Applies a fallible function to every value in order, keeping the names. -/
def traverse (f : String → α → Except ε β) (t : Table α) : Except ε (Table β) :=
  match h : Entries.traverse f t.entries with
  | .error e => .error e
  | .ok bs => .ok ⟨bs, Entries.keys_traverse h ▸ t.nodup⟩

/-- Equality up to the order of entries, values compared by `same`. -/
def sameBy (same : α → α → Bool) (s t : Table α) : Bool :=
  s.size == t.size && s.entries.all fun e =>
    match t.get? e.1 with
    | some b => same e.2 b
    | none => false

@[simp]
theorem get?_insert_self (t : Table α) (key : String) (value : α) :
    (t.insert key value).get? key = some value :=
  Entries.get?_put_self key value t.entries

theorem get?_insert_of_ne {key other : String} (hne : other ≠ key) (t : Table α)
    (value : α) : (t.insert key value).get? other = t.get? other :=
  Entries.get?_put_of_ne hne value t.entries

theorem keys_insert (t : Table α) (key : String) (value : α) :
    (t.insert key value).keys = if key ∈ t.keys then t.keys else t.keys ++ [key] :=
  Entries.keys_put key value t.entries

end Table

end ContainerStack
