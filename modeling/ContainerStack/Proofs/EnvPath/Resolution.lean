import ContainerStack.Proofs.EnvPath
import Mathlib.Data.List.Count
import Mathlib.Logic.Relation

/-!
Lexical resolution. Segments are resolved by leaving out those that stay where they are
and by striking out a name together with the `..` that takes it back, in any order; the
order does not matter, and reading an env file path resolves exactly in this way. A text
stands for a path when no `..` on the way has nothing to take back and a name is left, so
two texts stand for the same path exactly when they resolve to the same names.
-/

namespace ContainerStack.EnvPath

open Relation (ReflTransGen)
open Text

/-- The segment that takes back the name before it. -/
def parent : List Char :=
  ['.', '.']

/-- What stands between the slashes and backslashes of a text. -/
def segmentsOf (raw : String) : List (List Char) :=
  raw.toList.splitOnP isSeparator

/-- One simplification of a list of segments. -/
inductive Simplifies : List (List Char) → List (List Char) → Prop
  | stay {segment : List Char} (before after : List (List Char))
      (h : segment = [] ∨ segment = ['.']) :
      Simplifies (before ++ segment :: after) (before ++ after)
  | back {name : List Char} (before after : List (List Char)) (h : IsName name) :
      Simplifies (before ++ name :: parent :: after) (before ++ after)

/-- Segments simplify to names alone. -/
def ResolvesTo (segments names : List (List Char)) : Prop :=
  ReflTransGen Simplifies segments names ∧ ∀ s ∈ names, IsName s

theorem IsName.ne_parent {segment : List Char} (h : IsName segment) : segment ≠ parent :=
  h.2.2

section Resolve

variable {segment : List Char} {segments names done : List (List Char)}

theorem resolve_stay (h : segment = [] ∨ segment = ['.']) (done rest : List (List Char)) :
    resolve done (segment :: rest) = resolve done rest := by
  simp only [resolve, if_pos h]

theorem resolve_name (h : IsName segment) (done rest : List (List Char)) :
    resolve done (segment :: rest) = resolve (segment :: done) rest := by
  obtain ⟨hnil, hdot, hup⟩ := h
  simp only [resolve, hnil, hdot, hup, or_self, ite_false]

theorem resolve_parent (name : List Char) (done rest : List (List Char)) :
    resolve (name :: done) (parent :: rest) = resolve done rest :=
  rfl

theorem resolve_parent_nil (rest : List (List Char)) : resolve [] (parent :: rest) = none :=
  rfl

/-- A segment stays, leads up or is a name. -/
theorem stay_or_parent_or_isName (segment : List Char) :
    (segment = [] ∨ segment = ['.']) ∨ segment = parent ∨ IsName segment := by
  unfold IsName parent
  tauto

/-- What comes before segments does not tell apart what resolves alike. -/
theorem resolve_append_congr {xs ys : List (List Char)}
    (h : ∀ done, resolve done xs = resolve done ys) (before done : List (List Char)) :
    resolve done (before ++ xs) = resolve done (before ++ ys) := by
  induction before generalizing done with
  | nil => exact h done
  | cons segment rest ih =>
    rw [List.cons_append, List.cons_append]
    rcases stay_or_parent_or_isName segment with hstay | rfl | hname
    · rw [resolve_stay hstay, resolve_stay hstay, ih]
    · cases done with
      | nil => rw [resolve_parent_nil, resolve_parent_nil]
      | cons name above => rw [resolve_parent, resolve_parent, ih]
    · rw [resolve_name hname, resolve_name hname, ih]

/-- Simplifying does not change what segments resolve to. -/
theorem Simplifies.resolve_eq {xs ys : List (List Char)} (h : Simplifies xs ys)
    (done : List (List Char)) : resolve done xs = resolve done ys := by
  cases h with
  | stay before after h => exact resolve_append_congr (fun done => resolve_stay h done after) _ _
  | back before after h =>
    refine resolve_append_congr (fun done => ?_) _ _
    rw [resolve_name h, resolve_parent]

/-- The segments held back and those to come simplify to the result. -/
theorem simplifies_of_resolve (hdone : ∀ s ∈ done, IsName s)
    (h : resolve done segments = some names) : ResolvesTo (done.reverse ++ segments) names := by
  induction segments generalizing done with
  | nil =>
    rw [resolve, Option.some.injEq] at h
    subst h
    rw [List.append_nil]
    exact ⟨.refl, fun s hs => hdone s (List.mem_reverse.mp hs)⟩
  | cons segment rest ih =>
    rcases stay_or_parent_or_isName segment with hstay | rfl | hname
    · rw [resolve_stay hstay] at h
      obtain ⟨hsteps, hnames⟩ := ih hdone h
      exact ⟨.head (.stay _ _ hstay) hsteps, hnames⟩
    · cases done with
      | nil =>
        rw [resolve_parent_nil] at h
        contradiction
      | cons name above =>
        obtain ⟨hname, habove⟩ := List.forall_mem_cons.mp hdone
        rw [resolve_parent] at h
        obtain ⟨hsteps, hnames⟩ := ih habove h
        rw [List.reverse_cons, List.append_assoc, List.singleton_append]
        exact ⟨.head (.back _ _ hname) hsteps, hnames⟩
    · rw [resolve_name hname] at h
      have hresolves := ih (List.forall_mem_cons.mpr ⟨hname, hdone⟩) h
      rwa [List.reverse_cons, List.append_assoc, List.singleton_append] at hresolves

/-- Resolving with the names held back is resolving in any order. -/
theorem resolve_eq_some_iff : resolve [] segments = some names ↔ ResolvesTo segments names := by
  refine ⟨simplifies_of_resolve (by simp), fun h => ?_⟩
  obtain ⟨hsteps, hnames⟩ := h
  induction hsteps using ReflTransGen.head_induction_on with
  | refl => exact resolve_of_names hnames []
  | head hstep _ ih => rw [hstep.resolve_eq, ih]

theorem ResolvesTo.unique {names' : List (List Char)} (h : ResolvesTo segments names)
    (h' : ResolvesTo segments names') : names = names' := by
  rw [← resolve_eq_some_iff] at h h'
  exact Option.some.inj (h.symm.trans h')

end Resolve

section Confinement

variable {segments names done : List (List Char)}

/-- The segments that lead somewhere. -/
def moves (segments : List (List Char)) : List (List Char) :=
  segments.filter fun s => s ≠ [] ∧ s ≠ ['.']

/-- How often names are taken back. -/
def ups (moves : List (List Char)) : Nat :=
  moves.count parent

/-- How many names are given. -/
def downs (moves : List (List Char)) : Nat :=
  moves.countP (· ≠ parent)

@[simp]
theorem ups_parent_cons (way : List (List Char)) : ups (parent :: way) = ups way + 1 :=
  List.count_cons_self

@[simp]
theorem downs_parent_cons (way : List (List Char)) : downs (parent :: way) = downs way :=
  List.countP_cons_of_neg (by simp)

theorem ups_name_cons {name : List Char} (h : IsName name) (way : List (List Char)) :
    ups (name :: way) = ups way :=
  List.count_cons_of_ne h.ne_parent

theorem downs_name_cons {name : List Char} (h : IsName name) (way : List (List Char)) :
    downs (name :: way) = downs way + 1 :=
  List.countP_cons_of_pos (by simpa using h.ne_parent)

/-- Whenever the way has just led up it is still inside, and it ends below where it began. -/
structure Confined (moves : List (List Char)) : Prop where
  inside : ∀ way, way ++ [parent] <+: moves → ups (way ++ [parent]) ≤ downs (way ++ [parent])
  below : ups moves < downs moves

theorem resolve_moves (done segments : List (List Char)) :
    resolve done (moves segments) = resolve done segments := by
  induction segments generalizing done with
  | nil => rfl
  | cons segment rest ih =>
    by_cases hstay : segment = [] ∨ segment = ['.']
    · have hmoves : moves (segment :: rest) = moves rest :=
        List.filter_cons_of_neg (by simpa [or_iff_not_imp_left] using hstay)
      rw [hmoves, resolve_stay hstay, ih]
    · have hmoves : moves (segment :: rest) = segment :: moves rest :=
        List.filter_cons_of_pos (by simpa using hstay)
      rw [hmoves]
      exact resolve_append_congr ih [segment] done

/-- Resolving moves fails only where a way leads up from the names held back. -/
theorem exists_resolve_iff (hmoves : ∀ s ∈ segments, s ≠ [] ∧ s ≠ ['.']) :
    (∃ names, resolve done segments = some names) ↔
      ∀ way, way ++ [parent] <+: segments →
        ups (way ++ [parent]) ≤ done.length + downs (way ++ [parent]) := by
  induction segments generalizing done with
  | nil => simp [resolve]
  | cons segment rest ih =>
    obtain ⟨hsegment, hrest⟩ := List.forall_mem_cons.mp hmoves
    -- A way that leads up begins with the first segment, and is that segment alone only
    -- if it leads up itself.
    have hways : ∀ P : List (List Char) → Prop,
        (∀ way, way ++ [parent] <+: segment :: rest → P (way ++ [parent])) ↔
          (segment = parent → P [parent]) ∧
            ∀ way, way ++ [parent] <+: rest → P (segment :: (way ++ [parent])) := by
      intro P
      constructor
      · intro h
        refine ⟨fun heq => h [] (by simp [heq]), fun way hway => h (segment :: way) ?_⟩
        exact List.cons_prefix_cons.mpr ⟨rfl, hway⟩
      · rintro ⟨hfirst, hlater⟩ (_ | ⟨head, way⟩) hway
        · obtain ⟨heq, -⟩ := List.cons_prefix_cons.mp hway
          exact hfirst heq.symm
        · rw [List.cons_append] at hway ⊢
          obtain ⟨rfl, hlonger⟩ := List.cons_prefix_cons.mp hway
          exact hlater way hlonger
    rw [hways fun way => ups way ≤ done.length + downs way]
    rcases stay_or_parent_or_isName segment with hstay | rfl | hname
    · tauto
    · cases done with
      | nil => simp [resolve_parent_nil, ups, downs]
      | cons name above =>
        rw [resolve_parent, ih hrest, List.length_cons]
        simp only [ups_parent_cons, downs_parent_cons, forall_const]
        rw [and_iff_right (by simp [ups, downs])]
        exact forall₂_congr fun way _ => by omega
    · rw [resolve_name hname, ih hrest, List.length_cons]
      simp only [ups_name_cons hname, downs_name_cons hname]
      rw [and_iff_right fun heq => absurd heq hname.ne_parent]
      exact forall₂_congr fun way _ => by omega

/-- A way that stays inside leads as far down as it gives more names than it takes back. -/
theorem length_of_resolve (hmoves : ∀ s ∈ segments, s ≠ [] ∧ s ≠ ['.'])
    (h : resolve done segments = some names) :
    names.length + ups segments = done.length + downs segments := by
  induction segments generalizing done with
  | nil =>
    rw [resolve, Option.some.injEq] at h
    simp [← h, ups, downs]
  | cons segment rest ih =>
    obtain ⟨hsegment, hrest⟩ := List.forall_mem_cons.mp hmoves
    rcases stay_or_parent_or_isName segment with hstay | rfl | hname
    · tauto
    · cases done with
      | nil =>
        rw [resolve_parent_nil] at h
        contradiction
      | cons name above =>
        rw [resolve_parent] at h
        have hlength := ih hrest h
        rw [ups_parent_cons, downs_parent_cons, List.length_cons]
        omega
    · rw [resolve_name hname] at h
      have hlength := ih hrest h
      rw [List.length_cons] at hlength
      rw [ups_name_cons hname, downs_name_cons hname]
      omega

theorem moves_proper (segments : List (List Char)) :
    ∀ s ∈ moves segments, s ≠ [] ∧ s ≠ ['.'] := by
  intro s hs
  simpa using (List.mem_filter.mp hs).2

/-- Segments resolve to at least one name exactly when the way stays inside and ends below
where it began. -/
theorem exists_resolve_ne_nil_iff :
    (∃ names, resolve [] segments = some names ∧ names ≠ []) ↔ Confined (moves segments) := by
  have hmoves := moves_proper segments
  have hinside : (∃ names, resolve [] (moves segments) = some names) ↔ _ :=
    exists_resolve_iff hmoves
  have hlength : ∀ names, resolve [] (moves segments) = some names →
      (names ≠ [] ↔ ups (moves segments) < downs (moves segments)) := by
    intro names hnames
    have hlength := length_of_resolve hmoves hnames
    rw [← List.length_pos_iff, List.length_nil] at *
    omega
  simp only [List.length_nil, Nat.zero_add] at hinside
  constructor
  · intro h
    obtain ⟨names, hnames, hne⟩ := h
    rw [← resolve_moves] at hnames
    exact ⟨hinside.mp ⟨names, hnames⟩, (hlength names hnames).mp hne⟩
  · intro h
    obtain ⟨names, hnames⟩ := hinside.mpr h.inside
    exact ⟨names, resolve_moves [] segments ▸ hnames, (hlength names hnames).mpr h.below⟩

end Confinement

/-- A text that begins at a root, in a home directory or with the letter of a drive. -/
def Rooted (raw : List Char) : Prop :=
  ['/'] <+: raw ∨ ['\\'] <+: raw ∨ ['~'] <+: raw ∨
    ∃ drive, [drive, ':'] <+: raw ∧ (('A' ≤ drive ∧ drive ≤ 'Z') ∨ ('a' ≤ drive ∧ drive ≤ 'z'))

theorem isAbsolute_iff {raw : List Char} : isAbsolute raw = true ↔ Rooted raw := by
  cases raw with
  | nil => simp [isAbsolute, Rooted]
  | cons c rest =>
    have hcolon : [':'] <+: rest ↔ rest.head? = some ':' := by
      cases rest <;> simp [List.cons_prefix_cons, eq_comm]
    simp only [isAbsolute, isSeparator, isAsciiLetter, Bool.or_eq_true, Bool.and_eq_true,
      beq_iff_eq, decide_eq_true_eq, Rooted, List.cons_prefix_cons, List.nil_prefix, and_true,
      hcolon, and_assoc, eq_comm (b := c), exists_eq_left']
    tauto

theorem isWildcard_eq_false_iff {c : Char} :
    isWildcard c = false ↔ c ∉ ['*', '?', '[', ']', '{', '}'] := by
  simp [isWildcard, and_assoc]

/-- What a text must be to stand for a path. -/
structure Admissible (raw : String) : Prop where
  visible : ∃ c ∈ raw.toList, isBlank c = false
  plain : ∀ c ∈ raw.toList, c ∉ ['*', '?', '[', ']', '{', '}']
  relative : ¬Rooted raw.toList
  confined : Confined (moves (segmentsOf raw))

/-- A text is read as what it resolves to, if it is admissible. -/
theorem parse_eq_ok_iff_resolvesTo {raw : String} {p : EnvPath} :
    parse raw = .ok p ↔ Admissible raw ∧ ResolvesTo (segmentsOf raw) p.segments := by
  have hvisible : trimChars raw.toList ≠ [] ↔ ∃ c ∈ raw.toList, isBlank c = false := by
    simp [trimChars_eq_nil_iff]
  have hrelative : isAbsolute raw.toList = false ↔ ¬Rooted raw.toList := by
    rw [← isAbsolute_iff, Bool.not_eq_true]
  have hsegments : pieces isSeparator raw.toList = segmentsOf raw := pieces_eq_splitOnP _ _
  rw [parse_eq_ok_iff, hvisible, hrelative, hsegments, resolve_eq_some_iff]
  simp only [isWildcard_eq_false_iff]
  constructor
  · intro h
    obtain ⟨hvisible, hplain, hrelative, hresolves⟩ := h
    refine ⟨⟨hvisible, hplain, hrelative, ?_⟩, hresolves⟩
    exact exists_resolve_ne_nil_iff.mp ⟨_, resolve_eq_some_iff.mpr hresolves, p.ne_nil⟩
  · intro h
    obtain ⟨hraw, hresolves⟩ := h
    exact ⟨hraw.visible, hraw.plain, hraw.relative, hresolves⟩

theorem exists_parse_iff {raw : String} : (∃ p, parse raw = .ok p) ↔ Admissible raw := by
  refine ⟨fun ⟨p, hp⟩ => (parse_eq_ok_iff_resolvesTo.mp hp).1, fun h => ?_⟩
  obtain ⟨names, hnames, hne⟩ := exists_resolve_ne_nil_iff.mpr h.confined
  have hclean : ∀ s ∈ segmentsOf raw, ∀ c ∈ s, isSeparator c = false ∧ isWildcard c = false := by
    intro s hs c hc
    rw [segmentsOf, ← pieces_eq_splitOnP] at hs
    exact ⟨isSep_of_mem_pieces hs c hc,
      isWildcard_eq_false_iff.mpr (h.plain c (mem_of_mem_pieces hs c hc))⟩
  let p : EnvPath := ⟨names, hne, proper_of_mem_resolve (by simp) hclean hnames⟩
  exact ⟨p, parse_eq_ok_iff_resolvesTo.mpr ⟨h, resolve_eq_some_iff.mp hnames⟩⟩

theorem splitOnP_text (p : EnvPath) : p.text.toList.splitOnP (· == '/') = p.segments := by
  rw [← pieces_eq_splitOnP, pieces_slash_text]

theorem backslash_notMem_text (p : EnvPath) : '\\' ∉ p.text.toList := by
  intro hmem
  rcases isSep_or_mem_pieces (· == '/') hmem with hslash | ⟨s, hs, hc⟩
  · simp at hslash
  · rw [pieces_slash_text] at hs
    have hsep := ((p.proper s hs).2.2.2 _ hc).1
    simp [isSeparator] at hsep

/-- Reading a path is lexical resolution inside the project: it succeeds exactly on
admissible texts, its result is what the text resolves to, and two texts give the same path
exactly when they resolve to the same names. -/
theorem parse_resolves_lexically :
    (∀ raw, (∃ p, parse raw = .ok p) ↔ Admissible raw) ∧
    (∀ raw p, parse raw = .ok p →
      ResolvesTo (segmentsOf raw) (p.text.toList.splitOnP (· == '/')) ∧
      (∀ s ∈ p.text.toList.splitOnP (· == '/'), s ≠ [] ∧ s ≠ ['.'] ∧ s ≠ parent) ∧
      '\\' ∉ p.text.toList ∧ ∀ c ∈ p.text.toList, c ∉ ['*', '?', '[', ']', '{', '}']) ∧
    ∀ raw other p q, parse raw = .ok p → parse other = .ok q →
      (p.text = q.text ↔
        ∃ names, ResolvesTo (segmentsOf raw) names ∧ ResolvesTo (segmentsOf other) names) := by
  refine ⟨fun raw => exists_parse_iff, fun raw p h => ?_, fun raw other p q hp hq => ?_⟩
  · obtain ⟨-, hresolves⟩ := parse_eq_ok_iff_resolvesTo.mp h
    rw [splitOnP_text]
    exact ⟨hresolves, hresolves.2, backslash_notMem_text p,
      fun c hc => isWildcard_eq_false_iff.mp (isWildcard_text p c hc)⟩
  · obtain ⟨-, hp⟩ := parse_eq_ok_iff_resolvesTo.mp hp
    obtain ⟨-, hq⟩ := parse_eq_ok_iff_resolvesTo.mp hq
    constructor
    · intro h
      exact ⟨p.segments, hp, text_injective h ▸ hq⟩
    · intro h
      obtain ⟨names, hraw, hother⟩ := h
      rw [eq_of_segments_eq ((hp.unique hraw).trans (hother.unique hq))]

def settingsFile : EnvPath :=
  ⟨["config".toList, ".env".toList], by simp, by decide +kernel⟩

/-- Separators of both kinds, repeated ones, and a name that is taken back. -/
theorem settingsFile_resolves :
    parse ".\\config//app/../.env" = .ok settingsFile ∧
      parse "config\\.env/." = .ok settingsFile ∧
      Admissible ".\\config//app/../.env" ∧ ¬Admissible "config/../../secrets.env" ∧
      ResolvesTo (segmentsOf ".\\config//app/../.env")
        (settingsFile.text.toList.splitOnP (· == '/')) ∧
      ∃ names, ResolvesTo (segmentsOf ".\\config//app/../.env") names ∧
        ResolvesTo (segmentsOf "config\\.env/.") names := by
  obtain ⟨haccepted, hresolved, hsame⟩ := parse_resolves_lexically
  have hfirst : parse ".\\config//app/../.env" = .ok settingsFile := by decide +kernel
  have hsecond : parse "config\\.env/." = .ok settingsFile := by decide +kernel
  have hescapes : parse "config/../../secrets.env" =
      .error (.escapes "config/../../secrets.env") := by decide +kernel
  refine ⟨hfirst, hsecond, (haccepted _).mp ⟨_, hfirst⟩, fun h => ?_, (hresolved _ _ hfirst).1,
    (hsame _ _ _ _ hfirst hsecond).mp rfl⟩
  obtain ⟨p, hp⟩ := (haccepted _).mpr h
  rw [hescapes] at hp
  contradiction

end ContainerStack.EnvPath
