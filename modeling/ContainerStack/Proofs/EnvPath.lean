import ContainerStack.EnvPath
import ContainerStack.Proofs.Text

/-!
Written env file paths. The text of a path cuts into exactly its segments, so
paths with the same text are the same, and a text that is read as a path again
gives that path. Reading can refuse a written path for one reason only: the first
segment makes the whole look absolute or blank, as after a leading `./` is gone.
-/

namespace ContainerStack.EnvPath

open Text

instance (segment : List Char) : Decidable (Proper segment) :=
  decidable_of_iff (segment ≠ [] ∧ segment ≠ ['.'] ∧ segment ≠ ['.', '.'] ∧
    segment.all (fun c => !isSeparator c && !isWildcard c) = true) (by simp [Proper])

theorem pieces_text (p : EnvPath) : pieces isSeparator p.text.toList = p.segments :=
  pieces_join '/' rfl p.ne_nil fun s hs c hc => ((p.proper s hs).2.2.2 c hc).1

/-- The segments of a path are what stands between the slashes of its text. -/
theorem pieces_slash_text (p : EnvPath) : pieces (· == '/') p.text.toList = p.segments := by
  refine pieces_join '/' rfl p.ne_nil fun s hs c hc => ?_
  have hc' := ((p.proper s hs).2.2.2 c hc).1
  simp only [isSeparator, Bool.or_eq_false_iff] at hc'
  exact hc'.1

theorem eq_of_segments_eq {p q : EnvPath} (h : p.segments = q.segments) : p = q := by
  cases p
  cases q
  subst h
  rfl

theorem text_injective {p q : EnvPath} (h : p.text = q.text) : p = q :=
  eq_of_segments_eq (by rw [← pieces_text p, ← pieces_text q, h])

/-- A segment that stands for itself on the way. -/
def IsName (segment : List Char) : Prop :=
  segment ≠ [] ∧ segment ≠ ['.'] ∧ segment ≠ ['.', '.']

theorem isName_of_proper {segment : List Char} (h : Proper segment) : IsName segment :=
  ⟨h.1, h.2.1, h.2.2.1⟩

/-- Names are kept as they are. -/
theorem resolve_of_names {segments : List (List Char)} (h : ∀ s ∈ segments, IsName s)
    (done : List (List Char)) : resolve done segments = some (done.reverse ++ segments) := by
  induction segments generalizing done with
  | nil => simp [resolve]
  | cons s rest ih =>
    obtain ⟨hnil, hdot, hup⟩ := h s List.mem_cons_self
    simp only [resolve, hnil, hdot, hup, or_self, ite_false]
    rw [ih fun t ht => h t (List.mem_cons_of_mem _ ht)]
    simp

theorem resolve_segments (p : EnvPath) : resolve [] p.segments = some p.segments :=
  resolve_of_names (fun s hs => isName_of_proper (p.proper s hs)) []

/-- A text is read as a path when it passes the three checks on it and its pieces lead to
the segments of the path. -/
theorem parse_eq_ok_iff {raw : String} {p : EnvPath} :
    parse raw = .ok p ↔
      trimChars raw.toList ≠ [] ∧ (∀ c ∈ raw.toList, isWildcard c = false) ∧
        isAbsolute raw.toList = false ∧
          resolve [] (pieces isSeparator raw.toList) = some p.segments := by
  unfold parse
  simp only [List.isEmpty_iff]
  by_cases hblank : trimChars raw.toList = []
  · simp [hblank]
  by_cases hwild : raw.toList.any isWildcard = true
  · rw [if_neg hblank, dif_pos hwild]
    obtain ⟨c, hc, hcwild⟩ := List.any_eq_true.mp hwild
    simp only [reduceCtorEq, false_iff, not_and]
    exact fun _ hnone => absurd hcwild (by simp [hnone c hc])
  by_cases habsolute : isAbsolute raw.toList = true
  · rw [if_neg hblank, dif_neg hwild, if_pos habsolute]
    simp [habsolute]
  rw [if_neg hblank, dif_neg hwild, if_neg habsolute]
  have hplain : ∀ c ∈ raw.toList, isWildcard c = false := by simpa using hwild
  have hrest : ∀ {q : Prop}, (trimChars raw.toList ≠ [] ∧
      (∀ c ∈ raw.toList, isWildcard c = false) ∧ isAbsolute raw.toList = false ∧ q) ↔ q :=
    ⟨fun h => h.2.2.2, fun h => ⟨hblank, hplain, Bool.eq_false_iff.mpr habsolute, h⟩⟩
  rw [hrest]
  split
  · rename_i hnone
    simp [hnone]
  · rename_i hnil
    simp [hnil, Ne.symm p.ne_nil]
  · rename_i first rest hsome
    simp only [hsome, Option.some.injEq, Except.ok.injEq]
    exact ⟨congrArg segments, fun h => eq_of_segments_eq h⟩

/-- A written path that can be read is read as itself. -/
theorem eq_of_parse_text {p q : EnvPath} (h : parse p.text = .ok q) : q = p := by
  obtain ⟨-, -, -, hresolve⟩ := parse_eq_ok_iff.mp h
  rw [pieces_text, resolve_segments, Option.some.injEq] at hresolve
  exact eq_of_segments_eq hresolve.symm

theorem isWildcard_text (p : EnvPath) : ∀ c ∈ p.text.toList, isWildcard c = false := by
  intro c hc
  rcases isSep_or_mem_pieces isSeparator hc with hsep | ⟨segment, hsegment, hmem⟩
  · simp only [isSeparator, Bool.or_eq_true, beq_iff_eq] at hsep
    rcases hsep with rfl | rfl <;> rfl
  · rw [pieces_text] at hsegment
    exact ((p.proper segment hsegment).2.2.2 c hmem).2

/-- Reading the written path gives the path again. -/
def Stable (p : EnvPath) : Prop :=
  parse p.text = .ok p

instance (p : EnvPath) : Decidable p.Stable :=
  inferInstanceAs (Decidable (parse p.text = .ok p))

/-- A written path is refused only if it is blank or looks absolute, as one from a
home directory or a drive. -/
theorem stable_iff {p : EnvPath} :
    p.Stable ↔ trimChars p.text.toList ≠ [] ∧ isAbsolute p.text.toList = false := by
  rw [Stable, parse_eq_ok_iff, pieces_text, resolve_segments]
  exact and_congr_right fun _ => ⟨fun h => h.2.1, fun h => ⟨isWildcard_text p, h, rfl⟩⟩

/-- Removing repetitions keeps a list without any. -/
theorem distinct_of_nodup {paths : List EnvPath} (h : paths.Nodup) : distinct paths = paths := by
  induction paths with
  | nil => rfl
  | cons p rest ih =>
    obtain ⟨hp, hrest⟩ := List.nodup_cons.mp h
    rw [distinct, ih hrest, List.filter_eq_self.mpr]
    intro q hq
    simpa using fun heq : q = p => hp (heq ▸ hq)

theorem mem_distinct_iff {p : EnvPath} {paths : List EnvPath} :
    p ∈ distinct paths ↔ p ∈ paths := by
  induction paths with
  | nil => simp [distinct]
  | cons q rest ih =>
    by_cases hpq : p = q <;> simp [distinct, hpq, ih]

theorem nodup_distinct (paths : List EnvPath) : (distinct paths).Nodup := by
  induction paths with
  | nil => exact List.nodup_nil
  | cons p rest ih =>
    exact List.nodup_cons.mpr ⟨by simp, ih.filter _⟩

theorem distinct_filter (keep : EnvPath → Bool) (listed : List EnvPath) :
    distinct (listed.filter keep) = (distinct listed).filter keep := by
  induction listed with
  | nil => rfl
  | cons p rest ih =>
    by_cases hp : keep p = true
    · rw [List.filter_cons_of_pos hp, distinct, ih, distinct, List.filter_cons_of_pos hp,
        List.filter_comm]
    · rw [List.filter_cons_of_neg hp, ih, distinct, List.filter_cons_of_neg hp,
        List.filter_filter]
      refine List.filter_congr fun q _ => ?_
      by_cases hq : q = p <;> simp [hq, hp]

/-- The first occurrences are what is left when repetitions are erased. -/
theorem distinct_eq_eraseDups (listed : List EnvPath) : distinct listed = listed.eraseDups := by
  match listed with
  | [] => rfl
  | p :: rest =>
    have hkeep : rest.filter (fun q => !q == p) = rest.filter (· ≠ p) :=
      List.filter_congr fun q _ => by by_cases hq : q = p <;> simp [hq]
    rw [distinct, ← distinct_filter, List.eraseDups_cons, hkeep, distinct_eq_eraseDups]
termination_by listed.length
decreasing_by exact Nat.lt_succ_of_le (List.length_filter_le _ _)

end ContainerStack.EnvPath
