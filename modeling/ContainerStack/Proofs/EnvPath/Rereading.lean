import ContainerStack.Loading.Basic
import ContainerStack.Proofs.EnvPath.Resolution

/-!
Reading a written path again. The checks on a text look at it as it was given, and the path
is written without the segments that resolution has removed. So the written path is read
as itself, or is refused because its own first segment, which the checks never saw, leads
to a home directory or a drive, or because it is blank. Behind a leading `./` every path
is read back.
-/

namespace ContainerStack.EnvPath

open Text

/-- Whether a text looks absolute shows in its first segment, unless that is empty. -/
theorem isAbsolute_eq_of_head? {cs segment : List Char}
    (h : (pieces isSeparator cs).head? = some segment) (hne : segment ≠ []) :
    isAbsolute cs = isAbsolute segment := by
  rw [head?_pieces, Option.some.injEq] at h
  subst h
  cases cs with
  | nil => rfl
  | cons c rest =>
    have hc : isSeparator c = false := by
      by_contra hc
      exact hne (List.takeWhile_cons_of_neg (by simpa using hc))
    rw [List.takeWhile_cons_of_pos (by simp [hc])]
    -- A colon after the first character is no separator, so it stands in the same segment.
    have hcolon : (rest.head? == some ':') =
        ((rest.takeWhile (!isSeparator ·)).head? == some ':') := by
      cases rest with
      | nil => rfl
      | cons d more =>
        by_cases hd : isSeparator d = true
        · have hne : d ≠ ':' := by
            rintro rfl
            contradiction
          simp [hd, hne]
        · simp [hd]
    simp only [isAbsolute, hcolon]

/-- What becomes of a written path that is read again. -/
theorem parse_text (p : EnvPath) :
    parse p.text =
      if trimChars p.text.toList = [] then .error .blank
      else if isAbsolute p.text.toList then .error (.absolute p.text)
      else .ok p := by
  by_cases hblank : trimChars p.text.toList = []
  · rw [if_pos hblank]
    simp [parse, hblank]
  rw [if_neg hblank]
  by_cases habsolute : isAbsolute p.text.toList = true
  · have hwild : ¬p.text.toList.any isWildcard = true := by simpa using isWildcard_text p
    rw [if_pos habsolute]
    simp only [parse]
    rw [if_neg (by simpa using hblank), dif_neg hwild, if_pos habsolute]
  · rw [if_neg habsolute]
    exact stable_iff.mpr ⟨hblank, by simpa using habsolute⟩

/-- With a leading dot, every path is read back. -/
theorem parse_behind_dot (p : EnvPath) : parse ("./" ++ p.text) = .ok p := by
  have htext : ("./" ++ p.text).toList = ['.'] ++ '/' :: p.text.toList := by simp
  have hcut : pieces isSeparator ("./" ++ p.text).toList = ['.'] :: p.segments := by
    rw [htext, pieces_append_cons (List.forall_mem_singleton.mpr rfl) rfl, pieces_text]
  refine parse_eq_ok_iff.mpr ⟨fun hblank => ?_, fun c hc => ?_, ?_, ?_⟩
  · have hdot := trimChars_eq_nil_iff.mp hblank '.' (by simp [htext])
    contradiction
  · rw [htext] at hc
    rcases List.mem_cons.mp hc with rfl | hc
    · rfl
    rcases List.mem_cons.mp hc with rfl | hc
    · rfl
    · exact isWildcard_text p c hc
  · rw [htext]
    rfl
  · rw [hcut, resolve_stay (.inr rfl), resolve_segments]

/-- A path that begins as the text it was read from is as little absolute as the text. -/
theorem isAbsolute_text_of_head? {raw : String} {p : EnvPath} (h : parse raw = .ok p)
    (hkept : (segmentsOf raw).head? = p.segments.head?) : isAbsolute p.text.toList = false := by
  obtain ⟨-, -, hraw, -⟩ := parse_eq_ok_iff.mp h
  obtain ⟨first, hfirst⟩ := Option.isSome_iff_exists.mp (List.isSome_head?.mpr p.ne_nil)
  have hne : first ≠ [] := (p.proper first (List.mem_of_mem_head? hfirst)).1
  have hrawhead : (pieces isSeparator raw.toList).head? = some first := by
    rw [pieces_eq_splitOnP]
    exact hkept.trans hfirst
  have htexthead : (pieces isSeparator p.text.toList).head? = some first := by
    rw [pieces_text, hfirst]
  rw [isAbsolute_eq_of_head? htexthead hne, ← isAbsolute_eq_of_head? hrawhead hne, hraw]

/-- A path with all the segments of a text has a character that is not blank if the text
has one. -/
theorem visible_text_of_segmentsOf {raw : String} {p : EnvPath}
    (hkept : segmentsOf raw = p.segments) (h : ∃ c ∈ raw.toList, isBlank c = false) :
    ∃ c ∈ p.text.toList, isBlank c = false := by
  rw [segmentsOf, ← pieces_eq_splitOnP] at hkept
  obtain ⟨c, hc, hvisible⟩ := h
  rcases isSep_or_mem_pieces isSeparator hc with hsep | ⟨segment, hsegment, hmem⟩
  · -- A separator in the text separates segments, so there is one between those of the path.
    by_contra hblank
    have hnone : ∀ d ∈ p.text.toList, isSeparator d = false := by
      intro d hd
      by_contra hsep
      have hslash : isBlank d = false := by
        simp only [isSeparator, Bool.not_eq_false, Bool.or_eq_true, beq_iff_eq] at hsep
        rcases hsep with rfl | rfl <;> decide
      exact hblank ⟨d, hd, hslash⟩
    have hone : pieces isSeparator raw.toList = [p.text.toList] := by
      rw [hkept, ← pieces_text, pieces_of_notSep hnone]
    rw [isSep_of_pieces_singleton hone c hc] at hsep
    contradiction
  · rw [hkept, ← pieces_text] at hsegment
    exact ⟨c, mem_of_mem_pieces hsegment c hmem, hvisible⟩

/-- A written path that is read again is read as itself or refused. It is refused only if
it is blank, or if it looks absolute and so begins with another segment than the text it
was read from; a text without segments to resolve, and a path behind a dot, are read back. -/
theorem reread_of_parse {raw : String} {p : EnvPath} (h : parse raw = .ok p) :
    (∀ q, parse p.text = .ok q ↔
      q = p ∧ (∃ c ∈ p.text.toList, isBlank c = false) ∧ ¬Rooted p.text.toList) ∧
    (∀ e, parse p.text = .error e → e = .blank ∨ e = .absolute p.text) ∧
    (∀ q, Loading.envPath (.str p.text) = .ok q ↔ parse p.text = .ok q) ∧
    (Rooted p.text.toList → (segmentsOf raw).head? ≠ p.segments.head?) ∧
    (segmentsOf raw = p.segments → parse p.text = .ok p) ∧
    parse ("./" ++ p.text) = .ok p := by
  have hstable : p.Stable ↔
      (∃ c ∈ p.text.toList, isBlank c = false) ∧ ¬Rooted p.text.toList := by
    rw [stable_iff, ← isAbsolute_iff, Bool.not_eq_true, ne_eq, trimChars_eq_nil_iff]
    simp
  refine ⟨fun q => ⟨fun hq => ?_, fun hq => ?_⟩, fun e he => ?_, fun q => ?_,
    fun hrooted hkept => ?_, fun hkept => ?_, parse_behind_dot p⟩
  · obtain rfl := eq_of_parse_text hq
    exact ⟨rfl, hstable.mp hq⟩
  · obtain ⟨rfl, hparts⟩ := hq
    exact hstable.mpr hparts
  · rw [parse_text] at he
    split at he
    · exact .inl (Except.error.inj he).symm
    · split at he
      · exact .inr (Except.error.inj he).symm
      · cases he
  · simp only [Loading.envPath, Loading.text, bind, Except.bind]
    cases parse p.text <;> simp
  · rw [← isAbsolute_iff, isAbsolute_text_of_head? h hkept] at hrooted
    contradiction
  · obtain ⟨hraw, -⟩ := parse_eq_ok_iff_resolvesTo.mp h
    have hrelative := isAbsolute_text_of_head? h (congrArg List.head? hkept)
    refine hstable.mpr ⟨visible_text_of_segmentsOf hkept hraw.visible, ?_⟩
    rw [← isAbsolute_iff, hrelative]
    simp

theorem reread_settingsFile :
    parse ".\\config//app/../.env" = .ok settingsFile ∧
      parse settingsFile.text = .ok settingsFile ∧
      Loading.envPath (.str settingsFile.text) = .ok settingsFile := by
  have hread : parse ".\\config//app/../.env" = .ok settingsFile := by decide +kernel
  obtain ⟨hreread, -, hload, -⟩ := reread_of_parse hread
  have hrooted : ¬Rooted settingsFile.text.toList := by
    rw [← isAbsolute_iff]
    decide +kernel
  have hparse := (hreread settingsFile).mpr ⟨rfl, ⟨'c', by decide +kernel, by decide⟩, hrooted⟩
  exact ⟨hread, hparse, (hload _).mpr hparse⟩

/-- A file in a directory that is named as home directories are. -/
def tildeFile : EnvPath :=
  ⟨["~".toList, "x".toList], by simp, by decide +kernel⟩

/-- The leading dot hides from the checks that what is written looks absolute. -/
theorem not_reread_tildeFile :
    parse "./~/x" = .ok tildeFile ∧ isAbsolute tildeFile.text.toList = true ∧
      parse tildeFile.text ≠ .ok tildeFile ∧
      Loading.envPath (.str tildeFile.text) ≠ .ok tildeFile := by
  decide +kernel

end ContainerStack.EnvPath
