import ContainerStack.Proofs.Matched

/-!
Spellings of the version. Tidying drops the version of a legacy document and writes the tag
of the others in its own spelling, so nothing that comes after it can tell the spellings
apart. Next to the version it fills in null networks and volumes and touches nothing else,
and a tidied document stays as it is when it is tidied again.
-/

namespace ContainerStack

namespace Document

open Entries (Matched)

inductive EntryFilled : Json → Json → Prop
  | null : EntryFilled .null (.obj [])
  | kept {x : Json} (hnull : x ≠ .null) : EntryFilled x x

/-- A section that is null becomes an empty mapping, as do the null entries of a mapping. -/
inductive SectionFilled : Json → Json → Prop
  | null : SectionFilled .null (.obj [])
  | entries {ms ns : Entries Json} (h : Matched (fun _ => EntryFilled) ms ns) :
      SectionFilled (.obj ms) (.obj ns)
  | kept {x : Json} (hnull : x ≠ .null) (hmapping : ∀ ms, x ≠ .obj ms) : SectionFilled x x

/-- What a member of a versioned document becomes: the version its tag, networks and volumes
are filled in, and all else stays. -/
inductive MemberTidied (v : FormatVersion) : String → Json → Json → Prop
  | version (x : Json) : MemberTidied v "version" x (.str v.tag)
  | filled {key : String} {x y : Json} (hkey : key = "networks" ∨ key = "volumes")
      (h : SectionFilled x y) : MemberTidied v key x y
  | kept {key : String} (x : Json) (hkey : key ∉ ["version", "networks", "volumes"]) :
      MemberTidied v key x x

inductive MembersTidied : FormatVersion → Entries Json → Entries Json → Prop
  | legacy (ms : Entries Json) : MembersTidied .v1 ms (ms.filter fun m => m.1 ≠ "version")
  | versioned {v : FormatVersion} {ms ns : Entries Json} (hv : v ≠ .v1)
      (h : Matched (MemberTidied v) ms ns) : MembersTidied v ms ns

theorem entryFilled_fillEntry (x : Json) : EntryFilled x (fillEntry x) := by
  cases x with
  | null => exact .null
  | _ => exact .kept (by simp)

theorem EntryFilled.fillEntry_eq {x y : Json} (h : EntryFilled x y) : fillEntry y = y := by
  cases h with
  | null => rfl
  | kept hnull => cases x <;> first | rfl | contradiction

theorem sectionFilled_fillSection (x : Json) : SectionFilled x (fillSection x) := by
  cases x with
  | null => exact .null
  | obj ms =>
    refine .entries (List.forall₂_map_right_iff.mpr (List.forall₂_same.mpr fun m _ => ?_))
    exact ⟨rfl, entryFilled_fillEntry m.2⟩
  | _ => exact .kept (by simp) (by simp)

/-- There is nothing more to fill in. -/
theorem SectionFilled.fillSection_eq {x y : Json} (h : SectionFilled x y) :
    fillSection y = y := by
  cases h with
  | null => rfl
  | @entries ms ns h =>
    have hentries : ∀ n ∈ ns, (n.1, fillEntry n.2) = n := by
      intro n hn
      obtain ⟨m, -, -, hfilled⟩ := exists_mem_left_of_forall₂ h n hn
      rw [hfilled.fillEntry_eq]
    rw [fillSection, List.map_congr_left hentries, List.map_id']
  | kept hnull hmapping =>
    cases x with
    | null => exact absurd rfl hnull
    | obj ms => exact absurd rfl (hmapping ms)
    | _ => rfl

theorem MemberTidied.fillSection_eq {v : FormatVersion} {key : String} {x y : Json}
    (h : MemberTidied v key x y) (hkey : key = "networks" ∨ key = "volumes") :
    fillSection y = y := by
  cases h with
  | version => simp at hkey
  | filled _ hfilled => exact hfilled.fillSection_eq
  | kept _ hother => rcases hkey with rfl | rfl <;> simp at hother

theorem put_eq_alter {key : String} {ms : Entries Json} (hms : (Entries.keys ms).Nodup)
    (hkey : key ∈ Entries.keys ms) (x : Json) :
    Entries.put key x ms = alter key (fun _ => x) ms := by
  induction ms with
  | nil => cases hkey
  | cons m rest ih =>
    obtain ⟨hfirst, hrest⟩ := List.nodup_cons.mp hms
    by_cases hname : m.1 = key
    · have hothers : alter key (fun _ => x) rest = rest :=
        alter_eq_self fun n hn hn' => absurd (List.mem_map_of_mem hn) (hn' ▸ hname ▸ hfirst)
      simp [Entries.put, alter_cons, hname, hothers]
    · have hmem : key ∈ Entries.keys rest :=
        (List.mem_cons.mp hkey).resolve_left (Ne.symm hname)
      simp [Entries.put, alter_cons, hname, ih hrest hmem]

theorem membersTidied_tidyMembers {v : FormatVersion} {d : Table Json}
    (hv : resolveVersion (.obj d.entries) = .ok v) :
    MembersTidied v d.entries (tidyMembers v d.entries) := by
  by_cases hlegacy : v = .v1
  · subst hlegacy
    exact .legacy d.entries
  have hversion : "version" ∈ Entries.keys d.entries := by
    by_contra hnone
    rw [resolveVersion_unversioned (Entries.get?_eq_none_iff.mpr hnone)] at hv
    exact hlegacy (Except.ok.inj hv).symm
  -- The three changes are made to each member where it stands.
  rw [tidyMembers_versioned hlegacy, put_eq_alter d.nodup hversion]
  refine .versioned hlegacy (List.forall₂_map_right_iff.mpr (List.forall₂_map_right_iff.mpr
    (List.forall₂_map_right_iff.mpr (List.forall₂_same.mpr fun m _ => ?_))))
  obtain ⟨key, x⟩ := m
  by_cases hkey : key = "version"
  · subst hkey
    exact ⟨rfl, .version x⟩
  by_cases hsection : key = "networks" ∨ key = "volumes"
  · have hfilled := sectionFilled_fillSection x
    rcases hsection with rfl | rfl
    · exact ⟨rfl, .filled (Or.inl rfl) hfilled⟩
    · exact ⟨rfl, .filled (Or.inr rfl) hfilled⟩
  · obtain ⟨hnetworks, hvolumes⟩ := not_or.mp hsection
    have hkept : MemberTidied v key x x := .kept x (by simp [hkey, hnetworks, hvolumes])
    simpa [hkey, hnetworks, hvolumes] using hkept

/-- A tidied document is as it was left when it is tidied again. -/
theorem MembersTidied.tidyMembers_eq {v : FormatVersion} {ms ns : Entries Json}
    (h : MembersTidied v ms ns)
    (hversion : v ≠ .v1 → Entries.get? "version" ns = some (.str v.tag)) :
    tidyMembers v ns = ns := by
  cases h with
  | legacy => exact Entries.erase_of_get?_eq_none (Entries.get?_erase_self "version" ms)
  | versioned hv h =>
    have hfilled : ∀ n ∈ ns, n.1 = "networks" ∨ n.1 = "volumes" → fillSection n.2 = n.2 := by
      intro n hn hsection
      obtain ⟨m, -, hname, htidied⟩ := exists_mem_left_of_forall₂ h n hn
      exact htidied.fillSection_eq (hname ▸ hsection)
    rw [tidyMembers_versioned hv, Entries.put_of_get? (hversion hv),
      alter_eq_self fun n hn hname => hfilled n hn (Or.inl hname),
      alter_eq_self fun n hn hname => hfilled n hn (Or.inr hname)]

/-- A tidied document is still in its format. -/
theorem resolveVersion_tidied {v : FormatVersion} (ms : Entries Json) :
    resolveVersion (.obj (tidyMembers v ms)) = .ok v := by
  by_cases hv : v = .v1
  · subst hv
    exact resolveVersion_unversioned (Entries.get?_erase_self "version" ms)
  · exact resolveVersion_of_tag (version_tidyMembers hv ms)

/-- Tidying leaves nothing of what the version was. -/
theorem tidyMembers_put_version (v : FormatVersion) (x : Json) (ms : Entries Json) :
    tidyMembers v (Entries.put "version" x ms) = tidyMembers v ms := by
  cases v with
  | v1 => exact Entries.erase_put "version" x ms
  | v20 | v21 => simp only [tidyMembers, Entries.put_put]

end Document

open Document

/-- Normalization sees only the format of a document and what tidying makes of it. -/
theorem normalize_congr {checking : Checking} {v : FormatVersion} {d d' : Json}
    (hd : resolveVersion d = .ok v) (hd' : resolveVersion d' = .ok v)
    (htidy : tidy v d = tidy v d') : normalize checking d = normalize checking d' := by
  simp only [normalize, hd, hd', bind, Except.bind, htidy]

/-- The spelling of the version does not matter. Two values of the version that resolve to
the same format lead to the same composition or the same error, and in the legacy format
so does a document without one. The tidied document is in the same format, nothing but the
version and what is null in networks and volumes has changed in it, and tidying it again
changes nothing. -/
theorem version_spelling_irrelevant :
    (∀ (checking : Checking) (v : FormatVersion) (d : Table Json) (x y : Json),
      resolveVersion (.obj (d.insert "version" x).entries) = .ok v →
      resolveVersion (.obj (d.insert "version" y).entries) = .ok v →
        normalize checking (.obj (d.insert "version" x).entries) =
          normalize checking (.obj (d.insert "version" y).entries)) ∧
    (∀ (checking : Checking) (d : Table Json), resolveVersion (.obj d.entries) = .ok .v1 →
      normalize checking (.obj d.entries) =
        normalize checking (.obj (d.entries.filter fun m => m.1 ≠ "version"))) ∧
    ∀ (v : FormatVersion) (d : Table Json), resolveVersion (.obj d.entries) = .ok v →
      ∃ ns, tidy v (.obj d.entries) = .ok (.obj ns) ∧ MembersTidied v d.entries ns ∧
        resolveVersion (.obj ns) = .ok v ∧ tidy v (.obj ns) = .ok (.obj ns) := by
  refine ⟨fun checking v d x y hx hy => normalize_congr hx hy ?_, fun checking d h => ?_,
    fun v d h => ?_⟩
  · have hmembers : tidyMembers v (Entries.put "version" x d.entries) =
        tidyMembers v (Entries.put "version" y d.entries) := by
      rw [tidyMembers_put_version, tidyMembers_put_version]
    exact congrArg (fun ms => Except.ok (Json.obj ms)) hmembers
  · have hnone := Entries.get?_erase_self "version" d.entries
    have hmembers : tidyMembers .v1 d.entries =
        tidyMembers .v1 (Entries.erase "version" d.entries) :=
      (Entries.erase_of_get?_eq_none hnone).symm
    exact normalize_congr h (resolveVersion_unversioned hnone)
      (congrArg (fun ms => Except.ok (Json.obj ms)) hmembers)
  · have htidied := membersTidied_tidyMembers h
    have hagain : tidyMembers v (tidyMembers v d.entries) = tidyMembers v d.entries :=
      htidied.tidyMembers_eq fun hv => version_tidyMembers hv d.entries
    exact ⟨_, rfl, htidied, resolveVersion_tidied d.entries,
      congrArg (fun ms => Except.ok (Json.obj ms)) hagain⟩

/-- A document with a null network and no version yet. -/
def spelledDocument : Table Json :=
  ⟨[("networks", .obj [("inner", .null)]), ("services", .obj [("web", .null)])],
    by simp [Entries.keys]⟩

/-- A legacy document, which gives its version as a number. -/
def numberedDocument : Table Json :=
  ⟨[("version", .num (.int 1)), ("web", .obj [("image", .str "store")])],
    by simp [Entries.keys]⟩

theorem spelledDocument_same :
    normalize .schema (.obj (spelledDocument.insert "version" (.str " 2.0\n")).entries) =
        normalize .schema (.obj (spelledDocument.insert "version" (.num (.int 2))).entries) ∧
      normalize .off (.obj numberedDocument.entries) =
        normalize .off (.obj [("web", .obj [("image", .str "store")])]) ∧
      resolveVersion (.obj (spelledDocument.insert "version" (.num (.int 2))).entries) =
        .ok .v20 ∧
      ∃ ns, tidy .v20 (.obj (spelledDocument.insert "version" (.num (.int 2))).entries) =
          .ok (.obj ns) ∧
        MembersTidied .v20 (spelledDocument.insert "version" (.num (.int 2))).entries ns ∧
        resolveVersion (.obj ns) = .ok .v20 ∧ tidy .v20 (.obj ns) = .ok (.obj ns) := by
  obtain ⟨hspelled, hlegacy, htidied⟩ := version_spelling_irrelevant
  have htext : resolveVersion
      (.obj (spelledDocument.insert "version" (.str " 2.0\n")).entries) = .ok .v20 := by
    decide +kernel
  have hnumber : resolveVersion
      (.obj (spelledDocument.insert "version" (.num (.int 2))).entries) = .ok .v20 := by
    decide +kernel
  exact ⟨hspelled .schema .v20 spelledDocument _ _ htext hnumber,
    hlegacy .off numberedDocument (by decide +kernel), hnumber,
    htidied .v20 (spelledDocument.insert "version" (.num (.int 2))) hnumber⟩

end ContainerStack
