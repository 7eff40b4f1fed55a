import ContainerStack.Pipeline
import ContainerStack.Proofs.EnvPath
import ContainerStack.Proofs.Expansion.Rereading
import ContainerStack.Proofs.FileTree.Walk

/-!
Env files stay inside the project. The root of a project is a canonical place, and so is
the place of every env file that is read; that place is below the root, name by name. So
what files outside the root contain makes no difference: the same paths give the same
bytes or fail for the same reason, and documents lead to the same compositions, however
many env files may be open at a time.
-/

namespace ContainerStack

open Text

/-- The composition of a raw document in a project, with its env files merged and its
references replaced. -/
def normalizeExpanded (checking : Checking) (files : ProjectFiles) (lookup : Template.Lookup)
    (doc : Json) : Outcome Composition := do
  let c ← normalize checking doc
  (c.expand files lookup).result

namespace EnvPath

theorem text_toList_ne_nil (p : EnvPath) : p.text.toList ≠ [] := by
  intro h
  have hsegments := pieces_slash_text p
  rw [h, pieces] at hsegments
  exact (p.proper [] (by simp [← hsegments])).1 rfl

/-- No path begins with a slash: its first segment has a character. -/
theorem head?_text_ne_slash (p : EnvPath) : p.text.toList.head? ≠ some '/' := by
  intro h
  have hsegments := pieces_slash_text p
  obtain ⟨rest, hrest⟩ := List.head?_eq_some_iff.mp h
  rw [hrest, pieces, beq_self_eq_true, if_pos rfl] at hsegments
  exact (p.proper [] (by simp [← hsegments])).1 rfl

theorem mem_text_of_mem_segment {p : EnvPath} {segment : List Char} {c : Char}
    (hsegment : segment ∈ p.segments) (hc : c ∈ segment) : c ∈ p.text.toList :=
  mem_of_mem_pieces (by rw [pieces_slash_text]; exact hsegment) c hc

/-- A character other than a slash stands in one of the segments. -/
theorem exists_segment_of_mem_text {p : EnvPath} {c : Char} (hc : c ∈ p.text.toList)
    (hslash : c ≠ '/') : ∃ segment ∈ p.segments, c ∈ segment := by
  rcases isSep_or_mem_pieces (· == '/') hc with hsep | hpiece
  · exact absurd (by simpa using hsep) hslash
  · rwa [pieces_slash_text] at hpiece

end EnvPath

namespace FileTree

variable {tree other : FileTree} {here root place : Place}

/-- A canonical place is one that the written path leads to. -/
theorem leads_of_canonical {path : List Char} (h : tree.canonical here path = .ok place) :
    tree.Leads (start here path) (names path) place := by
  unfold canonical at h
  split_ifs at h
  exact leads_of_walk h

theorem Real.canonical {path : List Char} (hreal : tree.Real here)
    (h : tree.canonical here path = .ok place) : tree.Real place :=
  (hreal.start path).leads (leads_of_canonical h)

/-- Below a place the text of an env file path is followed segment by segment. -/
theorem canonical_text (tree : FileTree) (root : Place) (p : EnvPath) :
    tree.canonical root p.text.toList =
      if p.segments.any (fun segment => '\x00' ∈ segment) then .error .nulInName
      else tree.walk linkLimit root p.segments := by
  have hnul : '\x00' ∈ p.text.toList ↔
      p.segments.any (fun segment => '\x00' ∈ segment) = true := by
    simp only [List.any_eq_true, decide_eq_true_eq]
    constructor
    · exact fun h => EnvPath.exists_segment_of_mem_text h (by decide)
    · rintro ⟨segment, hsegment, hc⟩
      exact EnvPath.mem_text_of_mem_segment hsegment hc
  have hnames : names p.text.toList = p.segments := p.pieces_slash_text
  have hstart : start root p.text.toList = root := if_neg p.head?_text_ne_slash
  simp only [FileTree.canonical, hnul, p.text_toList_ne_nil, hnames, hstart, if_false]

theorem leads_of_canonical_text {p : EnvPath}
    (h : tree.canonical root p.text.toList = .ok place) : tree.Leads root p.segments place := by
  rw [canonical_text] at h
  split_ifs at h
  exact leads_of_walk h

/-- An env file is read by the text of its path, as it is resolved below the root. -/
theorem readEnvFile_eq (tree : FileTree) (root : Place) (p : EnvPath) :
    tree.readEnvFile root p =
      match tree.canonical root p.text.toList with
      | .error fault => .error fault
      | .ok place =>
        if !root.isPrefixOf place then .error (.outside p)
        else
          match tree.entry? place with
          | some (.file bytes) => .ok bytes
          | _ => .error (.notRegular p) := by
  rw [canonical_text, readEnvFile]
  split_ifs <;> rfl

/-- An env file that is read lies at a canonical place below the root. -/
theorem readEnvFile_eq_ok_iff {p : EnvPath} {bytes : ByteArray} :
    tree.readEnvFile root p = .ok bytes ↔ ∃ place,
      tree.canonical root p.text.toList = .ok place ∧ root <+: place ∧
        tree.entry? place = some (.file bytes) := by
  rw [readEnvFile_eq]
  cases tree.canonical root p.text.toList with
  | error fault => simp
  | ok place =>
    by_cases hroot : root <+: place
    · have hinside : root.isPrefixOf place = true := by simpa using hroot
      simp only [hinside, Bool.not_true, Bool.false_eq_true, if_false, Except.ok.injEq,
        exists_eq_left', hroot, true_and]
      split
      · rename_i found hfound
        simp [hfound]
      · rename_i hother
        simp only [reduceCtorEq, false_iff]
        exact hother bytes
    · have hinside : root.isPrefixOf place ≠ true := mt List.isPrefixOf_iff_prefix.mp hroot
      simp [hinside, hroot]

/-- The trees differ in nothing but what regular files outside the root contain. -/
def DiffersOutside (tree : FileTree) (root : Place) (other : FileTree) : Prop :=
  ∀ place, other.entry? place = tree.entry? place ∨ ¬root <+: place ∧ ∃ bytes found,
    tree.entry? place = some (.file bytes) ∧ other.entry? place = some (.file found)

theorem DiffersOutside.sameLayout (h : tree.DiffersOutside root other) :
    tree.SameLayout other :=
  fun place => (h place).imp_right And.right

theorem DiffersOutside.entry?_eq (h : tree.DiffersOutside root other) (hplace : root <+: place) :
    other.entry? place = tree.entry? place :=
  (h place).resolve_right fun houtside => houtside.1 hplace

theorem DiffersOutside.readEnvFile_eq (h : tree.DiffersOutside root other) (p : EnvPath) :
    other.readEnvFile root p = tree.readEnvFile root p := by
  unfold readEnvFile
  rw [h.sameLayout.walk_eq]
  split_ifs with hnul
  · rfl
  · cases tree.walk linkLimit root p.segments with
    | error fault => rfl
    | ok place =>
      dsimp only
      split_ifs with hroot
      · rfl
      · rw [h.entry?_eq (by simpa using hroot)]

theorem DiffersOutside.projectFiles_eq (h : tree.DiffersOutside root other) :
    other.projectFiles root = tree.projectFiles root :=
  funext fun p => congrArg answer (h.readEnvFile_eq p)

/-- An env file that is read is the regular file that its path leads to when all links
are followed, at a real place below the root. What other regular files contain changes
nothing: not the root, nor what is read at any path, nor the composition of any document,
nor the ways in which a composition can be expanded with some limit on open files. -/
theorem reads_only_inside_root {tree : FileTree} {here root : Place} {written : List Char}
    (hhere : tree.Real here) (hroot : tree.canonical here written = .ok root) :
    (∀ p bytes, tree.readEnvFile root p = .ok bytes → ∃ place,
      (∀ q, tree.Leads root p.segments q ↔ q = place) ∧ tree.Real place ∧ root <+: place ∧
        tree.entry? place = some (.file bytes)) ∧
    ∀ other, tree.DiffersOutside root other →
      other.canonical here written = .ok root ∧
      (∀ p, other.readEnvFile root p = tree.readEnvFile root p) ∧
      (∀ checking lookup doc,
        normalizeExpanded checking (other.projectFiles root) lookup doc =
          normalizeExpanded checking (tree.projectFiles root) lookup doc) ∧
      ∀ (c : Composition) limit lookup e,
        c.ExpandsTo (other.projectFiles root) limit lookup e ↔
          c.ExpandsTo (tree.projectFiles root) limit lookup e := by
  refine ⟨fun p bytes hread => ?_, fun other hother => ⟨?_, hother.readEnvFile_eq, ?_, ?_⟩⟩
  · obtain ⟨place, hcanonical, hbelow, hfile⟩ := readEnvFile_eq_ok_iff.mp hread
    have hleads : tree.Leads root p.segments place := leads_of_canonical_text hcanonical
    have hreal : tree.Real place := (hhere.canonical hroot).leads hleads
    refine ⟨place, fun q => ⟨fun hq => hq.unique hleads, ?_⟩, hreal, hbelow, hfile⟩
    rintro rfl
    exact hleads
  · rw [hother.sameLayout.canonical_eq, hroot]
  · intro checking lookup doc
    rw [hother.projectFiles_eq]
  · intro c limit lookup e
    rw [hother.projectFiles_eq]

/-- A project reached through a link, with a link to a file in it and one to a file of a
sibling whose name begins like that of the project. -/
def sharedTree (secret : ByteArray) : FileTree where
  entries := [
    (["srv".toList], .directory),
    (["srv".toList, "shop".toList], .directory),
    (["srv".toList, "shop".toList, "env".toList], .link "conf/base".toList),
    (["srv".toList, "shop".toList, "leak".toList], .link "../shop-old/secret".toList),
    (["srv".toList, "shop".toList, "conf".toList], .directory),
    (["srv".toList, "shop".toList, "conf".toList, "base".toList], .file "MODE=full".toUTF8),
    (["srv".toList, "shop-old".toList], .directory),
    (["srv".toList, "shop-old".toList, "secret".toList], .file secret),
    (["srv".toList, "current".toList], .link "/srv/shop".toList)]

def sharedRoot : Place :=
  ["srv".toList, "shop".toList]

def linkedFile : EnvPath :=
  ⟨["env".toList], by simp, by decide +kernel⟩

def strayFile : EnvPath :=
  ⟨["leak".toList], by simp, by decide +kernel⟩

theorem real_srv (secret : ByteArray) : (sharedTree secret).Real ["srv".toList] :=
  (real_top _).append rfl rfl (by simp)

theorem sharedTree_differsOutside (secret other : ByteArray) :
    (sharedTree secret).DiffersOutside sharedRoot (sharedTree other) := by
  intro place
  by_cases hplace : place = ["srv".toList, "shop-old".toList, "secret".toList]
  · subst hplace
    exact Or.inr ⟨by decide, secret, other, rfl, rfl⟩
  · left
    have hne : (place == ["srv".toList, "shop-old".toList, "secret".toList]) = false := by
      simpa using hplace
    unfold entry?
    simp only [sharedTree, List.lookup_cons, hne]

theorem canonical_sharedTree (secret : ByteArray) :
    (sharedTree secret).canonical ["srv".toList] "current".toList = .ok sharedRoot := by
  simp +decide [canonical, start, names, pieces, walk, isDirectory, entry?, sharedTree, sharedRoot,
    linkLimit, List.lookup_cons]

theorem readEnvFile_linkedFile (secret : ByteArray) :
    (sharedTree secret).readEnvFile sharedRoot linkedFile = .ok "MODE=full".toUTF8 := by
  simp +decide [readEnvFile, linkedFile, start, names, pieces, walk, isDirectory, entry?,
    sharedTree, sharedRoot, linkLimit, List.lookup_cons]

-- A sibling whose name begins like that of the project is not a part of it.
theorem readEnvFile_strayFile (secret : ByteArray) :
    (sharedTree secret).readEnvFile sharedRoot strayFile = .error (.outside strayFile) := by
  simp +decide [readEnvFile, strayFile, start, names, pieces, walk, isDirectory, entry?,
    sharedTree, sharedRoot, linkLimit, List.lookup_cons]

theorem sharedTree_reads_only_inside :
    (sharedTree "A=1".toUTF8).canonical ["srv".toList] "current".toList = .ok sharedRoot ∧
      (sharedTree "A=1".toUTF8).readEnvFile sharedRoot linkedFile = .ok "MODE=full".toUTF8 ∧
      (sharedTree "A=1".toUTF8).readEnvFile sharedRoot strayFile = .error (.outside strayFile) ∧
      (∃ place, (sharedTree "A=1".toUTF8).Real place ∧ sharedRoot <+: place ∧
        entry? (sharedTree "A=1".toUTF8) place = some (.file "MODE=full".toUTF8)) ∧
      (sharedTree "A=1".toUTF8).DiffersOutside sharedRoot (sharedTree "A=2".toUTF8) ∧
      ∀ p, (sharedTree "A=2".toUTF8).readEnvFile sharedRoot p =
        (sharedTree "A=1".toUTF8).readEnvFile sharedRoot p := by
  have hroot := canonical_sharedTree "A=1".toUTF8
  have hread := readEnvFile_linkedFile "A=1".toUTF8
  have hrefused := readEnvFile_strayFile "A=1".toUTF8
  have hdiffers := sharedTree_differsOutside "A=1".toUTF8 "A=2".toUTF8
  obtain ⟨hinside, houtside⟩ := reads_only_inside_root (real_srv "A=1".toUTF8) hroot
  obtain ⟨place, -, hplace⟩ := hinside linkedFile _ hread
  exact ⟨hroot, hread, hrefused, ⟨place, hplace⟩, hdiffers, (houtside _ hdiffers).2.1⟩

end FileTree

end ContainerStack
