import ContainerStack.Proofs.Failing
import ContainerStack.Proofs.FileTree.Confinement

/-!
Env files of a project without links. Joined to the canonical root and resolved from the
top, a path is walked through the root and then through its segments, and where no link
lies below the root each segment leads one level down. So what a path stands for is what is
found by descending, and nothing that is found lies outside.
-/

namespace ContainerStack

open Text

namespace FileTree

variable {tree : FileTree} {here root place : Place} {links : Nat} {name : List Char}
  {todo rest : List (List Char)}

/-- A name that the file system takes. -/
def Nameable (name : List Char) : Prop :=
  '\x00' ∉ name ∧ (String.ofList name).utf8ByteSize ≤ nameLimit

/-- A name that stands in a canonical path. -/
structure PlainName (name : List Char) : Prop where
  entering : Entering name
  noSlash : '/' ∉ name
  nameable : Nameable name

structure Canonical (tree : FileTree) (place : Place) : Prop where
  real : tree.Real place
  plain : ∀ name ∈ place, PlainName name

def LinkFree (tree : FileTree) (root : Place) : Prop :=
  ∀ place, root <+: place → ∀ target, tree.entry? place ≠ some (.link target)

/-- The names lead down to the entry, each from a directory to what has the name there. -/
inductive Descends (tree : FileTree) : Place → List (List Char) → FileEntry → Prop
  | arrive {here : Place} {entry : FileEntry} (hentry : tree.entry? here = some entry) :
      Descends tree here [] entry
  | enter {here : Place} {name : List Char} {rest : List (List Char)} {entry : FileEntry}
      (hdirectory : tree.entry? here = some .directory)
      (hrest : Descends tree (here ++ [name]) rest entry) : Descends tree here (name :: rest) entry

/-- The path of an env file, written from the top. -/
def joined (root : Place) (path : EnvPath) : List Char :=
  '/' :: root.flatMap (fun name => name ++ ['/']) ++ path.text.toList

/-- Reading an env file by its joined path, which is resolved as a whole. -/
def readJoined (tree : FileTree) (root : Place) (path : EnvPath) : Except FileFault ByteArray :=
  match tree.canonical [] (joined root path) with
  | .error fault => .error fault
  | .ok place =>
    if !root.isPrefixOf place then .error (.outside path)
    else
      match tree.entry? place with
      | some (.file bytes) => .ok bytes
      | _ => .error (.notRegular path)

theorem clean_of_mem_names {path : List Char} (hname : name ∈ names path)
    (hnul : '\x00' ∉ path) : '/' ∉ name ∧ '\x00' ∉ name := by
  refine ⟨fun hslash => ?_, fun hc => hnul (mem_of_mem_pieces hname _ hc)⟩
  have hclean := isSep_of_mem_pieces hname '/' hslash
  contradiction

theorem plain_of_mem_start (hhere : ∀ name ∈ here, PlainName name) (path : List Char) :
    ∀ name ∈ start here path, PlainName name := by
  unfold start
  split_ifs
  · simp
  · exact hhere

/-- A walk that starts among plain names comes to plain names only, if no link has a
target that the file system would not take. -/
theorem plain_of_walk
    (htargets : ∀ place target, tree.entry? place = some (.link target) → '\x00' ∉ target)
    (hhere : ∀ name ∈ here, PlainName name) (htodo : ∀ name ∈ todo, '/' ∉ name ∧ '\x00' ∉ name)
    (h : tree.walk links here todo = .ok place) : ∀ name ∈ place, PlainName name := by
  fun_induction tree.walk links here todo with
  | case1 =>
    cases h
    exact hhere
  | case2 | case5 | case6 | case7 => cases h
  | case3 links here name rest hdirectory hname ih =>
    exact ih hhere (List.forall_mem_cons.mp htodo).2 h
  | case4 links here rest hdirectory hname ih =>
    exact ih (fun name hmem => hhere name (List.mem_of_mem_dropLast hmem))
      (List.forall_mem_cons.mp htodo).2 h
  | case8 here name rest hdirectory hname hup hlong target hentry links ih =>
    refine ih (plain_of_mem_start hhere target) (fun found hfound => ?_) h
    rcases List.mem_append.mp hfound with hfound | hfound
    · exact clean_of_mem_names hfound (htargets _ target hentry)
    · exact (List.forall_mem_cons.mp htodo).2 found hfound
  | case9 links here name rest hdirectory hname hup hlong entry hlink hentry ih =>
    obtain ⟨⟨hslash, hnul⟩, hrest⟩ := List.forall_mem_cons.mp htodo
    have hplain : PlainName name :=
      ⟨⟨by tauto, by tauto, hup⟩, hslash, hnul, Nat.not_lt.mp hlong⟩
    refine ih (fun found hfound => ?_) hrest h
    rcases List.mem_append.mp hfound with hfound | hfound
    · exact hhere found hfound
    · exact List.mem_singleton.mp hfound ▸ hplain

/-- A path is resolved to a canonical place. -/
theorem Canonical.canonical {path : List Char}
    (htargets : ∀ place target, tree.entry? place = some (.link target) → '\x00' ∉ target)
    (hhere : tree.Canonical here) (h : tree.canonical here path = .ok place) :
    tree.Canonical place := by
  refine ⟨hhere.real.canonical h, ?_⟩
  unfold FileTree.canonical at h
  split_ifs at h with hnul hempty
  exact plain_of_walk htargets (plain_of_mem_start hhere.plain path)
    (fun name hname => clean_of_mem_names hname hnul) h

/-- A step of a walk where there is no link: one level down, unless something is missing. -/
theorem walk_cons (hname : Entering name)
    (hlink : ∀ target, tree.entry? (here ++ [name]) ≠ some (.link target)) :
    tree.walk links here (name :: rest) =
      if !tree.isDirectory here then .error .notDirectory
      else if (String.ofList name).utf8ByteSize > nameLimit then .error .nameTooLong
      else
        match tree.entry? (here ++ [name]) with
        | none => .error .notFound
        | some _ => tree.walk links (here ++ [name]) rest := by
  obtain ⟨hnil, hdot, hup⟩ := hname
  have hstay : ¬(name = [] ∨ name = ['.']) := by simp [hnil, hdot]
  rw [walk, if_neg hstay, if_neg hup]
  cases hentry : tree.entry? (here ++ [name]) with
  | none => rfl
  | some entry =>
    cases entry with
    | link target => exact absurd hentry (hlink target)
    | file | directory | special => rfl

/-- A walk passes through the names of a real place. -/
theorem walk_append {names : List (List Char)} (hreal : tree.Real (here ++ names))
    (hnames : ∀ name ∈ names, PlainName name) :
    tree.walk links here (names ++ rest) = tree.walk links (here ++ names) rest := by
  induction names generalizing here with
  | nil => simp
  | cons name later ih =>
    have hname := hnames name List.mem_cons_self
    have hsplit : here ++ name :: later = here ++ [name] ++ later := by simp
    rw [hsplit] at hreal
    obtain ⟨entry, hentry, hlink⟩ := (hreal.of_prefix (List.prefix_append _ _)).there
    have hdirectory : tree.isDirectory here = true :=
      isDirectory_iff.mpr (hreal.above here ⟨name :: later, by simp⟩ (by simp))
    have hstep : tree.walk links here (name :: (later ++ rest)) =
        tree.walk links (here ++ [name]) (later ++ rest) := by
      rw [walk_cons hname.entering (by simpa [hentry] using hlink), hdirectory, hentry]
      simp [Nat.not_lt.mpr hname.nameable.2]
    rw [List.cons_append, hstep, ih hreal fun n hn => hnames n (List.mem_cons_of_mem _ hn), hsplit]

theorem LinkFree.below (h : tree.LinkFree here) (name : List Char) :
    tree.LinkFree (here ++ [name]) :=
  fun place hplace => h place ((List.prefix_append here [name]).trans hplace)

theorem LinkFree.walk_cons (h : tree.LinkFree here) (hname : Entering name) :
    tree.walk links here (name :: rest) =
      if !tree.isDirectory here then .error .notDirectory
      else if (String.ofList name).utf8ByteSize > nameLimit then .error .nameTooLong
      else
        match tree.entry? (here ++ [name]) with
        | none => .error .notFound
        | some _ => tree.walk links (here ++ [name]) rest :=
  FileTree.walk_cons hname (h _ (List.prefix_append here [name]))

theorem descends_cons_iff {entry : FileEntry} :
    tree.Descends here (name :: rest) entry ↔
      tree.entry? here = some .directory ∧ tree.Descends (here ++ [name]) rest entry := by
  constructor
  · intro h
    cases h with
    | enter hdirectory hrest => exact ⟨hdirectory, hrest⟩
  · exact fun h => .enter h.1 h.2

theorem Descends.exists_entry {entry : FileEntry} (h : tree.Descends here todo entry) :
    ∃ found, tree.entry? here = some found := by
  cases h with
  | arrive hentry => exact ⟨entry, hentry⟩
  | enter hdirectory => exact ⟨.directory, hdirectory⟩

theorem LinkFree.eq_of_walk (h : tree.LinkFree here) (htodo : ∀ name ∈ todo, Entering name)
    (hwalk : tree.walk links here todo = .ok place) : place = here ++ todo := by
  induction todo generalizing here with
  | nil =>
    rw [walk, Except.ok.injEq] at hwalk
    simpa using hwalk.symm
  | cons name rest ih =>
    obtain ⟨hname, hrest⟩ := List.forall_mem_cons.mp htodo
    rw [h.walk_cons hname] at hwalk
    split_ifs at hwalk
    split at hwalk
    · cases hwalk
    · rw [ih (h.below name) hrest hwalk, List.append_assoc, List.singleton_append]

/-- Without links a walk finds what is found by descending. -/
theorem LinkFree.walk_iff (h : tree.LinkFree here) (links : Nat)
    (htodo : ∀ name ∈ todo, Entering name) {entry : FileEntry} :
    (∃ place, tree.walk links here todo = .ok place ∧ tree.entry? place = some entry) ↔
      (∀ name ∈ todo, (String.ofList name).utf8ByteSize ≤ nameLimit) ∧
        tree.Descends here todo entry := by
  induction todo generalizing here with
  | nil =>
    simp only [walk, Except.ok.injEq, exists_eq_left', List.not_mem_nil, false_imp_iff,
      implies_true, true_and]
    exact ⟨.arrive, fun hdescends => by cases hdescends; assumption⟩
  | cons name rest ih =>
    obtain ⟨hname, hrest⟩ := List.forall_mem_cons.mp htodo
    have hbelow := ih (h.below name) hrest
    rw [h.walk_cons hname, List.forall_mem_cons, descends_cons_iff]
    split_ifs with hdirectory hlong
    · have hother : tree.entry? here ≠ some .directory := by
        simpa [← isDirectory_iff] using hdirectory
      simp [hother]
    · simp [Nat.not_le.mpr hlong]
    have hhere : tree.entry? here = some .directory := by
      simpa [← isDirectory_iff] using hdirectory
    cases hentry : tree.entry? (here ++ [name]) with
    | none =>
      have hmissing : ¬tree.Descends (here ++ [name]) rest entry := by
        intro hlater
        obtain ⟨found, hfound⟩ := hlater.exists_entry
        simp [hfound] at hentry
      simp [hmissing]
    | some found => simp [hbelow, hhere, Nat.not_lt.mp hlong]

theorem LinkFree.failsOnly_walk (h : tree.LinkFree here)
    (htodo : ∀ name ∈ todo, Entering name) :
    FailsOnly (· ∈ [.notFound, .notDirectory, .nameTooLong]) (tree.walk links here todo) := by
  induction todo generalizing here with
  | nil =>
    rw [walk]
    exact .ok here
  | cons name rest ih =>
    obtain ⟨hname, hrest⟩ := List.forall_mem_cons.mp htodo
    rw [h.walk_cons hname]
    split_ifs
    · exact .error (by simp)
    · exact .error (by simp)
    split
    · exact .error (by simp)
    · exact ih (h.below name) hrest

/-- The names of a joined path are those of the root and the segments, after the top. -/
theorem names_joined (hroot : ∀ name ∈ root, '/' ∉ name) (p : EnvPath) :
    names (joined root p) = [] :: (root ++ p.segments) := by
  have hbelow : names (root.flatMap (fun name => name ++ ['/']) ++ p.text.toList) =
      root ++ p.segments := by
    induction root with
    | nil => exact p.pieces_slash_text
    | cons name rest ih =>
      obtain ⟨hname, hrest⟩ := List.forall_mem_cons.mp hroot
      have hclean : ∀ c ∈ name, isSlash c = false := by
        intro c hc
        simp only [isSlash, beq_eq_false_iff_ne]
        rintro rfl
        exact hname hc
      rw [List.flatMap_cons, List.append_assoc, List.append_assoc, List.singleton_append, names,
        pieces_append_cons hclean rfl, ← names, ih hrest, List.cons_append]
  have htop : isSlash '/' = true := rfl
  rw [joined, List.cons_append, names, pieces, if_pos htop, ← names, hbelow]

/-- From the top the joined path leads where the path of the env file leads from the root. -/
theorem Canonical.canonical_joined (h : tree.Canonical root) (p : EnvPath) :
    tree.canonical [] (joined root p) = tree.canonical root p.text.toList := by
  have hnul : '\x00' ∈ joined root p ↔ '\x00' ∈ p.text.toList := by
    have hroot : ∀ name ∈ root, '\x00' ∉ name := fun name hname => (h.plain name hname).nameable.1
    simp only [joined, List.cons_append, List.mem_cons, List.mem_append, List.mem_flatMap,
      List.not_mem_nil, or_false, Char.reduceEq, false_or]
    refine or_iff_right ?_
    rintro ⟨name, hname, hc⟩
    exact hroot name hname hc
  have hnames : names (joined root p) = [] :: (root ++ p.segments) :=
    names_joined (fun name hname => (h.plain name hname).noSlash) p
  have hwalk : tree.walk linkLimit [] (names (joined root p)) =
      tree.walk linkLimit root p.segments := by
    rw [hnames, walk, if_pos (Or.inl rfl), walk_append h.real h.plain]
    rfl
  have hne : joined root p ≠ [] := by simp [joined]
  have htop : start [] (joined root p) = [] := ite_self []
  have htext : names p.text.toList = p.segments := p.pieces_slash_text
  have hstart : start root p.text.toList = root := if_neg p.head?_text_ne_slash
  simp only [FileTree.canonical, hnul, hne, p.text_toList_ne_nil, htop, hwalk, hstart, htext,
    if_false]

theorem Canonical.readJoined_eq (h : tree.Canonical root) (p : EnvPath) :
    tree.readJoined root p = tree.readEnvFile root p := by
  rw [readJoined, h.canonical_joined]
  exact (readEnvFile_eq tree root p).symm

theorem entering_of_mem_segments {p : EnvPath} : ∀ segment ∈ p.segments, Entering segment := by
  intro segment hsegment
  obtain ⟨hnil, hdot, hup, -⟩ := p.proper segment hsegment
  exact ⟨hnil, hdot, hup⟩

theorem LinkFree.readEnvFile_eq_ok_iff (h : tree.LinkFree root) {p : EnvPath}
    {bytes : ByteArray} :
    tree.readEnvFile root p = .ok bytes ↔
      (∀ segment ∈ p.segments, Nameable segment) ∧ tree.Descends root p.segments (.file bytes) := by
  rw [FileTree.readEnvFile_eq_ok_iff, canonical_text]
  by_cases hnul : p.segments.any (fun segment => '\x00' ∈ segment) = true
  · obtain ⟨segment, hsegment, hc⟩ := List.any_eq_true.mp hnul
    have hunnameable : ¬∀ segment ∈ p.segments, Nameable segment :=
      fun hall => (hall segment hsegment).1 (by simpa using hc)
    simp [hnul, hunnameable]
  · have hclean : ∀ segment ∈ p.segments, '\x00' ∉ segment := by simpa using hnul
    have hnameable : (∀ segment ∈ p.segments, Nameable segment) ↔
        ∀ segment ∈ p.segments, (String.ofList segment).utf8ByteSize ≤ nameLimit :=
      forall₂_congr fun segment hsegment => and_iff_right (hclean segment hsegment)
    rw [if_neg hnul, hnameable, ← h.walk_iff linkLimit entering_of_mem_segments]
    -- A place that is reached is the root with the segments below it.
    refine exists_congr fun place => and_congr_right fun hwalk => and_iff_right ?_
    rw [h.eq_of_walk entering_of_mem_segments hwalk]
    exact List.prefix_append _ _

theorem LinkFree.failsOnly_readEnvFile (h : tree.LinkFree root) (p : EnvPath) :
    FailsOnly (· ∈ [.nulInName, .nameTooLong, .notFound, .notDirectory, .notRegular p])
      (tree.readEnvFile root p) := by
  intro fault hfault
  unfold readEnvFile at hfault
  split_ifs at hfault with hnul
  · cases hfault
    simp
  · cases hwalk : tree.walk linkLimit root p.segments with
    | error found =>
      rw [hwalk] at hfault
      cases hfault
      have hlisted := h.failsOnly_walk entering_of_mem_segments fault hwalk
      simp only [List.mem_cons, List.not_mem_nil, or_false] at hlisted ⊢
      tauto
    | ok place =>
      have hinside : root.isPrefixOf place = true := by
        rw [h.eq_of_walk entering_of_mem_segments hwalk]
        exact List.isPrefixOf_iff_prefix.mpr (List.prefix_append _ _)
      simp only [hwalk, hinside, Bool.not_true, Bool.false_eq_true, if_false] at hfault
      split at hfault
      · cases hfault
      · cases hfault
        simp

/-- In a project without links an env file is what is found by descending from the root
through the segments of its path. A path can be read exactly if that leads to a regular
file by names that the file system takes, and no reason to fail lies outside the root. The
path joined to the root and resolved from the top gives nothing else. -/
theorem reads_by_descent {tree : FileTree} {root : Place} (hroot : tree.Canonical root)
    (hfree : tree.LinkFree root) (p : EnvPath) :
    tree.readJoined root p = tree.readEnvFile root p ∧
      (∀ bytes, tree.readEnvFile root p = .ok bytes ↔
        (∀ segment ∈ p.segments, Nameable segment) ∧
          tree.Descends root p.segments (.file bytes)) ∧
      FailsOnly (· ∈ [.nulInName, .nameTooLong, .notFound, .notDirectory, .notRegular p])
        (tree.readEnvFile root p) :=
  ⟨hroot.readJoined_eq p, fun _ => hfree.readEnvFile_eq_ok_iff, hfree.failsOnly_readEnvFile p⟩

/-- A project with a link next to it and none in it, and with a special file. -/
def plainTree : FileTree where
  entries := [
    (["srv".toList], .directory),
    (["srv".toList, "shop".toList], .directory),
    (["srv".toList, "shop".toList, "conf".toList], .directory),
    (["srv".toList, "shop".toList, "conf".toList, "base".toList], .file "MODE=full".toUTF8),
    (["srv".toList, "shop".toList, "conf".toList, "pipe".toList], .special),
    (["srv".toList, "current".toList], .link "/srv/shop".toList)]

def baseFile : EnvPath :=
  ⟨["conf".toList, "base".toList], by simp, by decide +kernel⟩

/-- A path through a file. -/
def belowBaseFile : EnvPath :=
  ⟨["conf".toList, "base".toList, "more".toList], by simp, by decide +kernel⟩

def pipeFile : EnvPath :=
  ⟨["conf".toList, "pipe".toList], by simp, by decide +kernel⟩

theorem canonical_sharedRoot : plainTree.Canonical sharedRoot := by
  have hsrv : plainTree.Real ["srv".toList] := (real_top _).append rfl rfl (by simp)
  have hreal : plainTree.Real sharedRoot := hsrv.append rfl rfl (by simp)
  refine ⟨hreal, fun name hname => ?_⟩
  simp only [sharedRoot, List.mem_cons, List.not_mem_nil, or_false] at hname
  rcases hname with rfl | rfl
  all_goals exact ⟨by simp [Entering], by simp, by simp, by decide +kernel⟩

theorem plainTree_linkFree : plainTree.LinkFree sharedRoot := by
  intro place hplace target hentry
  have hne : place ≠ [] := by
    rintro rfl
    simp [sharedRoot] at hplace
  unfold entry? at hentry
  rw [if_neg hne, List.lookup_eq_some_iff] at hentry
  obtain ⟨before, after, hsplit, -⟩ := hentry
  have hmem : (place, FileEntry.link target) ∈ plainTree.entries := by simp [hsplit]
  simp only [plainTree, List.mem_cons, Prod.mk.injEq, reduceCtorEq, and_false, false_or,
    List.not_mem_nil, or_false] at hmem
  rw [hmem.1] at hplace
  exact absurd hplace (by decide)

theorem plainTree_descends :
    plainTree.Descends sharedRoot baseFile.segments (.file "MODE=full".toUTF8) :=
  .enter rfl (.enter rfl (.arrive rfl))

theorem plainTree_reads_by_descent :
    plainTree.Canonical sharedRoot ∧ plainTree.LinkFree sharedRoot ∧
      plainTree.readEnvFile sharedRoot baseFile = .ok "MODE=full".toUTF8 ∧
      plainTree.readJoined sharedRoot baseFile = .ok "MODE=full".toUTF8 ∧
      (∀ bytes, plainTree.readEnvFile sharedRoot belowBaseFile ≠ .ok bytes) ∧
      ∀ bytes, plainTree.readEnvFile sharedRoot pipeFile ≠ .ok bytes := by
  obtain ⟨hjoined, hread, -⟩ := reads_by_descent canonical_sharedRoot plainTree_linkFree baseFile
  obtain ⟨-, hbelow, -⟩ := reads_by_descent canonical_sharedRoot plainTree_linkFree belowBaseFile
  obtain ⟨-, hpipe, -⟩ := reads_by_descent canonical_sharedRoot plainTree_linkFree pipeFile
  have hbase : plainTree.readEnvFile sharedRoot baseFile = .ok "MODE=full".toUTF8 := by
    refine (hread _).mpr ⟨?_, plainTree_descends⟩
    simp only [baseFile, List.mem_cons, List.not_mem_nil, or_false, forall_eq_or_imp, forall_eq]
    exact ⟨⟨by simp, by decide +kernel⟩, by simp, by decide +kernel⟩
  refine ⟨canonical_sharedRoot, plainTree_linkFree, hbase, hjoined.trans hbase,
    fun bytes h => ?_, fun bytes h => ?_⟩
  -- The base file is no directory, so nothing is reached below it.
  · obtain ⟨-, hdescends⟩ := (hbelow bytes).mp h
    have hdirectory := (descends_cons_iff.mp (descends_cons_iff.mp
      (descends_cons_iff.mp hdescends).2).2).1
    cases hdirectory
  -- The pipe is reached, but it is no regular file.
  · obtain ⟨-, hdescends⟩ := (hpipe bytes).mp h
    have hentry := (descends_cons_iff.mp (descends_cons_iff.mp hdescends).2).2
    cases hentry with
    | arrive hfile => cases hfile

end FileTree

end ContainerStack
