import ContainerStack.FileTree
import Mathlib.Data.List.Infix
import Mathlib.Logic.Relation

/-!
Walking through a tree, one move for each name: a name leads to what is there, a link
to where its target leads. A place is real when only directories lead to it and it is no
link itself; moves go from real places to real places, so a walk ends at one however
many links it follows and wherever they point. The way depends on what kind of entry is
where, and not on what files contain.
-/

namespace ContainerStack

namespace FileTree

variable {tree other : FileTree} {here place : Place} {links : Nat} {todo : List (List Char)}

theorem isDirectory_iff : tree.isDirectory place = true ↔ tree.entry? place = some .directory := by
  unfold isDirectory
  split
  · rename_i h
    simp [h]
  · rename_i h
    simpa using h

/-- A place that a walk is at, with the names that it has still to follow. -/
abbrev Stage := Place × List (List Char)

/-- A name that is not a way of staying or of going up. -/
def Entering (name : List Char) : Prop :=
  name ≠ [] ∧ name ≠ ['.'] ∧ name ≠ ['.', '.']

/-- One move of a walk, which is always made from a directory. -/
inductive Move (tree : FileTree) : Stage → Stage → Prop
  | stay {here name rest} (hdirectory : tree.isDirectory here = true)
      (hname : name = [] ∨ name = ['.']) : Move tree (here, name :: rest) (here, rest)
  | up {here rest} (hdirectory : tree.isDirectory here = true) :
      Move tree (here, ['.', '.'] :: rest) (here.dropLast, rest)
  | follow {here name rest target} (hdirectory : tree.isDirectory here = true)
      (hname : Entering name) (hentry : tree.entry? (here ++ [name]) = some (.link target)) :
      Move tree (here, name :: rest) (start here target, names target ++ rest)
  | enter {here name rest entry} (hdirectory : tree.isDirectory here = true)
      (hname : Entering name) (hentry : tree.entry? (here ++ [name]) = some entry)
      (hlink : ∀ target, entry ≠ .link target) :
      Move tree (here, name :: rest) (here ++ [name], rest)

/-- The names lead from one place to the other when all links are followed. -/
def Leads (tree : FileTree) (here : Place) (todo : List (List Char)) (place : Place) : Prop :=
  Relation.ReflTransGen (Move tree) (here, todo) (place, [])

/-- The name and what is there decide the next move. -/
theorem rightUnique_move : Relator.RightUnique (Move tree) := by
  intro s t u ht hu
  cases ht with
  | stay => cases hu <;> grind [Entering]
  | up => cases hu <;> grind [Entering]
  | follow => cases hu <;> grind [Entering]
  | enter => cases hu <;> grind [Entering]

/-- There is at most one place that names lead to. -/
theorem Leads.unique {p q : Place} (hp : tree.Leads here todo p) (hq : tree.Leads here todo q) :
    p = q := by
  have hdone : ∀ {p q : Place}, Relation.ReflTransGen (Move tree) (p, []) (q, []) → p = q := by
    intro p q hmoves
    rcases Relation.ReflTransGen.cases_head hmoves with heq | ⟨next, hmove, -⟩
    · exact congrArg Prod.fst heq
    · cases hmove
  rcases Relation.ReflTransGen.total_of_right_unique rightUnique_move hp hq with hmoves | hmoves
  · exact hdone hmoves
  · exact (hdone hmoves).symm

/-- A walk that arrives has gone where the names lead. -/
theorem leads_of_walk (h : tree.walk links here todo = .ok place) :
    tree.Leads here todo place := by
  fun_induction tree.walk links here todo with
  | case1 =>
    cases h
    exact .refl
  | case2 | case5 | case6 | case7 => cases h
  | case3 links here name rest hdirectory hname ih =>
    exact (ih h).head (.stay (by simpa using hdirectory) hname)
  | case4 links here rest hdirectory hname ih =>
    exact (ih h).head (.up (by simpa using hdirectory))
  | case8 here name rest hdirectory hname hup hlong target hentry links ih =>
    exact (ih h).head (.follow (by simpa using hdirectory) ⟨by tauto, by tauto, hup⟩ hentry)
  | case9 links here name rest hdirectory hname hup hlong entry hlink hentry ih =>
    exact (ih h).head (.enter (by simpa using hdirectory) ⟨by tauto, by tauto, hup⟩ hentry hlink)

/-- Directories lead to the place, and what is there is no link. -/
structure Real (tree : FileTree) (place : Place) : Prop where
  above : ∀ upper, upper <+: place → upper ≠ place → tree.entry? upper = some .directory
  there : ∃ entry, tree.entry? place = some entry ∧ ∀ target, entry ≠ .link target

theorem real_top (tree : FileTree) : tree.Real [] := by
  refine ⟨fun upper hupper hne => absurd (List.prefix_nil.mp hupper) hne, .directory, rfl, ?_⟩
  simp

/-- What leads to a real place is real. -/
theorem Real.of_prefix (h : tree.Real place) (hhere : here <+: place) : tree.Real here := by
  by_cases heq : here = place
  · exact heq ▸ h
  · refine ⟨fun upper hupper _ => h.above upper (hupper.trans hhere) ?_, .directory,
      h.above here hhere heq, by simp⟩
    rintro rfl
    exact heq (hhere.eq_of_length_le hupper.length_le)

theorem Real.append {name : List Char} {entry : FileEntry} (h : tree.Real here)
    (hdirectory : tree.isDirectory here = true) (hentry : tree.entry? (here ++ [name]) = some entry)
    (hlink : ∀ target, entry ≠ .link target) : tree.Real (here ++ [name]) := by
  refine ⟨fun upper hupper hne => ?_, entry, hentry, hlink⟩
  have hprefix : upper <+: here := (List.prefix_concat_iff.mp hupper).resolve_left hne
  by_cases heq : upper = here
  · exact heq ▸ isDirectory_iff.mp hdirectory
  · exact h.above upper hprefix heq

/-- A path starts where it is written or, if it is absolute, at the top. -/
theorem Real.start (h : tree.Real here) (path : List Char) :
    tree.Real (FileTree.start here path) := by
  unfold FileTree.start
  split
  · exact tree.real_top
  · exact h

theorem Real.move {s t : Stage} (h : tree.Real s.1) (hmove : Move tree s t) : tree.Real t.1 := by
  cases hmove with
  | stay => exact h
  | up => exact h.of_prefix (List.dropLast_prefix _)
  | follow => exact h.start _
  | enter hdirectory _ hentry hlink => exact h.append hdirectory hentry hlink

/-- Names lead from real places to real places only. -/
theorem Real.leads (h : tree.Real here) (hleads : tree.Leads here todo place) :
    tree.Real place := by
  have hstages : ∀ s t : Stage, Relation.ReflTransGen (Move tree) s t → tree.Real s.1 →
      tree.Real t.1 := by
    intro s t hmoves hs
    induction hmoves with
    | refl => exact hs
    | tail _ hmove ih => exact ih.move hmove
  exact hstages _ _ hleads h

/-- The same entries at the same places, but for what files contain. -/
def SameLayout (tree other : FileTree) : Prop :=
  ∀ place, other.entry? place = tree.entry? place ∨ ∃ bytes found,
    tree.entry? place = some (.file bytes) ∧ other.entry? place = some (.file found)

namespace SameLayout

theorem isDirectory_eq (h : tree.SameLayout other) (place : Place) :
    other.isDirectory place = tree.isDirectory place := by
  unfold isDirectory
  rcases h place with heq | ⟨bytes, found, hfile, hfound⟩
  · rw [heq]
  · rw [hfile, hfound]

theorem entry?_eq (h : tree.SameLayout other) (place : Place)
    (hfile : ∀ bytes, tree.entry? place ≠ some (.file bytes)) :
    other.entry? place = tree.entry? place := by
  rcases h place with heq | ⟨bytes, found, hbytes, -⟩
  · exact heq
  · exact absurd hbytes (hfile bytes)

/-- Walks go the same way and fail for the same reasons. -/
theorem walk_eq (h : tree.SameLayout other) (links : Nat) (here : Place)
    (todo : List (List Char)) : other.walk links here todo = tree.walk links here todo := by
  fun_induction tree.walk links here todo with
  | case1 => rw [walk]
  | case2 links here name rest hdirectory => rw [walk, h.isDirectory_eq, if_pos hdirectory]
  | case3 links here name rest hdirectory hname ih =>
    rw [walk, h.isDirectory_eq, if_neg hdirectory, if_pos hname, ih]
  | case4 links here rest hdirectory hname ih =>
    rw [walk, h.isDirectory_eq, if_neg hdirectory, if_neg hname, if_pos rfl, ih]
  | case5 links here name rest hdirectory hname hup hlong =>
    rw [walk, h.isDirectory_eq, if_neg hdirectory, if_neg hname, if_neg hup, if_pos hlong]
  | case6 links here name rest hdirectory hname hup hlong hentry =>
    have hother := h.entry?_eq (here ++ [name]) (by simp [hentry])
    rw [walk, h.isDirectory_eq, if_neg hdirectory, if_neg hname, if_neg hup, if_neg hlong, hother,
      hentry]
  | case7 here name rest hdirectory hname hup hlong target hentry =>
    have hother := h.entry?_eq (here ++ [name]) (by simp [hentry])
    rw [walk, h.isDirectory_eq, if_neg hdirectory, if_neg hname, if_neg hup, if_neg hlong, hother,
      hentry]
  | case8 here name rest hdirectory hname hup hlong target hentry links ih =>
    have hother := h.entry?_eq (here ++ [name]) (by simp [hentry])
    rw [walk, h.isDirectory_eq, if_neg hdirectory, if_neg hname, if_neg hup, if_neg hlong, hother,
      hentry]
    exact ih
  | case9 links here name rest hdirectory hname hup hlong entry hlink hentry ih =>
    -- What is there may be a file with another content, but it is no link either.
    have hother : ∃ found, other.entry? (here ++ [name]) = some found ∧
        ∀ target, found ≠ .link target := by
      rcases h (here ++ [name]) with heq | ⟨bytes, found, -, hfound⟩
      · exact ⟨entry, heq.trans hentry, hlink⟩
      · exact ⟨.file found, hfound, by simp⟩
    obtain ⟨found, hfound, hnolink⟩ := hother
    rw [walk, h.isDirectory_eq, if_neg hdirectory, if_neg hname, if_neg hup, if_neg hlong, hfound]
    split
    · rename_i heq
      cases heq
    · rename_i target heq
      exact absurd (Option.some.inj heq) (hnolink target)
    · exact ih

theorem canonical_eq (h : tree.SameLayout other) (here : Place) (path : List Char) :
    other.canonical here path = tree.canonical here path := by
  rw [canonical, canonical, h.walk_eq]

end SameLayout

end FileTree

end ContainerStack
