import ContainerStack.Template.Item
import ContainerStack.Text.Digit

/-!
Reading a template into its items, in one pass from left to right. Dollars are
taken in pairs, so a run of them refers to a variable only if its length is odd.
A body in braces ends at the brace that matches; without one the dollar is a
lone one and reading goes on at the opening brace.
-/

namespace ContainerStack.Template

open Text

def isNameStart (c : Char) : Bool :=
  isAsciiLetter c || c == '_'

def isNameChar (c : Char) : Bool :=
  isAsciiAlphanumeric c || c == '_'

/-- The longest name at the front, empty if there is none, and what follows it. -/
def splitName (cs : List Char) : List Char × List Char :=
  match cs with
  | [] => ([], [])
  | c :: _ =>
    if isNameStart c then (cs.takeWhile isNameChar, cs.dropWhile isNameChar) else ([], cs)

/-- The text up to the brace that closes it, and what follows that brace. A brace
opens a level only directly after a dollar. -/
def splitBody : (depth : Nat) → (previous : Char) → List Char →
    Option (List Char × List Char)
  | _, _, [] => none
  | depth, previous, c :: rest =>
    if c = '{' ∧ previous = '$' then
      (splitBody (depth + 1) c rest).map fun (body, after) => (c :: body, after)
    else if c = '}' then
      match depth with
      | 0 => some ([], rest)
      | depth + 1 => (splitBody depth c rest).map fun (body, after) => (c :: body, after)
    else (splitBody depth c rest).map fun (body, after) => (c :: body, after)

theorem splitBody_lengths {depth : Nat} {previous : Char} {cs body after : List Char}
    (h : splitBody depth previous cs = some (body, after)) : after.length < cs.length := by
  induction cs generalizing depth previous body after with
  | nil => simp [splitBody] at h
  | cons c rest ih =>
    unfold splitBody at h
    split at h
    · obtain ⟨⟨b, a⟩, hrest, heq⟩ := Option.map_eq_some_iff.mp h
      simp only [Prod.mk.injEq] at heq
      rw [← heq.2]
      exact Nat.lt_succ_of_lt (ih hrest)
    · split at h
      · split at h
        · simp only [Option.some.injEq, Prod.mk.injEq] at h
          rw [← h.2]
          exact Nat.lt_succ_self _
        · obtain ⟨⟨b, a⟩, hrest, heq⟩ := Option.map_eq_some_iff.mp h
          simp only [Prod.mk.injEq] at heq
          rw [← heq.2]
          exact Nat.lt_succ_of_lt (ih hrest)
      · obtain ⟨⟨b, a⟩, hrest, heq⟩ := Option.map_eq_some_iff.mp h
        simp only [Prod.mk.injEq] at heq
        rw [← heq.2]
        exact Nat.lt_succ_of_lt (ih hrest)

/-- The item of a body in braces. -/
def itemOfBody (body : List Char) : Item :=
  match splitName body with
  | ([], _) => .invalid body
  | (name, []) => .braced name
  | (name, ':' :: '-' :: word) => .modified name .orWordIfEmpty word
  | (name, ':' :: '?' :: word) => .modified name .requiredNonempty word
  | (name, '-' :: word) => .modified name .orWord word
  | (name, '?' :: word) => .modified name .required word
  | _ => .invalid body

/-- The item that a dollar begins, and the text after it. -/
def itemAfterDollar (cs : List Char) : Item × List Char :=
  match cs with
  | '$' :: rest => (.dollar, rest)
  | '{' :: rest =>
    match splitBody 0 '\x00' rest with
    | some (body, after) => (itemOfBody body, after)
    | none => (.lone, cs)
  | _ =>
    match splitName cs with
    | ([], _) => (.lone, cs)
    | (name, after) => (.bare name, after)

theorem splitName_length_le (cs : List Char) : (splitName cs).2.length ≤ cs.length := by
  unfold splitName
  split
  · exact Nat.le_refl _
  · split
    · exact (List.dropWhile_sublist isNameChar).length_le
    · exact Nat.le_refl _

theorem itemAfterDollar_length_le (cs : List Char) :
    (itemAfterDollar cs).2.length ≤ cs.length := by
  unfold itemAfterDollar
  split
  · simp
  · rename_i rest
    split
    · rename_i hbody
      have := splitBody_lengths hbody
      simp only [List.length_cons]
      omega
    · exact Nat.le_refl _
  · have hname := splitName_length_le cs
    split
    · exact Nat.le_refl _
    · rename_i heq
      rw [heq] at hname
      exact hname

def isPlain (c : Char) : Bool :=
  c != '$'

/-- The items of a template. -/
def items (cs : List Char) : List Item :=
  match cs with
  | [] => []
  | c :: rest =>
    if isPlain c then .plain (c :: rest.takeWhile isPlain) :: items (rest.dropWhile isPlain)
    else (itemAfterDollar rest).1 :: items (itemAfterDollar rest).2
termination_by cs.length
decreasing_by
  · exact Nat.lt_succ_of_le (List.dropWhile_sublist isPlain).length_le
  · exact Nat.lt_succ_of_le (itemAfterDollar_length_le rest)

/-- The items of a written template. -/
def ofString (template : String) : List Item :=
  items template.toList

end ContainerStack.Template
