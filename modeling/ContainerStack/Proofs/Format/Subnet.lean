import ContainerStack.Format.Subnet
import ContainerStack.Proofs.Text
import ContainerStack.Proofs.Text.Decimal
import ContainerStack.Proofs.Text.Pattern
import Mathlib.Data.Set.List

/-!
The texts of subnets. An IPv4 address is written as four numbers below 256 in decimal, and
an IPv6 address as groups of hexadecimal digits, of which an IPv4 address may stand for
the last two and a double colon for those that eight groups want. The format accepts
exactly these addresses, each with a bit count that is not above its width; but it also
accepts the bit count behind a plus sign, which is no part of the notation.
-/

namespace ContainerStack.Format

open Text

structure IPv4 where
  bytes : List (Fin 256)
  length_eq : bytes.length = 4

/-- The bytes in decimal, without leading zeros and with points between them. -/
def IPv4.chars (a : IPv4) : List Char :=
  ['.'].intercalate (a.bytes.map fun b => Nat.toDigits 10 b.val)

def HexDigit (c : Char) : Prop :=
  ('0' ≤ c ∧ c ≤ '9') ∨ ('a' ≤ c ∧ c ≤ 'f') ∨ ('A' ≤ c ∧ c ≤ 'F')

instance (c : Char) : Decidable (HexDigit c) :=
  inferInstanceAs (Decidable (_ ∨ _))

/-- One to four hexadecimal digits. -/
structure Group extends NonemptyRun HexDigit where
  length_le : chars.length ≤ 4

/-- Groups, with an IPv4 address behind them if there is one. -/
structure GroupRun where
  groups : List Group
  tail : Option IPv4

def GroupRun.parts (r : GroupRun) : List (List Char) :=
  (r.groups.map fun g => g.chars) ++ r.tail.elim [] fun a => [a.chars]

def GroupRun.chars (r : GroupRun) : List Char :=
  [':'].intercalate r.parts

/-- The number of groups that the run stands for. -/
def GroupRun.size (r : GroupRun) : ℕ :=
  r.groups.length + r.tail.elim 0 fun _ => 2

/-- All eight groups, or fewer on the two sides of a double colon. -/
inductive IPv6 where
  | full (run : GroupRun) (size_eq : run.size = 8)
  | shortened (before : List Group) (after : GroupRun)
      (size_le : before.length + after.size ≤ 7)

def IPv6.chars : IPv6 → List Char
  | .full run _ => run.chars
  | .shortened before after _ => GroupRun.chars ⟨before, none⟩ ++ ':' :: ':' :: after.chars

inductive Address where
  | v4 (a : IPv4)
  | v6 (a : IPv6)

def Address.chars : Address → List Char
  | .v4 a => a.chars
  | .v6 a => a.chars

def Address.width : Address → ℕ
  | .v4 _ => 32
  | .v6 _ => 128

/-- A subnet in CIDR notation. The bit count may have zeros in front of it. -/
structure Cidr where
  address : Address
  zeros : ℕ
  bits : ℕ
  bits_le : bits ≤ address.width

def Cidr.bitChars (n : Cidr) : List Char :=
  List.replicate n.zeros '0' ++ Nat.toDigits 10 n.bits

def Cidr.chars (n : Cidr) : List Char :=
  n.address.chars ++ '/' :: n.bitChars

/-- The same subnet with a plus sign in front of the bit count. -/
def Cidr.signedChars (n : Cidr) : List Char :=
  n.address.chars ++ '/' :: '+' :: n.bitChars

theorem exists_map_eq_iff {α β : Type} {f : α → β} {ys : List β} :
    (∃ xs : List α, xs.map f = ys) ↔ ∀ y ∈ ys, ∃ x, f x = y :=
  Set.ext_iff.mp (Set.range_list_map f) ys

theorem mem_intercalate {sep c : Char} {parts : List (List Char)}
    (h : c ∈ [sep].intercalate parts) : c = sep ∨ ∃ p ∈ parts, c ∈ p := by
  induction parts with
  | nil => simp at h
  | cons first rest ih =>
    cases rest with
    | nil => exact .inr ⟨first, List.mem_cons_self, by simpa using h⟩
    | cons second others =>
      rw [List.intercalate_cons_cons, List.append_assoc, List.mem_append, List.mem_append,
        List.mem_singleton] at h
      rcases h with hfirst | hsep | hrest
      · exact .inr ⟨first, List.mem_cons_self, hfirst⟩
      · exact .inl hsep
      · rcases ih hrest with hsep | ⟨p, hp, hc⟩
        · exact .inl hsep
        · exact .inr ⟨p, List.mem_cons_of_mem _ hp, hc⟩

section IPv4

theorem isByteText_iff {cs : List Char} :
    isByteText cs = true ↔ ∃ b : Fin 256, Nat.toDigits 10 b.val = cs := by
  constructor
  · intro h
    simp only [isByteText, Bool.and_eq_true, Bool.not_eq_true', List.isEmpty_eq_false_iff,
      List.all_eq_true, Bool.or_eq_true, beq_iff_eq, bne_iff_ne, decide_eq_true_eq] at h
    obtain ⟨⟨⟨⟨hne, -⟩, hdigits⟩, hlead⟩, hlt⟩ := h
    refine ⟨⟨decimalValue cs, hlt⟩, ?_⟩
    rcases hlead with hone | hlead
    · obtain ⟨c, rfl⟩ := List.length_eq_one_iff.mp hone
      have hc := hdigits c List.mem_cons_self
      have hvalue : decimalValue [c] = digitValue c := Nat.zero_add _
      simp only [hvalue]
      rw [Nat.toDigits_of_lt_base (digitValue_lt hc), digitChar_digitValue hc]
    · exact toDigits_decimalValue hdigits hne hlead
  · have hbytes : ∀ b : Fin 256, isByteText (Nat.toDigits 10 b.val) = true := by decide +kernel
    intro h
    obtain ⟨b, rfl⟩ := h
    exact hbytes b

theorem isIPv4_iff {cs : List Char} : isIPv4 cs = true ↔ ∃ a : IPv4, a.chars = cs := by
  simp only [isIPv4, Bool.and_eq_true, beq_iff_eq, List.all_eq_true, isByteText_iff,
    ← exists_map_eq_iff]
  constructor
  · intro h
    obtain ⟨hlength, bytes, hbytes⟩ := h
    refine ⟨⟨bytes, by rw [← hlength, ← hbytes, List.length_map]⟩, ?_⟩
    rw [IPv4.chars, hbytes, intercalate_pieces]
  · intro h
    obtain ⟨a, rfl⟩ := h
    have hne : (a.bytes.map fun b => Nat.toDigits 10 b.val) ≠ [] := by
      rw [← List.length_pos_iff, List.length_map, a.length_eq]
      decide
    have hpieces : pieces (· == '.') a.chars = a.bytes.map fun b => Nat.toDigits 10 b.val := by
      refine pieces_intercalate hne fun p hp hpoint => ?_
      obtain ⟨b, -, rfl⟩ := List.mem_map.mp hp
      exact absurd (isAsciiDigit_of_mem_toDigits hpoint) (by decide)
    exact ⟨by rw [hpieces, List.length_map, a.length_eq], a.bytes, hpieces.symm⟩

theorem IPv4.mem_chars {a : IPv4} {c : Char} (h : c ∈ a.chars) : HexDigit c ∨ c = '.' := by
  rcases mem_intercalate h with hpoint | ⟨p, hp, hc⟩
  · exact .inr hpoint
  · obtain ⟨b, -, rfl⟩ := List.mem_map.mp hp
    exact .inl (.inl (by simpa [isAsciiDigit] using isAsciiDigit_of_mem_toDigits hc))

end IPv4

section IPv6

theorem isHexDigit_iff {c : Char} : isHexDigit c = true ↔ HexDigit c := by
  simp only [isHexDigit, hexValue?, HexDigit, isAsciiDigit, Bool.and_eq_true, decide_eq_true_eq]
  split
  · simp [*]
  · split
    · simp [*]
    · split <;> simp [*]

theorem isGroup_iff {cs : List Char} : isGroup cs = true ↔ ∃ g : Group, g.chars = cs := by
  simp only [isGroup, Bool.and_eq_true, Bool.not_eq_true', List.isEmpty_eq_false_iff,
    decide_eq_true_eq, List.all_eq_true, isHexDigit_iff]
  constructor
  · intro h
    obtain ⟨⟨hne, hlength⟩, hdigits⟩ := h
    exact ⟨⟨⟨⟨cs, hdigits⟩, hne⟩, hlength⟩, rfl⟩
  · rintro ⟨g, rfl⟩
    exact ⟨⟨g.ne_nil, g.length_le⟩, g.allowed⟩

/-- An address with its points is no group. -/
theorem isGroup_of_isIPv4 {cs : List Char} (h : isIPv4 cs = true) : isGroup cs = false := by
  by_contra hgroup
  obtain ⟨g, rfl⟩ := isGroup_iff.mp (by simpa using hgroup)
  have hpoint : ∀ c ∈ g.chars, (c == '.') = false := by
    intro c hc
    rw [beq_eq_false_iff_ne]
    rintro rfl
    exact absurd (g.allowed '.' hc) (by decide)
  simp [isIPv4, pieces_of_notSep hpoint] at h

/-- Between the colons of a run stands some text. -/
theorem GroupRun.clean (r : GroupRun) : ∀ p ∈ r.parts, p ≠ [] ∧ ':' ∉ p := by
  refine List.forall_mem_append.mpr ⟨fun p hp => ?_, fun p hp => ?_⟩
  · obtain ⟨g, -, rfl⟩ := List.mem_map.mp hp
    exact ⟨g.ne_nil, fun hcolon => absurd (g.allowed ':' hcolon) (by decide)⟩
  · cases htail : r.tail with
    | none => simp [htail] at hp
    | some a =>
      rw [htail, Option.elim_some, List.mem_singleton] at hp
      subst hp
      refine ⟨fun hnil => ?_, fun hcolon => ?_⟩
      · have hread := isIPv4_iff.mpr ⟨a, rfl⟩
        rw [hnil] at hread
        contradiction
      · rcases a.mem_chars hcolon with hdigit | hpoint
        · contradiction
        · contradiction

/-- The texts between the colons; the empty text has none. -/
def colonParts (cs : List Char) : List (List Char) :=
  if cs.isEmpty then [] else pieces (· == ':') cs

theorem colonParts_eq_iff {cs : List Char} {parts : List (List Char)}
    (hclean : ∀ p ∈ parts, p ≠ [] ∧ ':' ∉ p) :
    colonParts cs = parts ↔ [':'].intercalate parts = cs := by
  constructor
  · rintro rfl
    rw [colonParts]
    split
    · rename_i hempty
      rw [List.isEmpty_iff.mp hempty, List.intercalate_nil]
    · exact intercalate_pieces ':' cs
  · rintro rfl
    cases parts with
    | nil => rfl
    | cons first rest =>
      have hpieces := pieces_intercalate (List.cons_ne_nil first rest) fun p hp => (hclean p hp).2
      have hne : [':'].intercalate (first :: rest) ≠ [] := by
        intro hnil
        rw [hnil, pieces, List.cons.injEq] at hpieces
        exact (hclean first List.mem_cons_self).1 hpieces.1.symm
      rw [colonParts, if_neg (by simpa using hne), hpieces]

theorem groupCount?_eq_some_iff {cs : List Char} {n : ℕ} :
    groupCount? cs = some n ↔
      ∃ groups : List Group, groups.length = n ∧ GroupRun.chars ⟨groups, none⟩ = cs := by
  have hcount : groupCount? cs =
      if (colonParts cs).all isGroup then some (colonParts cs).length else none := by
    unfold groupCount? colonParts
    split <;> simp
  have hrun : ∀ groups : List Group, GroupRun.chars ⟨groups, none⟩ = cs ↔
      (groups.map fun g => g.chars) = colonParts cs := by
    intro groups
    have hparts : GroupRun.parts ⟨groups, none⟩ = groups.map fun g => g.chars :=
      List.append_nil _
    rw [GroupRun.chars, ← colonParts_eq_iff (GroupRun.clean _), hparts, eq_comm]
  simp only [hcount, hrun, Option.ite_none_right_eq_some, List.all_eq_true, isGroup_iff,
    ← exists_map_eq_iff, Option.some.injEq]
  constructor
  · intro h
    obtain ⟨⟨groups, hgroups⟩, hlength⟩ := h
    exact ⟨groups, by rw [← hlength, ← hgroups, List.length_map], hgroups⟩
  · intro h
    obtain ⟨groups, rfl, hgroups⟩ := h
    exact ⟨⟨groups, hgroups⟩, by rw [← hgroups, List.length_map]⟩

/-- The last part of a run is a group or an IPv4 address, and the others are groups. -/
theorem exists_run_concat_iff {front : List (List Char)} {last : List Char} {n : ℕ} :
    (∃ r : GroupRun, r.size = n ∧ r.parts = front ++ [last]) ↔
      (∀ p ∈ front, isGroup p = true) ∧
        (isGroup last = true ∧ front.length + 1 = n ∨
          isIPv4 last = true ∧ front.length + 2 = n) := by
  simp only [isGroup_iff, ← exists_map_eq_iff, isIPv4_iff]
  constructor
  · rintro ⟨⟨groups, _ | a⟩, rfl, hparts⟩
    · simp only [GroupRun.parts, Option.elim_none, List.append_nil] at hparts
      obtain ⟨others, lasts, rfl, hfront, hlast⟩ := List.map_eq_append_iff.mp hparts
      obtain ⟨g, rfl, hg⟩ := List.map_eq_singleton_iff.mp hlast
      refine ⟨⟨others, hfront⟩, .inl ⟨⟨g, hg⟩, ?_⟩⟩
      simp [GroupRun.size, ← hfront]
    · obtain ⟨hfront, hlast⟩ := List.append_inj' hparts rfl
      refine ⟨⟨groups, hfront⟩, .inr ⟨⟨a, List.singleton_inj.mp hlast⟩, ?_⟩⟩
      simp [GroupRun.size, ← hfront]
  · rintro ⟨⟨groups, rfl⟩, ⟨⟨g, rfl⟩, rfl⟩ | ⟨⟨a, rfl⟩, rfl⟩⟩
    · exact ⟨⟨groups ++ [g], none⟩, by simp [GroupRun.size], by simp [GroupRun.parts]⟩
    · exact ⟨⟨groups, some a⟩, by simp [GroupRun.size], by simp [GroupRun.parts]⟩

theorem groupCountWithTail?_eq_some_iff {cs : List Char} {n : ℕ} :
    groupCountWithTail? cs = some n ↔ ∃ r : GroupRun, r.size = n ∧ r.chars = cs := by
  have hrun : ∀ r : GroupRun, r.chars = cs ↔ r.parts = colonParts cs := by
    intro r
    rw [GroupRun.chars, ← colonParts_eq_iff r.clean, eq_comm]
  simp only [hrun]
  by_cases hcs : cs = []
  · subst hcs
    constructor
    · intro h
      exact ⟨⟨[], none⟩, Option.some.inj h, rfl⟩
    · rintro ⟨⟨groups, tail⟩, rfl, hparts⟩
      obtain ⟨hgroups, htail⟩ := List.append_eq_nil_iff.mp hparts
      obtain rfl : groups = [] := List.map_eq_nil_iff.mp hgroups
      cases tail with
      | none => rfl
      | some a => simp at htail
  · have hparts : colonParts cs = pieces (· == ':') cs := if_neg (by simpa using hcs)
    obtain ⟨front, last, hsplit⟩ :=
      (List.eq_nil_or_concat (pieces (· == ':') cs)).resolve_left (pieces_ne_nil _ cs)
    rw [List.concat_eq_append] at hsplit
    rw [hparts, hsplit, exists_run_concat_iff, groupCountWithTail?,
      if_neg (by simpa using hcs)]
    simp only [hsplit, List.dropLast_concat, List.getLast?_concat, List.length_append,
      List.length_singleton, List.all_eq_true]
    by_cases hfront : ∀ p ∈ front, isGroup p = true
    · rw [if_pos hfront, and_iff_right hfront]
      cases hipv4 : isIPv4 last with
      | true => simp [isGroup_of_isIPv4 hipv4]
      | false => simp
    · simp [hfront]

theorem splitDoubleColon_cons {c : Char} {rest : List Char}
    (h : ¬(c = ':' ∧ rest.head? = some ':')) :
    splitDoubleColon (c :: rest) = (splitDoubleColon rest).map fun x => (c :: x.1, x.2) := by
  rw [splitDoubleColon]
  rintro others rfl rfl
  exact h ⟨rfl, rfl⟩

theorem splitDoubleColon_append {text : List Char} (htext : ':' ∉ text) (rest : List Char) :
    splitDoubleColon (text ++ rest) =
      (splitDoubleColon rest).map fun x => (text ++ x.1, x.2) := by
  induction text with
  | nil => simp
  | cons c others ih =>
    rw [List.mem_cons, not_or] at htext
    obtain ⟨hc, hothers⟩ := htext
    rw [List.cons_append, splitDoubleColon_cons fun h => hc h.1.symm, ih hothers, Option.map_map]
    rfl

/-- No double colon ends within a run, so the first one is found behind it. -/
theorem splitDoubleColon_run (r : GroupRun) (rest : List Char) :
    splitDoubleColon (r.chars ++ rest) =
      (splitDoubleColon rest).map fun x => (r.chars ++ x.1, x.2) := by
  have hclean := r.clean
  rw [GroupRun.chars]
  generalize r.parts = parts at hclean
  induction parts with
  | nil => simp
  | cons first others ih =>
    obtain ⟨⟨-, hfirst⟩, hothers⟩ := List.forall_mem_cons.mp hclean
    cases others with
    | nil =>
      rw [List.intercalate_singleton]
      exact splitDoubleColon_append hfirst rest
    | cons second more =>
      -- The colon behind the first part is a single one, as the second part is not empty.
      have hnext : ([':'].intercalate (second :: more) ++ rest).head? ≠ some ':' := by
        obtain ⟨hne, hsecond⟩ := hothers second List.mem_cons_self
        obtain ⟨c, cs, rfl⟩ := List.exists_cons_of_ne_nil hne
        have hhead : ([':'].intercalate ((c :: cs) :: more) ++ rest).head? = some c := by
          cases more <;> simp [List.intercalate_cons_cons]
        rw [hhead, ne_eq, Option.some.injEq]
        rintro rfl
        exact hsecond List.mem_cons_self
      rw [List.intercalate_cons_cons, List.append_assoc, List.append_assoc,
        splitDoubleColon_append hfirst, List.singleton_append,
        splitDoubleColon_cons fun h => hnext h.2, ih hothers, Option.map_map, Option.map_map]
      simp [Function.comp_def]

theorem eq_of_splitDoubleColon {cs before after : List Char}
    (h : splitDoubleColon cs = some (before, after)) : cs = before ++ ':' :: ':' :: after := by
  fun_induction splitDoubleColon cs generalizing before with
  | case1 rest =>
    simp only [Option.some.injEq, Prod.mk.injEq] at h
    obtain ⟨rfl, rfl⟩ := h
    rfl
  | case2 c rest _ ih =>
    obtain ⟨⟨front, back⟩, hrest, heq⟩ := Option.map_eq_some_iff.mp h
    simp only [Prod.mk.injEq] at heq
    obtain ⟨rfl, rfl⟩ := heq
    rw [ih hrest, List.cons_append]
  | case3 => cases h

theorem isIPv6_iff {cs : List Char} : isIPv6 cs = true ↔ ∃ a : IPv6, a.chars = cs := by
  constructor
  · intro h
    unfold isIPv6 at h
    split at h
    · rw [beq_iff_eq] at h
      obtain ⟨r, hsize, hr⟩ := groupCountWithTail?_eq_some_iff.mp h
      exact ⟨.full r hsize, hr⟩
    · rename_i before after hsplit
      split at h
      · rename_i m n hbefore hafter
        obtain ⟨groups, rfl, hgroups⟩ := groupCount?_eq_some_iff.mp hbefore
        obtain ⟨r, rfl, hr⟩ := groupCountWithTail?_eq_some_iff.mp hafter
        refine ⟨.shortened groups r (by simpa using h), ?_⟩
        rw [IPv6.chars, hgroups, hr, eq_of_splitDoubleColon hsplit]
      · contradiction
  · intro h
    obtain ⟨a, rfl⟩ := h
    cases a with
    | full r hsize =>
      have hsplit := splitDoubleColon_run r []
      rw [List.append_nil] at hsplit
      have hcount := groupCountWithTail?_eq_some_iff.mpr ⟨r, hsize, rfl⟩
      simp only [isIPv6, IPv6.chars, hsplit, splitDoubleColon, Option.map_none, hcount, beq_self_eq_true]
    | shortened groups r hsize =>
      have hsplit := splitDoubleColon_run ⟨groups, none⟩ (':' :: ':' :: r.chars)
      have hbefore := groupCount?_eq_some_iff.mpr ⟨groups, rfl, rfl⟩
      have hafter := groupCountWithTail?_eq_some_iff.mpr ⟨r, rfl, rfl⟩
      simp only [splitDoubleColon, Option.map_some, List.append_nil] at hsplit
      simp only [isIPv6, IPv6.chars, hsplit, hbefore, hafter, decide_eq_true_eq, hsize]

/-- An IPv6 address has a colon, so it is never an IPv4 address as well. -/
theorem IPv6.colon_mem (a : IPv6) : ':' ∈ a.chars := by
  cases a with
  | full r hsize =>
    have hlength : 2 ≤ r.parts.length := by
      cases htail : r.tail <;> simp [GroupRun.size, GroupRun.parts, htail] at hsize ⊢ <;> omega
    rw [IPv6.chars, GroupRun.chars]
    match r.parts, hlength with
    | first :: second :: others, _ =>
      rw [List.intercalate_cons_cons]
      exact List.mem_append_left _ (List.mem_append_right _ List.mem_cons_self)
  | shortened groups r _ =>
    rw [IPv6.chars]
    exact List.mem_append_right _ List.mem_cons_self

theorem GroupRun.mem_chars {r : GroupRun} {c : Char} (h : c ∈ r.chars) :
    HexDigit c ∨ c = '.' ∨ c = ':' := by
  rcases mem_intercalate h with hcolon | ⟨p, hp, hc⟩
  · exact .inr (.inr hcolon)
  · rcases List.mem_append.mp hp with hgroups | htail
    · obtain ⟨g, -, rfl⟩ := List.mem_map.mp hgroups
      exact .inl (g.allowed c hc)
    · cases hr : r.tail with
      | none => simp [hr] at htail
      | some a =>
        rw [hr, Option.elim_some, List.mem_singleton] at htail
        subst htail
        exact (a.mem_chars hc).imp_right .inl

end IPv6

section Cidr

/-- A written address has hexadecimal digits, points and colons alone. -/
theorem Address.mem_chars {a : Address} {c : Char} (h : c ∈ a.chars) :
    HexDigit c ∨ c = '.' ∨ c = ':' := by
  rcases a with a | (⟨r, _⟩ | ⟨groups, r, _⟩)
  · exact (a.mem_chars h).imp_right .inl
  · exact GroupRun.mem_chars h
  · rcases List.mem_append.mp h with hbefore | hafter
    · exact GroupRun.mem_chars hbefore
    · simp only [List.mem_cons] at hafter
      rcases hafter with hcolon | hcolon | hafter
      · exact .inr (.inr hcolon)
      · exact .inr (.inr hcolon)
      · exact GroupRun.mem_chars hafter

/-- An address of each kind is tried with the width of its kind. -/
theorem exists_address_iff {cs : List Char} {n : ℕ} :
    (∃ a : Address, a.chars = cs ∧ n ≤ a.width) ↔
      (if isIPv4 cs then decide (n ≤ 32) else isIPv6 cs && decide (n ≤ 128)) = true := by
  constructor
  · rintro ⟨a | a, rfl, hn⟩
    · rw [Address.chars, if_pos (isIPv4_iff.mpr ⟨a, rfl⟩)]
      exact decide_eq_true hn
    · have hipv4 : isIPv4 a.chars ≠ true := by
        intro hread
        obtain ⟨b, hb⟩ := isIPv4_iff.mp hread
        have hcolon : ':' ∈ b.chars := hb ▸ a.colon_mem
        exact absurd (IPv4.mem_chars hcolon) (by decide)
      have hipv6 := isIPv6_iff.mpr ⟨a, rfl⟩
      rw [Address.chars, if_neg hipv4, Bool.and_eq_true]
      exact ⟨hipv6, decide_eq_true hn⟩
  · intro h
    split at h
    · rename_i hipv4
      obtain ⟨a, ha⟩ := isIPv4_iff.mp hipv4
      exact ⟨.v4 a, ha, of_decide_eq_true h⟩
    · rw [Bool.and_eq_true] at h
      obtain ⟨a, ha⟩ := isIPv6_iff.mp h.1
      exact ⟨.v6 a, ha, of_decide_eq_true h.2⟩

/-- A bit count may have zeros in front of it, and a plus sign in front of these. -/
theorem bitCount?_eq_some_iff {cs : List Char} {n : ℕ} :
    bitCount? cs = some n ↔ n < 256 ∧ ∃ zeros,
      List.replicate zeros '0' ++ Nat.toDigits 10 n = cs ∨
        '+' :: (List.replicate zeros '0' ++ Nat.toDigits 10 n) = cs := by
  have hread : ∀ ds : List Char,
      (if !ds.isEmpty && ds.all isAsciiDigit && decimalValue ds < 256
        then some (decimalValue ds) else none) = some n ↔
      n < 256 ∧ ∃ zeros, List.replicate zeros '0' ++ Nat.toDigits 10 n = ds := by
    intro ds
    simp only [exists_zeros_toDigits_iff, Option.ite_none_right_eq_some, Bool.and_eq_true,
      Bool.not_eq_true', List.isEmpty_eq_false_iff, List.all_eq_true, decide_eq_true_eq,
      Option.some.injEq]
    constructor
    · rintro ⟨⟨⟨hne, hdigits⟩, hlt⟩, rfl⟩
      exact ⟨hlt, hne, hdigits, rfl⟩
    · rintro ⟨hlt, hne, hdigits, rfl⟩
      exact ⟨⟨⟨hne, hdigits⟩, hlt⟩, rfl⟩
  rw [exists_or]
  unfold bitCount?
  split
  · rename_i rest
    have hunsigned : ¬∃ zeros, List.replicate zeros '0' ++ Nat.toDigits 10 n = '+' :: rest := by
      intro hzeros
      obtain ⟨-, hdigits, -⟩ := exists_zeros_toDigits_iff.mp hzeros
      exact absurd (hdigits '+' List.mem_cons_self) (by decide)
    simp only [hread, or_iff_right hunsigned, List.cons.injEq, true_and]
  · rename_i hsign
    have hunsigned : ¬∃ zeros,
        '+' :: (List.replicate zeros '0' ++ Nat.toDigits 10 n) = cs :=
      fun h => h.elim fun _ hcs => hsign _ hcs.symm
    rw [hread, or_iff_left hunsigned]

theorem isSubnet_iff {s : String} :
    isSubnet s = true ↔ ∃ n : Cidr, n.chars = s.toList ∨ n.signedChars = s.toList := by
  constructor
  · intro h
    unfold isSubnet at h
    split at h
    · contradiction
    · rename_i address bits hsplit
      split at h
      · contradiction
      · rename_i n hn
        obtain ⟨hs, -⟩ := splitFirst_eq_some_iff.mp hsplit
        obtain ⟨a, rfl, hwidth⟩ := exists_address_iff.mpr h
        obtain ⟨-, zeros, rfl | rfl⟩ := bitCount?_eq_some_iff.mp hn
        · exact ⟨⟨a, zeros, n, hwidth⟩, .inl hs.symm⟩
        · exact ⟨⟨a, zeros, n, hwidth⟩, .inr hs.symm⟩
  · have hread : ∀ (n : Cidr) (bits : List Char), bitCount? bits = some n.bits →
        s.toList = n.address.chars ++ '/' :: bits → isSubnet s = true := by
      intro n bits hbits hs
      have hslash : '/' ∉ n.address.chars := fun h => absurd (Address.mem_chars h) (by decide)
      rw [isSubnet, splitFirst_eq_some_iff.mpr ⟨hs, hslash⟩]
      simp only [hbits]
      exact exists_address_iff.mp ⟨n.address, rfl, n.bits_le⟩
    rintro ⟨n, hn⟩
    have hlt : n.bits < 256 := by
      have hwidth : n.address.width ≤ 128 := by
        unfold Address.width
        split <;> decide
      have hbits := n.bits_le
      omega
    rcases hn with hn | hn
    · exact hread n _ (bitCount?_eq_some_iff.mpr ⟨hlt, n.zeros, .inl rfl⟩) hn.symm
    · exact hread n _ (bitCount?_eq_some_iff.mpr ⟨hlt, n.zeros, .inr rfl⟩) hn.symm

theorem Cidr.plus_notMem (n : Cidr) : '+' ∉ n.chars := by
  intro h
  rcases List.mem_append.mp h with haddress | hbits
  · exact absurd (Address.mem_chars haddress) (by decide)
  · rcases List.mem_cons.mp hbits with hslash | hbits
    · contradiction
    · obtain ⟨-, hdigits, -⟩ := exists_zeros_toDigits_iff.mp ⟨n.zeros, rfl⟩
      exact absurd (hdigits '+' hbits) (by decide)

/-- The accepted texts are the subnets in CIDR notation, which are those without a plus
sign, and the same with one in front of the bit count. -/
theorem subnets_written (s : String) :
    (isSubnet s = true ↔ ∃ n : Cidr, n.chars = s.toList ∨ n.signedChars = s.toList) ∧
      ((∃ n : Cidr, n.chars = s.toList) ↔ isSubnet s = true ∧ '+' ∉ s.toList) := by
  refine ⟨isSubnet_iff, ?_⟩
  rw [isSubnet_iff]
  constructor
  · intro h
    obtain ⟨n, hn⟩ := h
    exact ⟨⟨n, .inl hn⟩, hn ▸ n.plus_notMem⟩
  · intro h
    obtain ⟨⟨n, hn | hn⟩, hplus⟩ := h
    · exact ⟨n, hn⟩
    · have hmem : '+' ∈ n.signedChars :=
        List.mem_append_right _ (List.mem_cons_of_mem _ List.mem_cons_self)
      exact absurd (hn ▸ hmem) hplus

/-- A signed bit count is accepted, though no subnet is written with one. -/
theorem not_cidr_plusSign :
    isSubnet "10.0.0.0/+8" = true ∧ ¬∃ n : Cidr, n.chars = "10.0.0.0/+8".toList := by
  refine ⟨by decide +kernel, ?_⟩
  rintro ⟨n, hn⟩
  exact n.plus_notMem (hn ▸ (by decide : '+' ∈ "10.0.0.0/+8".toList))

end Cidr

end ContainerStack.Format
