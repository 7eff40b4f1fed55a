import ContainerStack.Text.Digit
import Mathlib.Data.List.Basic
import Mathlib.Data.List.Induction

/-!
Numbers in decimal. The digits of a number are read as the number, and a run of digits
that does not begin with a zero is the digits of what it is read as. Zeros in front of a
run change nothing, so every run is some zeros in front of the digits of its value.
-/

namespace ContainerStack.Text

theorem isAsciiDigit_iff {c : Char} : isAsciiDigit c = true ↔ 48 ≤ c.toNat ∧ c.toNat ≤ 57 := by
  have hzero : '0' ≤ c ↔ 48 ≤ c.toNat := UInt32.le_iff_toNat_le
  have hnine : c ≤ '9' ↔ c.toNat ≤ 57 := UInt32.le_iff_toNat_le
  rw [isAsciiDigit, Bool.and_eq_true, decide_eq_true_eq, decide_eq_true_eq, hzero, hnine]

theorem isAsciiDigit_of_mem_toDigits {n : ℕ} {c : Char} (h : c ∈ Nat.toDigits 10 n) :
    isAsciiDigit c = true := by
  have hc := Nat.isDigit_of_mem_toDigits (by decide) (by decide) h
  rw [Char.isDigit, Bool.and_eq_true, decide_eq_true_eq, decide_eq_true_eq] at hc
  exact isAsciiDigit_iff.mpr ⟨UInt32.le_iff_toNat_le.mp hc.1, UInt32.le_iff_toNat_le.mp hc.2⟩

theorem digitValue_lt {c : Char} (h : isAsciiDigit c = true) : digitValue c < 10 := by
  have hc := isAsciiDigit_iff.mp h
  have hzero : '0'.toNat = 48 := rfl
  rw [digitValue, hzero]
  omega

theorem digitChar_digitValue {c : Char} (h : isAsciiDigit c = true) :
    Nat.digitChar (digitValue c) = c := by
  have hc := isAsciiDigit_iff.mp h
  have hzero : '0'.toNat = 48 := rfl
  refine Char.toNat_inj.mp ?_
  rw [Nat.toNat_digitChar_of_lt_ten (digitValue_lt h), digitValue, hzero]
  omega

theorem decimalValue_toDigits (n : ℕ) : decimalValue (Nat.toDigits 10 n) = n :=
  Nat.ofDigitChars_ten_toDigits

theorem decimalValue_concat (cs : List Char) (c : Char) :
    decimalValue (cs ++ [c]) = 10 * decimalValue cs + digitValue c := by
  rw [decimalValue, List.foldl_append]
  rfl

/-- Zeros in front of a number do not count. -/
theorem decimalValue_zeros_append (zeros : ℕ) (cs : List Char) :
    decimalValue (List.replicate zeros '0' ++ cs) = decimalValue cs := by
  induction zeros with
  | zero => rfl
  | succ zeros ih => exact ih

/-- A run of digits without a leading zero is the digits of its value. -/
theorem toDigits_decimalValue {cs : List Char} (hdigits : ∀ c ∈ cs, isAsciiDigit c = true)
    (hne : cs ≠ []) (hlead : cs.head? ≠ some '0') : Nat.toDigits 10 (decimalValue cs) = cs := by
  induction cs using List.reverseRecOn with
  | nil => exact absurd rfl hne
  | append_singleton front c ih =>
    obtain ⟨hfront, hc⟩ := List.forall_mem_append.mp hdigits
    rw [List.forall_mem_singleton] at hc
    rw [decimalValue_concat]
    by_cases hnil : front = []
    · subst hnil
      rw [show decimalValue [] = 0 from rfl, Nat.mul_zero, Nat.zero_add,
        Nat.toDigits_of_lt_base (digitValue_lt hc), digitChar_digitValue hc, List.nil_append]
    · rw [List.head?_append_of_ne_nil _ hnil] at hlead
      have hdecimal := ih hfront hnil hlead
      -- The front has a value, for that of zero would begin with a zero.
      have hpos : 0 < decimalValue front := by
        rw [Nat.pos_iff_ne_zero]
        intro hzero
        rw [hzero, Nat.toDigits_zero] at hdecimal
        exact hlead (by rw [← hdecimal]; rfl)
      rw [← Nat.toDigits_append_toDigits (by decide) hpos (digitValue_lt hc), hdecimal,
        Nat.toDigits_of_lt_base (digitValue_lt hc), digitChar_digitValue hc]

/-- The digits of a number behind some zeros are the nonempty runs with its value. -/
theorem exists_zeros_toDigits_iff {n : ℕ} {cs : List Char} :
    (∃ zeros, List.replicate zeros '0' ++ Nat.toDigits 10 n = cs) ↔
      cs ≠ [] ∧ (∀ c ∈ cs, isAsciiDigit c = true) ∧ decimalValue cs = n := by
  constructor
  · intro h
    obtain ⟨zeros, rfl⟩ := h
    refine ⟨List.append_ne_nil_of_right_ne_nil _ Nat.toDigits_ne_nil, ?_, ?_⟩
    · refine List.forall_mem_append.mpr ⟨fun c hc => ?_, fun c hc => ?_⟩
      · rw [List.eq_of_mem_replicate hc]
        decide
      · exact isAsciiDigit_of_mem_toDigits hc
    · rw [decimalValue_zeros_append, decimalValue_toDigits]
  · rintro ⟨hne, hdigits, rfl⟩
    induction cs with
    | nil => exact absurd rfl hne
    | cons c rest ih =>
      by_cases hc : c = '0'
      · subst hc
        cases rest with
        | nil => exact ⟨0, rfl⟩
        | cons d others =>
          obtain ⟨zeros, hrest⟩ := ih (List.cons_ne_nil _ _) (List.forall_mem_cons.mp hdigits).2
          exact ⟨zeros + 1, congrArg (List.cons '0') hrest⟩
      · exact ⟨0, toDigits_decimalValue hdigits hne (by simpa using hc)⟩

end ContainerStack.Text
