import ContainerStack.Format.Port
import ContainerStack.Proofs.Text.Decimal
import ContainerStack.Proofs.Text.Pattern

/-!
The texts of port mappings. A mapping holds the ports of the container, one or a range,
and a transport if there is one. In front of them may stand the ports of the host, of
which the first may be left out, and in front of these the address that they belong to. A
text is accepted exactly when some mapping is written so, although a text of many digits
and colons can be cut in several ways.
-/

namespace ContainerStack.Format

open Text

/-- A decimal digit of any script. -/
def Digit (c : Char) : Prop :=
  isDecimalDigit c = true

/-- The digits of a script are the ten characters from its zero on. -/
theorem digit_iff {c : Char} :
    Digit c ↔ ∃ first ∈ digitZeros, first ≤ c.toNat ∧ c.toNat < first + 10 := by
  simp only [Digit, isDecimalDigit, List.any_eq_true, Bool.and_eq_true, decide_eq_true_eq]

theorem digit_of_isAsciiDigit {c : Char} (h : isAsciiDigit c = true) : Digit c := by
  obtain ⟨hzero, hnine⟩ := isAsciiDigit_iff.mp h
  exact digit_iff.mpr ⟨0x30, List.mem_cons_self, hzero, by omega⟩

abbrev Digits :=
  NonemptyRun Digit

def AddressChar (c : Char) : Prop :=
  ('a' ≤ c ∧ c ≤ 'f') ∨ ('A' ≤ c ∧ c ≤ 'F') ∨ Digit c ∨ c = '.' ∨ c = ':'

/-- The upper end of a range, behind its dash. -/
def rangeEndChars (last : Option Digits) : List Char :=
  last.elim [] fun digits => '-' :: digits.chars

/-- Ports of the host. The first may be empty, also in front of a range. -/
structure HostPorts where
  address : Option (NonemptyRun AddressChar)
  first : CharRun Digit
  last : Option Digits

inductive Transport where
  | udp
  | tcp

structure PortMapping where
  host : Option HostPorts
  first : Digits
  last : Option Digits
  transport : Option Transport

/-- The form is `[address:][first][-last]:`. -/
def HostPorts.chars (h : HostPorts) : List Char :=
  (h.address.elim [] fun address => address.chars ++ [':']) ++
    (h.first.chars ++ (rangeEndChars h.last ++ [':']))

def Transport.chars : Transport → List Char
  | .udp => ['/', 'u', 'd', 'p']
  | .tcp => ['/', 't', 'c', 'p']

/-- The form is `[host]first[-last][/udp or /tcp]`. -/
def PortMapping.chars (m : PortMapping) : List Char :=
  m.host.elim [] HostPorts.chars ++
    (m.first.chars ++ (rangeEndChars m.last ++ m.transport.elim [] Transport.chars))

theorem isAddressChar_iff (c : Char) : isAddressChar c = true ↔ AddressChar c := by
  simp only [isAddressChar, AddressChar, Digit, Bool.or_eq_true, Bool.and_eq_true,
    decide_eq_true_eq, beq_iff_eq, or_assoc]

theorem spells_digits : (Pattern.several digit).Spells fun digits : Digits => digits.chars :=
  Pattern.spells_nonemptyRun fun _ => Iff.rfl

theorem spells_rangeEnd : rangeEnd.Spells rangeEndChars :=
  (spells_digits.after_char '-').optional

theorem spells_hostPorts : hostPorts.Spells HostPorts.chars := by
  have haddress : hostAddress.Spells fun address : NonemptyRun AddressChar =>
      address.chars ++ [':'] :=
    (Pattern.spells_nonemptyRun isAddressChar_iff).before_char ':'
  have hfirst : (Pattern.many digit).Spells fun run : CharRun Digit => run.chars :=
    Pattern.spells_run fun _ => Iff.rfl
  have hparts := haddress.optional.both (hfirst.both (spells_rangeEnd.before_char ':'))
  exact hparts.of_surjective (e := fun h => (h.address, h.first, h.last))
    (fun ⟨address, first, last⟩ => ⟨⟨address, first, last⟩, rfl⟩) fun _ => rfl

theorem spells_transport : transport.Spells Transport.chars := by
  have hnames := (Pattern.spells_word ['u', 'd', 'p']).either (Pattern.spells_word ['t', 'c', 'p'])
  refine (hnames.after_char '/').of_surjective
    (e := fun | .udp => .inl () | .tcp => .inr ()) ?_ ?_
  · intro side
    cases side with
    | inl _ => exact ⟨.udp, rfl⟩
    | inr _ => exact ⟨.tcp, rfl⟩
  · intro t
    cases t <;> rfl

theorem spells_portMapping : portMapping.Spells PortMapping.chars := by
  have hparts := spells_hostPorts.optional.both
    (spells_digits.both (spells_rangeEnd.both spells_transport.optional))
  exact hparts.of_surjective (e := fun m => (m.host, m.first, m.last, m.transport))
    (fun ⟨host, first, last, transport⟩ => ⟨⟨host, first, last, transport⟩, rfl⟩) fun _ => rfl

theorem isPortMapping_iff {s : String} :
    isPortMapping s = true ↔ ∃ m : PortMapping, m.chars = s.toList := by
  rw [isPortMapping, Pattern.accepts_iff, spells_portMapping]

end ContainerStack.Format
