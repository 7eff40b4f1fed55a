import ContainerStack.Number.Double
import ContainerStack.Number.Shortest
import ContainerStack.Text.Digit

/-!
Numbers of a document: exact integers and doubles. A literal without point and
exponent whose value fits 64 bits, signed or unsigned, is an integer; any other
literal is a double, near its value but not always the nearest. An integer
prints as its digits. A double prints as its shortest digits, always with a
point or an exponent, in positional form from 1e-5 up to but excluding 1e16.
-/

namespace ContainerStack

inductive Number where
  | int (value : Int)
  | double (value : Double)
deriving DecidableEq

namespace Number

/-- The exact value is the first part times two to the second. -/
def dyadic : Number → Int × Int
  | .int n => (n, 0)
  | .double d => (if d.isNegative then -(d.significand : Int) else d.significand, d.scale)

/-- Orders numbers by exact value, so an integer equals the double of its value. -/
def compareValue (x y : Number) : Ordering :=
  let (m, p) := x.dyadic
  let (n, q) := y.dyadic
  compare (m * Int.pow 2 (p - q).toNat) (n * Int.pow 2 (q - p).toNat)

def isInteger : Number → Bool
  | .int _ => true
  | .double _ => false

def isNegativeZero (x : Number) : Bool :=
  x == .double .negativeZero

/-- How a double is laid out: the mark before a nonnegative exponent. -/
structure Layout where
  exponentPlus : String
deriving DecidableEq

def intChars (n : Int) : List Char :=
  if n < 0 then '-' :: Nat.toDigits 10 n.natAbs else Nat.toDigits 10 n.natAbs

/-- Positional form for a leading digit at `10 ^ -5` to `10 ^ 15`, else exponent form. -/
def decimalChars (layout : Layout) (x : Decimal) : List Char :=
  let ds := Nat.toDigits 10 x.digits
  let lead : Int := x.exponent + ds.length - 1
  if -5 ≤ lead ∧ lead < 16 then
    if 0 ≤ x.exponent then ds ++ List.replicate x.exponent.toNat '0' ++ ['.', '0']
    else if 0 ≤ lead then
      ds.take (lead.toNat + 1) ++ ['.'] ++ ds.drop (lead.toNat + 1)
    else ['0', '.'] ++ List.replicate (-lead - 1).toNat '0' ++ ds
  else
    let fraction := match ds.drop 1 with
      | [] => []
      | more => '.' :: more
    let mark := if lead < 0 then [] else layout.exponentPlus.toList
    ds.take 1 ++ fraction ++ ['e'] ++ mark ++ intChars lead

def chars (layout : Layout) : Number → List Char
  | .int n => intChars n
  | .double d =>
    let body := decimalChars layout d.shortest
    if d.isNegative then '-' :: body else body

/-- The parts of a number literal: digits before and after the point and the
exponent, each of the last two possibly absent. -/
structure Literal where
  negative : Bool
  whole : List Char
  fraction : Option (List Char)
  exponent : Option Int

/-- Appends digits to a number while it fits 64 bits; the number and how many
digits are left over. -/
def appendDigits : Nat → List Char → Nat × Nat
  | n, [] => (n, 0)
  | n, c :: rest =>
    let m := 10 * n + Text.digitValue c
    if m < Nat.pow 2 64 then appendDigits m rest else (n, rest.length + 1)

/-- The double of a literal: the leading digits that fit 64 bits are rounded, and
then scaled by a power of ten. -/
def Literal.toDouble? (l : Literal) : Option Double :=
  let fraction := l.fraction.getD []
  let (whole, wholeLeft) := appendDigits 0 l.whole
  let (digits, fractionLeft) := appendDigits whole fraction
  Double.roundedDecimal? l.negative digits
    (l.exponent.getD 0 + wholeLeft + fractionLeft - fraction.length)

/-- A literal too large for a double has no number. The literal `-0` is the
negative zero. -/
def ofLiteral? (l : Literal) : Option Number :=
  let asDouble := l.toDouble?.map Number.double
  match l.fraction, l.exponent with
  | none, none =>
    let n : Int := Text.decimalValue l.whole
    let value := if l.negative then -n else n
    if l.negative && n == 0 then some (.double .negativeZero)
    else if -Int.pow 2 63 ≤ value ∧ value < Int.pow 2 64 then some (.int value)
    else asDouble
  | _, _ => asDouble

end Number

end ContainerStack
