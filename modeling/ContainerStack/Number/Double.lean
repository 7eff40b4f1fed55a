/-!
Finite double-precision numbers, held as their 64-bit patterns. A pattern is a
sign bit, an exponent field of eleven bits and a fraction field of fifty-two;
its value is a signed integer significand times a power of two. Quotients of
integers are rounded to the nearest double, ties to the even significand, in
exact integer arithmetic. Products and quotients of doubles are rounded so, and
decimals in two ways: exactly, or digits first and then times a power of ten.
-/

namespace ContainerStack

/-- A finite double. The exponent field 2047 marks the infinities and the
patterns that are no number, so it is excluded. -/
structure Double where
  bits : UInt64
  finite : bits.toNat / Nat.pow 2 52 % 2048 ≠ 2047
deriving DecidableEq

namespace Double

def isNegative (d : Double) : Bool :=
  d.bits.toNat / Nat.pow 2 63 == 1

def exponentField (d : Double) : Nat :=
  d.bits.toNat / Nat.pow 2 52 % 2048

def fractionField (d : Double) : Nat :=
  d.bits.toNat % Nat.pow 2 52

/-- The absolute value is `significand · 2 ^ scale`. -/
def significand (d : Double) : Nat :=
  if d.exponentField = 0 then d.fractionField else Nat.pow 2 52 + d.fractionField

def scale (d : Double) : Int :=
  if d.exponentField = 0 then -1074 else (d.exponentField : Int) - 1075

def ofBits? (bits : UInt64) : Option Double :=
  if h : bits.toNat / Nat.pow 2 52 % 2048 ≠ 2047 then some ⟨bits, h⟩ else none

def negativeZero : Double :=
  ⟨0x8000000000000000, by decide⟩

/-- The quotient `a · 2 ^ k / b`, rounded to the nearest integer, ties to even. -/
private def roundScaled (a b : Nat) (k : Int) : Nat :=
  let num := a * Nat.pow 2 k.toNat
  let den := b * Nat.pow 2 (-k).toNat
  let q := num / den
  let r := num % den
  if 2 * r > den || (2 * r == den && q % 2 == 1) then q + 1 else q

/-- The double nearest to `a / b`, with the given sign; `none` on overflow. -/
def nearestQuotient? (negative : Bool) (a b : Nat) : Option Double :=
  let signBit := if negative then Nat.pow 2 63 else 0
  if a = 0 then ofBits? (UInt64.ofNat signBit)
  else
    let guess : Int := max (-1074) ((Nat.log2 a : Int) - Nat.log2 b - 53)
    let scale := if a * Nat.pow 2 (-guess).toNat / (b * Nat.pow 2 guess.toNat) ≥ Nat.pow 2 53
      then guess + 1 else guess
    let rounded := roundScaled a b (-scale)
    let (significand, scale) :=
      if rounded = Nat.pow 2 53 then (Nat.pow 2 52, scale + 1) else (rounded, scale)
    if scale > 971 then none
    else if significand < Nat.pow 2 52 then ofBits? (UInt64.ofNat (signBit + significand))
    else
      ofBits? (UInt64.ofNat
        (signBit + (scale + 1075).toNat * Nat.pow 2 52 + (significand - Nat.pow 2 52)))

/-- The double nearest to `digits · 10 ^ exponent`, with the given sign. -/
def nearestDecimal? (negative : Bool) (digits : Nat) (exponent : Int) : Option Double :=
  let size : Int := (Nat.toDigits 10 digits).length + exponent
  if digits = 0 || size < -330 then nearestQuotient? negative 0 1
  else if size > 310 then none
  else
    nearestQuotient? negative (digits * Nat.pow 10 exponent.toNat) (Nat.pow 10 (-exponent).toNat)

/-- The numerator of the absolute value. -/
def numerator (d : Double) : Nat :=
  d.significand * Nat.pow 2 d.scale.toNat

/-- The denominator of the absolute value, a power of two. -/
def denominator (d : Double) : Nat :=
  Nat.pow 2 (-d.scale).toNat

/-- The rounded product, with the sign of the first factor; `none` on overflow. -/
def times? (d e : Double) : Option Double :=
  nearestQuotient? d.isNegative (d.numerator * e.numerator) (d.denominator * e.denominator)

/-- The rounded quotient, with the sign of the dividend; `none` on overflow. -/
def over? (d e : Double) : Option Double :=
  nearestQuotient? d.isNegative (d.numerator * e.denominator) (d.denominator * e.numerator)

/-- The greatest power of ten that a double can hold. -/
def greatestTen : Nat :=
  308

/-- The double nearest to a power of ten. -/
def powerOfTen? (n : Nat) : Option Double :=
  nearestQuotient? false (Nat.pow 10 n) 1

/-- Divides a double below `2 ^ 64` by a power of ten. A power that no double can
hold takes two rounded steps, and beyond those nothing but the sign is left. -/
def downByTens? (d : Double) (n : Nat) : Option Double :=
  if n ≤ greatestTen then (powerOfTen? n).bind d.over?
  else if n ≤ 2 * greatestTen then
    match (powerOfTen? greatestTen).bind d.over? with
    | none => none
    | some e => (powerOfTen? (n - greatestTen)).bind e.over?
  else nearestQuotient? d.isNegative 0 1

/-- Multiplies by a power of ten; `none` on overflow. -/
def upByTens? (d : Double) (n : Nat) : Option Double :=
  if n ≤ greatestTen then (powerOfTen? n).bind d.times?
  else if d.significand = 0 then some d
  else none

/-- Rounds the digits first, and then what they are times the power of ten. -/
def roundedDecimal? (negative : Bool) (digits : Nat) (exponent : Int) : Option Double :=
  match nearestQuotient? negative digits 1 with
  | none => none
  | some d => if exponent < 0 then d.downByTens? (-exponent).toNat else d.upByTens? exponent.toNat

end Double

end ContainerStack
