import ContainerStack.Number.Double

/-!
The shortest decimal that reads back. The decimals that round to a double form
an interval around it, closed exactly when the significand is even. On each
decimal grid, from coarse to fine, the two neighbours of the double are tested
against that interval; the first grid with a hit gives the fewest digits, and
of two hits the nearer one is taken. All comparisons are exact.
-/

namespace ContainerStack

/-- The nonnegative value `digits · 10 ^ exponent`. -/
structure Decimal where
  digits : Nat
  exponent : Int
deriving DecidableEq

namespace Decimal

/-- Moves trailing zeros of the digits into the exponent, at most `fuel`. -/
def stripZeros : Nat → Decimal → Decimal
  | 0, d => d
  | fuel + 1, d =>
    if d.digits ≠ 0 ∧ d.digits % 10 = 0
    then stripZeros fuel ⟨d.digits / 10, d.exponent + 1⟩ else d

end Decimal

namespace Double

/-- Compares `x · 2 ^ k` with `y · 10 ^ p`. -/
private def compareScaled (x : Nat) (k : Int) (y : Nat) (p : Int) : Ordering :=
  compare (x * Nat.pow 2 k.toNat * Nat.pow 10 (-p).toNat)
    (y * Nat.pow 10 p.toNat * Nat.pow 2 (-k).toNat)

/-- Whether `y · 10 ^ p` rounds to `d`. -/
private def roundsTo (d : Double) (y : Nat) (p : Int) : Bool :=
  let m := d.significand
  let k := d.scale - 2
  let low := if m = Nat.pow 2 52 ∧ d.scale > -1074 then 4 * m - 1 else 4 * m - 2
  let closed := m % 2 == 0
  let aboveLow := compareScaled low k y p
  let belowHigh := compareScaled (4 * m + 2) k y p
  (aboveLow == .lt || (closed && aboveLow == .eq)) &&
    (belowHigh == .gt || (closed && belowHigh == .eq))

/-- A multiple of `10 ^ p` that rounds to `d`, the nearest if there are two. -/
private def onGrid? (d : Double) (p : Int) : Option Decimal :=
  let num := d.significand * Nat.pow 2 d.scale.toNat * Nat.pow 10 (-p).toNat
  let den := Nat.pow 10 p.toNat * Nat.pow 2 (-d.scale).toNat
  let below := num / den
  let above := below + 1
  match below ≠ 0 && roundsTo d below p, roundsTo d above p with
  | true, true =>
    let twiceRest := 2 * (num % den)
    if twiceRest < den || (twiceRest == den && below % 2 == 0)
    then some ⟨below, p⟩ else some ⟨above, p⟩
  | true, false => some ⟨below, p⟩
  | false, true => some ⟨above, p⟩
  | false, false => none

/-- The shortest decimal that rounds to the absolute value of `d`. -/
def shortest (d : Double) : Decimal :=
  if d.significand = 0 then ⟨0, 0⟩
  else
    let top : Int := ((Nat.log2 d.significand : Int) + d.scale) * 30103 / 100000 + 1
    match (List.range 22).findSome? fun (i : Nat) => onGrid? d (top - (i : Int)) with
    | some found => found.stripZeros 20
    | none => ⟨0, 0⟩

end Double

end ContainerStack
