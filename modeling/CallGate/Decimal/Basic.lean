import CallGate.Single.Rounding

/-!
# Decimals

- `Decimal`: a sign, a significand and a power of ten.
- `Decimal.tenTo`: the powers of ten that are natural numbers.
- `Decimal.toSingle`: the single-precision number nearest to a decimal, halfway the even one.
- `Decimal.trim`: the same decimal without final zeros in its significand.
-/

namespace CallGate

/-- The decimal `significand * 10 ^ exponent`, with a sign that zero has too. -/
structure Decimal where
  negative : Bool
  significand : Nat
  exponent : Int
  deriving DecidableEq

namespace Decimal

/-- The power of ten with an exponent, and 1 for a negative one. -/
def tenTo (exponent : Int) : Nat :=
  Nat.pow 10 exponent.toNat

/-- The rank of the single-precision magnitude nearest to `significand * 10 ^ exponent`. -/
def nearestRank (significand : Nat) (exponent : Int) : Nat :=
  Single.nearestRank (significand * tenTo exponent * Single.unitsOfOne) (tenTo (-exponent))

/-- The single-precision number nearest to a decimal. -/
def toSingle (d : Decimal) : Single :=
  Single.ofRank d.negative (nearestRank d.significand d.exponent)

/-- Moves at most `fuel` final zeros of the significand into the exponent. -/
def dropZeros : (fuel : Nat) → Decimal → Decimal
  | 0, d => d
  | fuel + 1, d =>
    if d.significand % 10 = 0 then
      dropZeros fuel { d with significand := d.significand / 10, exponent := d.exponent + 1 }
    else d

/-- The same decimal without final zeros in its significand, of which there are fewer than the
significand has binary digits. -/
def trim (d : Decimal) : Decimal :=
  dropZeros d.significand.log2 d

end Decimal

end CallGate
