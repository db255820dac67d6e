import CallGate.Decimal.Shortest

/-!
# The written form of a decimal

A decimal is written positionally while the power of its leading digit stays within bounds, and
else with its leading digit before the point and that power as exponent.

- `Decimal.Layout`: the decisions of one written form.
- `Decimal.Layout.chars`: the written form.
-/

namespace CallGate.Decimal

/-- How decimals are written in one kind of text. -/
structure Layout where
  /-- The least leading power that is written positionally. -/
  plainFrom : Int
  /-- The greatest leading power that is written positionally. -/
  plainTo : Int
  /-- Whether an exponent that is not negative has a sign. -/
  plusSign : Bool
  /-- Which digits a number has that lies halfway between two decimals. -/
  halfway : Halfway

/-- The power of ten of a decimal's leading digit. -/
def leading (d : Decimal) : Int :=
  d.exponent + (Nat.toDigits 10 d.significand).length - 1

/-- Positional digits, with at least one on each side of the point. -/
def plainChars (d : Decimal) : List Char :=
  let places := (-d.exponent).toNat
  let digits := Nat.toDigits 10 d.significand ++ List.replicate d.exponent.toNat '0'
  let padded := List.replicate (places + 1 - digits.length) '0' ++ digits
  let fraction := padded.drop (padded.length - places)
  padded.take (padded.length - places) ++ '.' :: (if places = 0 then ['0'] else fraction)

/-- An exponent: a minus, or the plus where it is asked for, and digits. -/
def exponentChars (plusSign : Bool) (power : Int) : List Char :=
  (if power < 0 then ['-'] else if plusSign then ['+'] else []) ++ Nat.toDigits 10 power.natAbs

/-- The leading digit, a point and the other digits if there are any, and the exponent. -/
def scientificChars (plusSign : Bool) (d : Decimal) : List Char :=
  let digits := Nat.toDigits 10 d.significand
  let rest := digits.drop 1
  digits.take 1 ++ (if rest = [] then [] else '.' :: rest) ++
    'e' :: exponentChars plusSign d.leading

/-- The written form of a decimal. -/
def Layout.chars (layout : Layout) (d : Decimal) : List Char :=
  (if d.negative then ['-'] else []) ++
    if layout.plainFrom ≤ d.leading ∧ d.leading ≤ layout.plainTo then d.plainChars
    else d.scientificChars layout.plusSign

end CallGate.Decimal
