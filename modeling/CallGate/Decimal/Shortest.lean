import CallGate.Decimal.Basic

/-!
# The shortest decimal that reads back

A finite single-precision number is written with the fewest digits that read back to it, and of
those with the decimal nearest to it. Grids of decimals are tried from one digit on; on each grid
only the two neighbours of the number can be the nearest one that reads back.

- `Decimal.Halfway`: which neighbour is taken when both read back and neither is nearer.
- `Decimal.onGrid?`: the decimal of one grid.
- `Decimal.shortest`: the decimal of the first grid that has one.
- `Single.decimal?`: the decimal a number is written with, none for what is not finite.
-/

namespace CallGate

namespace Decimal

/-- What is taken when a number lies halfway between two neighbours that both read back. -/
inductive Halfway where
  /-- The neighbour further from zero. -/
  | away
  /-- The neighbour with the even last digit. -/
  | even
  deriving DecidableEq

/-- Whether the upper neighbour of a halfway number is taken, by the lower one. -/
def Halfway.takesUpper : Halfway → (lower : Nat) → Bool
  | .away, _ => true
  | .even, lower => lower % 2 = 1

/-- The power of ten of the leading digit of `units`, which are not zero. Even one unit times
`10 ^ 45` is above 1, so the whole part shows where the digits begin. -/
def leadingPower (units : Nat) : Int :=
  (Nat.toDigits 10 (units * tenTo 45 / Single.unitsOfOne)).length - 46

/-- The nearest multiple of `10 ^ grid` that reads back to a rank, if one does. -/
def onGrid? (halfway : Halfway) (rank : Nat) (grid : Int) : Option Nat :=
  let num := Single.units rank * tenTo (-grid)
  let den := Single.unitsOfOne * tenTo grid
  let lower := num / den
  let excess := 2 * (num % den)
  let upperIsNearer := den < excess ∨ (den = excess ∧ halfway.takesUpper lower)
  if nearestRank lower grid = rank then
    if nearestRank (lower + 1) grid = rank ∧ upperIsNearer then some (lower + 1) else some lower
  else if nearestRank (lower + 1) grid = rank then some (lower + 1)
  else none

/-- The exact decimal of a magnitude: half of one place is five of the next. -/
def exact (negative : Bool) (rank : Nat) : Decimal :=
  ⟨negative, Single.units rank * Nat.pow 5 149, -149⟩

/-- The shortest decimal that reads back to a magnitude. The grids tried have the leading digit and
up to eight further ones, which are enough for every rank; the exact decimal stands in where no grid
is left. -/
def shortest (halfway : Halfway) (negative : Bool) (rank : Nat) : Decimal :=
  let top := leadingPower (Single.units rank)
  let found? (further : Nat) : Option Decimal :=
    (onGrid? halfway rank (top - further)).map fun significand =>
      ⟨negative, significand, top - further⟩
  ((List.range 9).findSome? found?).getD (exact negative rank)

end Decimal

/-- The shortest decimal that reads back to a finite number, nearest to it and without final zeros.
A zero keeps its sign. -/
def Single.decimal? (halfway : Decimal.Halfway) : Single → Option Decimal
  | .finite negative rank =>
    if rank.val = 0 then some ⟨negative, 0, 0⟩
    else some (Decimal.shortest halfway negative rank).trim
  | _ => none

end CallGate
