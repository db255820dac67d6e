import Mathlib.Order.Monotone.Basic
import Mathlib.Algebra.Order.Group.Nat
import CallGate.Single.Rounding

/-!
# Magnitudes and ranks

The magnitudes increase with the ranks, so a magnitude is rounded to the rank that it has, and what
is rounded may be scaled by the same factor above and below.

- `Single.strictMono_units`: the magnitudes increase.
- `Single.units_gap`, `Single.units_succ_lt`: how far neighbouring ones are apart, at least and at most.
- `Single.floorRank_units`: the rank below a magnitude is its own.
- `Single.nearestRank_units`: so is the nearest one.
- `Single.nearestRank_mul_left`: a factor in numerator and denominator changes nothing.
-/

namespace CallGate.Single

/-! ## Order of magnitudes -/

/-- A rank above the least ones is a significand of 24 bits above some dropped ones. -/
theorem exists_eq_mul_add {rank : Nat} (h : 0x800000 ≤ rank) :
    ∃ b m, 0x800000 ≤ m ∧ m < 0x1000000 ∧ rank = b * 0x800000 + m :=
  ⟨rank / 0x800000 - 1, 0x800000 + rank % 0x800000, by omega, by omega, by omega⟩

theorem units_lt_units_succ (rank : Nat) : units rank < units (rank + 1) := by
  by_cases small : rank < 0x800000
  · rw [units_of_lt small, units_of_le (by omega)]
    exact Nat.lt_succ_self rank
  · -- the next significand has the same bits dropped, also where it is a power of two
    obtain ⟨b, m, lo, hi, rfl⟩ := exists_eq_mul_add (Nat.le_of_not_lt small)
    rw [Nat.add_assoc, units_mul_add lo (Nat.le_of_lt hi), units_mul_add (by omega) hi,
      Nat.shiftLeft_eq, Nat.shiftLeft_eq]
    exact Nat.mul_lt_mul_of_pos_right (Nat.lt_succ_self m) (Nat.two_pow_pos b)

theorem strictMono_units : StrictMono units :=
  strictMono_nat_of_lt_succ units_lt_units_succ

/-- Neighbouring magnitudes differ by at least as much as a significand of 24 bits allows. -/
theorem units_gap (rank : Nat) :
    2 ^ 24 * units rank + units (rank + 1) ≤ 2 ^ 24 * units (rank + 1) := by
  by_cases small : rank < 0x800000
  · rw [units_of_lt small, units_of_le (by omega)]
    omega
  · obtain ⟨b, m, lo, hi, rfl⟩ := exists_eq_mul_add (Nat.le_of_not_lt small)
    rw [Nat.add_assoc, units_mul_add lo (Nat.le_of_lt hi), units_mul_add (by omega) hi,
      Nat.shiftLeft_eq, Nat.shiftLeft_eq, ← Nat.mul_assoc, ← Nat.mul_assoc, ← Nat.add_mul]
    exact Nat.mul_le_mul_right _ (by omega)

/-- From the tenth magnitude on they differ by less than two in nineteen. -/
theorem units_succ_lt {rank : Nat} (h : 10 ≤ rank) : 19 * units (rank + 1) < 21 * units rank := by
  by_cases small : rank < 0x800000
  · rw [units_of_lt small, units_of_le (by omega)]
    omega
  · obtain ⟨b, m, lo, hi, rfl⟩ := exists_eq_mul_add (Nat.le_of_not_lt small)
    rw [Nat.add_assoc, units_mul_add lo (Nat.le_of_lt hi), units_mul_add (by omega) hi,
      Nat.shiftLeft_eq, Nat.shiftLeft_eq, ← Nat.mul_assoc, ← Nat.mul_assoc]
    exact Nat.mul_lt_mul_of_pos_right (by omega) (Nat.two_pow_pos b)

/-- Of the ranks, the one below a number of units is the only one whose magnitude and next
magnitude lie on either side of it. -/
theorem floorRank_eq {rank whole : Nat} (hle : units rank ≤ whole)
    (hlt : whole < units (rank + 1)) : floorRank whole = rank := by
  have hbelow : units (floorRank whole) < units (rank + 1) :=
    lt_of_le_of_lt (units_floorRank_le whole) hlt
  have habove : units rank < units (floorRank whole + 1) :=
    lt_of_le_of_lt hle (lt_units_floorRank_succ whole)
  -- the magnitudes increase, so each rank is at most the other
  rw [strictMono_units.lt_iff_lt] at hbelow habove
  omega

/-- A magnitude is the last one not above itself. -/
theorem floorRank_units (rank : Nat) : floorRank (units rank) = rank :=
  floorRank_eq le_rfl (units_lt_units_succ rank)

/-! ## Rounding -/

/-- A magnitude is rounded to the rank that it has. -/
theorem nearestRank_units (rank : Nat) {den : Nat} (h : 0 < den) :
    nearestRank (units rank * den) den = rank := by
  have hwhole : units rank * den / den = units rank := Nat.mul_div_cancel _ h
  -- the distance to the lower rank is zero, and that to the next one is not
  have hgap : units rank * den < units (rank + 1) * den :=
    Nat.mul_lt_mul_of_pos_right (units_lt_units_succ rank) h
  unfold nearestRank
  rw [hwhole, floorRank_units, if_pos (.inl (by omega))]

/-- Zero is rounded to zero. -/
theorem nearestRank_zero {den : Nat} (h : 0 < den) : nearestRank 0 den = 0 := by
  have hzero := nearestRank_units 0 h
  rwa [units_of_lt (by decide), Nat.zero_mul] at hzero

/-- A factor of numerator and denominator changes nothing. -/
theorem nearestRank_mul_left {k : Nat} (hk : 0 < k) (num den : Nat) :
    nearestRank (k * num) (k * den) = nearestRank num den := by
  have hwhole : k * num / (k * den) = num / den := Nat.mul_div_mul_left _ _ hk
  have hunits (rank : Nat) : units rank * (k * den) = k * (units rank * den) :=
    Nat.mul_left_comm _ _ _
  unfold nearestRank
  simp only [hwhole, hunits, ← Nat.mul_sub, Nat.mul_lt_mul_left hk,
    Nat.mul_right_inj (Nat.ne_of_gt hk)]

end CallGate.Single
