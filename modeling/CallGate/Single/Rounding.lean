import CallGate.Single.Basic

/-!
# Rounding to single precision

An exact magnitude is a quotient of natural numbers, in units of `2 ^ -149`. It lies between two
neighbouring ranks; the nearer one is taken, and halfway the even one. The place after the last
finite magnitude counts as a rank of magnitude `2 ^ 128`, so what is rounded to it is an infinity.

- `Single.floorRank`: the last rank whose magnitude is not above a number of units.
- `Single.nearestRank`: the rank nearest to a quotient.
- `Single.round`: the number of a given sign nearest to a quotient.
- `Single.units_floorRank_le`, `Single.lt_units_floorRank_succ`: a number of units lies between the
  magnitudes at its `floorRank` and at the next rank.
-/

namespace CallGate.Single

/-! ## The rank below -/

/-- The last rank whose magnitude is at most `whole` units. Only the leading 24 bits count, and every
bit that is dropped adds `2 ^ 23` ranks. -/
def floorRank (whole : Nat) : Nat :=
  let dropped := whole.log2 - 23
  dropped * 0x800000 + whole >>> dropped

/-- Below the first exponent a magnitude is its rank in units. -/
theorem units_of_lt {rank : Nat} (h : rank < 0x800000) : units rank = rank := by
  rw [units, if_pos (Nat.div_eq_of_lt h)]

/-- A significand of 24 bits above `b` dropped ones, or the next power of two. -/
theorem units_mul_add {b m : Nat} (lo : 0x800000 ≤ m) (hi : m ≤ 0x1000000) :
    units (b * 0x800000 + m) = m <<< b := by
  -- twenty-five bits start the next exponent, with an empty fraction
  by_cases top : m = 0x1000000
  · have hq : (b * 0x800000 + m) / 0x800000 = b + 1 + 1 := by omega
    have hr : 0x800000 + (b * 0x800000 + m) % 0x800000 = 0x800000 := by omega
    rw [units, if_neg (by omega), hq, hr, Nat.add_sub_cancel, top, Nat.shiftLeft_succ_inside]
  · have hq : (b * 0x800000 + m) / 0x800000 = b + 1 := by omega
    have hr : 0x800000 + (b * 0x800000 + m) % 0x800000 = m := by omega
    rw [units, if_neg (by omega), hq, hr, Nat.add_sub_cancel]

/-- Up to `2 ^ 24` units every magnitude has its own rank. -/
theorem units_of_le {rank : Nat} (h : rank ≤ 0x1000000) : units rank = rank := by
  by_cases small : rank < 0x800000
  · exact units_of_lt small
  · simpa using units_mul_add (b := 0) (Nat.le_of_not_lt small) h

/-- Up to 24 bits nothing is dropped. -/
theorem floorRank_of_lt {whole : Nat} (h : whole < 0x1000000) : floorRank whole = whole := by
  have hb : whole.log2 - 23 = 0 := by
    by_cases h0 : whole = 0
    · subst h0; decide
    · have : whole.log2 < 24 := (Nat.log2_lt h0).2 h
      omega
  simp [floorRank, hb]

/-- From `2 ^ 24` units on, the leading 24 bits are a significand of the rank. -/
theorem exists_floorRank_eq {whole : Nat} (h : 0x1000000 ≤ whole) :
    ∃ b m, 0x800000 ≤ m ∧ m < 0x1000000 ∧ floorRank whole = b * 0x800000 + m ∧
      m <<< b ≤ whole ∧ whole < (m + 1) <<< b := by
  have h0 : whole ≠ 0 := by omega
  have hl : 23 ≤ whole.log2 := (Nat.le_log2 h0).2 (by omega)
  -- with `log2 - 23` bits dropped, exactly 24 leading bits are left
  have lo : 2 ^ (23 + (whole.log2 - 23)) ≤ whole := by
    rw [Nat.add_sub_cancel' hl]
    exact Nat.log2_self_le h0
  have hi : whole < 2 ^ (24 + (whole.log2 - 23)) := by
    have hs : 24 + (whole.log2 - 23) = whole.log2 + 1 := by omega
    rw [hs]
    exact Nat.lt_log2_self
  rw [Nat.pow_add] at lo hi
  refine ⟨whole.log2 - 23, whole >>> (whole.log2 - 23), ?_, ?_, rfl, ?_, ?_⟩
  · rw [Nat.shiftRight_eq_div_pow]
    exact (Nat.le_div_iff_mul_le (Nat.two_pow_pos _)).2 lo
  · rw [Nat.shiftRight_eq_div_pow]
    exact (Nat.div_lt_iff_lt_mul (Nat.two_pow_pos _)).2 hi
  · rw [Nat.shiftLeft_eq, Nat.shiftRight_eq_div_pow]
    exact Nat.div_mul_le_self _ _
  · rw [Nat.shiftLeft_eq, Nat.shiftRight_eq_div_pow, Nat.succ_mul]
    exact Nat.lt_div_mul_add (Nat.two_pow_pos _)

theorem units_floorRank_le (whole : Nat) : units (floorRank whole) ≤ whole := by
  by_cases small : whole < 0x1000000
  · have hf := floorRank_of_lt small
    have hu := units_of_le (Nat.le_of_lt small)
    exact Nat.le_of_eq (by rw [hf, hu])
  · obtain ⟨b, m, lo, hi, hf, hle, -⟩ := exists_floorRank_eq (Nat.le_of_not_lt small)
    rw [hf, units_mul_add lo (Nat.le_of_lt hi)]
    exact hle

theorem lt_units_floorRank_succ (whole : Nat) : whole < units (floorRank whole + 1) := by
  by_cases small : whole < 0x1000000
  · rw [floorRank_of_lt small, units_of_le small]
    exact Nat.lt_succ_self whole
  · obtain ⟨b, m, lo, hi, hf, -, hlt⟩ := exists_floorRank_eq (Nat.le_of_not_lt small)
    rw [hf, Nat.add_assoc, units_mul_add (Nat.le_succ_of_le lo) hi]
    exact hlt

/-! ## The nearest rank -/

/-- The rank whose magnitude is nearest to `num / den` units; halfway between two, the even one. -/
def nearestRank (num den : Nat) : Nat :=
  let lower := floorRank (num / den)
  let toLower := num - units lower * den
  let toUpper := units (lower + 1) * den - num
  if toLower < toUpper ∨ (toLower = toUpper ∧ lower % 2 = 0) then lower else lower + 1

/-- The number of the given sign whose magnitude is nearest to `num / den` units. -/
def round (negative : Bool) (num den : Nat) : Single :=
  ofRank negative (nearestRank num den)

end CallGate.Single
