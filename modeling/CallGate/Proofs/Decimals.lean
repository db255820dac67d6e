import Mathlib.Algebra.Order.Group.Nat
import CallGate.Decimal.Shortest
import CallGate.Proofs.Magnitudes

/-!
# Decimals read back

The decimal that a number is written with reads back to the number, whichever grid it was found on,
and it is the only form that this decimal has without final zeros.

- `Decimal.nearestRank_mul_ten`: final zeros make no difference when a decimal is read.
- `Decimal.Normal`: a decimal has no final zeros, and zero has no exponent.
- `Decimal.trim_zeros`: any zeros appended to such a decimal are taken off again.
- `Decimal.toSingle_shortest`: the shortest decimal reads back.
- `Single.toSingle_of_decimal?`, `Single.normal_of_decimal?`: the decimal of a number reads back and
  has no final zeros.
-/

namespace CallGate

namespace Decimal

/-! ## Powers of ten -/

theorem tenTo_pos (exponent : Int) : 0 < tenTo exponent :=
  Nat.pow_pos (by decide)

theorem tenTo_of_nonpos {exponent : Int} (h : exponent ≤ 0) : tenTo exponent = 1 := by
  rw [tenTo, Int.toNat_of_nonpos h]

theorem tenTo_add_one {exponent : Int} (h : 0 ≤ exponent) :
    tenTo (exponent + 1) = 10 * tenTo exponent := by
  rw [tenTo, Int.toNat_add h (by decide)]
  exact Nat.mul_comm _ _

/-! ## Reading -/

/-- A zero at the end of the significand is a further power of ten. -/
theorem nearestRank_mul_ten (significand : Nat) (exponent : Int) :
    nearestRank (10 * significand) exponent = nearestRank significand (exponent + 1) := by
  unfold nearestRank
  rcases Int.lt_or_le exponent 0 with hneg | hnonneg
  · -- the zero cancels against one of the denominator
    have hden : tenTo (-exponent) = 10 * tenTo (-(exponent + 1)) := by
      rw [← tenTo_add_one (by omega)]
      congr 1
      omega
    have hnum : 10 * significand * tenTo exponent * Single.unitsOfOne =
        10 * (significand * tenTo (exponent + 1) * Single.unitsOfOne) := by
      rw [tenTo_of_nonpos (Int.le_of_lt hneg), tenTo_of_nonpos (by omega)]
      simp only [Nat.mul_one, Nat.mul_assoc]
    rw [hnum, hden, Single.nearestRank_mul_left (by decide)]
  · have hnum : 10 * significand * tenTo exponent = significand * tenTo (exponent + 1) := by
      rw [tenTo_add_one hnonneg, Nat.mul_comm 10, Nat.mul_assoc]
    have hden : tenTo (-exponent) = tenTo (-(exponent + 1)) := by
      rw [tenTo_of_nonpos (show -exponent ≤ 0 by omega),
        tenTo_of_nonpos (show -(exponent + 1) ≤ 0 by omega)]
    rw [hnum, hden]

/-- A decimal of zero reads back to zero. -/
theorem nearestRank_zero (exponent : Int) : nearestRank 0 exponent = 0 := by
  unfold nearestRank
  rw [Nat.zero_mul, Nat.zero_mul]
  exact Single.nearestRank_zero (tenTo_pos _)

/-! ## Final zeros -/

/-- A decimal has no final zeros, and zero has no exponent. -/
def Normal (d : Decimal) : Prop :=
  d.significand % 10 ≠ 0 ∨ d.significand = 0 ∧ d.exponent = 0

theorem Normal.exponent_eq_zero {d : Decimal} (h : d.Normal) (hzero : d.significand = 0) :
    d.exponent = 0 := by
  rcases h with hmod | ⟨-, hexponent⟩
  · rw [hzero] at hmod
    exact absurd rfl hmod
  · exact hexponent

theorem dropZeros_of_mod_ne_zero {d : Decimal} (h : d.significand % 10 ≠ 0) (fuel : Nat) :
    dropZeros fuel d = d := by
  cases fuel with
  | zero => rfl
  | succ fuel => rw [dropZeros, if_neg h]

/-- Final zeros make no difference when a decimal is read. -/
theorem toSingle_dropZeros (fuel : Nat) (d : Decimal) : (dropZeros fuel d).toSingle = d.toSingle := by
  induction fuel generalizing d with
  | zero => rfl
  | succ fuel ih =>
    by_cases hzero : d.significand % 10 = 0
    · -- one zero moves to the exponent, which reading does not see
      have hsplit : d.significand = 10 * (d.significand / 10) := by omega
      rw [dropZeros, if_pos hzero, ih]
      unfold toSingle
      rw [← nearestRank_mul_ten, ← hsplit]
    · rw [dropZeros_of_mod_ne_zero hzero]

theorem toSingle_trim (d : Decimal) : d.trim.toSingle = d.toSingle :=
  toSingle_dropZeros _ d

/-- With as many steps as the significand has binary digits no zero is left. -/
theorem mod_ne_zero_dropZeros {d : Decimal} (h : d.significand ≠ 0) {fuel : Nat}
    (hfuel : d.significand < 2 ^ (fuel + 1)) : (dropZeros fuel d).significand % 10 ≠ 0 := by
  induction fuel generalizing d with
  | zero =>
    have hone : d.significand = 1 := by omega
    rw [dropZeros, hone]
    decide
  | succ fuel ih =>
    by_cases hzero : d.significand % 10 = 0
    · rw [dropZeros, if_pos hzero]
      -- a tenth is less than a half, so one binary digit less is enough for it
      rw [Nat.pow_succ] at hfuel
      refine ih ?_ ?_
      · show d.significand / 10 ≠ 0
        omega
      · show d.significand / 10 < 2 ^ (fuel + 1)
        omega
    · rwa [dropZeros_of_mod_ne_zero hzero]

theorem normal_trim {d : Decimal} (h : d.significand ≠ 0) : d.trim.Normal :=
  .inl (mod_ne_zero_dropZeros h Nat.lt_log2_self)

theorem dropZeros_zeros {negative : Bool} {significand : Nat} (h : significand % 10 ≠ 0)
    (exponent : Int) {fuel zeros : Nat} (hfuel : zeros ≤ fuel) :
    dropZeros fuel ⟨negative, significand * Nat.pow 10 zeros, exponent - zeros⟩ =
      ⟨negative, significand, exponent⟩ := by
  induction zeros generalizing fuel with
  | zero =>
    have hplain : (⟨negative, significand * Nat.pow 10 0, exponent - (0 : Nat)⟩ : Decimal) =
        ⟨negative, significand, exponent⟩ := by simp
    rw [hplain]
    exact dropZeros_of_mod_ne_zero h fuel
  | succ zeros ih =>
    obtain ⟨fuel, rfl⟩ := Nat.exists_eq_add_one_of_ne_zero (Nat.ne_of_gt (Nat.lt_of_lt_of_le
      (Nat.succ_pos zeros) hfuel))
    have hlast : significand * Nat.pow 10 (zeros + 1) = 10 * (significand * Nat.pow 10 zeros) := by
      show significand * (Nat.pow 10 zeros * 10) = _
      rw [← Nat.mul_assoc, Nat.mul_comm]
    have hzero : significand * Nat.pow 10 (zeros + 1) % 10 = 0 := by omega
    have hquotient : significand * Nat.pow 10 (zeros + 1) / 10 = significand * Nat.pow 10 zeros := by
      omega
    have hexponent : exponent - (zeros + 1 : Nat) + 1 = exponent - zeros := by omega
    rw [dropZeros, if_pos hzero]
    dsimp only
    rw [hquotient, hexponent, ih (by omega)]

/-- Any zeros that are appended to a significand are taken off again. -/
theorem trim_zeros {d : Decimal} (h : d.significand % 10 ≠ 0) (zeros : Nat) :
    trim ⟨d.negative, d.significand * Nat.pow 10 zeros, d.exponent - zeros⟩ = d := by
  refine dropZeros_zeros h d.exponent ?_
  have hpos : 0 < d.significand := by omega
  have htwo : 2 ^ zeros ≤ d.significand * Nat.pow 10 zeros :=
    Nat.le_trans (Nat.pow_le_pow_left (by decide) zeros) (Nat.le_mul_of_pos_left _ hpos)
  exact (Nat.le_log2 (Nat.ne_of_gt (Nat.lt_of_lt_of_le (Nat.two_pow_pos zeros) htwo))).2 htwo

/-! ## The shortest decimal -/

/-- What is found on a grid reads back. -/
theorem nearestRank_of_onGrid? {halfway : Halfway} {rank : Nat} {grid : Int} {significand : Nat}
    (h : onGrid? halfway rank grid = some significand) : nearestRank significand grid = rank := by
  unfold onGrid? at h
  dsimp only at h
  split at h
  -- each neighbour is taken only after it has been read back
  case isTrue hlower =>
    split at h
    case isTrue hupper =>
      cases h
      exact hupper.1
    case isFalse =>
      cases h
      exact hlower
  case isFalse =>
    split at h
    case isTrue hupper =>
      cases h
      exact hupper
    case isFalse => cases h

/-- So does the exact decimal. -/
theorem nearestRank_exact (negative : Bool) (rank : Nat) :
    nearestRank (exact negative rank).significand (exact negative rank).exponent = rank := by
  -- the fives of the significand and the twos of a unit make up the power of ten
  have hpower : Nat.pow 5 149 * Single.unitsOfOne = tenTo 149 := by
    rw [Single.unitsOfOne, Nat.one_shiftLeft]
    exact (Nat.mul_pow 5 2 149).symm
  have hnum : (exact negative rank).significand * tenTo (exact negative rank).exponent *
      Single.unitsOfOne = Single.units rank * tenTo 149 := by
    show Single.units rank * Nat.pow 5 149 * tenTo (-149) * Single.unitsOfOne = _
    rw [tenTo_of_nonpos (by decide), Nat.mul_one, Nat.mul_assoc, hpower]
  unfold nearestRank
  rw [hnum]
  exact Single.nearestRank_units rank (tenTo_pos 149)

/-- The shortest decimal stands on one of the grids, or else it is the exact one. -/
theorem shortest_cases (halfway : Halfway) (negative : Bool) (rank : Nat) :
    (∃ grid significand, onGrid? halfway rank grid = some significand ∧
      shortest halfway negative rank = ⟨negative, significand, grid⟩) ∨
    shortest halfway negative rank = exact negative rank := by
  unfold shortest
  dsimp only
  generalize hfound : List.findSome? _ (List.range 9) = found
  cases found with
  | none => exact .inr (Option.getD_none ..)
  | some d =>
    obtain ⟨further, -, hd⟩ := List.exists_of_findSome?_eq_some hfound
    obtain ⟨significand, hgrid, rfl⟩ := Option.map_eq_some_iff.mp hd
    exact .inl ⟨_, significand, hgrid, Option.getD_some ..⟩

/-- It has the sign asked for, and it reads back. -/
theorem shortest_reads_back (halfway : Halfway) (negative : Bool) (rank : Nat) :
    (shortest halfway negative rank).negative = negative ∧
      nearestRank (shortest halfway negative rank).significand
        (shortest halfway negative rank).exponent = rank := by
  rcases shortest_cases halfway negative rank with ⟨grid, significand, hgrid, hshortest⟩ | hshortest
  · rw [hshortest]
    exact ⟨rfl, nearestRank_of_onGrid? hgrid⟩
  · rw [hshortest]
    exact ⟨rfl, nearestRank_exact negative rank⟩

end Decimal

namespace Single

variable {halfway : Decimal.Halfway} {x : Single} {d : Decimal}

/-- Every finite number has a decimal. -/
theorem exists_decimal? (halfway : Decimal.Halfway) (negative : Bool) (rank : Fin infinityRank) :
    ∃ d, (finite negative rank).decimal? halfway = some d := by
  unfold decimal?
  dsimp only
  split
  · exact ⟨_, rfl⟩
  · exact ⟨_, rfl⟩

/-- The decimal that a number is written with reads back to the number. -/
theorem toSingle_of_decimal? (h : x.decimal? halfway = some d) : d.toSingle = x := by
  cases x with
  | nan => cases h
  | infinite negative => cases h
  | finite negative rank =>
    unfold decimal? at h
    dsimp only at h
    split at h
    case isTrue hzero =>
      cases h
      unfold Decimal.toSingle
      rw [Decimal.nearestRank_zero, ← hzero, ofRank_of_lt rank.isLt]
    case isFalse =>
      cases h
      obtain ⟨hsign, hrank⟩ := Decimal.shortest_reads_back halfway negative rank.val
      rw [Decimal.toSingle_trim, Decimal.toSingle, hsign, hrank, ofRank_of_lt rank.isLt]

/-- It has no final zeros. -/
theorem normal_of_decimal? (h : x.decimal? halfway = some d) : d.Normal := by
  cases x with
  | nan => cases h
  | infinite negative => cases h
  | finite negative rank =>
    unfold decimal? at h
    dsimp only at h
    split at h
    case isTrue =>
      cases h
      exact .inr ⟨rfl, rfl⟩
    case isFalse hnonzero =>
      cases h
      -- a significand of zero would read back as rank zero
      refine Decimal.normal_trim ?_
      intro hsignificand
      obtain ⟨-, hrank⟩ := Decimal.shortest_reads_back halfway negative rank.val
      rw [hsignificand, Decimal.nearestRank_zero] at hrank
      exact hnonzero hrank.symm

end Single

end CallGate
