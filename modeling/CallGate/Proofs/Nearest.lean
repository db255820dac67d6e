import Mathlib.Algebra.Order.Field.Rat
import Mathlib.Algebra.Order.Field.Basic
import Mathlib.Tactic.Linarith
import Mathlib.Tactic.Ring
import CallGate.Proofs.Magnitudes

/-!
# The nearest rank

A quotient of natural numbers lies between the magnitudes at two neighbouring ranks, of which the
nearer one is taken. Since the magnitudes increase with the ranks, no other rank is nearer, and one
that is as near leaves the rank that is taken an even one.

- `Single.nearestRank_between`: the two neighbours, and which of them is taken.
- `Single.abs_units_nearestRank_le`: no magnitude is nearer than the one at the nearest rank.
- `Single.nearestRank_even`: if another one is as near, the nearest rank is even.
- `Single.nearestRank_le_iff`, `Single.nearestRank_mono`: where the nearest rank changes, and that it
  increases with the quotient.
- `Single.nearestRank_eq_of_close`: how close to a magnitude a quotient is sure to be rounded to it.
- `Single.infinityRank_le_nearestRank_iff`: from halfway between the last finite magnitude and the
  next one on, the nearest rank is that of an infinity.
-/

namespace CallGate.Single

variable {num den : Nat}

/-! ## The two neighbours -/

/-- A quotient lies between two neighbouring magnitudes. The nearer one is taken, and halfway that
of the even rank. -/
theorem nearestRank_between (num : Nat) (h : 0 < den) :
    ∃ lower : Nat, (units lower : ℚ) ≤ num / den ∧ (num / den : ℚ) < units (lower + 1) ∧
      ((nearestRank num den = lower ∧
          ((num / den : ℚ) - units lower < units (lower + 1) - num / den ∨
            (num / den : ℚ) - units lower = units (lower + 1) - num / den ∧ lower % 2 = 0)) ∨
        (nearestRank num den = lower + 1 ∧
          ((units (lower + 1) : ℚ) - num / den < num / den - units lower ∨
            (units (lower + 1) : ℚ) - num / den = num / den - units lower ∧
              (lower + 1) % 2 = 0))) := by
  have hden : (0 : ℚ) < den := Nat.cast_pos.mpr h
  let lower := floorRank (num / den)
  have hle : units lower * den ≤ num := (Nat.le_div_iff_mul_le h).mp (units_floorRank_le _)
  have hlt : num < units (lower + 1) * den := (Nat.div_lt_iff_lt_mul h).mp (lt_units_floorRank_succ _)
  -- what is compared is the two distances times the denominator
  have hlower : ((num - units lower * den : Nat) : ℚ) = (num / den - units lower) * den := by
    rw [Nat.cast_sub hle, Nat.cast_mul, sub_mul, div_mul_cancel₀ _ (ne_of_gt hden)]
  have hupper : ((units (lower + 1) * den - num : Nat) : ℚ) =
      (units (lower + 1) - num / den) * den := by
    rw [Nat.cast_sub (le_of_lt hlt), Nat.cast_mul, sub_mul, div_mul_cancel₀ _ (ne_of_gt hden)]
  have hless : num - units lower * den < units (lower + 1) * den - num ↔
      (num / den : ℚ) - units lower < units (lower + 1) - num / den := by
    rw [← Nat.cast_lt (α := ℚ), hlower, hupper, mul_lt_mul_iff_left₀ hden]
  have hequal : num - units lower * den = units (lower + 1) * den - num ↔
      (num / den : ℚ) - units lower = units (lower + 1) - num / den := by
    rw [← Nat.cast_inj (R := ℚ), hlower, hupper, mul_left_inj' (ne_of_gt hden)]
  refine ⟨lower, ?_, ?_, ?_⟩
  · rw [le_div_iff₀ hden]
    exact_mod_cast hle
  · rw [div_lt_iff₀ hden]
    exact_mod_cast hlt
  · show (ite _ lower (lower + 1) = lower ∧ _) ∨ (ite _ lower (lower + 1) = lower + 1 ∧ _)
    by_cases hnear : num - units lower * den < units (lower + 1) * den - num ∨
        num - units lower * den = units (lower + 1) * den - num ∧ lower % 2 = 0
    · rw [if_pos hnear]
      rw [hless, hequal] at hnear
      exact .inl ⟨rfl, hnear⟩
    · rw [if_neg hnear]
      rw [hless, hequal] at hnear
      refine .inr ⟨rfl, ?_⟩
      rcases lt_trichotomy ((num / den : ℚ) - units lower) (units (lower + 1) - num / den) with
        hcloser | hhalfway | hfurther
      · exact absurd (.inl hcloser) hnear
      · have hodd : lower % 2 ≠ 0 := fun heven => hnear (.inr ⟨hhalfway, heven⟩)
        exact .inr ⟨hhalfway.symm, by omega⟩
      · exact .inl hfurther

/-! ## The nearest of all -/

theorem units_le_units {r s : Nat} (h : r ≤ s) : (units r : ℚ) ≤ units s :=
  Nat.cast_le.mpr (strictMono_units.monotone h)

theorem units_lt_units {r s : Nat} (h : r < s) : (units r : ℚ) < units s :=
  Nat.cast_lt.mpr (strictMono_units h)

/-- The distances from what is between two bounds to the bounds. -/
theorem abs_sub_of_between {lower upper x : ℚ} (hle : lower ≤ x) (hlt : x < upper) :
    |lower - x| = x - lower ∧ |upper - x| = upper - x :=
  ⟨by rw [abs_of_nonpos (by linarith), neg_sub], abs_of_pos (by linarith)⟩

/-- No magnitude is nearer to a quotient than the one at its nearest rank. -/
theorem abs_units_nearestRank_le (h : 0 < den) (rank : Nat) :
    |(units (nearestRank num den) : ℚ) - num / den| ≤ |(units rank : ℚ) - num / den| := by
  obtain ⟨lower, hle, hlt, hnearest⟩ := nearestRank_between num h
  -- any other rank lies beyond one of the two neighbours
  have hfar : (num / den : ℚ) - units lower ≤ |(units rank : ℚ) - num / den| ∨
      (units (lower + 1) : ℚ) - num / den ≤ |(units rank : ℚ) - num / den| := by
    rcases Nat.lt_or_ge lower rank with habove | hbelow
    · have := units_le_units (Nat.succ_le_of_lt habove)
      exact .inr (le_trans (by linarith) (le_abs_self _))
    · have := units_le_units hbelow
      exact .inl (le_trans (by linarith) (neg_le_abs _))
  obtain ⟨hlower, hupper⟩ := abs_sub_of_between hle hlt
  rcases hnearest with ⟨hrank, hcloser⟩ | ⟨hrank, hcloser⟩
  · rw [hrank, hlower]
    rcases hfar with hfar | hfar
    · exact hfar
    · rcases hcloser with hcloser | ⟨hcloser, -⟩ <;> linarith
  · rw [hrank, hupper]
    rcases hfar with hfar | hfar
    · rcases hcloser with hcloser | ⟨hcloser, -⟩ <;> linarith
    · exact hfar

/-- If the magnitude at another rank is as near, the nearest rank is even. -/
theorem nearestRank_even (h : 0 < den) {rank : Nat} (hne : rank ≠ nearestRank num den)
    (hnear : |(units rank : ℚ) - num / den| = |(units (nearestRank num den) : ℚ) - num / den|) :
    nearestRank num den % 2 = 0 := by
  obtain ⟨lower, hle, hlt, hnearest⟩ := nearestRank_between num h
  obtain ⟨hlower, hupper⟩ := abs_sub_of_between hle hlt
  rcases hnearest with ⟨hrank, hcloser | ⟨-, heven⟩⟩ | ⟨hrank, hcloser | ⟨-, heven⟩⟩
  · rw [hrank] at hne hnear
    rw [hlower] at hnear
    rcases Nat.lt_or_ge lower rank with habove | hbelow
    · have := units_le_units (Nat.succ_le_of_lt habove)
      have := le_abs_self ((units rank : ℚ) - num / den)
      linarith
    · have := units_lt_units (Nat.lt_of_le_of_ne hbelow hne)
      have := neg_le_abs ((units rank : ℚ) - num / den)
      linarith
  · rw [hrank]
    exact heven
  · rw [hrank] at hne hnear
    rw [hupper] at hnear
    rcases Nat.lt_or_ge lower rank with habove | hbelow
    · have := units_lt_units (Nat.lt_of_le_of_ne (Nat.succ_le_of_lt habove) hne.symm)
      have := le_abs_self ((units rank : ℚ) - num / den)
      linarith
    · have := units_le_units hbelow
      have := neg_le_abs ((units rank : ℚ) - num / den)
      linarith
  · rw [hrank]
    exact heven

/-! ## Where the nearest rank changes -/

/-- The lower of two bounds is nearer up to halfway between them. -/
theorem abs_sub_le_abs_sub_iff {lower upper x : ℚ} (h : lower < upper) :
    (|lower - x| ≤ |upper - x| ↔ 2 * x ≤ lower + upper) ∧
      (|upper - x| ≤ |lower - x| ↔ lower + upper ≤ 2 * x) := by
  have hgap : 0 < upper - lower := sub_pos.mpr h
  have hlower : (upper - x) ^ 2 - (lower - x) ^ 2 = (upper - lower) * (lower + upper - 2 * x) := by
    ring
  have hupper : (lower - x) ^ 2 - (upper - x) ^ 2 =
      (upper - lower) * (2 * x - (lower + upper)) := by ring
  constructor
  · rw [← sq_le_sq, ← sub_nonneg, hlower, mul_nonneg_iff_of_pos_left hgap, sub_nonneg]
  · rw [← sq_le_sq, ← sub_nonneg, hupper, mul_nonneg_iff_of_pos_left hgap, sub_nonneg]

/-- The nearest rank is at most a given one below halfway to the next magnitude, and halfway if the
given one is even. -/
theorem nearestRank_le_iff (h : 0 < den) (rank : Nat) :
    nearestRank num den ≤ rank ↔
      2 * (num / den : ℚ) < units rank + units (rank + 1) ∨
        2 * (num / den : ℚ) = units rank + units (rank + 1) ∧ rank % 2 = 0 := by
  have hnext := units_lt_units (Nat.lt_succ_self rank)
  have hnearest : ∀ other, |(units (nearestRank num den) : ℚ) - num / den| ≤
      |(units other : ℚ) - num / den| := abs_units_nearestRank_le h
  have heven : ∀ other, other ≠ nearestRank num den → |(units other : ℚ) - num / den| =
      |(units (nearestRank num den) : ℚ) - num / den| → nearestRank num den % 2 = 0 :=
    fun _ => nearestRank_even h
  generalize nearestRank num den = r at *
  generalize (num / den : ℚ) = x at *
  constructor
  · intro hle
    have hunits := units_le_units hle
    have hx := (abs_sub_le_abs_sub_iff (lt_of_le_of_lt hunits hnext)).1.mp (hnearest (rank + 1))
    rcases lt_or_eq_of_le (show 2 * x ≤ units rank + units (rank + 1) by linarith) with hless | hhalf
    · exact .inl hless
    · -- halfway the two ranks are equally near, so that the one taken is even
      have hsame : r = rank := strictMono_units.injective (Nat.cast_injective (R := ℚ) (by linarith))
      subst hsame
      refine .inr ⟨hhalf, heven (r + 1) (Nat.succ_ne_self r) ?_⟩
      exact le_antisymm ((abs_sub_le_abs_sub_iff hnext).2.mpr (ge_of_eq hhalf)) (hnearest (r + 1))
  · intro hx
    by_contra hlt
    rw [not_le] at hlt
    have hunits := units_le_units (Nat.succ_le_of_lt hlt)
    have hge := (abs_sub_le_abs_sub_iff (lt_of_lt_of_le hnext hunits)).2.mp (hnearest rank)
    rcases hx with hless | ⟨hhalf, hmod⟩
    · linarith
    · have hsame : r = rank + 1 :=
        strictMono_units.injective (Nat.cast_injective (R := ℚ) (by linarith))
      subst hsame
      have hmod' := heven rank (Nat.ne_of_lt hlt)
        (le_antisymm ((abs_sub_le_abs_sub_iff hnext).1.mpr (le_of_eq hhalf)) (hnearest rank))
      omega

/-- Of two quotients the greater one has no lower nearest rank. -/
theorem nearestRank_mono {num' den' : Nat} (h : 0 < den) (h' : 0 < den')
    (hle : (num / den : ℚ) ≤ num' / den') : nearestRank num den ≤ nearestRank num' den' := by
  rw [nearestRank_le_iff h]
  rcases (nearestRank_le_iff h' _).mp (le_refl (nearestRank num' den')) with hless | ⟨hhalf, heven⟩
  · exact .inl (by linarith)
  · rcases lt_or_eq_of_le hle with hless | hsame
    · exact .inl (by linarith)
    · exact .inr ⟨by rw [hsame, hhalf], heven⟩

/-- What is at least one unit is not rounded to zero. -/
theorem nearestRank_pos (h : 0 < den) (hle : den ≤ num) : 0 < nearestRank num den := by
  have hone : nearestRank 1 1 = 1 := nearestRank_units 1 Nat.one_pos
  have hquotient : ((1 : Nat) / (1 : Nat) : ℚ) ≤ num / den := by
    rw [Nat.cast_one, div_one, one_le_div (Nat.cast_pos.mpr h)]
    exact Nat.cast_le.mpr hle
  rw [Nat.pos_iff_ne_zero, ← Nat.one_le_iff_ne_zero, ← hone]
  exact nearestRank_mono Nat.one_pos h hquotient

/-- What is below a magnitude by less than a bit more than a significand has is rounded to it. -/
theorem nearestRank_eq_of_close (h : 0 < den) {rank : Nat} (hle : (num / den : ℚ) ≤ units rank)
    (hclose : (2 ^ 25 - 1) * (units rank : ℚ) < 2 ^ 25 * (num / den)) :
    nearestRank num den = rank := by
  refine Nat.le_antisymm ?_ ?_
  · have hnext := units_lt_units (Nat.lt_succ_self rank)
    exact (nearestRank_le_iff h rank).mpr (.inl (by linarith))
  · cases rank with
    | zero => exact Nat.zero_le _
    | succ rank =>
      rw [Nat.succ_le_iff, ← not_le, nearestRank_le_iff h]
      -- halfway from the magnitude before is further away
      have hgap : (2 : ℚ) ^ 24 * units rank + units (rank + 1) ≤ 2 ^ 24 * units (rank + 1) := by
        exact_mod_cast units_gap rank
      rintro (hless | ⟨hhalf, -⟩) <;> linarith

/-! ## Beyond the finite magnitudes -/

theorem units_infinityRank : (units infinityRank : ℚ) = 2 ^ 128 * 2 ^ 149 := by
  rw [units, if_neg (by decide), Nat.shiftLeft_eq]
  norm_num

/-- The last finite magnitude. -/
theorem units_last : (units (infinityRank - 1) : ℚ) = (2 ^ 128 - 2 ^ 104) * 2 ^ 149 := by
  rw [units, if_neg (by decide), Nat.shiftLeft_eq]
  norm_num

/-- What is at least halfway from the last finite magnitude to `2 ^ 128` is beyond the finite
magnitudes, since the last of their ranks is odd. -/
theorem infinityRank_le_nearestRank_iff (h : 0 < den) :
    infinityRank ≤ nearestRank num den ↔ ((2 ^ 128 - 2 ^ 103) * 2 ^ 149 : ℚ) ≤ num / den := by
  have hlast : infinityRank - 1 + 1 = infinityRank := by decide
  have hodd : (infinityRank - 1) % 2 ≠ 0 := by decide
  rw [← not_lt, Nat.lt_iff_le_pred (by decide), nearestRank_le_iff h, or_iff_left fun h => hodd h.2,
    hlast, units_infinityRank, units_last, not_lt]
  constructor <;> intro hge <;> linarith

end CallGate.Single
