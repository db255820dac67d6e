import Mathlib.Algebra.Order.Field.Basic
import CallGate.Proofs.Nearest
import CallGate.Proofs.Words

/-!
# Words to which exact values are rounded

What it means that a word is nearest to an exact value, and that a magnitude is rounded to a word:
among all finite words, by what they stand for, however the rounding is done. No more than one word
is meant by it.

- `Word.Nearest`: of all finite words none is nearer to an exact value, and halfway between two the
  significand is even.
- `Word.Rounded`: an exact magnitude with a sign is rounded to a word, an infinity if it is too great.
- `Word.Nearest.value`: the nearest magnitude with the right sign is the nearest value.
- `Word.Rounded.unique`: there is only one word that a magnitude is rounded to.
- `Single.rounded_round`: rounding rounds, and it does so once.
-/

namespace CallGate

namespace Word

/-! ## The rounding law -/

/-- Of all finite words, by what each stands for, none is nearer to an exact value than this one;
and if one that stands for something else is as near, this one's significand is even. -/
structure Nearest (meaning : UInt32 → ℚ) (exact : ℚ) (w : UInt32) : Prop where
  isFinite : IsFinite w
  nearest : ∀ v, IsFinite v → |meaning w - exact| ≤ |meaning v - exact|
  even : ∀ v, IsFinite v → meaning v ≠ meaning w → |meaning v - exact| = |meaning w - exact| →
    significand w % 2 = 0

/-- An exact magnitude with a sign is rounded to a word of this sign: to an infinity from halfway
between the last finite magnitude and `2 ^ 128` on, and else to a nearest finite word. -/
structure Rounded (sign : Bool) (exact : ℚ) (w : UInt32) : Prop where
  negative_eq : negative w = sign
  isInfinite : 2 ^ 128 - 2 ^ 103 ≤ exact → IsInfinite w
  nearest : exact < 2 ^ 128 - 2 ^ 103 → Nearest magnitude exact w

/-! ## Nearest values and nearest magnitudes -/

variable {v w : UInt32} {exact : ℚ} {sign : Bool}

/-- A word of the right sign is as far from a value as its magnitude is from the value's. -/
theorem abs_value_sub (h : negative w = decide (exact < 0)) :
    |value w - exact| = |magnitude w - (|exact|)| := by
  unfold value
  by_cases hneg : exact < 0
  · rw [h, if_pos (decide_eq_true hneg), abs_of_neg hneg, ← abs_neg]
    congr 1
    ring
  · rw [h, if_neg (by simpa using hneg), abs_of_nonneg (not_lt.mp hneg)]

/-- The nearest magnitude with the right sign is the nearest value. -/
theorem Nearest.value (h : Nearest magnitude |exact| w) (hne : exact ≠ 0)
    (hsign : negative w = decide (exact < 0)) : Nearest value exact w where
  isFinite := h.isFinite
  nearest := by
    intro v hv
    have hmagnitude := h.nearest v hv
    have hvalue := abs_abs_sub_abs_le_abs_sub (Word.value v) exact
    rw [abs_value] at hvalue
    rw [abs_value_sub hsign]
    exact le_trans hmagnitude hvalue
  even := by
    intro v hv hother hnear
    have hmagnitude := h.nearest v hv
    have hvalue := abs_abs_sub_abs_le_abs_sub (Word.value v) exact
    rw [abs_value, hnear, abs_value_sub hsign] at hvalue
    refine h.even v hv ?_ (le_antisymm hvalue hmagnitude)
    -- of the same magnitude it has the other sign, and it is further away
    intro hsame
    have habs : |Word.value v| = |Word.value w| := by rw [abs_value, abs_value, hsame]
    rcases abs_eq_abs.mp habs with hequal | hopposite
    · exact hother hequal
    · have hproduct : Word.value w * exact = 0 := by
        have hsquares := (sq_eq_sq_iff_abs_eq_abs _ _).mpr hnear
        rw [hopposite] at hsquares
        linarith
      rcases mul_eq_zero.mp hproduct with hzero | hzero
      · rw [hzero, neg_zero] at hopposite
        exact hother (hopposite.trans hzero.symm)
      · exact hne hzero

/-- What is at most half of the least positive magnitude is nearest to zero, which is even. -/
theorem Nearest.isZero (h : Nearest magnitude exact w) (hpos : 0 ≤ exact)
    (hle : exact ≤ 1 / 2 ^ 150) : IsZero w := by
  have hone : rank 1 = 1 := by decide
  have hzero : magnitude 0 = 0 := magnitude_of_isZero (by decide)
  have hnear := h.nearest 0 (by decide)
  rw [isZero_iff]
  by_contra hrank
  have hleast : magnitude 1 ≤ magnitude w := by
    rw [← not_lt, magnitude_lt_magnitude_iff]
    omega
  rw [hzero, zero_sub, abs_neg, abs_of_nonneg hpos,
    abs_of_nonneg (by rw [magnitude_one] at hleast; linarith)] at hnear
  -- so the value is halfway from zero to the least positive magnitude
  have hmagnitude : magnitude w = magnitude 1 := by
    rw [magnitude_one] at hleast ⊢
    linarith
  have hhalfway : |magnitude 0 - exact| = |magnitude w - exact| := by
    rw [hmagnitude, magnitude_one] at hnear ⊢
    rw [hzero, zero_sub, abs_neg, abs_of_nonneg hpos, abs_of_nonneg (by linarith)]
    linarith
  have hother : magnitude 0 ≠ magnitude w := by
    rw [hzero, hmagnitude, magnitude_one]
    norm_num
  have heven := h.even 0 (by decide) hother hhalfway
  rw [significand_mod_two, magnitude_inj.mp hmagnitude, hone] at heven
  cases heven

/-- What is at least the least positive magnitude is not rounded to zero. -/
theorem Rounded.not_isZero (h : Rounded sign exact w) (hle : 1 / 2 ^ 149 ≤ exact) :
    ¬IsZero w := by
  intro hzero
  have hfinite : ¬IsInfinite w := by
    rw [isInfinite_iff, (isZero_iff w).mp hzero]
    decide
  have hless : exact < 2 ^ 128 - 2 ^ 103 := not_le.mp fun hgreat => hfinite (h.isInfinite hgreat)
  have hnear := (h.nearest hless).nearest 1 (by decide)
  rw [magnitude_one, magnitude_of_isZero hzero, zero_sub, abs_neg, abs_of_nonneg (by linarith),
    abs_of_nonpos (by linarith)] at hnear
  linarith

/-! ## There is only one -/

/-- Of two nearest words neither has the greater rank. They would be equally near, and so their ranks
would both be even; but then there is one between them, which is nearer. -/
theorem Nearest.rank_le (hv : Nearest magnitude exact v) (hw : Nearest magnitude exact w) :
    rank v ≤ rank w := by
  by_contra hlt
  rw [not_le] at hlt
  have hless := magnitude_lt_magnitude_iff.mpr hlt
  have hequal : |magnitude v - exact| = |magnitude w - exact| :=
    le_antisymm (hv.nearest w hw.isFinite) (hw.nearest v hv.isFinite)
  have hveven := hv.even w hw.isFinite (ne_of_lt hless) hequal.symm
  have hweven := hw.even v hv.isFinite (ne_of_gt hless) hequal
  rw [significand_mod_two] at hveven hweven
  have hvfinite := (isFinite_iff v).mp hv.isFinite
  have hbelow : rank w + 1 < 0x80000000 := by
    have hbound : Single.infinityRank < 0x80000000 := by decide
    omega
  have hrank : rank (Single.word false (rank w + 1)) = rank w + 1 := rank_word hbelow
  have hfinite : IsFinite (Single.word false (rank w + 1)) := by
    rw [isFinite_iff, hrank]
    omega
  have habove : magnitude w < magnitude (Single.word false (rank w + 1)) := by
    rw [magnitude_lt_magnitude_iff, hrank]
    exact Nat.lt_succ_self _
  have hunder : magnitude (Single.word false (rank w + 1)) < magnitude v := by
    rw [magnitude_lt_magnitude_iff, hrank]
    omega
  have hnearer : |magnitude (Single.word false (rank w + 1)) - exact| < |magnitude w - exact| := by
    have hfrom := neg_le_abs (magnitude w - exact)
    have hto := le_abs_self (magnitude v - exact)
    rw [abs_lt]
    constructor <;> linarith
  exact not_le.mpr hnearer (hw.nearest _ hfinite)

/-- There is only one word that a magnitude with a sign is rounded to. -/
theorem Rounded.unique (hv : Rounded sign exact v) (hw : Rounded sign exact w) : v = w := by
  have hrank : rank v = rank w := by
    rcases le_or_gt (2 ^ 128 - 2 ^ 103) exact with hgreat | hless
    · rw [(isInfinite_iff v).mp (hv.isInfinite hgreat), (isInfinite_iff w).mp (hw.isInfinite hgreat)]
    · exact Nat.le_antisymm ((hv.nearest hless).rank_le (hw.nearest hless))
        ((hw.nearest hless).rank_le (hv.nearest hless))
  rw [← word_negative_rank v, ← word_negative_rank w, hv.negative_eq, hw.negative_eq, hrank]

end Word

namespace Single

open Word

variable {num den : Nat}

/-! ## Rounding -/

/-- A quotient of units is rounded once, from its exact value. -/
theorem rounded_round (sign : Bool) (num : Nat) (h : 0 < den) :
    Rounded sign (num / den / 2 ^ 149) (round sign num den).toBits where
  negative_eq := negative_toBits_ofRank
  isInfinite := by
    intro hgreat
    have hbeyond : infinityRank ≤ nearestRank num den := by
      rwa [infinityRank_le_nearestRank_iff h, ← le_div_iff₀ (by norm_num)]
    rw [round, ofRank_of_ge hbeyond, isInfinite_iff]
    exact rank_toBits_infinite
  nearest := by
    intro hless
    have hrank : nearestRank num den < infinityRank := by
      rw [← Nat.not_le, infinityRank_le_nearestRank_iff h, ← le_div_iff₀ (by norm_num)]
      exact not_le.mpr hless
    have hword : Word.rank (round sign num den).toBits = nearestRank num den := by
      rw [round, ofRank_of_lt hrank]
      exact rank_toBits_finite _
    have hmagnitude := magnitude_eq (round sign num den).toBits
    -- distances are those of the units
    have hdistance (v : UInt32) : |magnitude v - num / den / 2 ^ 149| =
        |(units (Word.rank v) : ℚ) - num / den| / 2 ^ 149 := by
      rw [magnitude_eq, ← sub_div, abs_div, abs_of_pos (show (0 : ℚ) < 2 ^ 149 by norm_num)]
    refine ⟨?_, ?_, ?_⟩
    · rwa [isFinite_iff, hword]
    · intro v _
      rw [hdistance, hdistance, hword]
      exact div_le_div_of_nonneg_right (abs_units_nearestRank_le h _) (by norm_num)
    · intro v _ hne hnear
      rw [hdistance, hdistance, hword, div_left_inj' (by norm_num)] at hnear
      rw [significand_mod_two, hword]
      refine nearestRank_even h ?_ hnear
      intro heq
      exact hne (by rw [magnitude_eq, magnitude_eq, hword, heq])

end Single

end CallGate
