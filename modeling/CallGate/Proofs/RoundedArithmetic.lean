import CallGate.Value
import CallGate.Proofs.RoundedWords

/-!
# Arithmetic is exact up to one rounding

Sums, differences and products of any two words, in terms of the fields of the words and of the
exact rational numbers that finite words stand for.

- `Word.IsSum`, `Word.IsProduct`: what the word of a sum or product is, by the operands' words.
- `Single.rounded_add`, `Single.rounded_mul`: the result of finite operands is the exact one rounded.
- `Single.isSum_add`, `Single.isProduct_mul`: the laws of addition and multiplication of words.
- `Scalar.add_sub_rounded_once`, `Scalar.mul_rounded_once`: the laws of what scalars do, and of
  subtraction as addition with the other sign.
-/

namespace CallGate

namespace Word

/-- A word is that of the sum of two words. The exact sum is rounded once, and unless it is zero the
result is not zero either. -/
structure IsSum (a b sum : UInt32) : Prop where
  /-- Infinities of different signs have no sum. -/
  isNaN_iff : IsNaN sum ↔
    IsNaN a ∨ IsNaN b ∨ IsInfinite a ∧ IsInfinite b ∧ negative a ≠ negative b
  infinite_left : IsInfinite a → ¬IsNaN sum → sum = a
  infinite_right : IsInfinite b → ¬IsNaN sum → sum = b
  /-- A sum of zero is positive but for that of two negative zeros. -/
  zero : IsFinite a → IsFinite b → value a + value b = 0 →
    sum = if a = 0x80000000 ∧ b = 0x80000000 then 0x80000000 else 0
  overflow : IsFinite a → IsFinite b → 2 ^ 128 - 2 ^ 103 ≤ |value a + value b| →
    IsInfinite sum ∧ negative sum = decide (value a + value b < 0)
  nearest : IsFinite a → IsFinite b → value a + value b ≠ 0 →
    |value a + value b| < 2 ^ 128 - 2 ^ 103 → Nearest value (value a + value b) sum
  nonzero : IsFinite a → IsFinite b → value a + value b ≠ 0 → ¬IsZero sum

/-- A word is that of the product of two words. Magnitude and sign are found apart, and the exact
product of the magnitudes is rounded once. -/
structure IsProduct (a b product : UInt32) : Prop where
  /-- A zero and an infinity have no product. -/
  isNaN_iff : IsNaN product ↔
    IsNaN a ∨ IsNaN b ∨ IsZero a ∧ IsInfinite b ∨ IsInfinite a ∧ IsZero b
  negative_eq : ¬IsNaN product → negative product = (negative a ^^ negative b)
  isInfinite : IsInfinite a ∨ IsInfinite b → ¬IsNaN product → IsInfinite product
  isZero : IsFinite a → IsFinite b → IsZero a ∨ IsZero b → IsZero product
  overflow : IsFinite a → IsFinite b → 2 ^ 128 - 2 ^ 103 ≤ magnitude a * magnitude b →
    IsInfinite product
  nearest : IsFinite a → IsFinite b → magnitude a * magnitude b < 2 ^ 128 - 2 ^ 103 →
    Nearest magnitude (magnitude a * magnitude b) product
  underflow : IsFinite a → IsFinite b → magnitude a * magnitude b ≤ 1 / 2 ^ 150 → IsZero product

end Word

namespace Single

open Word

variable {a b : UInt32}

/-! ## Sums -/

theorem ofRank_ne_nan (negative : Bool) (rank : Nat) : ofRank negative rank ≠ .nan := by
  unfold ofRank
  split <;> nofun

/-- Only infinities of different signs have no sum, beside operands that are not numbers. -/
theorem add_eq_nan_iff {x y : Single} :
    x.add y = .nan ↔ x = .nan ∨ y = .nan ∨ ∃ s t, x = .infinite s ∧ y = .infinite t ∧ s ≠ t := by
  cases x with
  | nan => simp [add]
  | infinite s =>
    cases y with
    | nan => simp [add]
    | infinite t => simp [add]
    | finite t n => simp [add]
  | finite s m =>
    cases y with
    | nan => simp [add]
    | infinite t => simp [add]
    | finite t n =>
      -- either branch gives the number at some rank, a finite one or an infinity
      have hadd : (finite s m).add (finite t n) ≠ .nan := by
        simp only [add]
        split
        · exact ofRank_ne_nan _ _
        · exact ofRank_ne_nan _ _
      simp [hadd]

/-- An infinity stays what it is, whatever is added, if there is a sum. -/
theorem infinite_add {s : Bool} {y : Single} (h : (infinite s).add y ≠ .nan) :
    (infinite s).add y = .infinite s := by
  cases y with
  | nan => exact absurd rfl h
  | infinite t =>
    -- infinities of different signs would have no sum
    have hsame : s = t := by
      by_contra hne
      exact h (if_neg hne)
    exact if_pos hsame
  | finite t n => rfl

/-- The exact sum of finite words, in units. -/
theorem value_add_value (a b : UInt32) : value a + value b =
    ((signedUnits (negative a) (rank a) + signedUnits (negative b) (rank b) : Int) : ℚ) / 2 ^ 149 := by
  rw [value_eq, value_eq, ← add_div, Int.cast_add]

theorem abs_value_add_value (a b : UInt32) : |value a + value b| =
    ((signedUnits (negative a) (rank a) + signedUnits (negative b) (rank b)).natAbs : ℚ) /
      2 ^ 149 := by
  rw [value_add_value, abs_div, abs_of_pos (show (0 : ℚ) < 2 ^ 149 by norm_num), Nat.cast_natAbs,
    Int.cast_abs]

/-- The sum of finite numbers whose exact sum is not zero is that sum, rounded. -/
theorem rounded_add (ha : IsFinite a) (hb : IsFinite b) (h : value a + value b ≠ 0) :
    Rounded (decide (value a + value b < 0)) |value a + value b|
      ((ofBits a).add (ofBits b)).toBits := by
  have hexact := value_add_value a b
  have habs := abs_value_add_value a b
  -- the exact total in units stands for both operands from here on
  generalize htotal : signedUnits (negative a) (rank a) + signedUnits (negative b) (rank b) = total
    at hexact habs
  have hne : total ≠ 0 := by
    rintro rfl
    exact h (by rw [hexact]; simp)
  -- units are positive, so the total keeps the sign of the exact sum
  have hsign : decide (value a + value b < 0) = decide (total < 0) := by
    rw [hexact, decide_eq_decide, div_lt_iff₀ (by norm_num), zero_mul, Int.cast_lt_zero]
  have hadd : (ofBits a).add (ofBits b) = round (decide (total < 0)) total.natAbs 1 := by
    rw [ofBits_of_isFinite ha, ofBits_of_isFinite hb, ← htotal]
    exact if_neg (by rwa [htotal])
  have hround := rounded_round (decide (total < 0)) total.natAbs Nat.one_pos
  rw [hadd, hsign, habs]
  rwa [Nat.cast_one, div_one] at hround

/-- It is at least one unit, so it is not rounded to zero. -/
theorem add_ne_zero (ha : IsFinite a) (hb : IsFinite b) (h : value a + value b ≠ 0) :
    ¬IsZero ((ofBits a).add (ofBits b)).toBits := by
  refine (rounded_add ha hb h).not_isZero ?_
  have hpos := abs_pos.mpr h
  rw [abs_value_add_value] at hpos ⊢
  rw [lt_div_iff₀ (by norm_num), zero_mul, Nat.cast_pos] at hpos
  -- a total that is positive is at least one unit
  exact div_le_div_of_nonneg_right (by exact_mod_cast hpos) (by norm_num)

/-- A sum of zero is negative if both operands are, which are negative zeros then. -/
theorem add_of_value_eq_zero (ha : IsFinite a) (hb : IsFinite b) (h : value a + value b = 0) :
    ((ofBits a).add (ofBits b)).toBits =
      if a = 0x80000000 ∧ b = 0x80000000 then 0x80000000 else 0 := by
  rw [value_add_value, div_eq_zero_iff, or_iff_left (by norm_num), Int.cast_eq_zero] at h
  have hadd : (ofBits a).add (ofBits b) = ofRank (negative a && negative b) 0 := by
    rw [ofBits_of_isFinite ha, ofBits_of_isFinite hb]
    exact if_pos h
  -- two negative operands cancel nothing, so both have no units at all
  have hboth : negative a = true ∧ negative b = true ↔ a = 0x80000000 ∧ b = 0x80000000 := by
    constructor
    · rintro ⟨hna, hnb⟩
      rw [hna, hnb] at h
      simp only [signedUnits, if_true] at h
      have hzero {r : Nat} (hr : units r = 0) : r = 0 := strictMono_units.injective hr
      rw [← word_negative_rank a, ← word_negative_rank b, hna, hnb, hzero (r := rank a) (by omega),
        hzero (r := rank b) (by omega)]
      decide
    · rintro ⟨rfl, rfl⟩
      decide
  rw [hadd]
  -- the sign is negative in the first case alone, which is that of the exception
  by_cases hneg : negative a = true ∧ negative b = true
  · rw [if_pos (hboth.mp hneg), hneg.1, hneg.2]
    decide
  · rw [if_neg fun hzeros => hneg (hboth.mpr hzeros)]
    rw [← Bool.and_eq_true, Bool.not_eq_true] at hneg
    rw [hneg]
    decide

/-- Addition of any two words. -/
theorem isSum_add (a b : UInt32) : IsSum a b ((ofBits a).add (ofBits b)).toBits where
  isNaN_iff := by
    rw [isNaN_toBits_iff, add_eq_nan_iff, ofBits_eq_nan_iff, ofBits_eq_nan_iff]
    simp only [ofBits_eq_infinite_iff]
    constructor
    · rintro (hnan | hnan | ⟨s, t, ⟨ha, rfl⟩, ⟨hb, rfl⟩, hne⟩)
      · exact .inl hnan
      · exact .inr (.inl hnan)
      · exact .inr (.inr ⟨ha, hb, hne⟩)
    · rintro (hnan | hnan | ⟨ha, hb, hne⟩)
      · exact .inl hnan
      · exact .inr (.inl hnan)
      · exact .inr (.inr ⟨_, _, ⟨ha, rfl⟩, ⟨hb, rfl⟩, hne⟩)
  infinite_left := by
    intro ha hnan
    rw [isNaN_toBits_iff, ofBits_of_isInfinite ha] at hnan
    rw [ofBits_of_isInfinite ha, infinite_add hnan, toBits_infinite ha]
  infinite_right := by
    intro hb hnan
    -- by exchanging the operands, as from the left
    rw [isNaN_toBits_iff, add_comm, ofBits_of_isInfinite hb] at hnan
    rw [add_comm, ofBits_of_isInfinite hb, infinite_add hnan, toBits_infinite hb]
  zero := add_of_value_eq_zero
  overflow := by
    intro ha hb hgreat
    -- a sum past the last finite magnitude is not zero, so it is the one rounded
    have hne : value a + value b ≠ 0 := by
      intro hzero
      rw [hzero, abs_zero] at hgreat
      norm_num at hgreat
    have hrounded := rounded_add ha hb hne
    exact ⟨hrounded.isInfinite hgreat, hrounded.negative_eq⟩
  nearest := by
    intro ha hb hne hless
    have hrounded := rounded_add ha hb hne
    exact (hrounded.nearest hless).value hne hrounded.negative_eq
  nonzero := add_ne_zero

/-! ## Products -/

/-- An infinity times anything but a zero is an infinity. -/
theorem infinite_mul (ha : IsInfinite a) (hb : ¬IsNaN b) :
    (ofBits a).mul (ofBits b) =
      if rank b = 0 then .nan else .infinite (negative a ^^ negative b) := by
  rw [ofBits_of_isInfinite ha]
  rcases isInfinite_or_isFinite hb with hinfinite | hfinite
  · rw [ofBits_of_isInfinite hinfinite, (isInfinite_iff b).mp hinfinite]
    rfl
  · rw [ofBits_of_isFinite hfinite]
    rfl

theorem mul_infinite (ha : ¬IsNaN a) (hb : IsInfinite b) :
    (ofBits a).mul (ofBits b) =
      if rank a = 0 then .nan else .infinite (negative a ^^ negative b) := by
  rw [mul_comm, infinite_mul hb ha, Bool.xor_comm]

/-- The product of finite numbers is the exact one, rounded. -/
theorem mul_finite (ha : IsFinite a) (hb : IsFinite b) :
    (ofBits a).mul (ofBits b) =
      round (negative a ^^ negative b) (units (rank a) * units (rank b)) unitsOfOne := by
  rw [ofBits_of_isFinite ha, ofBits_of_isFinite hb]
  rfl

/-- Sign and magnitude are found apart: the product of the magnitudes is rounded, the signs decide
its sign. -/
theorem rounded_mul (ha : IsFinite a) (hb : IsFinite b) :
    Rounded (negative a ^^ negative b) (magnitude a * magnitude b)
      ((ofBits a).mul (ofBits b)).toBits := by
  -- a product of units counts squares of the unit; divided by the units of one it counts units
  have hexact : magnitude a * magnitude b =
      ((units (rank a) * units (rank b) : Nat) : ℚ) / unitsOfOne / 2 ^ 149 := by
    rw [magnitude_eq, magnitude_eq, cast_unitsOfOne, div_mul_div_comm, div_div, Nat.cast_mul]
  rw [mul_finite ha hb, hexact]
  exact rounded_round _ _ (by decide)

/-- Only a zero and an infinity have no product. -/
theorem isNaN_mul_iff (a b : UInt32) : IsNaN ((ofBits a).mul (ofBits b)).toBits ↔
    IsNaN a ∨ IsNaN b ∨ IsZero a ∧ IsInfinite b ∨ IsInfinite a ∧ IsZero b := by
  rw [isNaN_toBits_iff]
  by_cases hna : IsNaN a
  · rw [ofBits_of_isNaN hna]
    exact iff_of_true rfl (.inl hna)
  by_cases hnb : IsNaN b
  · rw [mul_comm, ofBits_of_isNaN hnb]
    exact iff_of_true rfl (.inr (.inl hnb))
  -- both operands are numbers from here on, and the rank of an infinity is not zero
  rw [or_iff_right hna, or_iff_right hnb, isZero_iff, isZero_iff]
  have hzero : (0 : Nat) ≠ infinityRank := by decide
  rcases isInfinite_or_isFinite hna with hia | hfa
  · have hrank := (isInfinite_iff a).mp hia
    rw [infinite_mul hia hnb]
    by_cases hrb : rank b = 0 <;> simp [hrb, hia, hrank]
  · rcases isInfinite_or_isFinite hnb with hib | hfb
    · have hrank := (isInfinite_iff b).mp hib
      rw [mul_infinite hna hib]
      by_cases hra : rank a = 0 <;> simp [hra, hib, hrank]
    · -- finite operands have ranks below the infinity, so neither alternative can hold
      have hranka := (isFinite_iff a).mp hfa
      have hrankb := (isFinite_iff b).mp hfb
      rw [mul_finite hfa hfb, isInfinite_iff, isInfinite_iff]
      refine iff_of_false (ofRank_ne_nan _ _) ?_
      omega

/-- With an infinite operand a product that is a number is an infinity. -/
theorem mul_of_infinite (h : IsInfinite a ∨ IsInfinite b)
    (hproduct : ¬IsNaN ((ofBits a).mul (ofBits b)).toBits) :
    (ofBits a).mul (ofBits b) = .infinite (negative a ^^ negative b) := by
  have hnot := hproduct
  rw [isNaN_mul_iff, not_or, not_or] at hnot
  rw [isNaN_toBits_iff] at hproduct
  obtain ⟨hna, hnb, -⟩ := hnot
  rcases h with ha | hb
  · rw [infinite_mul ha hnb] at hproduct ⊢
    -- with a zero for the other operand there is no product
    split at hproduct
    · exact absurd rfl hproduct
    · exact if_neg ‹_›
  · rw [mul_infinite hna hb] at hproduct ⊢
    split at hproduct
    · exact absurd rfl hproduct
    · exact if_neg ‹_›

/-- Below the least positive magnitude, what is at most half of it is rounded to zero. -/
theorem mul_underflow (ha : IsFinite a) (hb : IsFinite b)
    (h : magnitude a * magnitude b ≤ 1 / 2 ^ 150) : IsZero ((ofBits a).mul (ofBits b)).toBits := by
  have hpos : 0 ≤ magnitude a * magnitude b := mul_nonneg (magnitude_nonneg a) (magnitude_nonneg b)
  have hless : magnitude a * magnitude b < 2 ^ 128 - 2 ^ 103 := lt_of_le_of_lt h (by norm_num)
  exact ((rounded_mul ha hb).nearest hless).isZero hpos h

/-- Multiplication of any two words. -/
theorem isProduct_mul (a b : UInt32) : IsProduct a b ((ofBits a).mul (ofBits b)).toBits where
  isNaN_iff := isNaN_mul_iff a b
  negative_eq := by
    intro hnan
    by_cases hinfinite : IsInfinite a ∨ IsInfinite b
    · rw [mul_of_infinite hinfinite hnan]
      exact negative_word (by decide)
    · obtain ⟨hna, hnb, -⟩ : ¬IsNaN a ∧ ¬IsNaN b ∧ _ := by
        rwa [isNaN_mul_iff, not_or, not_or] at hnan
      rw [not_or] at hinfinite
      have ha := (isInfinite_or_isFinite hna).resolve_left hinfinite.1
      have hb := (isInfinite_or_isFinite hnb).resolve_left hinfinite.2
      exact (rounded_mul ha hb).negative_eq
  isInfinite := by
    intro hinfinite hnan
    rw [mul_of_infinite hinfinite hnan, isInfinite_iff]
    exact rank_toBits_infinite
  isZero := by
    intro ha hb hzero
    refine mul_underflow ha hb ?_
    rcases hzero with hzero | hzero
    · rw [magnitude_of_isZero hzero, zero_mul]
      norm_num
    · rw [magnitude_of_isZero hzero, mul_zero]
      norm_num
  overflow := fun ha hb => (rounded_mul ha hb).isInfinite
  nearest := fun ha hb => (rounded_mul ha hb).nearest
  underflow := mul_underflow

end Single

namespace Scalar

/-! ## Scalars -/

/-- The sum of two words is their exact sum rounded once, and so is the difference with the word of
the other sign. Infinities of the same sign have no difference, and a difference of zero is positive
but for that of negative zero and positive zero. -/
theorem add_sub_rounded_once (a b : UInt32) :
    Word.IsSum a b (Scalar.add ⟨.ofBits a⟩ (.ofBits b)).toBits ∧
    Word.IsSum a (Word.flipped b) ((Single.ofBits a).sub (.ofBits b)).toBits ∧
    Word.value (Word.flipped b) = -Word.value b ∧
    (Word.IsNaN ((Single.ofBits a).sub (.ofBits b)).toBits ↔ Word.IsNaN a ∨ Word.IsNaN b ∨
      Word.IsInfinite a ∧ Word.IsInfinite b ∧ Word.negative a = Word.negative b) ∧
    (Word.IsFinite a → Word.IsFinite b → Word.value a - Word.value b = 0 →
      ((Single.ofBits a).sub (.ofBits b)).toBits =
        if a = 0x80000000 ∧ b = 0 then 0x80000000 else 0) := by
  -- subtraction adds the word of the other sign, so the law of sums covers it
  have hsub : Word.IsSum a (Word.flipped b) ((Single.ofBits a).sub (.ofBits b)).toBits := by
    rw [Single.sub, ← Single.ofBits_flipped]
    exact Single.isSum_add a (Word.flipped b)
  refine ⟨Single.isSum_add a b, hsub, Word.value_flipped b, ?_, ?_⟩
  · rw [hsub.isNaN_iff, Word.isNaN_flipped, Word.isInfinite_flipped, Word.negative_flipped]
    cases Word.negative a <;> cases Word.negative b <;> simp
  · intro ha hb hzero
    -- the exception is that of the sum, with the second sign turned back
    have hflipped : Word.flipped b = 0x80000000 ↔ b = 0 := by
      constructor
      · intro h
        rw [← Word.flipped_flipped b, h]
        decide
      · rintro rfl
        decide
    rw [sub_eq_add_neg, ← Word.value_flipped] at hzero
    rw [hsub.zero ha ((Word.isFinite_flipped b).mpr hb) hzero]
    simp only [hflipped]

/-- One and half a unit of its last place is halfway between two numbers, of which one has the even
significand; and the two numbers next to zero have a difference, which is not zero. -/
theorem add_sub_rounded_once_halfway :
    Word.Nearest Word.value (1 + 1 / 2 ^ 24)
      (Scalar.add ⟨.ofBits 0x3F800000⟩ (.ofBits 0x33800000)).toBits ∧
    (Scalar.add ⟨.ofBits 0x3F800000⟩ (.ofBits 0x33800000)).toBits = 0x3F800000 ∧
    ¬Word.IsZero ((Single.ofBits 0x00000001).sub (.ofBits 0x00000002)).toBits ∧
    ((Single.ofBits 0x80000000).sub (.ofBits 0x00000000)).toBits = 0x80000000 := by
  obtain ⟨hsum, -⟩ := add_sub_rounded_once 0x3F800000 0x33800000
  obtain ⟨-, hdifference, -⟩ := add_sub_rounded_once 0x00000001 0x00000002
  obtain ⟨-, -, -, -, hzero⟩ := add_sub_rounded_once 0x80000000 0x00000000
  have hexact : Word.value 0x3F800000 + Word.value 0x33800000 = 1 + 1 / 2 ^ 24 := by decide +kernel
  refine ⟨?_, by decide +kernel, ?_, ?_⟩
  · rw [← hexact]
    exact hsum.nearest (by decide) (by decide) (by decide +kernel) (by decide +kernel)
  · exact hdifference.nonzero (by decide) (by decide) (by decide +kernel)
  · exact hzero (by decide) (by decide) (by decide +kernel)

/-- The product of two words is their exact product rounded once. -/
theorem mul_rounded_once (a b : UInt32) :
    Word.IsProduct a b (Scalar.mul ⟨.ofBits a⟩ (.ofBits b)).toBits :=
  Single.isProduct_mul a b

/-- Half of the least positive number is halfway to zero, which is even, and a little more than half
of it is nearer to the least positive number. -/
theorem mul_rounded_once_least :
    Word.IsZero (Scalar.mul ⟨.ofBits 0x80000001⟩ (.ofBits 0x3F000000)).toBits ∧
    Word.negative (Scalar.mul ⟨.ofBits 0x80000001⟩ (.ofBits 0x3F000000)).toBits = true ∧
    Word.Nearest Word.magnitude (Word.magnitude 0x00000001 * Word.magnitude 0x3F000001)
      (Scalar.mul ⟨.ofBits 0x00000001⟩ (.ofBits 0x3F000001)).toBits ∧
    (Scalar.mul ⟨.ofBits 0x00000001⟩ (.ofBits 0x3F000001)).toBits = 0x00000001 := by
  have hhalf := mul_rounded_once 0x80000001 0x3F000000
  have hmore := mul_rounded_once 0x00000001 0x3F000001
  refine ⟨?_, ?_, ?_, by decide +kernel⟩
  · exact hhalf.underflow (by decide) (by decide) (by decide +kernel)
  · exact hhalf.negative_eq (by decide +kernel)
  · exact hmore.nearest (by decide) (by decide) (by decide +kernel)

end Scalar

end CallGate
