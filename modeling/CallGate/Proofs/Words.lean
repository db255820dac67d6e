import Mathlib.Algebra.Order.Field.Rat
import Mathlib.Tactic.Ring
import CallGate.Proofs.Magnitudes

/-!
# The fields of a word

A 32-bit word is a sign, eight bits of exponent and twenty-three of fraction. What it stands for is
said here by its fields alone, the exact value as a rational number, and then told of numbers.

- `Word.negative`, `Word.exponent`, `Word.fraction`: the fields.
- `Word.IsNaN`, `Word.IsInfinite`, `Word.IsFinite`: the three classes of words.
- `Word.significand`, `Word.magnitude`, `Word.value`: what a finite word stands for exactly.
- `Word.magnitude_eq`, `Word.magnitude_lt_magnitude_iff`: magnitudes by ranks, and in their order.
- `Word.negative_flipped`, `Word.rank_flipped`, `Word.value_flipped`: the word of the other sign.
- `Single.ofBits_eq_nan_iff` and so on: the numbers of the three classes.
- `Single.ofBits_inj`: words of one number.
-/

namespace CallGate

namespace Word

variable (w : UInt32)

/-! ## Fields -/

/-- Whether the sign bit is set. -/
def negative : Bool := decide (0x80000000 ≤ w.toNat)

/-- The eight bits after the sign. -/
def exponent : Nat := w.toNat / 0x800000 % 0x100

/-- The last twenty-three bits. -/
def fraction : Nat := w.toNat % 0x800000

/-- The word without its sign, as a number. -/
def rank : Nat := w.toNat % 0x80000000

/-- The word of the other sign. -/
def flipped : UInt32 := w ^^^ 0x80000000

/-- The greatest exponent and a fraction. -/
def IsNaN : Prop := exponent w = 0xFF ∧ fraction w ≠ 0

/-- The greatest exponent without a fraction. -/
def IsInfinite : Prop := exponent w = 0xFF ∧ fraction w = 0

/-- Any other exponent. -/
def IsFinite : Prop := exponent w ≠ 0xFF

/-- The least exponent without a fraction, with either sign. -/
def IsZero : Prop := exponent w = 0 ∧ fraction w = 0

instance : Decidable (IsZero w) := inferInstanceAs (Decidable (_ ∧ _))

instance : Decidable (IsNaN w) := inferInstanceAs (Decidable (_ ∧ _))

instance : Decidable (IsInfinite w) := inferInstanceAs (Decidable (_ ∧ _))

instance : Decidable (IsFinite w) := inferInstanceAs (Decidable (_ ≠ _))

/-! ## Exact values -/

/-- The fraction with its leading bit, which is zero for the least exponent. -/
def significand : Nat :=
  if exponent w = 0 then fraction w else 0x800000 + fraction w

/-- The exact magnitude. The two least exponents have the same spacing. -/
def magnitude : ℚ := significand w * 2 ^ ((max (exponent w) 1 : ℤ) - 150)

/-- The exact value. -/
def value : ℚ := if negative w then -magnitude w else magnitude w

/-! ## Fields and ranks -/

/-- The exponent and the fraction are the digits of the rank to base `2 ^ 23`. -/
theorem rank_eq : rank w = exponent w * 0x800000 + fraction w := by
  unfold rank exponent fraction
  omega

/-- The finite words are those of a rank below the infinity. -/
theorem isFinite_iff : IsFinite w ↔ rank w < Single.infinityRank := by
  have hfraction : fraction w < 0x800000 := Nat.mod_lt _ (by decide)
  have hexponent : exponent w < 0x100 := Nat.mod_lt _ (by decide)
  unfold IsFinite
  rw [rank_eq]
  show _ ↔ _ < 0x7F800000
  omega

theorem isInfinite_iff : IsInfinite w ↔ rank w = Single.infinityRank := by
  have hfraction : fraction w < 0x800000 := Nat.mod_lt _ (by decide)
  unfold IsInfinite
  rw [rank_eq]
  show _ ↔ _ = 0x7F800000
  omega

/-- Words for no number have the ranks above the infinity. -/
theorem isNaN_iff : IsNaN w ↔ Single.infinityRank < rank w := by
  -- only with the greatest exponent can the rank pass the infinity, as both fields are bounded
  have hfraction : fraction w < 0x800000 := Nat.mod_lt _ (by decide)
  have hexponent : exponent w < 0x100 := Nat.mod_lt _ (by decide)
  unfold IsNaN
  rw [rank_eq]
  show _ ↔ 0x7F800000 < _
  omega

theorem isZero_iff : IsZero w ↔ rank w = 0 := by
  unfold IsZero
  rw [rank_eq]
  omega

variable {w} in
theorem isInfinite_or_isFinite (h : ¬IsNaN w) : IsInfinite w ∨ IsFinite w := by
  rw [isNaN_iff] at h
  rw [isInfinite_iff, isFinite_iff]
  exact Nat.eq_or_lt_of_le (Nat.le_of_not_lt h)

theorem not_isFinite_iff : ¬IsFinite w ↔ IsNaN w ∨ IsInfinite w := by
  rw [isNaN_iff, isInfinite_iff, isFinite_iff]
  omega

/-- The leading bit does not count for evenness, so ties go by the rank. -/
theorem significand_mod_two : significand w % 2 = rank w % 2 := by
  unfold significand rank exponent fraction
  split <;> omega

/-- In units the significand is shifted by the exponent. -/
theorem units_rank : Single.units (rank w) = significand w * 2 ^ (max (exponent w) 1 - 1) := by
  have hfraction : fraction w < 0x800000 := Nat.mod_lt _ (by decide)
  have hquotient : rank w / 0x800000 = exponent w := by
    rw [rank_eq]
    omega
  have hremainder : rank w % 0x800000 = fraction w := by
    rw [rank_eq]
    omega
  unfold Single.units significand
  rw [hquotient, hremainder]
  -- the least exponent has no leading bit and no shift
  by_cases hzero : exponent w = 0
  · rw [if_pos hzero, if_pos hzero, rank_eq, hzero]
    simp
  · have hmax : max (exponent w) 1 = exponent w := Nat.max_eq_left (Nat.pos_of_ne_zero hzero)
    rw [if_neg hzero, if_neg hzero, hmax, Nat.shiftLeft_eq]

/-- The exact magnitude of a word is the one at its rank. -/
theorem magnitude_eq : magnitude w = Single.units (rank w) / 2 ^ 149 := by
  -- the exponent counts as at least 1 here, so that 1 can be taken from it as a natural number
  have hexponent : ((max (exponent w) 1 : ℤ) - 150) = ((max (exponent w) 1 - 1 : Nat) : ℤ) - 149 := by
    omega
  rw [magnitude, units_rank, hexponent, zpow_sub₀ two_ne_zero, zpow_natCast]
  push_cast
  ring

section

variable {w} {v : UInt32}

/-- Magnitudes are ordered like ranks. -/
theorem magnitude_lt_magnitude_iff : magnitude v < magnitude w ↔ rank v < rank w := by
  rw [magnitude_eq, magnitude_eq, div_lt_div_iff_of_pos_right (by norm_num), Nat.cast_lt,
    Single.strictMono_units.lt_iff_lt]

/-- Words of one magnitude differ in their signs at most. -/
theorem magnitude_inj : magnitude v = magnitude w ↔ rank v = rank w := by
  rw [magnitude_eq, magnitude_eq, div_left_inj' (by norm_num), Nat.cast_inj,
    Single.strictMono_units.injective.eq_iff]

theorem magnitude_of_isZero (h : IsZero w) : magnitude w = 0 := by
  rw [magnitude_eq, (isZero_iff w).mp h]
  simp [Single.units]

end

/-- The least positive magnitude. -/
theorem magnitude_one : magnitude 1 = 1 / 2 ^ 149 := by
  decide +kernel

-- the last finite magnitude
example : magnitude 0x7F7FFFFF = 2 ^ 128 - 2 ^ 104 := by
  decide +kernel

theorem magnitude_nonneg : 0 ≤ magnitude w :=
  mul_nonneg (Nat.cast_nonneg _) (zpow_nonneg (by decide) _)

theorem abs_value : |value w| = magnitude w := by
  unfold value
  split
  · rw [abs_neg, abs_of_nonneg (magnitude_nonneg w)]
  · exact abs_of_nonneg (magnitude_nonneg w)

/-- In units a value is an integer. -/
theorem value_eq : value w = (Single.signedUnits (negative w) (rank w) : ℚ) / 2 ^ 149 := by
  unfold value Single.signedUnits
  split
  · rw [magnitude_eq]
    push_cast
    ring
  · rw [magnitude_eq]
    push_cast
    rfl

/-- The sign bit and the rank share no bit. -/
theorem toNat_eq : w.toNat = cond (negative w) 0x80000000 0 + rank w := by
  have hlt := w.toNat_lt
  unfold negative rank
  by_cases h : 0x80000000 ≤ w.toNat
  · simp only [h, decide_true, cond_true]
    omega
  · simp only [h, decide_false, cond_false]
    omega

/-- A word is made up of its sign and its rank. -/
theorem word_negative_rank : Single.word (negative w) (rank w) = w := by
  rw [Single.word, ← toNat_eq, UInt32.ofNat_toNat]

section

variable {sign : Bool} {r : Nat}

theorem toNat_word (h : r < 0x80000000) :
    (Single.word sign r).toNat = cond sign 0x80000000 0 + r := by
  cases sign <;> simp only [Single.word, cond, UInt32.toNat_ofNat'] <;> omega

theorem negative_word (h : r < 0x80000000) : negative (Single.word sign r) = sign := by
  rw [negative, toNat_word h]
  cases sign <;> simp only [cond, decide_eq_true_eq, decide_eq_false_iff_not] <;> omega

/-- A rank below the sign bit is kept by the word made of it. -/
theorem rank_word (h : r < 0x80000000) : rank (Single.word sign r) = r := by
  rw [rank, toNat_word h]
  cases sign <;> simp only [cond] <;> omega

end

/-! ## The other sign -/

theorem negative_eq_testBit : negative w = w.toNat.testBit 31 := by
  have hlt := w.toNat_lt
  have hbit : w.toNat / 2 ^ 31 % 2 = 1 ↔ 0x80000000 ≤ w.toNat := by omega
  rw [Nat.testBit_eq_decide_div_mod_eq, decide_eq_decide.mpr hbit]
  rfl

theorem negative_flipped : negative (flipped w) = !negative w := by
  have htop : Nat.testBit 0x80000000 31 = true := by decide
  -- bits pass through the exclusive or one by one
  rw [negative_eq_testBit, negative_eq_testBit, flipped, UInt32.toNat_xor, Nat.testBit_xor]
  show (_ ^^ Nat.testBit 0x80000000 31) = _
  rw [htop, Bool.xor_true]

/-- Turning the sign leaves the rank, and so the magnitude. -/
theorem rank_flipped : rank (flipped w) = rank w := by
  -- the low 31 bits of the mask are zero
  have hmod : (w.toNat ^^^ 0x80000000) % 2 ^ 31 = w.toNat % 2 ^ 31 := by
    rw [Nat.xor_mod_two_pow]
    simp
  exact hmod

theorem isNaN_flipped : IsNaN (flipped w) ↔ IsNaN w := by
  rw [isNaN_iff, isNaN_iff, rank_flipped]

theorem isInfinite_flipped : IsInfinite (flipped w) ↔ IsInfinite w := by
  rw [isInfinite_iff, isInfinite_iff, rank_flipped]

theorem isFinite_flipped : IsFinite (flipped w) ↔ IsFinite w := by
  rw [isFinite_iff, isFinite_iff, rank_flipped]

theorem value_flipped : value (flipped w) = -value w := by
  unfold value
  rw [magnitude_eq, magnitude_eq, rank_flipped, negative_flipped]
  cases negative w <;> simp

theorem flipped_flipped : flipped (flipped w) = w := by
  rw [flipped, flipped, UInt32.xor_assoc, UInt32.xor_self, UInt32.xor_zero]

end Word

namespace Single

open Word

variable {w : UInt32}

/-! ## Words and numbers -/

theorem ofBits_of_isNaN (h : IsNaN w) : ofBits w = .nan :=
  if_neg (Nat.not_le.mpr ((isNaN_iff w).mp h))

theorem ofBits_of_isInfinite (h : IsInfinite w) : ofBits w = .infinite (negative w) := by
  have hrank := (isInfinite_iff w).mp h
  have hof : ofBits w = ofRank (negative w) (rank w) := if_pos (Nat.le_of_eq hrank)
  rw [hof, hrank, ofRank_of_ge (Nat.le_refl _)]

theorem ofBits_of_isFinite (h : IsFinite w) :
    ofBits w = .finite (negative w) ⟨rank w, (isFinite_iff w).mp h⟩ := by
  have hrank := (isFinite_iff w).mp h
  have hof : ofBits w = ofRank (negative w) (rank w) := if_pos (Nat.le_of_lt hrank)
  rw [hof, ofRank_of_lt hrank]

/-- Not-a-number is read from the words for it alone. -/
theorem ofBits_eq_nan_iff : ofBits w = .nan ↔ IsNaN w := by
  constructor
  · intro h
    by_contra hnot
    -- any other word is read as an infinity or a finite number
    rcases isInfinite_or_isFinite hnot with hinfinite | hfinite
    · rw [ofBits_of_isInfinite hinfinite] at h
      cases h
    · rw [ofBits_of_isFinite hfinite] at h
      cases h
  · exact ofBits_of_isNaN

/-- An infinity is read from its own word alone. -/
theorem ofBits_eq_infinite_iff {s : Bool} : ofBits w = .infinite s ↔ IsInfinite w ∧ negative w = s := by
  constructor
  · intro h
    have hnot : ¬IsNaN w := by
      intro hnan
      rw [ofBits_of_isNaN hnan] at h
      cases h
    rcases isInfinite_or_isFinite hnot with hinfinite | hfinite
    · rw [ofBits_of_isInfinite hinfinite] at h
      exact ⟨hinfinite, infinite.inj h⟩
    · rw [ofBits_of_isFinite hfinite] at h
      cases h
  · rintro ⟨hinfinite, rfl⟩
    exact ofBits_of_isInfinite hinfinite

/-- There is one infinity of each sign. -/
theorem toBits_infinite (h : IsInfinite w) : (infinite (negative w)).toBits = w := by
  rw [toBits, ← (isInfinite_iff w).mp h, word_negative_rank]

/-- A word that stands for a number is written back as it was. -/
theorem toBits_ofBits (h : ¬IsNaN w) : (ofBits w).toBits = w := by
  rcases isInfinite_or_isFinite h with hinfinite | hfinite
  · rw [ofBits_of_isInfinite hinfinite, toBits_infinite hinfinite]
  · rw [ofBits_of_isFinite hfinite, toBits, word_negative_rank]

/-- Numbers are words, but there is only one that is not a number. -/
theorem ofBits_inj {v : UInt32} : ofBits v = ofBits w ↔ v = w ∨ IsNaN v ∧ IsNaN w := by
  constructor
  · intro h
    -- only words for not-a-number lose bits in reading
    by_cases hnan : IsNaN v
    · rw [ofBits_of_isNaN hnan] at h
      exact .inr ⟨hnan, ofBits_eq_nan_iff.mp h.symm⟩
    · have hnan' : ¬IsNaN w := by rwa [← ofBits_eq_nan_iff, ← h, ofBits_eq_nan_iff]
      left
      rw [← toBits_ofBits hnan, h, toBits_ofBits hnan']
  · rintro (rfl | ⟨hv, hw⟩)
    · rfl
    · rw [ofBits_of_isNaN hv, ofBits_of_isNaN hw]

theorem isNaN_toBits_iff {x : Single} : IsNaN x.toBits ↔ x = .nan := by
  rw [← ofBits_eq_nan_iff, ofBits_toBits]

theorem ofBits_flipped (w : UInt32) : ofBits (flipped w) = (ofBits w).neg := by
  by_cases hnan : IsNaN w
  · rw [ofBits_of_isNaN hnan, ofBits_of_isNaN ((isNaN_flipped w).mpr hnan)]
    rfl
  · rcases isInfinite_or_isFinite hnan with hinfinite | hfinite
    · rw [ofBits_of_isInfinite hinfinite, ofBits_of_isInfinite ((isInfinite_flipped w).mpr hinfinite),
        negative_flipped]
      rfl
    · rw [ofBits_of_isFinite hfinite, ofBits_of_isFinite ((isFinite_flipped w).mpr hfinite),
        negative_flipped]
      simp only [neg, rank_flipped]

/-- How many units one is. -/
theorem cast_unitsOfOne : (unitsOfOne : ℚ) = 2 ^ 149 := by
  rw [unitsOfOne, Nat.one_shiftLeft]
  norm_num

/-! ## The words of numbers -/

variable {sign : Bool}

/-- The sign given to a rank is the sign bit, also where the rank is beyond the finite ones. -/
theorem negative_toBits_ofRank {r : Nat} : negative (ofRank sign r).toBits = sign := by
  by_cases h : r < infinityRank
  · rw [ofRank_of_lt h, toBits]
    exact negative_word (Nat.lt_trans h (by decide))
  · rw [ofRank_of_ge (Nat.le_of_not_lt h), toBits]
    exact negative_word (by decide)

theorem rank_toBits_finite (rank : Fin infinityRank) :
    Word.rank (finite sign rank).toBits = rank.val :=
  rank_word (Nat.lt_trans rank.isLt (by decide))

theorem rank_toBits_infinite : Word.rank (infinite sign).toBits = infinityRank :=
  rank_word (by decide)

end Single

end CallGate
