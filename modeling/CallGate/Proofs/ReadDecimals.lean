import CallGate.Proofs.JsonValues

/-!
# Which decimals read as a word

The decimals that are rounded to a word lie close together: what is between two of them is rounded to
it as well, and the exact value of the word is one of them. So a decimal that reads back stays one
when it is moved towards that value.

- `Decimal.ReadsAs`, `Decimal.readsAs_iff`: a decimal is rounded to a word, and how this is found out.
- `Decimal.ReadsAs.between`, `Decimal.ReadsAs.toward`: what is between, and what is moved.
- `Decimal.distance_toward`: what is moved comes nearer.
- `Decimal.eq_of_magnitude_eq`: decimals without final zeros are told by what they stand for.
- `Decimal.readsAs_of_close`: what is less than that value by no more than its ninth digit.
- `Decimal.leadingPower_bounds`: where the digits of a magnitude begin.
-/

namespace CallGate

namespace Decimal

variable {d e f : Decimal} {w : UInt32}

/-! ## Reading -/

/-- The rank that a decimal is rounded to. -/
def rank (d : Decimal) : Nat := nearestRank d.significand d.exponent

/-- A decimal is read as a word if its exact magnitude is rounded to it. -/
def ReadsAs (d : Decimal) (w : UInt32) : Prop := Word.Rounded d.negative d.magnitude w

/-- For a finite word this is a matter of the sign and of the rank. -/
theorem readsAs_iff (hw : Word.IsFinite w) :
    d.ReadsAs w ↔ d.negative = Word.negative w ∧ d.rank = Word.rank w := by
  have hsingle : d.toSingle = Single.ofRank d.negative d.rank := rfl
  have hrank := (Word.isFinite_iff w).mp hw
  constructor
  · intro h
    have hword : d.toSingle.toBits = w := d.rounded_toSingle.unique h
    have hnumber : Single.ofRank d.negative d.rank = .finite (Word.negative w) ⟨_, hrank⟩ := by
      rw [← Single.ofBits_of_isFinite hw, ← hsingle, ← hword, Single.ofBits_toBits]
    -- a rank from the infinity on is read as an infinity, and the word is finite
    rcases Nat.lt_or_ge d.rank Single.infinityRank with hless | hgreat
    · rw [Single.ofRank_of_lt hless] at hnumber
      injection hnumber with hsign hplace
      exact ⟨hsign, congrArg Fin.val hplace⟩
    · rw [Single.ofRank_of_ge hgreat] at hnumber
      cases hnumber
  · rintro ⟨hsign, hplace⟩
    have hbits : d.toSingle.toBits = w := by
      rw [hsingle, hsign, hplace, Single.ofRank_of_lt hrank]
      exact Word.word_negative_rank w
    rw [ReadsAs, ← hbits]
    exact d.rounded_toSingle

/-- Of two decimals the greater one has no lower rank. -/
theorem rank_le_rank (h : d.magnitude ≤ e.magnitude) : d.rank ≤ e.rank := by
  refine Single.nearestRank_mono (tenTo_pos _) (tenTo_pos _) ?_
  rw [units_quotient, units_quotient]
  exact mul_le_mul_of_nonneg_right h (by norm_num)

/-- What is between decimals that read as a word reads as this word. -/
theorem ReadsAs.between (hw : Word.IsFinite w) (hd : d.ReadsAs w) (hf : f.ReadsAs w)
    (hsign : e.negative = Word.negative w) (hde : d.magnitude ≤ e.magnitude)
    (hef : e.magnitude ≤ f.magnitude) : e.ReadsAs w := by
  rw [readsAs_iff hw] at hd hf ⊢
  refine ⟨hsign, Nat.le_antisymm ?_ ?_⟩
  · rw [← hf.2]
    exact rank_le_rank hef
  · rw [← hd.2]
    exact rank_le_rank hde

/-- The exact decimal stands for what the word stands for. -/
theorem magnitude_exact (w : UInt32) :
    (exact (Word.negative w) (Word.rank w)).magnitude = Word.magnitude w := by
  have hpower : ((5 : ℚ) ^ 149) * 10 ^ (-149 : Int) = 1 / 2 ^ 149 := by
    rw [zpow_neg, ← div_eq_mul_inv, div_eq_div_iff (by positivity) (by positivity)]
    norm_num
  rw [Word.magnitude_eq, magnitude, exact]
  show ((Single.units (Word.rank w) * 5 ^ 149 : Nat) : ℚ) * 10 ^ (-149 : Int) = _
  rw [Nat.cast_mul, Nat.cast_pow, mul_assoc, Nat.cast_ofNat, hpower, mul_one_div]

/-- One decimal lies between another one and what a word stands for. -/
def Toward (w : UInt32) (d e : Decimal) : Prop :=
  d.magnitude ≤ e.magnitude ∧ e.magnitude ≤ Word.magnitude w ∨
    Word.magnitude w ≤ e.magnitude ∧ e.magnitude ≤ d.magnitude

/-- A decimal that reads as a word still does when it is moved towards the exact value. -/
theorem ReadsAs.toward (hw : Word.IsFinite w) (hd : d.ReadsAs w)
    (hsign : e.negative = Word.negative w) (h : Toward w d e) : e.ReadsAs w := by
  have hexact : (exact (Word.negative w) (Word.rank w)).ReadsAs w :=
    (readsAs_iff hw).mpr ⟨rfl, nearestRank_exact _ _⟩
  rw [Toward, ← magnitude_exact] at h
  -- the exact value itself reads as the word, so whatever is between does
  rcases h with ⟨hde, hew⟩ | ⟨hwe, hed⟩
  · exact hd.between hw hexact hsign hde hew
  · exact hexact.between hw hd hsign hwe hed

/-- How far a decimal is from what a word stands for. -/
def distance (d : Decimal) (w : UInt32) : ℚ := |d.magnitude - Word.magnitude w|

/-- What is moved towards the exact value comes nearer, unless it is left where it is. -/
theorem distance_toward (h : Toward w d e) :
    e.distance w ≤ d.distance w ∧ (e.distance w = d.distance w → e.magnitude = d.magnitude) := by
  unfold distance
  rcases h with ⟨hde, hew⟩ | ⟨hwe, hed⟩
  · rw [abs_of_nonpos (by linarith), abs_of_nonpos (by linarith)]
    exact ⟨by linarith, fun h => by linarith⟩
  · rw [abs_of_nonneg (by linarith), abs_of_nonneg (by linarith)]
    exact ⟨by linarith, fun h => by linarith⟩

/-- What is less than a word by no more than its ninth digit reads as the word. -/
theorem readsAs_of_close (hw : Word.IsFinite w) (hpos : 0 < Word.magnitude w)
    (hsign : d.negative = Word.negative w) (hle : d.magnitude ≤ Word.magnitude w)
    (hclose : (10 ^ 8 - 1) * Word.magnitude w ≤ 10 ^ 8 * d.magnitude) : d.ReadsAs w := by
  have hunits : (Single.units (Word.rank w) : ℚ) = Word.magnitude w * 2 ^ 149 := by
    rw [Word.magnitude_eq, div_mul_cancel₀ _ (by norm_num)]
  refine (readsAs_iff hw).mpr ⟨hsign, Single.nearestRank_eq_of_close (tenTo_pos _) ?_ ?_⟩
  · rw [units_quotient, hunits]
    exact mul_le_mul_of_nonneg_right hle (by norm_num)
  · rw [units_quotient, hunits, ← mul_assoc, ← mul_assoc]
    refine mul_lt_mul_of_pos_right ?_ (by norm_num)
    linarith

/-! ## Final zeros -/

/-- A decimal without final zeros keeps its sign and what it stands for. -/
theorem dropZeros_spec (fuel : Nat) (d : Decimal) :
    (dropZeros fuel d).negative = d.negative ∧ (dropZeros fuel d).magnitude = d.magnitude ∧
      (dropZeros fuel d).significand ≤ d.significand := by
  induction fuel generalizing d with
  | zero => exact ⟨rfl, rfl, Nat.le_refl _⟩
  | succ fuel ih =>
    by_cases hzero : d.significand % 10 = 0
    · obtain ⟨hsign, hmagnitude, hle⟩ := ih ⟨d.negative, d.significand / 10, d.exponent + 1⟩
      -- a final zero moves from the significand to the exponent
      have hsplit : (d.significand : ℚ) = (d.significand / 10 : Nat) * 10 := by
        exact_mod_cast (Nat.div_mul_cancel (Nat.dvd_of_mod_eq_zero hzero)).symm
      rw [dropZeros, if_pos hzero]
      refine ⟨hsign, hmagnitude.trans ?_, Nat.le_trans hle (Nat.div_le_self _ _)⟩
      rw [magnitude, magnitude, hsplit, zpow_add_one₀ (by norm_num)]
      ring
    · rw [dropZeros_of_mod_ne_zero hzero]
      exact ⟨rfl, rfl, Nat.le_refl _⟩

theorem trim_spec (d : Decimal) :
    d.trim.negative = d.negative ∧ d.trim.magnitude = d.magnitude ∧
      d.trim.significand ≤ d.significand :=
  dropZeros_spec _ d

/-- Of two decimals for one magnitude, the one with the lower exponent has final zeros, unless the
exponents are the same. -/
theorem exponent_eq_of_le (hd : d.significand % 10 ≠ 0)
    (hmagnitude : d.magnitude = e.magnitude) (h : d.exponent ≤ e.exponent) :
    d.exponent = e.exponent := by
  obtain ⟨zeros, hzeros⟩ := Int.le.dest h
  have hsignificand : d.significand = e.significand * 10 ^ zeros := by
    rw [magnitude, magnitude, ← hzeros, zpow_add₀ (by norm_num), zpow_natCast] at hmagnitude
    have hpower : (10 : ℚ) ^ d.exponent ≠ 0 := zpow_ne_zero _ (by norm_num)
    have hcast : (d.significand : ℚ) = e.significand * 10 ^ zeros :=
      mul_right_cancel₀ hpower (by rw [hmagnitude]; ring)
    exact_mod_cast hcast
  -- with one more zero the last digit of the first significand would be one
  cases zeros with
  | zero => omega
  | succ zeros =>
    rw [Nat.pow_succ, ← Nat.mul_assoc] at hsignificand
    omega

/-- Decimals without final zeros are told by their signs and by what they stand for. -/
theorem eq_of_magnitude_eq (hd : d.significand % 10 ≠ 0) (he : e.significand % 10 ≠ 0)
    (hsign : d.negative = e.negative) (hmagnitude : d.magnitude = e.magnitude) : d = e := by
  have hexponent : d.exponent = e.exponent := by
    rcases Int.le_total d.exponent e.exponent with hle | hge
    · exact exponent_eq_of_le hd hmagnitude hle
    · exact (exponent_eq_of_le he hmagnitude.symm hge).symm
  have hpower : (10 : ℚ) ^ e.exponent ≠ 0 := zpow_ne_zero _ (by norm_num)
  rw [magnitude, magnitude, hexponent] at hmagnitude
  -- equal exponents leave equal significands
  have hsignificand : d.significand = e.significand := by
    exact_mod_cast mul_right_cancel₀ hpower hmagnitude
  cases d
  cases e
  simp_all

/-! ## Leading digits -/

/-- A power of ten, by a lower one. -/
theorem zpow_sub_mul_pow (power : Int) (places : Nat) :
    (10 : ℚ) ^ (power - places) * 10 ^ places = 10 ^ power := by
  rw [← zpow_natCast, ← zpow_add₀ (by norm_num), Int.sub_add_cancel]

/-- A number has as many digits as it takes for a power of ten to be above it. -/
theorem pow_le_of_length_toDigits {n : Nat} (h : n ≠ 0) :
    10 ^ ((Nat.toDigits 10 n).length - 1) ≤ n ∧ n < 10 ^ (Nat.toDigits 10 n).length := by
  have hpos : 0 < (Nat.toDigits 10 n).length := Nat.length_toDigits_pos
  refine ⟨?_, (Nat.length_toDigits_le_iff (by decide) hpos).mp (Nat.le_refl _)⟩
  rcases Nat.eq_zero_or_pos ((Nat.toDigits 10 n).length - 1) with hone | hmore
  · rw [hone]
    exact Nat.pos_of_ne_zero h
  · rw [← Nat.not_lt, ← Nat.length_toDigits_le_iff (by decide) hmore]
    omega

/-- A number between two others lies between the powers of ten of the lower one's digits. -/
theorem zpow_le_of_length_toDigits {n : Nat} (h : n ≠ 0) {x : ℚ} (hle : n ≤ x) (hlt : x < n + 1) :
    (10 : ℚ) ^ (((Nat.toDigits 10 n).length : Int) - 1) ≤ x ∧
      x < 10 ^ ((Nat.toDigits 10 n).length : Int) := by
  obtain ⟨hlow, hhigh⟩ := pow_le_of_length_toDigits h
  obtain ⟨more, hmore⟩ := Nat.exists_eq_add_one_of_ne_zero
    (Nat.ne_of_gt (Nat.length_toDigits_pos (n := n) (b := 10)))
  rw [hmore] at hlow hhigh ⊢
  have hlow' : (10 : ℚ) ^ more ≤ n := by exact_mod_cast hlow
  have hhigh' : (n : ℚ) + 1 ≤ 10 ^ (more + 1) := by exact_mod_cast hhigh
  rw [Nat.cast_add_one, Int.add_sub_cancel, zpow_natCast, ← Nat.cast_add_one, zpow_natCast]
  exact ⟨le_trans hlow' hle, lt_of_lt_of_le hlt hhigh'⟩

/-- The leading digit of a magnitude stands for at most the magnitude, and for more than a tenth. -/
theorem leadingPower_bounds {units : Nat} (h : 0 < units) :
    (10 : ℚ) ^ leadingPower units ≤ units / 2 ^ 149 ∧
      (units / 2 ^ 149 : ℚ) < 10 ^ (leadingPower units + 1) := by
  have hone : 0 < Single.unitsOfOne := by decide
  have hpower : Single.unitsOfOne ≤ tenTo 45 := by decide +kernel
  have hne : units * tenTo 45 / Single.unitsOfOne ≠ 0 :=
    Nat.ne_of_gt (Nat.div_pos (Nat.le_trans hpower (Nat.le_mul_of_pos_left _ h)) hone)
  -- the whole part of the magnitude times `10 ^ 45`
  have hexact : ((units * tenTo 45 : Nat) : ℚ) / Single.unitsOfOne = units / 2 ^ 149 * 10 ^ 45 := by
    have hten : (tenTo 45 : ℚ) = 10 ^ 45 := by
      show ((10 ^ 45 : Nat) : ℚ) = _
      norm_num
    rw [Nat.cast_mul, hten, Single.cast_unitsOfOne, div_mul_eq_mul_div]
  have hle : ((units * tenTo 45 / Single.unitsOfOne : Nat) : ℚ) ≤ units / 2 ^ 149 * 10 ^ 45 := by
    rw [← hexact, le_div_iff₀ (Nat.cast_pos.mpr hone)]
    exact_mod_cast Nat.div_mul_le_self _ _
  have hlt : (units / 2 ^ 149 * 10 ^ 45 : ℚ) < (units * tenTo 45 / Single.unitsOfOne : Nat) + 1 := by
    rw [← hexact, div_lt_iff₀ (Nat.cast_pos.mpr hone)]
    exact_mod_cast Nat.lt_mul_of_div_lt (Nat.lt_succ_self _) hone
  -- the number of digits of that part bounds it by powers of ten, and 45 places are taken off again
  obtain ⟨hlow, hhigh⟩ := zpow_le_of_length_toDigits hne hle hlt
  unfold leadingPower
  generalize ((Nat.toDigits 10 (units * tenTo 45 / Single.unitsOfOne)).length : Int) = length at *
  rw [show length - 46 = length - 1 - (45 : Nat) by omega,
    show length - 1 - (45 : Nat) + 1 = length - (45 : Nat) by omega]
  rw [← zpow_sub_mul_pow _ 45] at hlow hhigh
  exact ⟨le_of_mul_le_mul_right hlow (by norm_num), lt_of_mul_lt_mul_right hhigh (by norm_num)⟩

end Decimal

end CallGate
