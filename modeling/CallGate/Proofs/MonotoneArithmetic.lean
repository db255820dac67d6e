import CallGate.Proofs.ArithmeticLaws

/-!
# Greater operands give greater results

An exact sum or product of finite numbers increases with its operands, and of two exact results the
greater one is not rounded to the lower number: rounding takes the nearest rank, and nearest ranks
increase. Infinities are the least and the greatest of all, and stay so as long as there is a result.

- `Word.AtMost`: the order of words by what they stand for, with the infinities at its ends.
- `Single.atMost_ofBits_iff`: it is the order of numbers.
- `Single.roundedPlace`, `Single.roundedPlace_mono`: where an exact result is rounded to, in the order
  of all numbers.
- `Single.place_finite_add`, `Single.place_finite_mul`: sums and products are rounded so.
- `Single.add_mono`, `Single.mul_mono`: sums increase with both operands, products with one of them if
  the other one is not negative.
- `Scalar.arithmetic_monotone`: the same of words, with differences and negative factors.
-/

namespace CallGate

namespace Single

variable {x x' y y' z : Single}

/-! ## Order -/

theorem atMost_iff : x.atMost y = true ↔
    ∃ i j, x.place = some i ∧ y.place = some j ∧ i ≤ j := by
  unfold atMost compareBy
  cases x.place with
  | none => simp
  | some i =>
    cases y.place with
    | none => simp
    | some j => simp

theorem atMost_of_place {i j : Int} (hx : x.place = some i) (hy : y.place = some j) (h : i ≤ j) :
    x.atMost y = true :=
  atMost_iff.mpr ⟨i, j, hx, hy, h⟩

/-- No number lies beyond the infinities. -/
theorem place_bounds {i : Int} (h : x.place = some i) :
    signedRank true infinityRank ≤ i ∧ i ≤ signedRank false infinityRank := by
  cases x with
  | nan => cases h
  | infinite negative => cases negative <;> cases h <;> decide
  | finite negative rank =>
    have hrank := rank.isLt
    rw [place_finite] at h
    cases h
    cases negative <;> simp only [signedRank_true, signedRank_false] <;> omega

theorem negative_infinity_atMost (h : x ≠ .nan) : (infinite true).atMost x = true := by
  obtain ⟨i, hi⟩ := exists_place h
  exact atMost_of_place (place_infinite true) hi (place_bounds hi).1

theorem atMost_infinity (h : x ≠ .nan) : x.atMost (.infinite false) = true := by
  obtain ⟨i, hi⟩ := exists_place h
  exact atMost_of_place hi (place_infinite false) (place_bounds hi).2

theorem atMost_finite_iff {s t : Bool} {m n : Fin infinityRank} :
    (finite s m).atMost (.finite t n) = true ↔ signedUnits s m ≤ signedUnits t n := by
  have hless := signedUnits_lt_iff (s := t) (t := s) (m := n.val) (n := m.val)
  rw [← Int.not_lt, hless, Int.not_lt, atMost_iff]
  constructor
  · rintro ⟨i, j, hi, hj, hle⟩
    cases hi
    cases hj
    exact hle
  · intro hle
    exact ⟨_, _, place_finite s m, place_finite t n, hle⟩

theorem eq_infinite_of_place {s : Bool} (h : x.place = some (signedRank s infinityRank)) :
    x = .infinite s := by
  cases s with
  | false => exact eq_ofRank_of_place h (by decide)
  | true => exact eq_ofRank_of_place h (by decide)

/-- Nothing else is at least positive infinity. -/
theorem eq_infinity_of_atMost (h : (infinite false).atMost x = true) : x = .infinite false := by
  obtain ⟨i, j, hi, hj, hle⟩ := atMost_iff.mp h
  cases hi
  have hgreatest : j = signedRank false infinityRank := le_antisymm (place_bounds hj).2 hle
  exact eq_infinite_of_place (hgreatest ▸ hj)

/-- And nothing else is at most negative infinity. -/
theorem eq_negative_infinity_of_atMost (h : x.atMost (.infinite true) = true) :
    x = .infinite true := by
  obtain ⟨i, j, hi, hj, hle⟩ := atMost_iff.mp h
  cases hj
  have hleast : i = signedRank true infinityRank := le_antisymm hle (place_bounds hi).1
  exact eq_infinite_of_place (hleast ▸ hi)

theorem ne_nan_of_atMost (h : x.atMost y = true) : x ≠ .nan ∧ y ≠ .nan := by
  obtain ⟨i, j, hi, hj, -⟩ := atMost_iff.mp h
  constructor
  · rintro rfl
    cases hi
  · rintro rfl
    cases hj

/-- Unless the lower number is the least of all or the other one the greatest, both are finite. -/
theorem exists_finite_of_atMost (h : x.atMost y = true) (hleast : x ≠ .infinite true)
    (hgreatest : y ≠ .infinite false) :
    ∃ s m t n, x = .finite s m ∧ y = .finite t n ∧ signedUnits s m ≤ signedUnits t n := by
  obtain ⟨hx, hy⟩ := ne_nan_of_atMost h
  cases x with
  | nan => exact absurd rfl hx
  | infinite s =>
    cases s with
    -- only positive infinity is above positive infinity
    | false => exact absurd (eq_infinity_of_atMost h) hgreatest
    | true => exact absurd rfl hleast
  | finite s m =>
    cases y with
    | nan => exact absurd rfl hy
    | infinite t =>
      cases t with
      | false => exact absurd rfl hgreatest
      | true => exact absurd (eq_negative_infinity_of_atMost h) hleast
    | finite t n => exact ⟨s, m, t, n, rfl, rfl, atMost_finite_iff.mp h⟩

theorem place_neg (x : Single) : x.neg.place = x.place.map (- ·) := by
  cases x with
  | nan => rfl
  | infinite s => cases s <;> rfl
  | finite s m =>
    rw [neg_finite, place_finite, place_finite, signedRank_not]
    rfl

/-- The other signs reverse the order. -/
theorem neg_atMost_neg (h : x.atMost y = true) : y.neg.atMost x.neg = true := by
  obtain ⟨i, j, hi, hj, hle⟩ := atMost_iff.mp h
  refine atMost_of_place (i := -j) (j := -i) ?_ ?_ (by omega)
  · rw [place_neg, hj]
    rfl
  · rw [place_neg, hi]
    rfl

/-! ## Rounding -/

/-- The place that an exact quotient is rounded to, that of an infinity if it is too great. -/
def roundedPlace (num : Int) (den : Nat) : Int :=
  signedRank (decide (num < 0)) (min (nearestRank num.natAbs den) infinityRank)

/-- A rounded quotient with the sign of its numerator has the place for it. -/
theorem place_round (num : Int) (den : Nat) :
    (round (decide (num < 0)) num.natAbs den).place = some (roundedPlace num den) := by
  rw [round, place_ofRank, roundedPlace]

theorem roundedPlace_zero {den : Nat} (h : 0 < den) : roundedPlace 0 den = 0 := by
  rw [roundedPlace, Int.natAbs_zero, nearestRank_zero h]
  rfl

/-- Of two quotients the greater one is not rounded to a lower place. -/
theorem roundedPlace_mono {num num' : Int} {den : Nat} (h : 0 < den) (hle : num ≤ num') :
    roundedPlace num den ≤ roundedPlace num' den := by
  have hnearest {n n' : Nat} (hn : n ≤ n') :
      min (nearestRank n den) infinityRank ≤ min (nearestRank n' den) infinityRank := by
    refine min_le_min_right _ (nearestRank_mono h h ?_)
    exact div_le_div_of_nonneg_right (Nat.cast_le.mpr hn) (Nat.cast_nonneg den)
  unfold roundedPlace
  by_cases hneg : num < 0
  · by_cases hneg' : num' < 0
    · -- magnitudes of negative numbers decrease
      have hranks := hnearest (show num'.natAbs ≤ num.natAbs by omega)
      rw [decide_eq_true hneg, decide_eq_true hneg', signedRank_true, signedRank_true]
      omega
    · -- a negative place is below one that is not, whatever the magnitudes
      rw [decide_eq_true hneg, decide_eq_false hneg', signedRank_true, signedRank_false]
      omega
  · have hneg' : ¬num' < 0 := by omega
    have hranks := hnearest (show num.natAbs ≤ num'.natAbs by omega)
    rw [decide_eq_false hneg, decide_eq_false hneg', signedRank_false, signedRank_false]
    omega

/-- Also where it is zero, a sum of finite numbers has the place of the exact sum. -/
theorem place_finite_add (s t : Bool) (m n : Fin infinityRank) :
    ((finite s m).add (finite t n)).place =
      some (roundedPlace (signedUnits s m + signedUnits t n) 1) := by
  rw [finite_add_finite]
  by_cases hzero : signedUnits s m + signedUnits t n = 0
  · rw [if_pos hzero, hzero, roundedPlace_zero Nat.one_pos, place_ofRank]
    -- both zeros have place zero
    cases s && t <;> rfl
  · rw [if_neg hzero, place_round]

/-- A product of finite numbers has the place of the exact product. -/
theorem place_finite_mul (s t : Bool) (m n : Fin infinityRank) :
    ((finite s m).mul (finite t n)).place =
      some (roundedPlace (signedUnits s m * signedUnits t n) unitsOfOne) := by
  have habs : (signedUnits s m * signedUnits t n).natAbs = units m * units n := by
    rw [Int.natAbs_mul, natAbs_signedUnits, natAbs_signedUnits]
  by_cases hzero : units m * units n = 0
  · have htotal : signedUnits s m * signedUnits t n = 0 := by
      rw [← Int.natAbs_eq_zero, habs, hzero]
    rw [finite_mul_finite, hzero, htotal, roundedPlace_zero (by decide), round_zero]
    cases s != t <;> rfl
  · -- the sign of the exact product is that of the result
    have hsign : (s != t) = decide (signedUnits s m * signedUnits t n < 0) := by
      have hpos : (0 : Int) < units m * units n := by exact_mod_cast Nat.pos_of_ne_zero hzero
      cases s <;> cases t <;> simp [signedUnits] <;> omega
    rw [finite_mul_finite, hsign, ← habs, place_round]

/-! ## Sums -/

theorem add_infinite {s : Bool} (h : x.add (.infinite s) ≠ .nan) :
    x.add (.infinite s) = .infinite s := by
  rw [add_comm] at h ⊢
  exact infinite_add h

/-- Sums increase with both operands. -/
theorem add_mono (hx : x.atMost x' = true) (hy : y.atMost y' = true) (h : x.add y ≠ .nan)
    (h' : x'.add y' ≠ .nan) : (x.add y).atMost (x'.add y') = true := by
  -- the least of all numbers as an operand is the sum, and below whatever the other sum is
  by_cases hleast : x = .infinite true ∨ y = .infinite true
  · have hsum : x.add y = .infinite true := by
      rcases hleast with rfl | rfl
      · exact infinite_add h
      · exact add_infinite h
    rw [hsum]
    exact negative_infinity_atMost h'
  -- so is the greatest one on the other side
  by_cases hgreatest : x' = .infinite false ∨ y' = .infinite false
  · have hsum : x'.add y' = .infinite false := by
      rcases hgreatest with rfl | rfl
      · exact infinite_add h'
      · exact add_infinite h'
    rw [hsum]
    exact atMost_infinity h
  rw [not_or] at hleast hgreatest
  obtain ⟨s, m, s', m', rfl, rfl, hm⟩ := exists_finite_of_atMost hx hleast.1 hgreatest.1
  obtain ⟨t, n, t', n', rfl, rfl, hn⟩ := exists_finite_of_atMost hy hleast.2 hgreatest.2
  exact atMost_of_place (place_finite_add s t m n) (place_finite_add s' t' m' n')
    (roundedPlace_mono Nat.one_pos (Int.add_le_add hm hn))

/-! ## Products -/

/-- What is not negative is positive infinity, or finite with such an exact value. -/
theorem cases_of_zero_atMost (h : zero.atMost z = true) :
    z = .infinite false ∨ ∃ t n, z = .finite t n ∧ 0 ≤ signedUnits t n := by
  by_cases hgreatest : z = .infinite false
  · exact .inl hgreatest
  · obtain ⟨s, m, t, n, hzero, rfl, hle⟩ := exists_finite_of_atMost h nofun hgreatest
    cases hzero
    exact .inr ⟨t, n, rfl, hle⟩

/-- A factor that is not negative leaves an infinity what it is, if there is a product. -/
theorem infinite_mul_of_zero_atMost {s : Bool} (hz : zero.atMost z = true)
    (h : (infinite s).mul z ≠ .nan) : (infinite s).mul z = .infinite s := by
  rcases cases_of_zero_atMost hz with rfl | ⟨t, n, rfl, hle⟩
  · cases s <;> rfl
  · rw [infinite_mul_finite] at h ⊢
    by_cases hzero : n.val = 0
    · exact absurd (if_pos hzero) h
    · -- a finite factor with units that is not negative has the positive sign
      have hpos : units 0 < units n := strictMono_units (Nat.pos_of_ne_zero hzero)
      have hsign : t = false := by
        by_contra htrue
        rw [Bool.not_eq_false] at htrue
        rw [htrue, signedUnits_true] at hle
        omega
      rw [if_neg hzero, hsign, Bool.bne_false]

/-- Positive infinity takes each finite number to the infinity of its sign, if there is a product. -/
theorem finite_mul_infinity {s : Bool} {m : Fin infinityRank}
    (h : (finite s m).mul (.infinite false) ≠ .nan) :
    (finite s m).mul (.infinite false) = .infinite s ∧ signedUnits s m ≠ 0 := by
  rw [finite_mul_infinite] at h ⊢
  by_cases hzero : m.val = 0
  · exact absurd (if_pos hzero) h
  · have hpos : units 0 < units m := strictMono_units (Nat.pos_of_ne_zero hzero)
    have habs := natAbs_signedUnits s m
    rw [if_neg hzero, Bool.bne_false]
    exact ⟨rfl, by omega⟩

/-- Products with a factor that is not negative increase with the other operand. -/
theorem mul_mono (hx : x.atMost x' = true) (hz : zero.atMost z = true) (h : x.mul z ≠ .nan)
    (h' : x'.mul z ≠ .nan) : (x.mul z).atMost (x'.mul z) = true := by
  by_cases hleast : x = .infinite true
  · rw [hleast] at h ⊢
    rw [infinite_mul_of_zero_atMost hz h]
    exact negative_infinity_atMost h'
  -- an infinity among the ordered operands settles it, as for sums
  by_cases hgreatest : x' = .infinite false
  · rw [hgreatest] at h' ⊢
    rw [infinite_mul_of_zero_atMost hz h']
    exact atMost_infinity h
  obtain ⟨s, m, s', m', rfl, rfl, hm⟩ := exists_finite_of_atMost hx hleast hgreatest
  rcases cases_of_zero_atMost hz with rfl | ⟨t, n, rfl, hn⟩
  · -- the results are the infinities of the operands' signs
    obtain ⟨hmul, hne⟩ := finite_mul_infinity h
    obtain ⟨hmul', -⟩ := finite_mul_infinity h'
    cases s with
    | true =>
      rw [hmul]
      exact negative_infinity_atMost h'
    | false =>
      cases s' with
      | false =>
        rw [hmul']
        exact atMost_infinity h
      | true =>
        rw [signedUnits_false] at hm hne
        rw [signedUnits_true] at hm
        omega
  · -- all three are finite, so the exact products are ordered and rounding keeps that
    exact atMost_of_place (place_finite_mul s t m n) (place_finite_mul s' t m' n)
      (roundedPlace_mono (by decide) (Int.mul_le_mul_of_nonneg_right hm hn))

end Single

/-! ## Words -/

namespace Word

/-- The order of words by what they stand for. One infinity is the least word and the other one the
greatest, and what is not a number has no place. -/
def AtMost (v w : UInt32) : Prop :=
  ¬IsNaN v ∧ ¬IsNaN w ∧
    ((IsInfinite v ∧ negative v = true) ∨ (IsInfinite w ∧ negative w = false) ∨
      (IsFinite v ∧ IsFinite w ∧ value v ≤ value w))

instance (v w : UInt32) : Decidable (AtMost v w) :=
  inferInstanceAs (Decidable (_ ∧ _ ∧ (_ ∨ _ ∨ _)))

end Word

namespace Single

open Word

variable {v w : UInt32}

theorem ofBits_atMost_of_isFinite (hv : IsFinite v) (hw : IsFinite w) :
    (ofBits v).atMost (ofBits w) = true ↔ value v ≤ value w := by
  rw [ofBits_of_isFinite hv, ofBits_of_isFinite hw, atMost_finite_iff, value_eq, value_eq,
    div_le_div_iff_of_pos_right (by norm_num), Int.cast_le]

/-- Words are ordered like their numbers. -/
theorem atMost_ofBits_iff : (ofBits v).atMost (ofBits w) = true ↔ AtMost v w := by
  constructor
  · intro h
    obtain ⟨hnumber, hnumber'⟩ := ne_nan_of_atMost h
    refine ⟨mt ofBits_of_isNaN hnumber, mt ofBits_of_isNaN hnumber', ?_⟩
    -- the three alternatives of the order of words, in turn
    by_cases hleast : ofBits v = .infinite true
    · exact .inl (ofBits_eq_infinite_iff.mp hleast)
    by_cases hgreatest : ofBits w = .infinite false
    · exact .inr (.inl (ofBits_eq_infinite_iff.mp hgreatest))
    obtain ⟨s, m, t, n, hv, hw, -⟩ := exists_finite_of_atMost h hleast hgreatest
    have hv' := (eq_of_ofBits_eq_finite hv hv).2
    have hw' := (eq_of_ofBits_eq_finite hw hw).2
    exact .inr (.inr ⟨hv', hw', (ofBits_atMost_of_isFinite hv' hw').mp h⟩)
  · rintro ⟨hv, hw, hleast | hgreatest | ⟨hv', hw', hle⟩⟩
    · rw [ofBits_eq_infinite_iff.mpr hleast]
      exact negative_infinity_atMost (mt ofBits_eq_nan_iff.mp hw)
    · rw [ofBits_eq_infinite_iff.mpr hgreatest]
      exact atMost_infinity (mt ofBits_eq_nan_iff.mp hv)
    · exact (ofBits_atMost_of_isFinite hv' hw').mpr hle

end Single

namespace Scalar

open Word in
/-- Sums increase with both operands, differences with the first one and against the second, and
products with a factor that is not negative or against one that is not positive, wherever the
results are numbers. -/
theorem arithmetic_monotone {a a' : UInt32} (ha : AtMost a a') :
    (∀ b b', AtMost b b' → ¬IsNaN (sum a b) → ¬IsNaN (sum a' b') →
      AtMost (sum a b) (sum a' b')) ∧
    (∀ b b', AtMost b b' → ¬IsNaN (difference a b') → ¬IsNaN (difference a' b) →
      AtMost (difference a b') (difference a' b)) ∧
    (∀ c, AtMost 0 c → ¬IsNaN (product a c) → ¬IsNaN (product a' c) →
      AtMost (product a c) (product a' c)) ∧
    (∀ c, AtMost c 0 → ¬IsNaN (product a c) → ¬IsNaN (product a' c) →
      AtMost (product a' c) (product a c)) := by
  have hzero : Single.ofBits 0 = .zero := by decide
  simp only [← Single.ofBits_eq_nan_iff, ← Single.atMost_ofBits_iff, ofBits_sum, ofBits_difference,
    ofBits_product, hzero] at ha ⊢
  refine ⟨?_, ?_, ?_, ?_⟩
  · intro b b' hb h h'
    exact Single.add_mono ha hb h h'
  · intro b b' hb h h'
    exact Single.add_mono ha (Single.neg_atMost_neg hb) h h'
  · intro c hc h h'
    exact Single.mul_mono ha hc h h'
  · -- a factor that is not positive is one that is not negative, of the other operands
    intro c hc h h'
    have hneg : Single.zero.atMost (Single.ofBits c).neg = true := by
      have hreversed := Single.neg_atMost_neg hc
      have hzeros : Single.zero.neg.place = Single.zero.place := rfl
      rwa [Single.atMost, Single.compareBy, hzeros] at hreversed
    rw [← Single.neg_mul_neg] at h h'
    rw [← Single.neg_mul_neg, ← Single.neg_mul_neg (Single.ofBits a)]
    exact Single.mul_mono (Single.neg_atMost_neg ha) hneg h' h

/-- Between neighbours: where the last finite number goes over to an infinity, and where zero goes
over to the least positive number, and with a negative factor from the last negative number to
negative zero. -/
theorem arithmetic_monotone_neighbours :
    (Word.AtMost 0x72FFFFFF 0x73000000 ∧ Word.sum 0x7F7FFFFF 0x72FFFFFF = 0x7F7FFFFF ∧
      Word.sum 0x7F7FFFFF 0x73000000 = 0x7F800000 ∧
      Word.AtMost (Word.sum 0x7F7FFFFF 0x72FFFFFF) (Word.sum 0x7F7FFFFF 0x73000000)) ∧
    (Word.AtMost 0xFF800000 0x00000001 ∧ Word.AtMost 0x80000000 0x7F800000 ∧
      Word.AtMost (Word.difference 0xFF800000 0x7F800000)
        (Word.difference 0x00000001 0x80000000)) ∧
    (Word.AtMost 0x3F000000 0x3F000001 ∧ Word.AtMost 0 0x00000001 ∧
      Word.product 0x3F000000 0x00000001 = 0 ∧ Word.product 0x3F000001 0x00000001 = 0x00000001 ∧
      Word.AtMost (Word.product 0x3F000000 0x00000001) (Word.product 0x3F000001 0x00000001)) ∧
    (Word.AtMost 0x80000001 0 ∧
      Word.AtMost (Word.product 0x3F000001 0x80000001) (Word.product 0x3F000000 0x80000001)) := by
  have hlast : Word.AtMost 0x72FFFFFF 0x73000000 := by decide +kernel
  have hsame : Word.AtMost 0x7F7FFFFF 0x7F7FFFFF := by decide +kernel
  have hleast : Word.AtMost 0xFF800000 0x00000001 := by decide +kernel
  have hzero : Word.AtMost 0x80000000 0x7F800000 := by decide +kernel
  have hhalf : Word.AtMost 0x3F000000 0x3F000001 := by decide +kernel
  have hpositive : Word.AtMost 0 0x00000001 := by decide +kernel
  have hnegative : Word.AtMost 0x80000001 0 := by decide +kernel
  obtain ⟨-, -, hproduct, hreversed⟩ := arithmetic_monotone hhalf
  refine ⟨⟨hlast, by decide +kernel, by decide +kernel, ?_⟩, ⟨hleast, hzero, ?_⟩,
    ⟨hhalf, hpositive, by decide +kernel, by decide +kernel, ?_⟩, hnegative, ?_⟩
  · exact (arithmetic_monotone hsame).1 _ _ hlast (by decide +kernel) (by decide +kernel)
  · exact (arithmetic_monotone hleast).2.1 _ _ hzero (by decide +kernel) (by decide +kernel)
  · exact hproduct _ hpositive (by decide +kernel) (by decide +kernel)
  · exact hreversed _ hnegative (by decide +kernel) (by decide +kernel)

end Scalar

end CallGate
