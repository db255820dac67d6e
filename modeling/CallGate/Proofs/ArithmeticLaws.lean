import CallGate.Proofs.Differences

/-!
# Laws of the arithmetic

Operands may be exchanged and signs may be drawn out, and there are neutral operands, all of this up to
the last bit. Only a sum that is exactly zero does not follow its operands' signs, since it is positive
whatever these are; so signs cannot be drawn out of such a sum.

- `Word.Same`: words of one number, which are the same word or are both not-a-number.
- `Word.sum`, `Word.difference`, `Word.product`: what scalars give, as words.
- `Single.neg_mul`, `Single.neg_add_neg`, `Single.sub_swap`: signs drawn out of products, sums and
  differences.
- `Single.mul_one`, `Single.add_negative_zero`, `Single.add_zero_of_ne`: neutral operands.
- `Word.Lawful`, `Scalar.arithmetic_lawful`: the laws, of any two words.
-/

namespace CallGate

namespace Single

variable {x y : Single}

/-! ## Signs -/

theorem neg_finite (negative : Bool) (rank : Fin infinityRank) :
    (finite negative rank).neg = .finite (!negative) rank := rfl

theorem neg_infinite (negative : Bool) : (infinite negative).neg = .infinite (!negative) := rfl

/-- Turning the sign keeps the rank, also of a number that overflows. -/
theorem neg_ofRank (negative : Bool) (rank : Nat) :
    (ofRank negative rank).neg = ofRank (!negative) rank := by
  by_cases h : rank < infinityRank
  · rw [ofRank_of_lt h, ofRank_of_lt h, neg_finite]
  · rw [ofRank_of_ge (Nat.le_of_not_lt h), ofRank_of_ge (Nat.le_of_not_lt h), neg_infinite]

/-- Rounding is to magnitudes, so it does not see the sign. -/
theorem neg_round (negative : Bool) (num den : Nat) :
    (round negative num den).neg = round (!negative) num den :=
  neg_ofRank negative _

theorem infinite_mul_finite (s t : Bool) (n : Fin infinityRank) :
    (infinite s).mul (finite t n) = if n.val = 0 then .nan else .infinite (s != t) := rfl

theorem finite_mul_infinite (s t : Bool) (m : Fin infinityRank) :
    (finite s m).mul (infinite t) = if m.val = 0 then .nan else .infinite (s != t) := rfl

/-- The product of finite numbers, by the exact product. -/
theorem finite_mul_finite (s t : Bool) (m n : Fin infinityRank) :
    (finite s m).mul (finite t n) = round (s != t) (units m * units n) unitsOfOne := rfl

/-- A sign may be drawn out of a product, also where it is a zero. -/
theorem neg_mul (x y : Single) : x.neg.mul y = (x.mul y).neg := by
  cases x with
  | nan => cases y <;> rfl
  | infinite s =>
    cases y with
    | nan => rfl
    | infinite t => cases s <;> cases t <;> rfl
    | finite t n =>
      rw [neg_infinite, infinite_mul_finite, infinite_mul_finite]
      -- an infinity times zero is no number, which has no sign to turn
      by_cases hzero : n.val = 0
      · rw [if_pos hzero, if_pos hzero]
        rfl
      · rw [if_neg hzero, if_neg hzero, neg_infinite, Bool.not_bne]
  | finite s m =>
    cases y with
    | nan => rfl
    | infinite t =>
      rw [neg_finite, finite_mul_infinite, finite_mul_infinite]
      by_cases hzero : m.val = 0
      · rw [if_pos hzero, if_pos hzero]
        rfl
      · rw [if_neg hzero, if_neg hzero, neg_infinite, Bool.not_bne]
    | finite t n =>
      rw [neg_finite, finite_mul_finite, finite_mul_finite, neg_round, Bool.not_bne]

theorem neg_mul_neg (x y : Single) : x.neg.mul y.neg = x.mul y := by
  rw [neg_mul, mul_comm x, neg_mul, neg_neg, mul_comm]

/-- Numbers with opposite exact values have the same rank and opposite signs, or they are zeros. -/
theorem opposite_of_signedUnits {s t : Bool} {m n : Nat}
    (h : signedUnits s m + signedUnits t n = 0) : m = n ∧ (t = (!s) ∨ m = 0) := by
  have hunits : signedUnits s m = signedUnits (!t) n := by
    rw [signedUnits_not]
    omega
  -- equal places in the order of exact values, so equal signed ranks
  have hranks : signedRank s m = signedRank (!t) n := by
    have hless := signedUnits_lt_iff (s := s) (t := !t) (m := m) (n := n)
    have hgreater := signedUnits_lt_iff (s := !t) (t := s) (m := n) (n := m)
    omega
  cases s <;> cases t <;>
    simp only [Bool.not_true, Bool.not_false, signedRank_true, signedRank_false] at hranks <;>
    simp <;> omega

/-- Signs may be drawn out of a sum, but for that of a number and the one of the other sign. -/
theorem neg_add_neg
    (h : ∀ negative rank, ¬(x = .finite negative rank ∧ y = .finite (!negative) rank)) :
    x.neg.add y.neg = (x.add y).neg := by
  cases x with
  | nan => cases y <;> rfl
  | infinite s =>
    cases y with
    | nan => rfl
    | infinite t => cases s <;> cases t <;> rfl
    | finite t n => rfl
  | finite s m =>
    cases y with
    | nan => rfl
    | infinite t => rfl
    | finite t n =>
      -- the exact sum of the opposite operands is the opposite of the exact sum
      have htotal : signedUnits (!s) m + signedUnits (!t) n =
          -(signedUnits s m + signedUnits t n) := by
        rw [signedUnits_not, signedUnits_not]
        omega
      rw [neg_finite, neg_finite, finite_add_finite, finite_add_finite, htotal]
      by_cases hzero : signedUnits s m + signedUnits t n = 0
      · -- the numbers are not opposite, so that they are zeros of one sign
        obtain ⟨hrank, hsign⟩ := opposite_of_signedUnits hzero
        obtain rfl : m = n := Fin.ext hrank
        obtain rfl : t = s := by
          by_contra hne
          exact h s m ⟨rfl, by rw [Bool.eq_not.mpr hne]⟩
        rw [if_pos hzero, if_pos (by omega), neg_ofRank, Bool.and_self, Bool.and_self]
      · generalize signedUnits s m + signedUnits t n = total at hzero
        have hless : decide (-total < 0) = !decide (total < 0) := by
          rw [← decide_not, decide_eq_decide]
          omega
        rw [if_neg hzero, if_neg (by omega), neg_round, Int.natAbs_neg, hless]

/-- A difference and the one with its operands exchanged have opposite signs, but for that of a
finite number and itself. -/
theorem sub_swap (h : ∀ negative rank, ¬(x = .finite negative rank ∧ y = .finite negative rank)) :
    y.sub x = (x.sub y).neg := by
  have hopposite : ∀ negative rank,
      ¬(x = .finite negative rank ∧ y.neg = .finite (!negative) rank) := by
    rintro negative rank ⟨hx, hy⟩
    refine h negative rank ⟨hx, ?_⟩
    rw [← neg_neg y, hy, neg_finite, Bool.not_not]
  calc y.sub x = y.add x.neg := rfl
    _ = x.neg.add y.neg.neg := by rw [neg_neg, add_comm]
    _ = (x.sub y).neg := neg_add_neg hopposite

/-! ## Neutral operands -/

/-- The number one. -/
def one : Single := .finite false ⟨0x3F800000, by decide⟩

/-- One is neutral for products: a magnitude that is exact is its own nearest one. -/
theorem mul_one (x : Single) : x.mul one = x := by
  have hunits : units 0x3F800000 = unitsOfOne := by decide +kernel
  cases x with
  | nan => rfl
  | infinite s => cases s <;> rfl
  | finite s m =>
    rw [one, finite_mul_finite, hunits, round, nearestRank_units m.val (by decide), Bool.bne_false,
      ofRank_of_lt m.isLt]

theorem natAbs_signedUnits (negative : Bool) (rank : Nat) :
    (signedUnits negative rank).natAbs = units rank := by
  cases negative <;> simp [signedUnits]

/-- Zeros are neutral to all numbers but zeros. -/
theorem add_zero_of_not_isZero (h : ¬x.IsZero) (t : Bool) :
    x.add (.finite t ⟨0, by decide⟩) = x := by
  cases x with
  | nan => rfl
  | infinite s => rfl
  | finite s m =>
    -- only rank zero has no units, and that is excluded
    have hpos : 0 < units m := by
      refine Nat.pos_of_ne_zero fun hzero => ?_
      have hrank : m.val = 0 := strictMono_units.injective hzero
      obtain rfl : m = ⟨0, by decide⟩ := Fin.ext hrank
      exact h (isZero_zero s)
    have hsign : decide (signedUnits s m < 0) = s := by
      cases s <;> simp [signedUnits, hpos]
    have habs := natAbs_signedUnits s m
    -- the sum is exact, so rounding gives the rank back
    have hnearest : nearestRank (units m) 1 = m := by
      simpa using nearestRank_units m.val Nat.one_pos
    have hne : signedUnits s m ≠ 0 := by
      intro hzero
      rw [hzero] at habs
      exact Nat.ne_of_lt hpos habs
    rw [finite_add_finite, signedUnits_zero, Int.add_zero, if_neg hne, hsign, habs, round, hnearest,
      ofRank_of_lt m.isLt]

/-- Negative zero is neutral to all numbers. -/
theorem add_negative_zero (x : Single) : x.add zero.neg = x := by
  by_cases hzero : x.IsZero
  · obtain ⟨s, rfl⟩ := exists_of_isZero hzero
    cases s <;> rfl
  · exact add_zero_of_not_isZero hzero true

/-- Positive zero is neutral to all numbers but negative zero. -/
theorem add_zero_of_ne (h : x ≠ zero.neg) : x.add zero = x := by
  by_cases hzero : x.IsZero
  · obtain ⟨s, rfl⟩ := exists_of_isZero hzero
    -- of the two zeros only the positive one is left unchanged
    cases s with
    | false => rfl
    | true => exact absurd rfl h
  · exact add_zero_of_not_isZero hzero false

/-- Either way it is equal as a number. -/
theorem equals_add_zero (h : x ≠ .nan) : (x.add zero).equals x = true := by
  by_cases hzero : x = zero.neg
  · rw [hzero]
    decide
  · obtain ⟨i, hi⟩ := exists_place h
    rw [add_zero_of_ne hzero, equals_of_place hi hi, decide_eq_true rfl]

end Single

/-! ## Words -/

namespace Word

/-- Words of one number: the same word, or two that are not-a-number. -/
def Same (v w : UInt32) : Prop :=
  v = w ∨ IsNaN v ∧ IsNaN w

instance (v w : UInt32) : Decidable (Same v w) := inferInstanceAs (Decidable (_ ∨ _))

variable {a b v w : UInt32}

theorem same_iff : Same v w ↔ Single.ofBits v = Single.ofBits w :=
  Single.ofBits_inj.symm

/-- The word of what a scalar gives when a number is added. -/
def sum (a b : UInt32) : UInt32 :=
  (Scalar.add ⟨.ofBits a⟩ (.ofBits b)).toBits

/-- The word of the difference of two numbers. -/
def difference (a b : UInt32) : UInt32 :=
  ((Single.ofBits a).sub (.ofBits b)).toBits

/-- The word of what a scalar gives when it is multiplied by a number. -/
def product (a b : UInt32) : UInt32 :=
  (Scalar.mul ⟨.ofBits a⟩ (.ofBits b)).toBits

theorem ofBits_sum (a b : UInt32) :
    Single.ofBits (sum a b) = (Single.ofBits a).add (.ofBits b) :=
  Single.ofBits_toBits _

theorem ofBits_difference (a b : UInt32) :
    Single.ofBits (difference a b) = (Single.ofBits a).sub (.ofBits b) :=
  Single.ofBits_toBits _

theorem ofBits_product (a b : UInt32) :
    Single.ofBits (product a b) = (Single.ofBits a).mul (.ofBits b) :=
  Single.ofBits_toBits _

/-- The laws that the arithmetic keeps for two words. -/
structure Lawful (a b : UInt32) : Prop where
  add_comm : Same (sum a b) (sum b a)
  mul_comm : Same (product a b) (product b a)
  sub_eq_add : Same (difference a b) (sum a (flipped b))
  neg_mul : Same (product (flipped a) b) (flipped (product a b))
  sub_swap : ¬(a = b ∧ IsFinite a) → Same (difference b a) (flipped (difference a b))
  /-- The difference of a finite number and itself is positive zero, and stays so. -/
  sub_self : a = b ∧ IsFinite a → difference a b = 0 ∧ difference b a = 0
  neg_add_neg : ¬(b = flipped a ∧ IsFinite a) →
    Same (sum (flipped a) (flipped b)) (flipped (sum a b))
  /-- The sum of a finite number and the one of the other sign is positive zero, and stays so. -/
  add_opposite : b = flipped a ∧ IsFinite a → sum a b = 0 ∧ sum (flipped a) (flipped b) = 0
  mul_one : Same (product a 0x3F800000) a
  add_negative_zero : Same (sum a 0x80000000) a
  add_zero : a ≠ 0x80000000 → Same (sum a 0) a
  /-- Negative zero alone is changed by positive zero. -/
  negative_zero_add_zero : sum 0x80000000 0 = 0
  /-- But as a number it is not. -/
  equals_add_zero : ¬IsNaN a → (Single.ofBits (sum a 0)).equals (.ofBits a) = true

/-- Only one word has the number of a finite word. -/
theorem eq_of_ofBits_eq_finite {negative : Bool} {rank : Fin Single.infinityRank}
    (hv : Single.ofBits v = .finite negative rank) (hw : Single.ofBits w = .finite negative rank) :
    v = w ∧ IsFinite v := by
  have hnan : ¬IsNaN v := by
    rw [← Single.ofBits_eq_nan_iff, hv]
    nofun
  refine ⟨(Single.ofBits_inj.mp (hv.trans hw.symm)).resolve_right fun h => hnan h.1, ?_⟩
  -- the word cannot be an infinity, which is read as one
  by_contra hnot
  have hinfinite := (not_isFinite_iff v |>.mp hnot).resolve_left hnan
  rw [Single.ofBits_of_isInfinite hinfinite] at hv
  cases hv

/-- A finite word less itself leaves positive zero, whichever its sign. -/
theorem difference_self (h : IsFinite a) : difference a a = 0 := by
  rw [difference, Single.ofBits_of_isFinite h, Single.finite_sub_self]
  decide

theorem sum_flipped (h : IsFinite a) : sum a (flipped a) = 0 := by
  rw [← difference_self h, sum, Scalar.add, Single.ofBits_flipped]
  rfl

end Word

namespace Scalar

open Word in
/-- The laws of the arithmetic hold for any two words. -/
theorem arithmetic_lawful (a b : UInt32) : Lawful a b where
  add_comm := by rw [same_iff, ofBits_sum, ofBits_sum, Single.add_comm]
  mul_comm := by rw [same_iff, ofBits_product, ofBits_product, Single.mul_comm]
  sub_eq_add := by
    rw [same_iff, ofBits_difference, ofBits_sum, Single.ofBits_flipped]
    rfl
  neg_mul := by
    rw [same_iff, ofBits_product, Single.ofBits_flipped, Single.ofBits_flipped, ofBits_product,
      Single.neg_mul]
  sub_swap := by
    intro hne
    rw [same_iff, ofBits_difference, Single.ofBits_flipped, ofBits_difference]
    refine Single.sub_swap ?_
    -- the exception to the number law is an equation of words, since finite words are unique
    rintro negative rank ⟨ha, hb⟩
    exact hne (eq_of_ofBits_eq_finite ha hb)
  sub_self := by
    rintro ⟨rfl, hfinite⟩
    exact ⟨difference_self hfinite, difference_self hfinite⟩
  neg_add_neg := by
    intro hne
    rw [same_iff, ofBits_sum, Single.ofBits_flipped, Single.ofBits_flipped, Single.ofBits_flipped,
      ofBits_sum]
    refine Single.neg_add_neg ?_
    rintro negative rank ⟨ha, hb⟩
    have hflipped : Single.ofBits (flipped a) = .finite (!negative) rank := by
      rw [Single.ofBits_flipped, ha, Single.neg]
    obtain ⟨hsame, hfinite⟩ := eq_of_ofBits_eq_finite hb hflipped
    exact hne ⟨hsame, by rwa [hsame, isFinite_flipped] at hfinite⟩
  add_opposite := by
    rintro ⟨rfl, hfinite⟩
    exact ⟨sum_flipped hfinite, sum_flipped ((isFinite_flipped a).mpr hfinite)⟩
  mul_one := by
    rw [same_iff, ofBits_product]
    exact Single.mul_one _
  add_negative_zero := by
    rw [same_iff, ofBits_sum]
    exact Single.add_negative_zero _
  add_zero := by
    intro hne
    rw [same_iff, ofBits_sum]
    refine Single.add_zero_of_ne fun hzero => hne ?_
    exact (eq_of_ofBits_eq_finite (w := 0x80000000) hzero (by decide)).1
  negative_zero_add_zero := by decide
  equals_add_zero := by
    intro hnan
    rw [ofBits_sum]
    exact Single.equals_add_zero (mt Single.ofBits_eq_nan_iff.mp hnan)

/-- The difference of zeros of different signs has a sign that follows theirs, and an infinity less
itself is not a number either way; but the exceptions are those of finite numbers. -/
theorem arithmetic_lawful_exceptions :
    Word.Same (Word.difference 0x80000000 0) (Word.flipped (Word.difference 0 0x80000000)) ∧
    Word.Same (Word.difference 0x7F800000 0x7F800000)
      (Word.flipped (Word.difference 0x7F800000 0x7F800000)) ∧
    Word.difference 0x7F7FFFFF 0x7F7FFFFF = 0 ∧
    Word.Same (Word.sum 0x80000000 0x80000000) (Word.flipped (Word.sum 0 0)) ∧
    Word.sum 0x00000001 0x80000001 = 0 ∧ Word.sum 0x80000001 0x00000001 = 0 ∧
    Word.Same (Word.sum 0x00000001 0) 0x00000001 ∧
    (Single.ofBits (Word.sum 0x80000000 0)).equals (.ofBits 0x80000000) = true := by
  have hzeros := arithmetic_lawful 0 0x80000000
  have hinfinite := arithmetic_lawful 0x7F800000 0x7F800000
  have hlast := arithmetic_lawful 0x7F7FFFFF 0x7F7FFFFF
  have hleast := arithmetic_lawful 0x00000001 0x80000001
  refine ⟨hzeros.sub_swap (by decide), hinfinite.sub_swap (by decide), ?_, ?_, ?_⟩
  · exact (hlast.sub_self (by decide)).1
  · exact (arithmetic_lawful 0 0).neg_add_neg (by decide)
  · obtain ⟨hsum, hflipped⟩ := hleast.add_opposite (by decide)
    exact ⟨hsum, hflipped, hleast.add_zero (by decide),
      (arithmetic_lawful 0x80000000 0).equals_add_zero (by decide)⟩

end Scalar

end CallGate
