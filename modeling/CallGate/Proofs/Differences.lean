import CallGate.Proofs.EqualNumbers
import CallGate.Proofs.RoundedArithmetic

/-!
# Differences decide the order

What is not an exact sum of zero is at least one unit away from zero, and what is at least one unit is
not rounded to zero. So a difference lies on the side of zero on which its operands' order puts it,
and it is a zero for equal operands only, however close the others are.

- `Single.signedUnits_lt_iff`: finite numbers are ordered like their exact values.
- `Single.exists_place_add`: a sum of finite numbers lies on the same side of zero as the exact sum.
- `Single.exists_place_sub`: so does a difference, and with infinities too.
- `Single.sub_eq_of_place_eq`: the difference of equal numbers is a zero, and which one.
- `Single.Decides`, `Single.decides_sub`: what the side of zero tells about the operands.
- `Request.subtract_decides`: so it is with the answers to requests, whatever way the numbers were
  passed.
-/

namespace CallGate

namespace Single

/-! ## Order -/

/-- The place of a sign and a rank in the order of all numbers. -/
def signedRank (negative : Bool) (rank : Nat) : Int :=
  if negative then -(rank : Int) else rank

theorem signedRank_true (rank : Nat) : signedRank true rank = -(rank : Int) := rfl

theorem signedRank_false (rank : Nat) : signedRank false rank = rank := rfl

theorem signedUnits_true (rank : Nat) : signedUnits true rank = -(units rank : Int) := rfl

theorem signedUnits_false (rank : Nat) : signedUnits false rank = units rank := rfl

theorem place_finite (negative : Bool) (rank : Fin infinityRank) :
    (finite negative rank).place = some (signedRank negative rank) := rfl

theorem place_infinite (negative : Bool) :
    (infinite negative).place = some (signedRank negative infinityRank) := rfl

/-- The ranks from the infinity on share its place. -/
theorem place_ofRank (negative : Bool) (rank : Nat) :
    (ofRank negative rank).place = some (signedRank negative (min rank infinityRank)) := by
  by_cases h : rank < infinityRank
  · rw [ofRank_of_lt h, place_finite, Nat.min_eq_left (Nat.le_of_lt h)]
  · rw [ofRank_of_ge (Nat.le_of_not_lt h), place_infinite, Nat.min_eq_right (Nat.le_of_not_lt h)]

/-- Finite numbers are ordered like their exact values. -/
theorem signedUnits_lt_iff {s t : Bool} {m n : Nat} :
    signedUnits s m < signedUnits t n ↔ signedRank s m < signedRank t n := by
  have hzero : units 0 = 0 := rfl
  have hlt : units m < units n ↔ m < n := strictMono_units.lt_iff_lt
  have hgt : units n < units m ↔ n < m := strictMono_units.lt_iff_lt
  -- a sign is told by comparing with zero, which has no units
  have hm : units 0 < units m ↔ 0 < m := strictMono_units.lt_iff_lt
  have hn : units 0 < units n ↔ 0 < n := strictMono_units.lt_iff_lt
  rw [hzero] at hm hn
  cases s <;> cases t <;>
    simp only [signedUnits_true, signedUnits_false, signedRank_true, signedRank_false] <;> omega

/-! ## Sums and differences -/

/-- The sum of finite numbers, by the exact sum. -/
theorem finite_add_finite (s t : Bool) (m n : Fin infinityRank) :
    (finite s m).add (finite t n) =
      if signedUnits s m + signedUnits t n = 0 then ofRank (s && t) 0
      else round (decide (signedUnits s m + signedUnits t n < 0))
        (signedUnits s m + signedUnits t n).natAbs 1 := rfl

/-- A sum of finite numbers lies on the same side of zero as the exact sum. -/
theorem exists_place_add (s t : Bool) (m n : Fin infinityRank) :
    ∃ k, ((finite s m).add (finite t n)).place = some k ∧
      (0 < k ↔ 0 < signedUnits s m + signedUnits t n) ∧
      (k < 0 ↔ signedUnits s m + signedUnits t n < 0) := by
  rw [finite_add_finite]
  generalize signedUnits s m + signedUnits t n = total
  by_cases hzero : total = 0
  · refine ⟨0, ?_, by omega, by omega⟩
    rw [if_pos hzero, place_ofRank]
    cases s && t <;> rfl
  · -- the sum is rounded away from zero
    have hpos : 0 < min (nearestRank total.natAbs 1) infinityRank :=
      lt_min (nearestRank_pos Nat.one_pos (Int.natAbs_pos.mpr hzero)) (by decide)
    refine ⟨_, by rw [if_neg hzero, round, place_ofRank], ?_⟩
    generalize min (nearestRank total.natAbs 1) infinityRank = rank at hpos
    by_cases hneg : total < 0
    · rw [decide_eq_true hneg, signedRank, if_pos rfl]
      omega
    · rw [decide_eq_false hneg, signedRank, if_neg Bool.false_ne_true]
      omega

theorem signedRank_not (negative : Bool) (rank : Nat) :
    signedRank (!negative) rank = -signedRank negative rank := by
  cases negative <;> simp [signedRank]

theorem signedUnits_not (negative : Bool) (rank : Nat) :
    signedUnits (!negative) rank = -signedUnits negative rank := by
  cases negative <;> simp [signedUnits]

/-- An infinity lies beyond all finite numbers on its side. -/
theorem signedRank_infinity_iff {s t : Bool} {n : Nat} (h : n < infinityRank) :
    (0 < signedRank s infinityRank ↔ signedRank t n < signedRank s infinityRank) ∧
      (signedRank s infinityRank < 0 ↔ signedRank s infinityRank < signedRank t n) := by
  cases s <;> cases t <;> simp only [signedRank_true, signedRank_false] <;> omega

/-- A difference lies on the side of zero on which the first operand lies of the second. -/
theorem exists_place_sub {x y : Single} {i j : Int} (hx : x.place = some i) (hy : y.place = some j)
    (hne : ∀ s, ¬(x = .infinite s ∧ y = .infinite s)) :
    ∃ k, (x.sub y).place = some k ∧ (0 < k ↔ j < i) ∧ (k < 0 ↔ i < j) := by
  cases x with
  | nan => cases hx
  | infinite s =>
    cases y with
    | nan => cases hy
    | infinite t =>
      -- the infinities have different signs
      obtain rfl : t = !s := by
        rw [Bool.eq_not]
        rintro rfl
        exact hne t ⟨rfl, rfl⟩
      rw [place_infinite] at hx hy
      cases hx
      cases hy
      refine ⟨signedRank s infinityRank, ?_, ?_⟩
      · cases s <;> rfl
      · rw [signedRank_not]
        omega
    | finite t n =>
      rw [place_infinite] at hx
      rw [place_finite] at hy
      cases hx
      cases hy
      exact ⟨signedRank s infinityRank, rfl, signedRank_infinity_iff n.isLt⟩
  | finite s m =>
    rw [place_finite] at hx
    cases hx
    cases y with
    | nan => cases hy
    | infinite t =>
      rw [place_infinite] at hy
      cases hy
      refine ⟨signedRank (!t) infinityRank, rfl, ?_⟩
      -- the infinity is subtracted, so the difference lies on the other side
      obtain ⟨hpositive, hnegative⟩ := signedRank_infinity_iff m.isLt (s := t) (t := s)
      rw [signedRank_not]
      omega
    | finite t n =>
      rw [place_finite] at hy
      cases hy
      -- a difference adds the opposite, and the sum follows the exact one
      obtain ⟨k, hk, hpositive, hnegative⟩ := exists_place_add s (!t) m n
      refine ⟨k, hk, ?_, ?_⟩
      · rw [hpositive, signedUnits_not, ← signedUnits_lt_iff]
        omega
      · rw [hnegative, signedUnits_not, ← signedUnits_lt_iff]
        omega

/-- A finite number less itself. -/
theorem finite_sub_self (negative : Bool) (rank : Fin infinityRank) :
    (finite negative rank).sub (.finite negative rank) = zero := by
  have htotal : signedUnits negative rank + signedUnits (!negative) rank = 0 := by
    rw [signedUnits_not, Int.add_right_neg]
  have hsub : (finite negative rank).sub (.finite negative rank) = ofRank (negative && !negative) 0 :=
    if_pos htotal
  rw [hsub, Bool.and_not_self]
  rfl

/-! ## What a difference decides -/

/-- Numbers that have a difference: none of them is not-a-number, and they are not the same
infinity. -/
structure HaveDifference (x y : Single) : Prop where
  left : x ≠ .nan
  right : y ≠ .nan
  infinities : ∀ negative, ¬(x = .infinite negative ∧ y = .infinite negative)

/-- The difference of equal numbers is positive zero, but for that of negative zero and positive
zero. -/
theorem sub_eq_of_place_eq {x y : Single} {i : Int} (hx : x.place = some i) (hy : y.place = some i)
    (h : x.HaveDifference y) : x.sub y = if x = zero.neg ∧ y = zero then zero.neg else zero := by
  by_cases hi : i = 0
  · -- four cases, one for each pair of zeros
    subst hi
    obtain ⟨s, rfl⟩ := exists_of_isZero hx
    obtain ⟨t, rfl⟩ := exists_of_isZero hy
    cases s <;> cases t <;> decide
  · obtain rfl : x = y := (eq_ofRank_of_place hx hi).trans (eq_ofRank_of_place hy hi).symm
    have hne : ¬(x = zero.neg ∧ x = zero) := by
      rintro ⟨hnegative, hpositive⟩
      rw [hnegative] at hpositive
      cases hpositive
    rw [if_neg hne]
    cases x with
    | nan => exact absurd rfl h.left
    | infinite negative => exact absurd ⟨rfl, rfl⟩ (h.infinities negative)
    | finite negative rank => exact finite_sub_self negative rank

/-- A number decides by its side of zero how two others are ordered, and whether they are equal. -/
structure Decides (x y difference : Single) : Prop where
  ne_nan : difference ≠ .nan
  greater : zero.less difference = y.less x
  less : difference.less zero = x.less y
  equals : difference.equals zero = x.equals y
  /-- A zero among the differences is positive, but for that of negative zero and positive zero. -/
  eq_of_equals : x.equals y = true →
    difference = if x = zero.neg ∧ y = zero then zero.neg else zero

/-- Every number has a place in the order. -/
theorem exists_place {x : Single} (h : x ≠ .nan) : ∃ i, x.place = some i := by
  cases x with
  | nan => exact absurd rfl h
  | infinite negative => exact ⟨_, place_infinite negative⟩
  | finite negative rank => exact ⟨_, place_finite negative rank⟩

/-- The order of numbers is that of their places. -/
theorem less_of_place {x y : Single} {i j : Int} (hx : x.place = some i) (hy : y.place = some j) :
    x.less y = decide (i < j) := by
  rw [Single.less, compareBy, hx, hy]

theorem equals_of_place {x y : Single} {i j : Int} (hx : x.place = some i)
    (hy : y.place = some j) : x.equals y = decide (i = j) := by
  rw [Single.equals, compareBy, hx, hy]

/-- A difference decides the order of its operands. -/
theorem decides_sub {x y : Single} (h : x.HaveDifference y) : Decides x y (x.sub y) := by
  obtain ⟨i, hx⟩ := exists_place h.left
  obtain ⟨j, hy⟩ := exists_place h.right
  obtain ⟨k, hk, hpositive, hnegative⟩ := exists_place_sub hx hy h.infinities
  have hzero : zero.place = some 0 := rfl
  refine ⟨?_, ?_, ?_, ?_, ?_⟩
  · intro hnan
    rw [hnan] at hk
    cases hk
  · rw [less_of_place hzero hk, less_of_place hy hx, decide_eq_decide, hpositive]
  · rw [less_of_place hk hzero, less_of_place hx hy, decide_eq_decide, hnegative]
  · -- on neither side of zero means at zero
    rw [equals_of_place hk hzero, equals_of_place hx hy, decide_eq_decide]
    omega
  · intro hequals
    rw [equals_of_place hx hy, decide_eq_true_eq] at hequals
    rw [← hequals] at hy
    exact sub_eq_of_place_eq hx hy h

/-- The order of finite numbers is that of their exact values. -/
theorem less_ofBits_iff {a b : UInt32} (ha : Word.IsFinite a) (hb : Word.IsFinite b) :
    (ofBits a).less (ofBits b) = true ↔ Word.value a < Word.value b := by
  rw [ofBits_of_isFinite ha, ofBits_of_isFinite hb, less_of_place (place_finite _ _) (place_finite _ _),
    decide_eq_true_eq, ← signedUnits_lt_iff, Word.value_eq, Word.value_eq,
    div_lt_div_iff_of_pos_right (by norm_num), Int.cast_lt]

/-- They are equal if their exact values are, so that the two zeros are. -/
theorem equals_ofBits_iff {a b : UInt32} (ha : Word.IsFinite a) (hb : Word.IsFinite b) :
    (ofBits a).equals (ofBits b) = true ↔ Word.value a = Word.value b := by
  have hless := less_ofBits_iff ha hb
  have hgreater := less_ofBits_iff hb ha
  rw [ofBits_of_isFinite ha, ofBits_of_isFinite hb,
    less_of_place (place_finite _ _) (place_finite _ _), decide_eq_true_eq] at hless hgreater
  rw [ofBits_of_isFinite ha, ofBits_of_isFinite hb,
    equals_of_place (place_finite _ _) (place_finite _ _), decide_eq_true_eq]
  -- both sides say that neither is less than the other
  constructor
  · intro hsame
    exact le_antisymm (not_lt.mp fun h => by have := hgreater.mpr h; omega)
      (not_lt.mp fun h => by have := hless.mpr h; omega)
  · intro hsame
    rw [hsame, lt_self_iff_false, iff_false] at hless hgreater
    omega

end Single

/-! ## Requests -/

namespace Request

/-- What is subtracted decides the order of the two numbers, and so does the answer to an accepted
request for it, whatever way the numbers were passed. Where the numbers are finite the order is that
of their exact values. -/
theorem subtract_decides :
    (∀ x y : Single, x.HaveDifference y → x.Decides y (x.sub y)) ∧
    (∀ (request : Request) (accepted : Call), request.name = "subtract" →
      (request.callOf Catalogue.subtract).accept = .ok accepted →
      (∃ x y, (request.callOf Catalogue.subtract).Gives "a" x ∧
        (request.callOf Catalogue.subtract).Gives "b" y) ∧
      ∀ x y, (request.callOf Catalogue.subtract).Gives "a" x →
        (request.callOf Catalogue.subtract).Gives "b" y →
        ∃ z, request.serve = .ok (.single z) ∧ (x.HaveDifference y → x.Decides y z)) ∧
    ∀ a b, Word.IsFinite a → Word.IsFinite b →
      ((Single.ofBits a).less (.ofBits b) = true ↔ Word.value a < Word.value b) ∧
      ((Single.ofBits a).equals (.ofBits b) = true ↔ Word.value a = Word.value b) := by
  refine ⟨fun x y h => Single.decides_sub h, ?_,
    fun a b ha hb => ⟨Single.less_ofBits_iff ha hb, Single.equals_ofBits_iff ha hb⟩⟩
  intro request accepted hname haccept
  have hmem : Catalogue.subtract ∈ Catalogue.signatures := by decide
  have hfind : Catalogue.find? request.name = some Catalogue.subtract :=
    Catalogue.find?_eq_some_iff.mpr ⟨hmem, hname.symm⟩
  have hcall := (Call.acceptable_of_accept (Catalogue.wellFormed_of_mem hmem) haccept).2
  -- an accepted call of an export is saturated, so it is answered by its direct value
  have hsaturated : request.Saturated Catalogue.subtract := saturated_iff.mpr ⟨hfind, hcall⟩
  constructor
  · obtain ⟨x, hx⟩ := hcall.exists_gives hmem List.mem_cons_self
    obtain ⟨y, hy⟩ := hcall.exists_gives hmem (List.mem_cons_of_mem _ List.mem_cons_self)
    exact ⟨x, y, hx, hy⟩
  · intro x y hx hy
    exact ⟨x.sub y, serve_eq_ok_iff_direct.mpr ⟨_, hsaturated, .subtract rfl hx hy⟩,
      Single.decides_sub⟩

/-- The second positive magnitude less the first, by names in reverse. -/
def neighbours : Request where
  name := "subtract"
  arguments := {
    named := [⟨"b", .single (.ofBits 0x00000001)⟩, ⟨"a", .single (.ofBits 0x00000002)⟩] }

/-- The difference of the least neighbours is not lost, and the one of zeros is negative for one
pair of them. -/
theorem subtract_decides_neighbours :
    (∃ z, neighbours.serve = .ok (.single z) ∧
      (Single.ofBits 0x00000002).Decides (.ofBits 0x00000001) z ∧
      Single.zero.less z = true) ∧
    Single.zero.neg.Decides .zero (Single.zero.neg.sub .zero) ∧
    Word.value 0x00000001 < Word.value 0x00000002 ∧
    Word.value 0x80000000 = Word.value 0x00000000 := by
  obtain ⟨hdecides, hrequest, horder⟩ := subtract_decides
  have haccept : (neighbours.callOf Catalogue.subtract).accept =
      .ok (neighbours.callOf Catalogue.subtract) := by decide
  obtain ⟨z, hserve, hz⟩ := (hrequest neighbours _ rfl haccept).2 (.ofBits 0x00000002)
    (.ofBits 0x00000001) ⟨_, List.mem_cons_self, rfl, .inr ⟨1, by decide⟩, rfl, rfl⟩
    ⟨_, List.mem_cons_of_mem _ List.mem_cons_self, rfl, .inr ⟨0, by decide⟩, rfl, rfl⟩
  have hneighbours := hz ⟨by decide, by decide, by decide⟩
  refine ⟨⟨z, hserve, hneighbours, ?_⟩, hdecides _ _ ⟨by decide, by decide, by decide⟩, ?_, ?_⟩
  · rw [hneighbours.greater]
    decide
  · exact (horder _ _ (by decide) (by decide)).1.mp (by decide)
  · exact (horder _ _ (by decide) (by decide)).2.mp (by decide)

end Request

end CallGate
