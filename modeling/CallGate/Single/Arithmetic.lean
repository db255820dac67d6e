import CallGate.Single.Rounding

/-!
# Arithmetic and comparison of single-precision numbers

Each operation is exact on the operands and rounds once, to nearest with halfway cases going to the
even neighbour. Nothing fails: not-a-number and the infinities are results like any other.

- `Single.add`, `Single.sub`, `Single.mul`.
- `Single.equals`, `Single.less`, `Single.atMost`: comparison as numbers. The two zeros are equal
  and not-a-number compares with nothing, itself included, so `equals` is not equality of `Single`s.
-/

namespace CallGate.Single

/-! ## Operations -/

/-- The sum. An exact sum of zero is positive, unless both operands are negative zeros. -/
def add : Single → Single → Single
  | .nan, _ | _, .nan => .nan
  | .infinite s, .infinite t => if s = t then .infinite s else .nan
  | .infinite s, .finite .. => .infinite s
  | .finite .., .infinite t => .infinite t
  | .finite s m, .finite t n =>
    let total := signedUnits s m + signedUnits t n
    if total = 0 then ofRank (s && t) 0 else round (decide (total < 0)) total.natAbs 1

/-- The difference: the sum with the second operand's sign turned. -/
def sub (x y : Single) : Single :=
  x.add y.neg

/-- The product. Its sign is negative when the operands' signs differ, also when it is zero. -/
def mul : Single → Single → Single
  | .nan, _ | _, .nan => .nan
  | .infinite s, .infinite t => .infinite (s != t)
  | .infinite s, .finite t n => if n.val = 0 then .nan else .infinite (s != t)
  | .finite s m, .infinite t => if m.val = 0 then .nan else .infinite (s != t)
  | .finite s m, .finite t n => round (s != t) (units m * units n) unitsOfOne

/-- The operands of a sum may be exchanged, also for the sign of a zero. -/
theorem add_comm (x y : Single) : x.add y = y.add x := by
  cases x <;> cases y <;> simp only [add]
  case infinite.infinite s t =>
    by_cases h : s = t
    · rw [h]
    · rw [if_neg h, if_neg (Ne.symm h)]
  case finite.finite s m t n => rw [Int.add_comm, Bool.and_comm]

theorem mul_comm (x y : Single) : x.mul y = y.mul x := by
  cases x <;> cases y <;> simp only [mul]
  case infinite.infinite s t => rw [bne_comm]
  case infinite.finite s t n => rw [bne_comm]
  case finite.infinite s m t => rw [bne_comm]
  case finite.finite s m t n => rw [bne_comm, Nat.mul_comm]

/-! ## Comparison -/

/-- The place of a number in the order of all numbers, both zeros at 0; none for not-a-number. -/
def place : Single → Option Int
  | .nan => none
  | .infinite negative => some (if negative then -(infinityRank : Int) else infinityRank)
  | .finite negative rank => some (if negative then -(rank.val : Int) else rank.val)

/-- Comparison by place, false as soon as an operand has none. -/
def compareBy (holds : Int → Int → Bool) (x y : Single) : Bool :=
  match x.place, y.place with
  | some i, some j => holds i j
  | _, _ => false

/-- Equality as numbers. -/
def equals : Single → Single → Bool :=
  compareBy fun i j => i = j

/-- The order as numbers. -/
def less : Single → Single → Bool :=
  compareBy fun i j => i < j

/-- The order as numbers, or equal. -/
def atMost : Single → Single → Bool :=
  compareBy fun i j => i ≤ j

/-- Not-a-number equals nothing, itself included. -/
@[simp] theorem nan_equals (x : Single) : Single.nan.equals x = false := by
  simp [equals, compareBy, place]

@[simp] theorem equals_nan (x : Single) : x.equals .nan = false := by
  unfold equals compareBy
  cases x.place <;> rfl

end CallGate.Single
