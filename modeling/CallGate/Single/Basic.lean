/-!
# Single-precision numbers

The 32-bit binary floating-point numbers, taken as values and not as words.

- `Single`: not-a-number, the two infinities, and the finite numbers. A finite number is a sign and
  a rank: the place of its magnitude in the increasing list of all finite magnitudes, zero first.
  All words for not-a-number are one value, so equality of `Single`s is equality of bits up to that.
- `Single.ofBits`, `Single.toBits`: from and to a 32-bit word. The low 31 bits of a finite number's
  word are its rank.
- `Single.units`: the exact magnitude at a rank, in units of `2 ^ -149`, the least positive number.
-/

namespace CallGate

namespace Single

/-- How many finite magnitudes there are. Infinity has the place after them. -/
abbrev infinityRank : Nat := 0x7F800000

end Single

/-- A single-precision number. -/
inductive Single where
  /-- Not-a-number, whatever its word. -/
  | nan
  /-- An infinity. -/
  | infinite (negative : Bool)
  /-- A sign and the place of a magnitude among the finite ones; the zeros have rank 0. -/
  | finite (negative : Bool) (rank : Fin Single.infinityRank)
  deriving DecidableEq

namespace Single

/-! ## Words -/

/-- The number of the given sign at a rank, an infinity beyond the finite ones. -/
def ofRank (negative : Bool) (rank : Nat) : Single :=
  if h : rank < infinityRank then .finite negative ⟨rank, h⟩ else .infinite negative

/-- The number a 32-bit word stands for: the top bit is the sign, the rest the rank. -/
def ofBits (word : UInt32) : Single :=
  if word.toNat % 0x80000000 ≤ infinityRank then
    ofRank (decide (0x80000000 ≤ word.toNat)) (word.toNat % 0x80000000)
  else
    .nan

/-- The word of a sign and a rank. -/
def word (negative : Bool) (rank : Nat) : UInt32 :=
  UInt32.ofNat (cond negative 0x80000000 0 + rank)

/-- The word of a number; of those for not-a-number, the quiet positive one without payload. -/
def toBits : Single → UInt32
  | .nan => 0x7FC00000
  | .infinite negative => word negative infinityRank
  | .finite negative rank => word negative rank.val

@[simp] theorem ofRank_of_lt {negative : Bool} {rank : Nat} (h : rank < infinityRank) :
    ofRank negative rank = .finite negative ⟨rank, h⟩ := by simp [ofRank, h]

@[simp] theorem ofRank_of_ge {negative : Bool} {rank : Nat} (h : infinityRank ≤ rank) :
    ofRank negative rank = .infinite negative := by simp [ofRank, Nat.not_lt.2 h]

/-- Every number is read back from its word. -/
@[simp] theorem ofBits_toBits (x : Single) : ofBits x.toBits = x := by
  -- not-a-number aside, a word is made of a sign and a rank and taken apart again
  have back (negative : Bool) (rank : Nat) (h : rank ≤ infinityRank) :
      ofBits (word negative rank) = ofRank negative rank := by
    have hw : (word negative rank).toNat = cond negative 0x80000000 0 + rank := by
      cases negative <;> simp only [word, cond, UInt32.toNat_ofNat', infinityRank] at * <;> omega
    have hm : (word negative rank).toNat % 0x80000000 = rank := by
      cases negative <;> simp only [hw, cond, infinityRank] at * <;> omega
    have hs : decide (0x80000000 ≤ (word negative rank).toNat) = negative := by
      cases negative <;> simp only [hw, cond, infinityRank, decide_eq_true_eq,
        decide_eq_false_iff_not] at * <;> omega
    rw [ofBits, hm, hs, if_pos h]
  match x with
  | .nan => rfl
  | .infinite negative => exact (back negative _ (Nat.le_refl _)).trans (by simp)
  | .finite negative ⟨rank, h⟩ => exact (back negative rank (Nat.le_of_lt h)).trans (by simp [h])

/-! ## Signs -/

/-- Positive zero. -/
def zero : Single := .finite false ⟨0, by decide⟩

/-- The number of the other sign. -/
def neg : Single → Single
  | .nan => .nan
  | .infinite negative => .infinite (!negative)
  | .finite negative rank => .finite (!negative) rank

@[simp] theorem neg_neg (x : Single) : x.neg.neg = x := by cases x <;> simp [neg]

/-! ## Exact magnitudes -/

/-- The exact magnitude at a rank, in units of `2 ^ -149`. The rank's low 23 bits are the fraction
and its upper bits the exponent; below the first exponent the spacing stays the same. -/
def units (rank : Nat) : Nat :=
  if rank / 0x800000 = 0 then rank
  else (0x800000 + rank % 0x800000) <<< (rank / 0x800000 - 1)

/-- How many units the number 1 has. -/
def unitsOfOne : Nat := 1 <<< 149

/-- A magnitude in units, with its sign. -/
def signedUnits (negative : Bool) (rank : Nat) : Int :=
  if negative then -(units rank : Int) else units rank

end Single

end CallGate
