import CallGate.Proofs.ReadDecimals

/-!
# Shortest decimals

The grids of decimals are nested, and on each of them the two neighbours of a word stand for all
others: what reads back on a grid can be moved to one of them, and comes nearer. So the first grid
on which a neighbour reads back has the shortest decimals, and of its neighbours the nearer one is
the nearest of all. Only where both are equally near does it matter which one is taken.

- `Decimal.IsShortest`: no decimal of fewer digits reads back, and no nearer one of as many digits.
- `Decimal.TakenBefore`, `Decimal.onGrid?_cases`: the two neighbours on a grid, and which of them is
  taken.
- `Decimal.Best`, `Decimal.onGrid?_spec`: what is taken is the best one of its grid.
- `Decimal.ReadsAs.exists_gridPoint`: every decimal that reads back can be moved to a grid with as
  many digits as it has.
- `Decimal.exists_isShortest`: what a number is written with is a shortest decimal, and which one.
-/

namespace CallGate

namespace Decimal

variable {d e : Decimal} {w : UInt32} {grid : Int}

/-! ## Shortest decimals -/

/-- The digits of a decimal. -/
def digits (d : Decimal) : List Char := Nat.toDigits 10 d.significand

/-- A decimal that reads back, with a leading and a last digit that are not zero and at most nine
digits. None of fewer digits reads back, and none of as many that is nearer. -/
structure IsShortest (d : Decimal) (w : UInt32) : Prop where
  reads : d.ReadsAs w
  leading_ne : d.digits.head? ≠ some '0'
  last_ne : d.digits.getLast? ≠ some '0'
  length_pos : 1 ≤ d.digits.length
  length_le : d.digits.length ≤ 9
  minimal : ∀ e : Decimal, e.ReadsAs w → d.digits.length ≤ e.digits.length
  nearest : ∀ e : Decimal, e.ReadsAs w → e.digits.length = d.digits.length →
    d.distance w ≤ e.distance w

theorem getLast?_toDigits (n : Nat) :
    (Nat.toDigits 10 n).getLast? = some (Nat.digitChar (n % 10)) := by
  rw [Nat.toDigits_eq_if (by decide)]
  split
  case isTrue hsmall => rw [List.getLast?_singleton, Nat.mod_eq_of_lt hsmall]
  case isFalse => rw [List.getLast?_concat]

theorem getLast?_digits_ne_iff : d.digits.getLast? ≠ some '0' ↔ d.significand % 10 ≠ 0 := by
  rw [digits, getLast?_toDigits, Ne, Option.some.injEq, Nat.digitChar_eq_zero]

theorem IsShortest.length_eq (hd : d.IsShortest w) (he : e.IsShortest w) :
    d.digits.length = e.digits.length :=
  Nat.le_antisymm (hd.minimal e he.reads) (he.minimal d hd.reads)

theorem IsShortest.distance_eq (hd : d.IsShortest w) (he : e.IsShortest w) :
    d.distance w = e.distance w :=
  le_antisymm (hd.nearest e he.reads (he.length_eq hd)) (he.nearest d hd.reads (hd.length_eq he))

theorem IsShortest.eq_of_magnitude_eq (hd : d.IsShortest w) (he : e.IsShortest w)
    (h : d.magnitude = e.magnitude) : d = e :=
  Decimal.eq_of_magnitude_eq (getLast?_digits_ne_iff.mp hd.last_ne)
    (getLast?_digits_ne_iff.mp he.last_ne)
    (hd.reads.negative_eq.symm.trans he.reads.negative_eq) h

/-! ## Neighbours on a grid -/

/-- A multiple of a power of ten, with the sign of a word. -/
def gridPoint (w : UInt32) (grid : Int) (multiple : Nat) : Decimal :=
  ⟨Word.negative w, multiple, grid⟩

theorem magnitude_gridPoint (w : UInt32) (grid : Int) (c : Nat) :
    (gridPoint w grid c).magnitude = c * 10 ^ grid := rfl

theorem readsAs_gridPoint_iff (hw : Word.IsFinite w) {c : Nat} :
    (gridPoint w grid c).ReadsAs w ↔ nearestRank c grid = Word.rank w := by
  rw [readsAs_iff hw]
  exact and_iff_right rfl

theorem gridPoint_le_gridPoint {c c' : Nat} (h : c ≤ c') :
    (gridPoint w grid c).magnitude ≤ (gridPoint w grid c').magnitude :=
  mul_le_mul_of_nonneg_right (Nat.cast_le.mpr h) (zpow_nonneg (by norm_num) _)

theorem gridPoint_inj {c c' : Nat}
    (h : (gridPoint w grid c).magnitude = (gridPoint w grid c').magnitude) : c = c' := by
  have hpower : (10 : ℚ) ^ grid ≠ 0 := zpow_ne_zero _ (by norm_num)
  exact_mod_cast mul_right_cancel₀ hpower h

/-- What a word stands for is its quotient on a grid, in multiples of the power of ten. -/
theorem magnitude_mul_den (w : UInt32) (grid : Int) :
    Word.magnitude w * (Single.unitsOfOne * tenTo grid : Nat) =
      (Single.units (Word.rank w) * tenTo (-grid) : Nat) * 10 ^ grid := by
  have hten : (tenTo (-grid) : ℚ) * 10 ^ grid = tenTo grid := by
    have hne : (tenTo (-grid) : ℚ) ≠ 0 := Nat.cast_ne_zero.mpr (Nat.ne_of_gt (tenTo_pos _))
    rw [← tenTo_div_tenTo, mul_div_cancel₀ _ hne]
  rw [Nat.cast_mul, Nat.cast_mul, mul_assoc, hten, Single.cast_unitsOfOne, Word.magnitude_eq,
    ← mul_assoc, div_mul_cancel₀ _ (by norm_num)]

/-- The distances of a word from its two neighbours on a grid are as the rest of its quotient to
what is missing. -/
theorem distances_of_quotient {num den : Nat} (hden : 0 < den)
    (h : Word.magnitude w * den = num * 10 ^ grid) :
    (gridPoint w grid (num / den)).magnitude ≤ Word.magnitude w ∧
      Word.magnitude w < (gridPoint w grid (num / den + 1)).magnitude ∧
      (den < 2 * (num % den) ↔
        (gridPoint w grid (num / den + 1)).distance w < (gridPoint w grid (num / den)).distance w) ∧
      (den = 2 * (num % den) ↔
        (gridPoint w grid (num / den + 1)).distance w =
          (gridPoint w grid (num / den)).distance w) := by
  have hden' : (0 : ℚ) < den := Nat.cast_pos.mpr hden
  have hpower : (0 : ℚ) < 10 ^ grid := zpow_pos (by norm_num) _
  have hsplit : (num : ℚ) = den * (num / den : Nat) + (num % den : Nat) := by
    exact_mod_cast (Nat.div_add_mod num den).symm
  have hrest : ((num % den : Nat) : ℚ) < den := Nat.cast_lt.mpr (Nat.mod_lt _ hden)
  have hrest' : (0 : ℚ) ≤ (num % den : Nat) := Nat.cast_nonneg _
  generalize num / den = lower at *
  generalize num % den = rest at *
  have hle : (lower : ℚ) * 10 ^ grid ≤ Word.magnitude w := by
    refine le_of_mul_le_mul_right ?_ hden'
    rw [h, hsplit]
    linarith [mul_nonneg hrest' (le_of_lt hpower)]
  have hlt : Word.magnitude w < ((lower + 1 : Nat) : ℚ) * 10 ^ grid := by
    refine lt_of_mul_lt_mul_right ?_ (le_of_lt hden')
    rw [h, hsplit, Nat.cast_add_one]
    linarith [mul_lt_mul_of_pos_right hrest hpower]
  have hlower : (gridPoint w grid lower).distance w * den = rest * 10 ^ grid := by
    rw [distance, magnitude_gridPoint, abs_sub_comm, abs_of_nonneg (by linarith), sub_mul, h, hsplit]
    ring
  have hupper : (gridPoint w grid (lower + 1)).distance w * den = (den - rest) * 10 ^ grid := by
    rw [distance, magnitude_gridPoint, abs_of_nonneg (by linarith), sub_mul, h, hsplit,
      Nat.cast_add_one]
    ring
  refine ⟨hle, hlt, ?_, ?_⟩
  · rw [← mul_lt_mul_iff_left₀ hden', hlower, hupper, mul_lt_mul_iff_left₀ hpower, sub_lt_iff_lt_add,
      ← Nat.cast_add, Nat.cast_lt, ← Nat.two_mul]
  · rw [← mul_left_inj' (ne_of_gt hden'), hlower, hupper, mul_left_inj' (ne_of_gt hpower),
      sub_eq_iff_eq_add, ← Nat.cast_add, Nat.cast_inj, ← Nat.two_mul]

/-- Of two decimals one is taken: it reads back, and if the other one does too it is not further away.
If it is as near, the tie is decided by something else. -/
structure TakenBefore (w : UInt32) (taken other : Decimal) (tie : Prop) : Prop where
  reads : taken.ReadsAs w
  distance_le : other.ReadsAs w → taken.distance w ≤ other.distance w
  tie : other.ReadsAs w → other.distance w = taken.distance w → tie

/-- A word lies between two neighbours on a grid, and one of them is taken if one reads back. -/
theorem onGrid?_cases (hw : Word.IsFinite w) (halfway : Halfway) (grid : Int) :
    ∃ lower : Nat,
      (gridPoint w grid lower).magnitude ≤ Word.magnitude w ∧
      Word.magnitude w < (gridPoint w grid (lower + 1)).magnitude ∧
      ((onGrid? halfway (Word.rank w) grid = none ∧
          ¬(gridPoint w grid lower).ReadsAs w ∧ ¬(gridPoint w grid (lower + 1)).ReadsAs w) ∨
        (onGrid? halfway (Word.rank w) grid = some lower ∧
          TakenBefore w (gridPoint w grid lower) (gridPoint w grid (lower + 1))
            (halfway.takesUpper lower = false)) ∨
        (onGrid? halfway (Word.rank w) grid = some (lower + 1) ∧
          TakenBefore w (gridPoint w grid (lower + 1)) (gridPoint w grid lower)
            (halfway.takesUpper lower = true))) := by
  have hden : 0 < Single.unitsOfOne * tenTo grid := Nat.mul_pos (by decide) (tenTo_pos _)
  obtain ⟨hle, hlt, hless, hequal⟩ := distances_of_quotient hden (magnitude_mul_den w grid)
  refine ⟨_, hle, hlt, ?_⟩
  have hreads (c : Nat) : nearestRank c grid = Word.rank w ↔ (gridPoint w grid c).ReadsAs w :=
    (readsAs_gridPoint_iff hw).symm
  unfold onGrid?
  dsimp only
  simp only [hless, hequal]
  generalize Single.units (Word.rank w) * tenTo (-grid) / (Single.unitsOfOne * tenTo grid) = lower
  by_cases hlower : nearestRank lower grid = Word.rank w
  · rw [if_pos hlower]
    rw [hreads] at hlower
    split
    case isTrue hupper =>
      obtain ⟨hnext, hnearer⟩ := hupper
      rw [hreads] at hnext
      refine .inr (.inr ⟨rfl, hnext, fun _ => ?_, fun _ hhalf => ?_⟩)
      · exact hnearer.elim le_of_lt fun htie => le_of_eq htie.1
      · exact hnearer.elim (fun hless => absurd hhalf (ne_of_gt hless)) fun htie => htie.2
    case isFalse hnot =>
      rw [hreads] at hnot
      refine .inr (.inl ⟨rfl, hlower, fun hnext => ?_, fun hnext hhalf => ?_⟩)
      · exact not_lt.mp fun hless => hnot ⟨hnext, .inl hless⟩
      · rw [← Bool.not_eq_true]
        exact fun htakes => hnot ⟨hnext, .inr ⟨hhalf, htakes⟩⟩
  · rw [if_neg hlower]
    rw [hreads] at hlower
    split
    case isTrue hnext =>
      rw [hreads] at hnext
      exact .inr (.inr ⟨rfl, hnext, fun h => absurd h hlower, fun h => absurd h hlower⟩)
    case isFalse hnot =>
      rw [hreads] at hnot
      exact .inl ⟨rfl, hlower, hnot⟩

/-! ## The best of a grid -/

/-- A multiple that reads back, above the word by no more than one step, and none that reads back is
nearer. Of two that are as near it is the one that is asked for. -/
structure Best (halfway : Halfway) (w : UInt32) (grid : Int) (c : Nat) : Prop where
  reads : (gridPoint w grid c).ReadsAs w
  le : (gridPoint w grid c).magnitude ≤ Word.magnitude w + 10 ^ grid
  nearest : ∀ other, (gridPoint w grid other).ReadsAs w →
    (gridPoint w grid c).distance w ≤ (gridPoint w grid other).distance w
  tie : ∀ other, other ≠ c → (gridPoint w grid other).ReadsAs w →
    (gridPoint w grid other).distance w = (gridPoint w grid c).distance w →
    halfway = .away ∧ other < c ∨ halfway = .even ∧ c % 2 = 0

/-- Where everything can be moved to one of two neighbours, the one that is taken before the other is
the best. -/
theorem best_of_neighbours (hw : Word.IsFinite w) {halfway : Halfway} {c next : Nat} {tie : Prop}
    (htaken : TakenBefore w (gridPoint w grid c) (gridPoint w grid next) tie)
    (htie : tie → halfway = .away ∧ next < c ∨ halfway = .even ∧ c % 2 = 0)
    (hle : (gridPoint w grid c).magnitude ≤ Word.magnitude w + 10 ^ grid)
    (hneighbour : ∀ other, Toward w (gridPoint w grid other) (gridPoint w grid c) ∨
      Toward w (gridPoint w grid other) (gridPoint w grid next)) :
    Best halfway w grid c := by
  refine ⟨htaken.reads, hle, ?_, ?_⟩
  · intro other hother
    rcases hneighbour other with htoward | htoward
    · exact (distance_toward htoward).1
    · exact le_trans (htaken.distance_le (hother.toward hw rfl htoward)) (distance_toward htoward).1
  · intro other hne hother hnear
    rcases hneighbour other with htoward | htoward
    · exact absurd (gridPoint_inj ((distance_toward htoward).2 hnear.symm)).symm hne
    · -- both neighbours are equally near, and this is the other one
      have hnext := hother.toward hw rfl htoward
      obtain ⟨hnearer, hsame⟩ := distance_toward htoward
      rw [hnear] at hnearer hsame
      have hhalf := le_antisymm hnearer (htaken.distance_le hnext)
      rw [← gridPoint_inj (hsame hhalf)]
      exact htie (htaken.tie hnext hhalf)

/-- What is taken on a grid is the best of it, and where nothing is taken nothing reads back. -/
theorem onGrid?_spec (hw : Word.IsFinite w) (halfway : Halfway) (grid : Int) :
    (onGrid? halfway (Word.rank w) grid = none ∧ ∀ c, ¬(gridPoint w grid c).ReadsAs w) ∨
      ∃ c, onGrid? halfway (Word.rank w) grid = some c ∧ Best halfway w grid c := by
  obtain ⟨lower, hle, hlt, hcases⟩ := onGrid?_cases hw halfway grid
  have hpower : (0 : ℚ) < 10 ^ grid := zpow_pos (by norm_num) _
  have hstep : (gridPoint w grid (lower + 1)).magnitude =
      (gridPoint w grid lower).magnitude + 10 ^ grid := by
    rw [magnitude_gridPoint, magnitude_gridPoint, Nat.cast_add_one, add_one_mul]
  have hneighbour : ∀ other, Toward w (gridPoint w grid other) (gridPoint w grid lower) ∨
      Toward w (gridPoint w grid other) (gridPoint w grid (lower + 1)) := by
    intro other
    rcases Nat.lt_or_ge lower other with habove | hbelow
    · exact .inr (.inr ⟨le_of_lt hlt, gridPoint_le_gridPoint habove⟩)
    · exact .inl (.inl ⟨gridPoint_le_gridPoint hbelow, hle⟩)
  rcases hcases with ⟨hnone, hlower, hupper⟩ | ⟨hsome, htaken⟩ | ⟨hsome, htaken⟩
  · refine .inl ⟨hnone, fun c hc => ?_⟩
    rcases hneighbour c with htoward | htoward
    · exact hlower (hc.toward hw rfl htoward)
    · exact hupper (hc.toward hw rfl htoward)
  · refine .inr ⟨lower, hsome, best_of_neighbours hw htaken ?_ (by linarith) hneighbour⟩
    intro htakes
    cases halfway with
    | away => cases htakes
    | even => exact .inr ⟨rfl, by have := of_decide_eq_false htakes; omega⟩
  · refine .inr ⟨lower + 1, hsome, best_of_neighbours hw htaken ?_ (by linarith)
      fun other => (hneighbour other).symm⟩
    intro htakes
    cases halfway with
    | away => exact .inl ⟨rfl, Nat.lt_succ_self lower⟩
    | even => exact .inr ⟨rfl, by have := of_decide_eq_true htakes; omega⟩

/-! ## All grids -/

/-- Every decimal that reads back can be moved to a grid with as many digits as it has, and still
reads back there. -/
theorem ReadsAs.exists_gridPoint (hw : Word.IsFinite w) (he : e.ReadsAs w) {top : Int}
    (htop : (10 : ℚ) ^ top ≤ Word.magnitude w) {further : Nat}
    (hdigits : e.digits.length ≤ further + 1) :
    ∃ c, (gridPoint w (top - further) c).ReadsAs w ∧ Toward w e (gridPoint w (top - further) c) := by
  rw [digits, Nat.length_toDigits_le_iff (by decide) (Nat.succ_pos _)] at hdigits
  have hmoved : ∃ c, Toward w e (gridPoint w (top - further) c) := by
    rcases Int.lt_or_le e.exponent (top - further) with hfiner | hcoarser
    · -- on a finer grid the digits do not reach up to the word's leading one
      have hpower : (gridPoint w (top - further) (10 ^ further)).magnitude = 10 ^ top := by
        rw [magnitude_gridPoint, Nat.cast_pow, Nat.cast_ofNat, mul_comm, zpow_sub_mul_pow]
      refine ⟨10 ^ further, .inl ?_⟩
      rw [hpower]
      refine ⟨?_, htop⟩
      calc (e.significand : ℚ) * 10 ^ e.exponent
          ≤ 10 ^ (further + 1) * 10 ^ (top - (further + 1 : Nat)) := by
            refine mul_le_mul (by exact_mod_cast le_of_lt hdigits) ?_ (zpow_nonneg (by norm_num) _)
              (by positivity)
            exact zpow_le_zpow_right₀ (by norm_num) (by omega)
        _ = 10 ^ top := by rw [mul_comm, zpow_sub_mul_pow]
    · obtain ⟨zeros, hzeros⟩ := Int.le.dest hcoarser
      have hsame : (gridPoint w (top - further) (e.significand * 10 ^ zeros)).magnitude =
          e.magnitude := by
        rw [magnitude_gridPoint, magnitude, ← hzeros, zpow_add₀ (by norm_num), zpow_natCast,
          Nat.cast_mul, Nat.cast_pow, Nat.cast_ofNat]
        ring
      refine ⟨e.significand * 10 ^ zeros, ?_⟩
      rw [Toward, hsame]
      exact (le_total e.magnitude (Word.magnitude w)).imp (fun h => ⟨le_refl _, h⟩)
        fun h => ⟨h, le_refl _⟩
  obtain ⟨c, htoward⟩ := hmoved
  exact ⟨c, he.toward hw rfl htoward, htoward⟩

/-- The power of ten of a word's leading digit. -/
def top (w : UInt32) : Int := leadingPower (Single.units (Word.rank w))

theorem top_bounds (h : ¬Word.IsZero w) :
    (10 : ℚ) ^ top w ≤ Word.magnitude w ∧ Word.magnitude w < 10 ^ top w * 10 := by
  have hunits : Single.units 0 < Single.units (Word.rank w) :=
    Single.strictMono_units (Nat.pos_of_ne_zero fun hrank => h ((Word.isZero_iff w).mpr hrank))
  have hbounds := leadingPower_bounds (Nat.lt_of_le_of_lt (Nat.zero_le _) hunits)
  rwa [zpow_add_one₀ (by norm_num), ← Word.magnitude_eq] at hbounds

/-- With nine digits the lower neighbour is near enough. -/
theorem exists_ninth (hw : Word.IsFinite w) (h : ¬Word.IsZero w) :
    ∃ c, (gridPoint w (top w - (8 : Nat)) c).ReadsAs w := by
  obtain ⟨lower, hle, hlt, -⟩ := onGrid?_cases hw .even (top w - (8 : Nat))
  have htop := (top_bounds h).1
  have hpos : 0 < Word.magnitude w := lt_of_lt_of_le (zpow_pos (by norm_num) _) htop
  refine ⟨lower, readsAs_of_close hw hpos rfl hle ?_⟩
  rw [magnitude_gridPoint, Nat.cast_add_one, add_one_mul] at hlt
  rw [← zpow_sub_mul_pow (top w) 8] at htop
  rw [magnitude_gridPoint]
  linarith

/-- What a search through a range finds first. -/
theorem findSome?_range {α : Type} {f : Nat → Option α} {n i : Nat} {a : α} (hi : i < n)
    (hfound : f i = some a) (hbefore : ∀ j < i, f j = none) :
    (List.range n).findSome? f = some a := by
  obtain ⟨more, rfl⟩ := Nat.exists_eq_add_of_lt hi
  have hnone : (List.range i).findSome? f = none :=
    List.findSome?_eq_none_iff.mpr fun j hj => hbefore j (List.mem_range.mp hj)
  rw [Nat.add_assoc, List.range_add, List.findSome?_append, hnone, Option.none_or,
    List.range_succ_eq_map, List.map_cons, List.findSome?_cons, Nat.add_zero, hfound]

/-- The shortest decimal is the best of the first grid on which anything reads back. -/
theorem exists_shortest (hw : Word.IsFinite w) (h : ¬Word.IsZero w) (halfway : Halfway) :
    ∃ further c : Nat, further < 9 ∧
      shortest halfway (Word.negative w) (Word.rank w) = gridPoint w (top w - further) c ∧
      Best halfway w (top w - further) c ∧
      ∀ fewer : Nat, fewer < further → ∀ other, ¬(gridPoint w (top w - fewer) other).ReadsAs w := by
  classical
  have hninth : ∃ further : Nat, ∃ c, (gridPoint w (top w - further) c).ReadsAs w :=
    ⟨8, exists_ninth hw h⟩
  -- the first grid on which anything reads back
  obtain ⟨c', hfirst⟩ := Nat.find_spec hninth
  have hfurther : Nat.find hninth < 9 := Nat.lt_succ_of_le (Nat.find_min' hninth (exists_ninth hw h))
  have hbefore : ∀ fewer : Nat, fewer < Nat.find hninth →
      ∀ other, ¬(gridPoint w (top w - fewer) other).ReadsAs w := fun fewer hless other hother =>
    Nat.find_min hninth hless ⟨other, hother⟩
  generalize Nat.find hninth = further at *
  rcases onGrid?_spec hw halfway (top w - further) with ⟨-, hnone⟩ | ⟨c, hsome, hbest⟩
  · exact absurd hfirst (hnone c')
  refine ⟨further, c, hfurther, ?_, hbest, hbefore⟩
  have hfound : (List.range 9).findSome? (fun further : Nat =>
      (onGrid? halfway (Word.rank w) (top w - further)).map (gridPoint w (top w - further))) =
      some (gridPoint w (top w - further) c) := by
    refine findSome?_range hfurther (by rw [hsome]; rfl) fun fewer hless => ?_
    rcases onGrid?_spec hw halfway (top w - fewer) with ⟨hnone, -⟩ | ⟨best, -, hbest⟩
    · rw [hnone]
      rfl
    · exact absurd hbest.reads (hbefore fewer hless best)
  unfold shortest
  dsimp only
  exact congrArg (Option.getD · (exact (Word.negative w) (Word.rank w))) hfound

/-! ## Halfway between nine and ten -/

/-- Neighbouring words are too close for both nine and ten of a word's leading power to read back. -/
theorem not_nine_and_ten (hw : Word.IsFinite w) (h : ¬Word.IsZero w) :
    ¬((gridPoint w (top w) 9).ReadsAs w ∧ (gridPoint w (top w) 10).ReadsAs w) := by
  rw [readsAs_gridPoint_iff hw, readsAs_gridPoint_iff hw]
  rw [Word.isZero_iff] at h
  unfold top
  generalize Word.rank w = rank at *
  rintro ⟨hnine, hten⟩
  by_cases hsmall : rank ≤ 10
  · have hall : ∀ rank < 11, rank ≠ 0 →
        ¬(nearestRank 9 (leadingPower (Single.units rank)) = rank ∧
          nearestRank 10 (leadingPower (Single.units rank)) = rank) := by decide +kernel
    exact hall rank (by omega) h ⟨hnine, hten⟩
  · obtain ⟨before, rfl⟩ := Nat.exists_eq_add_one_of_ne_zero h
    generalize leadingPower (Single.units (before + 1)) = power at *
    have hbelow := Single.units_succ_lt (show 10 ≤ before by omega)
    have habove := Single.units_succ_lt (show 10 ≤ before + 1 by omega)
    rw [← Nat.cast_lt (α := ℚ)] at hbelow habove
    push_cast at hbelow habove
    -- nine is above halfway from the word before, and ten below halfway to the next one
    have hlow : ¬nearestRank 9 power ≤ before := by omega
    have hhigh : nearestRank 10 power ≤ before + 1 := Nat.le_of_eq hten
    unfold nearestRank at hlow hhigh
    rw [Single.nearestRank_le_iff (tenTo_pos _), units_quotient ⟨false, 9, power⟩, not_or] at hlow
    rw [Single.nearestRank_le_iff (tenTo_pos _), units_quotient ⟨false, 10, power⟩] at hhigh
    simp only [magnitude, Nat.cast_ofNat] at hlow hhigh
    rcases hhigh with hhigh | ⟨hhigh, -⟩ <;> linarith [hlow.1]

/-! ## What is written -/

/-- Without its final zeros a significand has no more digits than it may have, the next power of ten
included. -/
theorem significand_trim_lt {negative : Bool} {exponent : Int} {c more : Nat}
    (h : c ≤ 10 ^ (more + 1)) :
    (trim ⟨negative, c, exponent⟩).significand < 10 ^ (more + 1) := by
  rcases Nat.lt_or_eq_of_le h with hless | rfl
  · exact Nat.lt_of_le_of_lt (trim_spec ⟨negative, c, exponent⟩).2.2 hless
  · have hone := trim_zeros (d := ⟨negative, 1, exponent + (more + 1 : Nat)⟩)
      (show 1 % 10 ≠ 0 by decide) (more + 1)
    have hexponent : exponent + (more + 1 : Nat) - (more + 1 : Nat) = exponent :=
      Int.add_sub_cancel _ _
    rw [Nat.one_mul, hexponent] at hone
    change (trim ⟨negative, Nat.pow 10 (more + 1), exponent⟩).significand < _
    rw [hone]
    exact Nat.one_lt_pow (Nat.succ_ne_zero _) (by decide)

section

variable {halfway : Halfway} {further c : Nat} (hw : Word.IsFinite w) (h : ¬Word.IsZero w)
  (hbest : Best halfway w (top w - further) c)
  (hbefore : ∀ fewer : Nat, fewer < further →
    ∀ other, ¬(gridPoint w (top w - fewer) other).ReadsAs w)

include hw h hbest

theorem Best.ne_zero : c ≠ 0 := by
  rintro rfl
  have hrank := (readsAs_gridPoint_iff hw).mp hbest.reads
  rw [nearestRank_zero] at hrank
  exact h ((Word.isZero_iff w).mpr hrank.symm)

omit hw in
/-- What is taken has one digit for the leading power and one for each further one, or it is the next
power of ten. -/
theorem Best.le_pow : c ≤ 10 ^ (further + 1) := by
  have hpower : (0 : ℚ) < 10 ^ (top w - further) := zpow_pos (by norm_num) _
  have hle := hbest.le
  have hlt := (top_bounds h).2
  rw [magnitude_gridPoint] at hle
  rw [← zpow_sub_mul_pow (top w) further] at hlt
  have hbound : (c : ℚ) * 10 ^ (top w - further) <
      (10 ^ (further + 1) + 1) * 10 ^ (top w - further) := by
    rw [pow_succ]
    linarith
  have hcast : (c : ℚ) < 10 ^ (further + 1) + 1 := lt_of_mul_lt_mul_right hbound (le_of_lt hpower)
  exact Nat.lt_succ_iff.mp (by exact_mod_cast hcast)

omit hw in
theorem Best.length_trim_le :
    (gridPoint w (top w - further) c).trim.digits.length ≤ further + 1 := by
  rw [digits, Nat.length_toDigits_le_iff (by decide) (Nat.succ_pos _)]
  exact significand_trim_lt (hbest.le_pow h)

include hbefore

/-- What is taken has no final zero if another one is as near: else a grid before would have had it, or
it would be ten beside nine. -/
theorem Best.mod_ten_ne_zero {other : Nat} (hne : other ≠ c)
    (hreads : (gridPoint w (top w - further) other).ReadsAs w)
    (hnear : (gridPoint w (top w - further) other).distance w =
      (gridPoint w (top w - further) c).distance w) : c % 10 ≠ 0 := by
  intro hzero
  cases further with
  | zero =>
    have hpos := hbest.ne_zero hw h
    have hle : c ≤ 10 := hbest.le_pow h
    obtain rfl : c = 10 := by omega
    have htop : top w - (0 : Nat) = top w := sub_zero _
    rw [htop] at hreads hnear hbest
    rcases Nat.lt_or_gt_of_ne hne with hbelow | habove
    · have hnine : (gridPoint w (top w) 9).ReadsAs w :=
        hreads.between hw hbest.reads rfl (gridPoint_le_gridPoint (by omega))
          (gridPoint_le_gridPoint (by omega))
      exact not_nine_and_ten hw h ⟨hnine, hbest.reads⟩
    · have htoward : Toward w (gridPoint w (top w) other) (gridPoint w (top w) 10) := by
        refine .inr ⟨?_, gridPoint_le_gridPoint (Nat.le_of_lt habove)⟩
        rw [magnitude_gridPoint, Nat.cast_ofNat, mul_comm]
        exact le_of_lt (top_bounds h).2
      exact hne (gridPoint_inj ((distance_toward htoward).2 hnear.symm)).symm
  | succ fewer =>
    have htens : c = 10 * (c / 10) := by omega
    have hrank := (readsAs_gridPoint_iff hw).mp hbest.reads
    have hgrid : top w - (fewer + 1 : Nat) + 1 = top w - fewer := by omega
    rw [htens, nearestRank_mul_ten, hgrid] at hrank
    exact hbefore fewer (Nat.lt_succ_self fewer) _ ((readsAs_gridPoint_iff hw).mpr hrank)

/-- Without its final zeros it is a shortest decimal. -/
theorem Best.isShortest_trim (hfurther : further < 9) :
    (gridPoint w (top w - further) c).trim.IsShortest w := by
  have htop := (top_bounds h).1
  have hlast : (gridPoint w (top w - further) c).trim.significand % 10 ≠ 0 :=
    mod_ne_zero_dropZeros (hbest.ne_zero hw h) Nat.lt_log2_self
  have hlength := hbest.length_trim_le h
  obtain ⟨hsign, hmagnitude, -⟩ := trim_spec (gridPoint w (top w - further) c)
  generalize (gridPoint w (top w - further) c).trim = d at *
  refine ⟨?_, ?_, getLast?_digits_ne_iff.mpr hlast, Nat.length_toDigits_pos, by omega, ?_, ?_⟩
  · rw [ReadsAs, hsign, hmagnitude]
    exact hbest.reads
  · intro hleading
    rw [Json.eq_zero_of_head?_toDigits hleading] at hlast
    exact hlast rfl
  · -- with fewer digits something would read back on a grid before
    intro e he
    by_contra hfewer
    have hpos : 0 < e.digits.length := Nat.length_toDigits_pos
    obtain ⟨other, hother, -⟩ := he.exists_gridPoint hw htop
      (show e.digits.length ≤ e.digits.length - 1 + 1 by omega)
    exact hbefore _ (by omega) other hother
  · intro e he heq
    obtain ⟨other, hother, htoward⟩ := he.exists_gridPoint hw htop (heq.trans_le hlength)
    rw [distance, hmagnitude]
    exact le_trans (hbest.nearest other hother) (distance_toward htoward).1

/-- Any other shortest decimal stands on the same grid, as near as what is taken. -/
theorem Best.exists_other (hfurther : further < 9) (he : e.IsShortest w)
    (hne : e ≠ (gridPoint w (top w - further) c).trim) :
    ∃ other, other ≠ c ∧ (gridPoint w (top w - further) other).ReadsAs w ∧
      (gridPoint w (top w - further) other).distance w =
        (gridPoint w (top w - further) c).distance w ∧
      (gridPoint w (top w - further) other).magnitude = e.magnitude := by
  have hd := hbest.isShortest_trim hw h hbefore hfurther
  have hlength := (he.length_eq hd).trans_le (hbest.length_trim_le h)
  obtain ⟨-, hmagnitude, -⟩ := trim_spec (gridPoint w (top w - further) c)
  have hdistance : e.distance w = (gridPoint w (top w - further) c).distance w := by
    rw [he.distance_eq hd, distance, hmagnitude, distance]
  obtain ⟨other, hother, htoward⟩ := he.reads.exists_gridPoint hw (top_bounds h).1 hlength
  obtain ⟨hnearer, hsame⟩ := distance_toward htoward
  rw [hdistance] at hnearer hsame
  have hnear := le_antisymm hnearer (hbest.nearest other hother)
  refine ⟨other, ?_, hother, hnear, hsame hnear⟩
  rintro rfl
  exact hne (he.eq_of_magnitude_eq hd ((hsame hnear).symm.trans hmagnitude.symm))

end

/-- What a number is written with is a shortest decimal: of several the one furthest from zero, or
one whose last digit is even. -/
theorem exists_isShortest (hw : Word.IsFinite w) (h : ¬Word.IsZero w) (halfway : Halfway) :
    ∃ d, (Single.ofBits w).decimal? halfway = some d ∧ d.IsShortest w ∧
      ∀ e : Decimal, e.IsShortest w → e ≠ d →
        halfway = .away ∧ e.magnitude < d.magnitude ∨ halfway = .even ∧ d.significand % 2 = 0 := by
  obtain ⟨further, c, hfurther, hshortest, hbest, hbefore⟩ := exists_shortest hw h halfway
  have hd := hbest.isShortest_trim hw h hbefore hfurther
  refine ⟨(gridPoint w (top w - further) c).trim, ?_, hd, fun e he hne => ?_⟩
  · rw [Single.ofBits_of_isFinite hw, ← hshortest]
    exact if_neg fun hrank => h ((Word.isZero_iff w).mpr hrank)
  · obtain ⟨other, hother_ne, hother, hnear, hmoved⟩ :=
      hbest.exists_other hw h hbefore hfurther he hne
    obtain ⟨-, hmagnitude, -⟩ := trim_spec (gridPoint w (top w - further) c)
    rcases hbest.tie other hother_ne hother hnear with ⟨haway, hless⟩ | ⟨heven, hmod⟩
    · refine .inl ⟨haway, lt_of_le_of_ne ?_ fun hequal => hne (he.eq_of_magnitude_eq hd hequal)⟩
      rw [← hmoved, hmagnitude]
      exact gridPoint_le_gridPoint (Nat.le_of_lt hless)
    · -- there is no final zero that could be followed by an odd digit
      have hlast := hbest.mod_ten_ne_zero hw h hbefore hother_ne hother hnear
      have hunchanged : (gridPoint w (top w - further) c).trim = gridPoint w (top w - further) c :=
        dropZeros_of_mod_ne_zero hlast _
      rw [hunchanged]
      exact .inr ⟨heven, hmod⟩

end Decimal

end CallGate
