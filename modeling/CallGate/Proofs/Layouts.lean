import CallGate.Proofs.Decimals
import CallGate.Proofs.Reader

/-!
# Written decimals read back

A decimal is written positionally or with an exponent, and the two are read alike, so it does not
matter for a reader where a layout draws the line between them.

- `Json.numeral`, `Json.number?_numeral`: a number is read from its parts.
- `Json.exponent?_exponentChars`: an exponent is read back.
- `Decimal.Spells`: digits before and after a point, and an exponent, are those of a decimal.
- `Decimal.exists_spells_plain`, `Decimal.exists_spells_scientific`: so are those of both written
  forms.
- `Decimal.number?_chars`: what is written in any layout reads back.
-/

namespace CallGate

namespace Json

/-- What is read of a sign, the digits before the point, those after it, and an exponent. -/
def numeral (negative : Bool) (digits : List Char) (exponent : Int) : Decimal :=
  if Nat.ofDigitChars 10 digits 0 = 0 then ⟨negative, 0, 0⟩
  else Decimal.trim ⟨negative, Nat.ofDigitChars 10 digits 0, exponent⟩

/-- A number is read from its parts, of which the one after the whole digits begins with a point or
the mark of an exponent. -/
theorem number?_numeral (negative : Bool) {whole part fraction tail : List Char} {exponent : Int}
    (hwhole : IsWhole whole) (hne : part ≠ []) (hpart : ∀ c ∈ part.head?, c.isDigit = false)
    (hfraction : fraction? part = some (fraction, tail)) (hexponent : exponent? tail = some exponent) :
    number? ((if negative then ['-'] else []) ++ (whole ++ part)) =
      some (.decimal (numeral negative (whole ++ fraction) (exponent - fraction.length))) := by
  have hread := whole?_append hwhole hpart
  have hdecimal (d e : Decimal) : (if Nat.ofDigitChars 10 (whole ++ fraction) 0 = 0
      then some (decimal d) else some (decimal e)) =
      some (decimal (if Nat.ofDigitChars 10 (whole ++ fraction) 0 = 0 then d else e)) :=
    (apply_ite (fun d => some (decimal d)) _ d e).symm
  cases negative with
  | false =>
    simp [number?, numeral, hwhole.head?_ne, hwhole.ne_nil, hread, hne, hfraction, hexponent,
      hdecimal]
  | true => simp [number?, numeral, hread, hfraction, hexponent, hdecimal]

/-- The digits of a decimal without final zeros, with any zeros after them, are read as it is. -/
theorem numeral_of_normal {d : Decimal} (h : d.Normal) {digits : List Char} {zeros : Nat}
    {exponent : Int} (hdigits : Nat.ofDigitChars 10 digits 0 = d.significand * Nat.pow 10 zeros)
    (hexponent : exponent = d.exponent - zeros) : numeral d.negative digits exponent = d := by
  unfold numeral
  rw [hdigits, hexponent]
  rcases h with hmod | ⟨hsignificand, hzero⟩
  · have hpos : 0 < d.significand * Nat.pow 10 zeros :=
      Nat.mul_pos (by omega) (Nat.pow_pos (by decide))
    rw [if_neg (Nat.ne_of_gt hpos), Decimal.trim_zeros hmod]
  · rw [hsignificand, Nat.zero_mul, if_pos rfl, ← hsignificand, ← hzero]

/-! ## Exponents -/

theorem power?_toDigits (negative : Bool) (n : Nat) :
    power? negative (Nat.toDigits 10 n) = some (if negative then -(n : Int) else n) := by
  have hread := digits?_digits (isWhole_toDigits n).ne_nil (isWhole_toDigits n).isDigit
  simp [power?, hread, Nat.ofDigitChars_ten_toDigits]

/-- A power is read back, with or without a plus. -/
theorem exponent?_exponentChars (plusSign : Bool) (power : Int) :
    exponent? ('e' :: Decimal.exponentChars plusSign power) = some power := by
  unfold Decimal.exponentChars
  by_cases hneg : power < 0
  · have hread : power? true (Nat.toDigits 10 power.natAbs) = some power := by
      rw [power?_toDigits, if_pos rfl]
      congr 1
      omega
    simpa [exponent?, hneg] using hread
  · have hread : power? false (Nat.toDigits 10 power.natAbs) = some power := by
      rw [power?_toDigits, if_neg (by decide)]
      congr 1
      omega
    rw [if_neg hneg]
    cases plusSign with
    | true => simpa [exponent?] using hread
    | false =>
      -- the digits of the power do not begin with a sign
      have hsign {c : Char} {rest : List Char} (h : Nat.toDigits 10 power.natAbs = c :: rest) :
          c.isDigit = true :=
        (isWhole_toDigits power.natAbs).isDigit c (by rw [h]; exact List.mem_cons_self)
      rw [if_neg (by decide), List.nil_append, exponent?, if_pos (.inl rfl)]
      · exact hread
      · intro rest heq
        exact absurd (hsign heq) (by decide)
      · intro rest heq
        exact absurd (hsign heq) (by decide)

end Json

namespace Decimal

open Json

/-! ## The two written forms -/

/-- Digits before and after a point, times a power of ten, are those of a decimal, perhaps with
zeros after them. -/
structure Spells (d : Decimal) (whole fraction : List Char) (power : Int) : Prop where
  isWhole : IsWhole whole
  isDigit : ∀ c ∈ fraction, c.isDigit
  value : ∃ zeros : Nat,
    Nat.ofDigitChars 10 (whole ++ fraction) 0 = d.significand * Nat.pow 10 zeros ∧
      power - fraction.length = d.exponent - zeros

theorem Spells.number? {d : Decimal} {whole fraction part tail : List Char} {power : Int}
    (hspells : d.Spells whole fraction power) (h : d.Normal) (hne : part ≠ [])
    (hpart : ∀ c ∈ part.head?, c.isDigit = false)
    (hfraction : fraction? part = some (fraction, tail)) (hpower : exponent? tail = some power) :
    Json.number? ((if d.negative then ['-'] else []) ++ (whole ++ part)) = some (.decimal d) := by
  obtain ⟨zeros, hdigits, hexponent⟩ := hspells.value
  rw [number?_numeral d.negative hspells.isWhole hne hpart hfraction hpower,
    numeral_of_normal h hdigits hexponent]

theorem isDigit_of_mem_zeros {n : Nat} {c : Char} (h : c ∈ List.replicate n '0') : c.isDigit := by
  rw [(List.mem_replicate.mp h).2]
  decide

/-- An integer is written with the zeros of its exponent, and with one more after the point. -/
theorem plainChars_of_nonneg {d : Decimal} (h : 0 ≤ d.exponent) :
    d.plainChars =
      (Nat.toDigits 10 d.significand ++ List.replicate d.exponent.toNat '0') ++ ['.', '0'] := by
  have hplaces : (-d.exponent).toNat = 0 := by omega
  have hpos := Nat.length_toDigits_pos (b := 10) (n := d.significand)
  have hpad : 0 + 1 - (Nat.toDigits 10 d.significand ++ List.replicate d.exponent.toNat '0').length =
      0 := by
    rw [List.length_append]
    omega
  unfold plainChars
  simp only [hplaces, hpad, List.replicate_zero, List.nil_append, Nat.sub_zero, List.take_length,
    if_true]

/-- A fraction is written with its last places after the point, and with zeros before its digits
where these are too few. -/
theorem plainChars_of_neg {d : Decimal} (h : d.exponent < 0) :
    ∃ fill whole fraction, d.plainChars = whole ++ '.' :: fraction ∧
      whole ++ fraction = List.replicate fill '0' ++ Nat.toDigits 10 d.significand ∧
      (fill = 0 ∨ whole.length = 1) ∧ whole ≠ [] ∧ (fraction.length : Int) = -d.exponent := by
  let places := (-d.exponent).toNat
  let fill := places + 1 - (Nat.toDigits 10 d.significand).length
  let padded := List.replicate fill '0' ++ Nat.toDigits 10 d.significand
  have hplaces : places ≠ 0 := by omega
  have hlength : padded.length = fill + (Nat.toDigits 10 d.significand).length := by
    rw [List.length_append, List.length_replicate]
  -- the padded digits are cut at the point, with all places after it
  have hsplit : padded.take (padded.length - places) ++ padded.drop (padded.length - places) =
      padded := List.take_append_drop _ _
  refine ⟨fill, padded.take (padded.length - places), padded.drop (padded.length - places), ?_,
    hsplit, ?_, ?_, ?_⟩
  · have hnone : d.exponent.toNat = 0 := by omega
    unfold plainChars
    simp only [hnone, List.replicate_zero, List.append_nil]
    rw [if_neg hplaces]
  · rw [List.length_take]
    omega
  · rw [ne_eq, ← List.length_eq_zero_iff, List.length_take]
    omega
  · rw [List.length_drop]
    omega

theorem spells_plain_of_nonneg {d : Decimal} (h : d.Normal) (hnonneg : 0 ≤ d.exponent) :
    d.Spells (Nat.toDigits 10 d.significand ++ List.replicate d.exponent.toNat '0') ['0'] 0 where
  isWhole := by
    have hhead : (Nat.toDigits 10 d.significand ++ List.replicate d.exponent.toNat '0').head? =
        (Nat.toDigits 10 d.significand).head? := List.head?_append_of_ne_nil _ Nat.toDigits_ne_nil
    constructor
    · exact List.append_ne_nil_of_left_ne_nil Nat.toDigits_ne_nil _
    · intro c hc
      rcases List.mem_append.mp hc with hdigit | hzero
      · exact (isWhole_toDigits _).isDigit c hdigit
      · exact isDigit_of_mem_zeros hzero
    · intro hzero
      -- only the digits of zero begin with a zero, and zero has no exponent
      have hsignificand := eq_zero_of_head?_toDigits (hhead.symm.trans hzero)
      rw [hsignificand, h.exponent_eq_zero hsignificand]
      rfl
  isDigit := by
    intro c hc
    rw [List.mem_singleton.mp hc]
    rfl
  value := by
    refine ⟨d.exponent.toNat + 1, ?_, ?_⟩
    · rw [Nat.ofDigitChars_append, Nat.ofDigitChars_append, Nat.ofDigitChars_replicate_zero,
        Nat.ofDigitChars_ten_toDigits, Nat.ofDigitChars_cons, Nat.ofDigitChars_nil]
      show 10 * (10 ^ d.exponent.toNat * d.significand) + 0 =
        d.significand * (10 ^ d.exponent.toNat * 10)
      rw [Nat.add_zero, Nat.mul_comm 10, Nat.mul_comm (10 ^ _), Nat.mul_assoc]
    · rw [List.length_singleton]
      omega

theorem exists_spells_plain_of_neg {d : Decimal} (h : d.Normal) (hneg : d.exponent < 0) :
    ∃ whole fraction, d.plainChars = whole ++ '.' :: fraction ∧ fraction ≠ [] ∧
      d.Spells whole fraction 0 := by
  obtain ⟨fill, whole, fraction, hplain, hparts, hfill, hne, hlength⟩ := plainChars_of_neg hneg
  have hmem : ∀ c ∈ whole ++ fraction, c.isDigit := by
    intro c hc
    rw [hparts] at hc
    rcases List.mem_append.mp hc with hzero | hdigit
    · exact isDigit_of_mem_zeros hzero
    · exact (isWhole_toDigits _).isDigit c hdigit
  refine ⟨whole, fraction, hplain, ?_, ⟨hne, ?_, ?_⟩, ?_, 0, ?_, ?_⟩
  · rintro rfl
    rw [List.length_nil] at hlength
    omega
  · exact fun c hc => hmem c (List.mem_append_left _ hc)
  · intro hhead
    rcases hfill with rfl | hone
    · -- the digits begin with a zero, so they are those of zero, which has no places
      rw [List.replicate_zero, List.nil_append] at hparts
      rw [← List.head?_append_of_ne_nil whole hne, hparts] at hhead
      have hexponent := h.exponent_eq_zero (eq_zero_of_head?_toDigits hhead)
      omega
    · exact hone
  · exact fun c hc => hmem c (List.mem_append_right _ hc)
  · rw [hparts, Nat.ofDigitChars_append, Nat.ofDigitChars_replicate_zero, Nat.mul_zero,
      Nat.ofDigitChars_ten_toDigits]
    exact (Nat.mul_one _).symm
  · omega

/-- Written positionally, a decimal has at least one digit on each side of the point. -/
theorem exists_spells_plain {d : Decimal} (h : d.Normal) :
    ∃ whole fraction, d.plainChars = whole ++ '.' :: fraction ∧ fraction ≠ [] ∧
      d.Spells whole fraction 0 := by
  rcases Int.lt_or_le d.exponent 0 with hneg | hnonneg
  · exact exists_spells_plain_of_neg h hneg
  · refine ⟨_, ['0'], ?_, by decide, spells_plain_of_nonneg h hnonneg⟩
    rw [plainChars_of_nonneg hnonneg]

/-- With an exponent, a decimal has one digit before the point and the others after it. -/
theorem exists_spells_scientific (d : Decimal) (plusSign : Bool) :
    ∃ first fraction, d.scientificChars plusSign = first :: (if fraction = [] then [] else
        '.' :: fraction) ++ 'e' :: exponentChars plusSign d.leading ∧
      d.Spells [first] fraction d.leading := by
  have hdigits := isWhole_toDigits d.significand
  have hvalue := Nat.ofDigitChars_ten_toDigits (n := d.significand)
  cases hsplit : Nat.toDigits 10 d.significand with
  | nil => exact absurd hsplit Nat.toDigits_ne_nil
  | cons first fraction =>
    rw [hsplit] at hdigits hvalue
    refine ⟨first, fraction, ?_, ⟨by simp, ?_, fun _ => rfl⟩, ?_, 0, ?_, ?_⟩
    · simp [scientificChars, hsplit]
    · intro c hc
      rw [List.mem_singleton.mp hc]
      exact hdigits.isDigit first List.mem_cons_self
    · exact fun c hc => hdigits.isDigit c (List.mem_cons_of_mem _ hc)
    · rw [List.singleton_append, hvalue]
      exact (Nat.mul_one _).symm
    · rw [leading, hsplit, List.length_cons]
      omega

/-! ## Any layout -/

/-- What is written in any layout reads back. -/
theorem number?_chars (layout : Layout) {d : Decimal} (h : d.Normal) :
    number? (layout.chars d) = some (.decimal d) := by
  unfold Layout.chars
  by_cases hplainly : layout.plainFrom ≤ d.leading ∧ d.leading ≤ layout.plainTo
  · obtain ⟨whole, fraction, hplain, hne, hspells⟩ := exists_spells_plain h
    have hpoint : ∀ c ∈ ('.' :: fraction).head?, c.isDigit = false := by simp
    have hfraction : fraction? ('.' :: fraction) = some (fraction, []) :=
      digits?_digits hne hspells.isDigit
    rw [if_pos hplainly, hplain]
    exact hspells.number? h (List.cons_ne_nil _ _) hpoint hfraction rfl
  · obtain ⟨first, fraction, hscientific, hspells⟩ := exists_spells_scientific d layout.plusSign
    have hexponent := exponent?_exponentChars layout.plusSign d.leading
    have hmark : ∀ c ∈ ('e' :: exponentChars layout.plusSign d.leading).head?,
        c.isDigit = false := by simp
    rw [if_neg hplainly, hscientific]
    -- with a single digit there is no point before the exponent
    by_cases hempty : fraction = []
    · rw [if_pos hempty, List.singleton_append]
      subst hempty
      exact hspells.number? h (List.cons_ne_nil _ _) hmark rfl hexponent
    · have hpoint : ∀ c ∈ ('.' :: fraction ++ 'e' :: exponentChars layout.plusSign d.leading).head?,
          c.isDigit = false := by simp
      have hfraction := digits?_append hempty hspells.isDigit hmark
      rw [if_neg hempty]
      exact hspells.number? h (List.cons_ne_nil _ _) hpoint hfraction hexponent

end Decimal

end CallGate
