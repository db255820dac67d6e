import Mathlib.Tactic.FieldSimp
import CallGate.Value
import CallGate.Proofs.Layouts
import CallGate.Proofs.RoundedWords

/-!
# JSON tells values

The JSON text of a value is read as an object if the value is a scalar, and else as a bare number.
In either case the number is a decimal that is rounded to the value's own number, unless that one is
not finite and has no decimal.

- `Decimal.magnitude`, `Decimal.rounded_toSingle`: what a decimal stands for exactly, and that it is
  read as this magnitude rounded once.
- `Json.held`: the number in the JSON of a value.
- `Value.read?_text`: the text of a value is JSON.
- `Value.json_faithful`: what it decodes to, and that it tells finite values.
-/

namespace CallGate

namespace Decimal

/-! ## Reading decimals -/

/-- The exact magnitude of a decimal. -/
def magnitude (d : Decimal) : ℚ := d.significand * 10 ^ d.exponent

/-- A power of ten is a natural number over another one. -/
theorem tenTo_div_tenTo (exponent : Int) :
    (tenTo exponent : ℚ) / tenTo (-exponent) = 10 ^ exponent := by
  have hcast (e : Int) : (tenTo e : ℚ) = 10 ^ e.toNat := by
    show ((10 ^ e.toNat : Nat) : ℚ) = _
    push_cast
    rfl
  rw [hcast, hcast, ← zpow_natCast, ← zpow_natCast, ← zpow_sub₀ (by norm_num)]
  -- one of the two exponents is cut to zero
  congr 1
  omega

/-- The units of a decimal, as the quotient that is rounded. -/
theorem units_quotient (d : Decimal) :
    ((d.significand * tenTo d.exponent * Single.unitsOfOne : Nat) : ℚ) / tenTo (-d.exponent) =
      d.magnitude * 2 ^ 149 := by
  rw [magnitude, ← tenTo_div_tenTo]
  push_cast
  rw [Single.cast_unitsOfOne]
  field_simp

/-- A decimal is read as its exact magnitude, rounded once. -/
theorem rounded_toSingle (d : Decimal) : Word.Rounded d.negative d.magnitude d.toSingle.toBits := by
  rw [eq_div_of_mul_eq (by norm_num) d.units_quotient.symm]
  exact Single.rounded_round _ _ (tenTo_pos _)

end Decimal

namespace Json

/-! ## Decimals and their texts -/

/-- No decimal is written like a name. -/
theorem ofWord?_chars {d : Decimal} (h : d.Normal) :
    ofWord? (numberLayout.chars d) = some (.decimal d) := by
  have hread := Decimal.number?_chars numberLayout h
  -- the name would be read as no number
  have hname : numberLayout.chars d ≠ "null".toList := by
    intro hnull
    rw [hnull] at hread
    cases hread
  rw [ofWord?, if_neg hname, hread]

/-- The JSON of a finite number is a decimal that reads back. -/
theorem exists_ofSingle_eq (x : Single) (h : Word.IsFinite x.toBits) :
    ∃ d : Decimal, ofSingle x = .decimal d ∧ d.Normal ∧ d.toSingle = x := by
  cases x with
  | nan => exact absurd h (by decide)
  | infinite negative =>
    rw [Word.isFinite_iff, Single.rank_toBits_infinite] at h
    exact absurd h (Nat.lt_irrefl _)
  | finite negative rank =>
    obtain ⟨d, hd⟩ := Single.exists_decimal? numberLayout.halfway negative rank
    exact ⟨d, by simp [ofSingle, hd], Single.normal_of_decimal? hd, Single.toSingle_of_decimal? hd⟩

/-- That of any other number is `null`. -/
theorem ofSingle_eq_null {x : Single} (h : ¬Word.IsFinite x.toBits) : ofSingle x = .null := by
  cases x with
  | nan => rfl
  | infinite negative => rfl
  | finite negative rank =>
    rw [Word.isFinite_iff, Single.rank_toBits_finite] at h
    exact absurd rank.isLt h

theorem legible_ofSingle (x : Single) : (ofSingle x).Legible := by
  by_cases h : Word.IsFinite x.toBits
  · obtain ⟨d, hd, hnormal, -⟩ := exists_ofSingle_eq x h
    rw [hd]
    exact .decimal (ofWord?_chars hnormal)
  · rw [ofSingle_eq_null h]
    exact .null

/-! ## Numbers in a value -/

/-- A JSON number. -/
def IsNumber : Json → Prop
  | .natural _ | .decimal _ => True
  | _ => False

/-- The number in the JSON of a value: that of the only member of an object, or the bare one. -/
def held : Json → Json
  | .object [(_, number)] => number
  | json => json

end Json

namespace Value

/-! ## Values -/

/-- Both kinds of values hold the JSON of their number. -/
theorem held_json (v : Value) : v.json.held = Json.ofSingle v.number := by
  cases v with
  | single x =>
    -- the JSON of a number is no object, so it is the bare one
    by_cases h : Word.IsFinite x.toBits
    · obtain ⟨d, hd, -⟩ := Json.exists_ofSingle_eq x h
      show (Json.ofSingle x).held = Json.ofSingle x
      rw [hd]
      rfl
    · show (Json.ofSingle x).held = Json.ofSingle x
      rw [Json.ofSingle_eq_null h]
      rfl
  | scalar object => rfl

/-- The text of a value is JSON, and it is read as what it was written for. -/
theorem read?_text (v : Value) : Json.read? (v.json.text .compact) = some v.json := by
  have hblank : Json.Style.compact.Blank := trivial
  refine Json.read?_text hblank ?_
  cases v with
  | single x => exact Json.legible_ofSingle x
  | scalar object =>
    refine .object ?_
    intro member hmember
    rw [List.mem_singleton.mp hmember]
    exact Json.legible_ofSingle object.value

/-- A bare number is `null` or a decimal. -/
theorem json_single (x : Single) :
    (Value.single x).json = .null ∨ ∃ d, (Value.single x).json = .decimal d := by
  by_cases h : Word.IsFinite x.toBits
  · obtain ⟨d, hd, -⟩ := Json.exists_ofSingle_eq x h
    exact .inr ⟨d, hd⟩
  · exact .inl (Json.ofSingle_eq_null h)

/-- Scalars are those values whose JSON is an object. -/
theorem kind_eq_scalar_iff (v : Value) :
    v.kind = .scalar ↔ ∃ number, v.json = .object [("value", number)] := by
  cases v with
  | single x =>
    refine iff_of_false nofun ?_
    rintro ⟨number, hnumber⟩
    rcases json_single x with hnull | ⟨d, hd⟩
    · rw [hnull] at hnumber
      cases hnumber
    · rw [hd] at hnumber
      cases hnumber
  | scalar object => exact iff_of_true rfl ⟨_, rfl⟩

/-- Bare numbers are those whose JSON is a number or null. -/
theorem kind_eq_single_iff (v : Value) : v.kind = .single ↔ v.json = .null ∨ v.json.IsNumber := by
  cases v with
  | single x =>
    refine iff_of_true rfl ?_
    rcases json_single x with hnull | ⟨d, hd⟩
    · exact .inl hnull
    · rw [hd]
      exact .inr trivial
  | scalar object =>
    refine iff_of_false nofun ?_
    rintro (hnull | hnumber)
    · cases hnull
    · exact hnumber

/-- A value is its kind and its number. -/
theorem eq_of_number {v w : Value} (hkind : v.kind = w.kind) (hnumber : v.number = w.number) :
    v = w := by
  cases v with
  | single x =>
    cases w with
    | single y => exact congrArg single hnumber
    | scalar object => cases hkind
  | scalar object =>
    cases w with
    | single y => cases hkind
    | scalar other => exact congrArg scalar (congrArg Scalar.mk hnumber)

/-- The text of a value is JSON, an object with one member exactly for a scalar and a bare number or
`null` exactly for a bare number. The number is `null` if it is not finite, and else a decimal of the
same sign that is read as the value's number, which its exact magnitude is rounded to. So the text
of finite values tells their kind and their number to the bit. -/
theorem json_faithful (v w : Value) :
    ∃ json, Json.read? (v.json.text .compact) = some json ∧
      (v.kind = .scalar ↔ ∃ number, json = .object [("value", number)]) ∧
      (v.kind = .single ↔ json = .null ∨ json.IsNumber) ∧
      (json.held = .null ↔ Word.IsNaN v.number.toBits ∨ Word.IsInfinite v.number.toBits) ∧
      (Word.IsFinite v.number.toBits → ∃ d, json.held = .decimal d ∧
        d.toSingle.toBits = v.number.toBits ∧
        Word.Rounded d.negative d.magnitude v.number.toBits) ∧
      (Word.IsFinite v.number.toBits → Word.IsFinite w.number.toBits →
        (v.json.text .compact = w.json.text .compact ↔
          v.kind = w.kind ∧ v.number.toBits = w.number.toBits)) := by
  refine ⟨v.json, read?_text v, kind_eq_scalar_iff v, kind_eq_single_iff v, ?_, ?_, ?_⟩
  · -- null stands for just the words that are not finite
    rw [held_json, ← Word.not_isFinite_iff]
    constructor
    · intro hnull hfinite
      obtain ⟨d, hd, -⟩ := Json.exists_ofSingle_eq v.number hfinite
      rw [hd] at hnull
      cases hnull
    · exact Json.ofSingle_eq_null
  · intro hfinite
    obtain ⟨d, hd, -, hread⟩ := Json.exists_ofSingle_eq v.number hfinite
    refine ⟨d, (held_json v).trans hd, by rw [hread], ?_⟩
    rw [← hread]
    exact d.rounded_toSingle
  · intro hv hw
    constructor
    · intro htext
      -- equal texts are read as equal values, and so the kinds and the decimals are equal
      have hjson : v.json = w.json := by
        have hread := read?_text v
        rw [htext, read?_text w] at hread
        exact (Option.some.inj hread).symm
      have hkind : v.kind = .scalar ↔ w.kind = .scalar := by
        rw [kind_eq_scalar_iff, hjson, ← kind_eq_scalar_iff]
      have hheld : Json.ofSingle v.number = Json.ofSingle w.number := by
        rw [← held_json, hjson, held_json]
      obtain ⟨d, hd, -, hvread⟩ := Json.exists_ofSingle_eq v.number hv
      obtain ⟨e, he, -, hwread⟩ := Json.exists_ofSingle_eq w.number hw
      rw [hd, he] at hheld
      cases hheld
      refine ⟨?_, by rw [← hvread, hwread]⟩
      -- of two kinds, one is scalar exactly when the other is
      revert hkind
      cases v.kind <;> cases w.kind <;> simp
    · rintro ⟨hkind, hbits⟩
      have hnumber : v.number = w.number := by
        rw [← Single.ofBits_toBits v.number, hbits, Single.ofBits_toBits]
      rw [eq_of_number hkind hnumber]

/-- A scalar. -/
def wrapped (word : UInt32) : Value :=
  .scalar ⟨.ofBits word⟩

/-- The least negative number has a decimal of one digit, which is rounded to it, and negative zero
has another text than positive zero. -/
theorem json_faithful_least :
    Json.read? ((wrapped 0x80000001).json.text .compact) =
      some (.object [("value", .decimal ⟨true, 1, -45⟩)]) ∧
    Word.Rounded true (1 / 10 ^ 45) 0x80000001 ∧
    (wrapped 0x80000000).json.text .compact ≠ (wrapped 0x00000000).json.text .compact := by
  have hdecimal : (Single.ofBits 0x80000001).decimal? .even = some ⟨true, 1, -45⟩ := by
    decide +kernel
  have hjson : (wrapped 0x80000001).json = .object [("value", .decimal ⟨true, 1, -45⟩)] := by
    simp [wrapped, json, Scalar.json, Json.ofSingle, Json.numberLayout, hdecimal]
  have hword : (wrapped 0x80000001).number.toBits = 0x80000001 := by decide +kernel
  obtain ⟨read, hread, -, -, -, hfinite, -⟩ := json_faithful (wrapped 0x80000001) (wrapped 0)
  obtain ⟨-, -, -, -, -, -, htext⟩ := json_faithful (wrapped 0x80000000) (wrapped 0x00000000)
  have hsame : read = .object [("value", .decimal ⟨true, 1, -45⟩)] := by
    rw [read?_text, hjson] at hread
    exact (Option.some.inj hread).symm
  obtain ⟨d, hd, -, hrounded⟩ := hfinite (by decide +kernel)
  rw [hsame] at hd
  cases hd
  refine ⟨by rw [hread, hsame], ?_, ?_⟩
  · rwa [hword, Decimal.magnitude, show ((1 : Nat) : ℚ) * 10 ^ (-45 : Int) = 1 / 10 ^ 45 by norm_num]
      at hrounded
  · intro hequal
    obtain ⟨-, hbits⟩ := (htext (by decide +kernel) (by decide +kernel)).mp hequal
    exact absurd hbits (by decide +kernel)

end Value

end CallGate
