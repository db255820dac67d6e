import CallGate.Proofs.ShortestDecimals
import CallGate.Proofs.Terms

/-!
# Numbers in texts

A number stands in the term of a value and in its JSON, between the names and brackets that go with
the kind of the value. Both show a shortest decimal, but where a number lies halfway between two of
them they show different ones.

- `Value.Texts`: all texts of values that hold a number, with what stands there for the number.
- `Value.texts_of_decimal?`: it is the decimal that the number is written with.
- `Value.texts_shortest`: this is a shortest decimal, and which one.
- `Value.midway_texts_differ`: so a term and JSON may show different decimals.
-/

namespace CallGate

namespace Value

/-- The texts of the values that hold a number, with what stands in them for the number. -/
structure Texts (x : Single) (inTerm inJson : String) : Prop where
  single : (Value.single x).term.text = "F32(" ++ inTerm ++ ")"
  scalar : (Value.scalar ⟨x⟩).term.text = "Scalar(ScalarValue \x7b value: " ++ inTerm ++ " \x7d)"
  object : (Scalar.mk x).term.text = "ScalarValue \x7b value: " ++ inTerm ++ " \x7d"
  single_json : (Value.single x).json.text .compact = inJson
  scalar_json : (Value.scalar ⟨x⟩).json.text .compact = "\x7b\"value\":" ++ inJson ++ "\x7d"
  object_json : (Scalar.mk x).json.text .compact = "\x7b\"value\":" ++ inJson ++ "\x7d"

/-- The texts show the decimals of the number, in their layouts. -/
theorem texts_of_decimal? {x : Single} {d e : Decimal}
    (hd : x.decimal? Term.numberLayout.halfway = some d)
    (he : x.decimal? Json.numberLayout.halfway = some e) :
    Texts x (String.ofList (Term.numberLayout.chars d))
      (String.ofList (Json.numberLayout.chars e)) := by
  have hterm : (Term.ofSingle x).chars = Term.numberLayout.chars d := by
    simp [Term.ofSingle, hd, Term.chars]
  have hjson : Json.ofSingle x = .decimal e := by simp [Json.ofSingle, he]
  have hobject : (Scalar.mk x).json.text .compact =
      "\x7b\"value\":" ++ String.ofList (Json.numberLayout.chars e) ++ "\x7d" := by
    apply String.toList_injective
    simp [Scalar.json, Json.text, Json.chars, hjson, Json.pieces, Json.memberPieces,
      Json.stringChars, Json.escape, Json.Style.newline, Json.Style.colon]
  -- what is left is written out character by character
  refine ⟨?_, ?_, ?_, ?_, hobject, hobject⟩
  all_goals apply String.toList_injective
  · simp [term, Term.text, Term.chars, hterm]
  · simp [term, Scalar.term, Term.text, Term.chars, Term.fieldChars, hterm]
  · simp [Scalar.term, Term.text, Term.chars, Term.fieldChars, hterm]
  · simp [json, Json.text, Json.chars, hjson, Json.pieces]

/-- The terms of the values that hold a number show a shortest decimal, and so does their JSON. The two
have as many digits, and they are the same unless the number lies halfway between them: of several
shortest decimals the terms show the one furthest from zero, and JSON one whose last digit is even. -/
theorem texts_shortest (w : UInt32) (hw : Word.IsFinite w) (h : ¬Word.IsZero w) :
    ∃ (d e : Decimal) (inTerm inJson : String), Texts (.ofBits w) inTerm inJson ∧
      Json.number? inTerm.toList = some (.decimal d) ∧
      Json.number? inJson.toList = some (.decimal e) ∧
      d.IsShortest w ∧ e.IsShortest w ∧ d.digits.length = e.digits.length ∧
      (d = e ∨ d.distance w = e.distance w ∧ e.magnitude < Word.magnitude w ∧
        Word.magnitude w < d.magnitude) ∧
      (∀ other : Decimal, other.IsShortest w → other ≠ d → other.magnitude < d.magnitude) ∧
      ∀ other : Decimal, other.IsShortest w → other ≠ e → e.significand % 2 = 0 := by
  obtain ⟨d, hdecimal, hd, haway⟩ := Decimal.exists_isShortest hw h Term.numberLayout.halfway
  obtain ⟨e, hdecimal', he, heven⟩ := Decimal.exists_isShortest hw h Json.numberLayout.halfway
  -- terms go away from zero halfway, so that no other shortest decimal is greater
  have hgreatest : ∀ other : Decimal, other.IsShortest w → other ≠ d →
      other.magnitude < d.magnitude := by
    intro other hother hne
    rcases haway other hother hne with ⟨-, hless⟩ | ⟨heven, -⟩
    · exact hless
    · cases heven
  refine ⟨d, e, _, _, texts_of_decimal? hdecimal hdecimal', ?_, ?_, hd, he, hd.length_eq he, ?_,
    hgreatest, ?_⟩
  · rw [String.toList_ofList]
    exact Decimal.number?_chars _ (Single.normal_of_decimal? hdecimal)
  · rw [String.toList_ofList]
    exact Decimal.number?_chars _ (Single.normal_of_decimal? hdecimal')
  · -- two decimals that are equally near are on both sides
    by_cases hsame : d = e
    · exact .inl hsame
    · have hless := hgreatest e he (Ne.symm hsame)
      have hnear := hd.distance_eq he
      refine .inr ⟨hnear, ?_⟩
      unfold Decimal.distance at hnear
      rcases abs_eq_abs.mp hnear with hequal | hopposite
      · linarith
      · constructor <;> linarith
  · intro other hother hne
    rcases heven other hother hne with ⟨haway, -⟩ | ⟨-, hmod⟩
    · cases haway
    · exact hmod

/-- A number halfway between two shortest decimals. -/
def midway : UInt32 := 0x408AA000

/-- Both decimals of eight digits are equally near to it. -/
theorem texts_midway : Texts (.ofBits midway) "4.3320313" "4.3320312" := by
  have hterm : (Single.ofBits midway).decimal? .away = some ⟨false, 43320313, -7⟩ := by
    decide +kernel
  have hjson : (Single.ofBits midway).decimal? .even = some ⟨false, 43320312, -7⟩ := by
    decide +kernel
  have htexts := texts_of_decimal? hterm hjson
  rwa [show String.ofList (Term.numberLayout.chars ⟨false, 43320313, -7⟩) = "4.3320313" by
      decide +kernel,
    show String.ofList (Json.numberLayout.chars ⟨false, 43320312, -7⟩) = "4.3320312" by
      decide +kernel] at htexts

/-- The two texts are read as different decimals. -/
theorem number?_midway :
    Json.number? "4.3320313".toList = some (.decimal ⟨false, 43320313, -7⟩) ∧
      Json.number? "4.3320312".toList = some (.decimal ⟨false, 43320312, -7⟩) :=
  ⟨rfl, rfl⟩

/-- Its term shows the upper one, and its JSON the lower one, whose last digit is even. -/
theorem texts_shortest_midway :
    Decimal.IsShortest ⟨false, 43320313, -7⟩ midway ∧
    Decimal.IsShortest ⟨false, 43320312, -7⟩ midway ∧
    Decimal.magnitude ⟨false, 43320312, -7⟩ < Word.magnitude midway ∧
    Word.magnitude midway < Decimal.magnitude ⟨false, 43320313, -7⟩ := by
  obtain ⟨d, e, inTerm, inJson, htexts, hd, he, hshortest, hshortest', -, hsides, -⟩ :=
    texts_shortest midway (by decide) (by decide)
  -- what stands in the text for the number is told by the text around it
  obtain rfl : inTerm = "4.3320313" := by
    have hsame := htexts.single.symm.trans texts_midway.single
    exact (String.append_right_inj _).mp ((String.append_left_inj _).mp hsame)
  obtain rfl : inJson = "4.3320312" := htexts.single_json.symm.trans texts_midway.single_json
  rw [number?_midway.1] at hd
  rw [number?_midway.2] at he
  cases hd
  cases he
  obtain ⟨-, hbelow, habove⟩ := hsides.resolve_left (by decide)
  exact ⟨hshortest, hshortest', hbelow, habove⟩

/-- So its term and its JSON do not show the same decimal. -/
theorem midway_texts_differ :
    Word.IsFinite midway ∧ ¬Word.IsZero midway ∧
    (Value.single (.ofBits midway)).term.text = "F32(4.3320313)" ∧
    (Value.single (.ofBits midway)).json.text .compact = "4.3320312" ∧
    ¬∃ d, Json.number? "4.3320313".toList = some (.decimal d) ∧
      Json.number? "4.3320312".toList = some (.decimal d) := by
  refine ⟨by decide, by decide, texts_midway.single, texts_midway.single_json, ?_⟩
  rintro ⟨d, hd, hd'⟩
  rw [number?_midway.1] at hd
  rw [number?_midway.2] at hd'
  cases hd
  cases hd'

end Value

end CallGate
