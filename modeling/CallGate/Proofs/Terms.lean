import CallGate.Value
import CallGate.Proofs.Layouts
import CallGate.Proofs.TermTexts

/-!
# Terms tell values

What stands in the term of a number is a name for what is not finite, and else a decimal that reads
back. So the number can be told from its term, and with it the value that holds it.

- `Term.single?`: the number that a term is written for.
- `Term.single?_ofSingle`: it reads back every number.
- `Term.ofSingle_injective`, `Term.legible_ofSingle`: no two numbers have the same term, and it is a
  bare word.
- `Term.ofNat_injective`, `Term.option_injective`: so it is with counts and options.
- `Value.legible_term`, `Value.term_injective`, `Value.eq_of_text`: values have terms that can be read,
  and no two values have the same one.
-/

namespace CallGate

namespace Term

/-! ## Numbers -/

/-- The number that a term is written for. -/
def single? (word : List Char) : Option Single :=
  if word = "NaN".toList then some .nan
  else if word = "inf".toList then some (.infinite false)
  else if word = "-inf".toList then some (.infinite true)
  else
    match Json.number? word with
    | some (.decimal d) => some d.toSingle
    | _ => none

/-- The term of a number is a decimal, or a name if the number is not finite. -/
theorem ofSingle_cases (x : Single) :
    (∃ d, x.decimal? numberLayout.halfway = some d ∧
      (ofSingle x).chars = numberLayout.chars d) ∨
    x = .nan ∨ x = .infinite false ∨ x = .infinite true := by
  cases x with
  | nan => exact .inr (.inl rfl)
  | infinite negative =>
    cases negative with
    | false => exact .inr (.inr (.inl rfl))
    | true => exact .inr (.inr (.inr rfl))
  | finite negative rank =>
    obtain ⟨d, hd⟩ := Single.exists_decimal? numberLayout.halfway negative rank
    exact .inl ⟨d, hd, by simp [ofSingle, hd, chars]⟩

/-- A number reads back from its term. -/
theorem single?_ofSingle (x : Single) : single? (ofSingle x).chars = some x := by
  rcases ofSingle_cases x with ⟨d, hd, hchars⟩ | rfl | rfl | rfl
  · have hread : Json.number? (numberLayout.chars d) = some (.decimal d) :=
      Decimal.number?_chars numberLayout (Single.normal_of_decimal? hd)
    -- the names are not numbers
    have hname {name : List Char} (h : Json.number? name = none) : numberLayout.chars d ≠ name := by
      rintro rfl
      rw [hread] at h
      cases h
    rw [hchars, single?, if_neg (hname rfl), if_neg (hname rfl), if_neg (hname rfl), hread]
    exact congrArg some (Single.toSingle_of_decimal? hd)
  · rfl
  · rfl
  · rfl

/-- No two numbers have the same term. -/
theorem ofSingle_injective : Function.Injective ofSingle := by
  intro x y h
  have hread := single?_ofSingle x
  rw [h, single?_ofSingle] at hread
  exact (Option.some.inj hread).symm

/-- What numbers are written with in terms. -/
def isSingleChar (c : Char) : Bool :=
  Json.isNumeralChar c || c.isAlpha

/-- Nothing but such characters is in the term of a number. -/
theorem isSingleChar_of_mem_ofSingle {x : Single} {c : Char} (h : c ∈ (ofSingle x).chars) :
    isSingleChar c = true := by
  rcases ofSingle_cases x with ⟨d, hd, hchars⟩ | rfl | rfl | rfl
  · rw [hchars] at h
    rw [isSingleChar, Json.isNumeralChar_of_mem_chars h, Bool.true_or]
  · exact List.all_eq_true.mp (by decide) c h
  · exact List.all_eq_true.mp (by decide) c h
  · exact List.all_eq_true.mp (by decide) c h

theorem ofSingle_chars_ne_nil (x : Single) : (ofSingle x).chars ≠ [] := by
  rcases ofSingle_cases x with ⟨d, hd, hchars⟩ | rfl | rfl | rfl
  · rw [hchars]
    exact Json.layout_chars_ne_nil _ d
  · decide
  · decide
  · decide

/-- None of the characters that set terms apart occurs in numbers. -/
theorem isNameChar_of_isSingleChar {c : Char} (h : isSingleChar c = true) : isNameChar c = true := by
  have hothers : [' ', ',', ':', '"', '(', ')', '[', ']', '\x7b', '\x7d'].all
      (fun d => !isSingleChar d) = true := by decide
  rw [isNameChar, List.all_eq_true]
  intro d hd
  have hnot := List.all_eq_true.mp hothers d hd
  -- a separator that is a number character would contradict the list checked above
  refine decide_eq_true ?_
  rintro rfl
  rw [h] at hnot
  cases hnot

theorem exists_ofSingle_eq_word (x : Single) : ∃ text, ofSingle x = .word text := by
  unfold ofSingle
  split <;> exact ⟨_, rfl⟩

/-- The term of a number can be read, since no separator is in it. -/
@[simp] theorem legible_ofSingle (x : Single) : (ofSingle x).Legible := by
  obtain ⟨text, htext⟩ := exists_ofSingle_eq_word x
  have hne := ofSingle_chars_ne_nil x
  have hchars {c : Char} := isSingleChar_of_mem_ofSingle (x := x) (c := c)
  rw [htext] at hne hchars ⊢
  refine .word ⟨hne, List.all_eq_true.mpr fun c hc => ?_⟩
  exact isNameChar_of_isSingleChar (hchars hc)

/-! ## Counts and options -/

/-- Counts are written in digits alone. -/
@[simp] theorem legible_ofNat (n : Nat) : (ofNat n).Legible := by
  have hwhole := Json.isWhole_toDigits n
  refine .word ⟨?_, List.all_eq_true.mpr fun c hc => ?_⟩
  · rw [String.toList_ofList]
    exact hwhole.ne_nil
  · rw [String.toList_ofList] at hc
    refine isNameChar_of_isSingleChar ?_
    rw [isSingleChar, Json.isNumeralChar, hwhole.isDigit c hc]
    rfl

/-- A count is read back from its digits. -/
theorem ofNat_injective : Function.Injective ofNat := by
  intro m n h
  injection h with hword
  have hread := congrArg (Nat.ofDigitChars 10 · 0) (String.ofList_injective hword)
  simpa only [Nat.ofDigitChars_ten_toDigits] using hread

theorem legible_option {α : Type} {write : α → Term} (h : ∀ x, (write x).Legible) (x : Option α) :
    (option (x.map write)).Legible := by
  cases x with
  | none => exact .word (by decide)
  | some y => exact .applied (by decide) (h y)

/-- What is missing is told from what is there, and its content by its own term. -/
theorem option_injective : Function.Injective option := by
  intro x y h
  cases x <;> cases y <;> cases h <;> rfl

end Term

/-! ## Kinds -/

namespace Kind

@[simp] theorem legible_term (kind : Kind) : kind.term.Legible := by
  cases kind <;> exact .word (by decide)

theorem term_injective : Function.Injective Kind.term := by
  intro x y h
  cases x <;> cases y <;> first | rfl | exact absurd (Term.word.inj h) (by decide)

end Kind

/-! ## Values -/

namespace Value

@[simp] theorem legible_term (v : Value) : v.term.Legible := by
  cases v with
  | single x => exact .applied (by decide) (Term.legible_ofSingle x)
  | scalar object =>
    exact .applied (by decide) (Term.legible_record ["value"] rfl (by decide) (by simp))

/-- A value is told by its kind, which heads the term, and by its number. -/
theorem term_injective : Function.Injective Value.term := by
  intro v w h
  cases v with
  | single x =>
    cases w with
    | single y =>
      injection h with _ hnumber
      exact congrArg Value.single (Term.ofSingle_injective hnumber)
    | scalar object =>
      -- the heads are the names of the kinds, which differ
      injection h with hhead
      exact absurd hhead (by decide)
  | scalar object =>
    cases w with
    | single y =>
      injection h with hhead
      exact absurd hhead (by decide)
    | scalar other =>
      -- two scalars: the number is the only field of the record
      simp only [term, Scalar.term, Term.applied.injEq, Term.record.injEq, List.cons.injEq,
        Prod.mk.injEq, true_and, and_true] at h
      exact congrArg Value.scalar (congrArg Scalar.mk (Term.ofSingle_injective h))

/-- No two values have the same term. -/
theorem eq_of_text {v w : Value} (h : v.term.text = w.term.text) : v = w :=
  term_injective ((legible_term v).eq_of_text (legible_term w) h)

end Value

end CallGate
