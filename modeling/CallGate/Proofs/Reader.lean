import CallGate.Proofs.Scanner

/-!
# Reading JSON

A reader goes through the tokens of a JSON text with a stack of the arrays and objects around it,
and takes no text that is not JSON. Of the literal names it has `null` alone, since there are no
truth values among the values here.

- `Json.number?`: the number that a word is written for, by the grammar of JSON numbers.
- `Json.Reading`, `Json.advance?`, `Json.read?`: what has been read, one token, and a text.
- `Json.Legible`: all decimals in a value are written so that they read back.
- `Json.foldlM_tokens`: the tokens of a value take the reader past the value, whatever is around.
- `Json.read?_text`: a value is read from its text in every style that sets tokens apart by blanks.
-/

namespace CallGate.Json

/-! ## Words -/

/-- The digits that a text begins with, of which there has to be one, and the rest. -/
def digits? (text : List Char) : Option (List Char × List Char) :=
  let digits := text.takeWhile Char.isDigit
  if digits = [] then none else some (digits, text.dropWhile Char.isDigit)

/-- The digits before a point. More than one do not begin with a zero. -/
def whole? (text : List Char) : Option (List Char × List Char) := do
  let (digits, rest) ← digits? text
  if digits.head? = some '0' ∧ digits.length ≠ 1 then none
  return (digits, rest)

/-- A point with the digits after it, or nothing. -/
def fraction? : List Char → Option (List Char × List Char)
  | '.' :: rest => digits? rest
  | rest => some ([], rest)

/-- A power of ten after its sign. -/
def power? (negative : Bool) (text : List Char) : Option Int := do
  let (digits, rest) ← digits? text
  if rest ≠ [] then none
  let power := Nat.ofDigitChars 10 digits 0
  return if negative then -power else power

/-- The power of ten with which a number ends, or nothing. -/
def exponent? : List Char → Option Int
  | [] => some 0
  | mark :: rest =>
    if mark = 'e' ∨ mark = 'E' then
      match rest with
      | '-' :: rest => power? true rest
      | '+' :: rest => power? false rest
      | rest => power? false rest
    else none

/-- The number that a word is written for. It is a natural number if it has no sign, no point and no
exponent, and else a decimal without final zeros. -/
def number? (word : List Char) : Option Json := do
  let negative : Bool := word.head? = some '-'
  let (whole, rest) ← whole? (if negative then word.tail else word)
  if rest = [] ∧ ¬negative then return .natural (Nat.ofDigitChars 10 whole 0)
  let (fraction, rest) ← fraction? rest
  let exponent ← exponent? rest
  let significand := Nat.ofDigitChars 10 (whole ++ fraction) 0
  if significand = 0 then return .decimal ⟨negative, 0, 0⟩
  return .decimal (Decimal.trim ⟨negative, significand, exponent - fraction.length⟩)

/-- What a word is written for. -/
def ofWord? (word : List Char) : Option Json :=
  if word = "null".toList then some .null else number? word

/-! ## Reading tokens -/

/-- What is around a value: the elements or members before it, the last one first. -/
inductive Frame where
  | array (before : List Json)
  | object (before : List (String × Json)) (key : String)

/-- What a reader comes to next, or what it has just read. -/
inductive Reading where
  /-- A value comes next. -/
  | value (around : List Frame)
  /-- The first element comes next, or the end of an array that is empty. -/
  | firstElement (around : List Frame)
  /-- The first key comes next, or the end of an object that is empty. -/
  | firstKey (around : List Frame)
  /-- The key of a further member comes next. -/
  | key (before : List (String × Json)) (around : List Frame)
  /-- The colon after a key comes next. -/
  | colon (before : List (String × Json)) (key : String) (around : List Frame)
  /-- A value has been read. -/
  | after (value : Json) (around : List Frame)

/-- A token with which a value begins. -/
def begin? (around : List Frame) : Token → Option Reading
  | .openArray => some (.firstElement around)
  | .openObject => some (.firstKey around)
  | .string text => some (.after (.string text) around)
  | .word word => (ofWord? word).map fun value => .after value around
  | _ => none

/-- One token. -/
def advance? : Reading → Token → Option Reading
  | .value around, token => begin? around token
  | .firstElement around, .closeArray => some (.after (.array []) around)
  | .firstElement around, token => begin? (.array [] :: around) token
  | .firstKey around, .closeObject => some (.after (.object []) around)
  | .firstKey around, .string key => some (.colon [] key around)
  | .key before around, .string key => some (.colon before key around)
  | .colon before key around, .colon => some (.value (.object before key :: around))
  | .after value (.array before :: around), .comma =>
    some (.value (.array (value :: before) :: around))
  | .after value (.array before :: around), .closeArray =>
    some (.after (.array (value :: before).reverse) around)
  | .after value (.object before key :: around), .comma =>
    some (.key ((key, value) :: before) around)
  | .after value (.object before key :: around), .closeObject =>
    some (.after (.object ((key, value) :: before).reverse) around)
  | _, _ => none

/-- The value that a reader is through with. -/
def Reading.result? : Reading → Option Json
  | .after json [] => some json
  | _ => none

/-- The value that a text is written for. -/
def read? (text : String) : Option Json := do
  let tokens ← scan .between text.toList
  let reading ← tokens.foldlM advance? (.value [])
  reading.result?

/-! ## Numbers read back -/

/-- Digits are read up to what is no digit. -/
theorem digits?_append {digits rest : List Char} (hne : digits ≠ [])
    (hdigits : ∀ c ∈ digits, c.isDigit) (hrest : ∀ c ∈ rest.head?, c.isDigit = false) :
    digits? (digits ++ rest) = some (digits, rest) := by
  -- what follows begins with no digit, so that no more digits are taken
  have hstop : rest.takeWhile Char.isDigit = [] ∧ rest.dropWhile Char.isDigit = rest := by
    cases rest with
    | nil => exact ⟨rfl, rfl⟩
    | cons c rest => simp [hrest c rfl]
  have htake : (digits ++ rest).takeWhile Char.isDigit = digits := by
    rw [List.takeWhile_append_of_pos hdigits, hstop.1, List.append_nil]
  have hdrop : (digits ++ rest).dropWhile Char.isDigit = rest := by
    rw [List.dropWhile_append_of_pos hdigits, hstop.2]
  simp only [digits?, htake, hdrop, if_neg hne]

/-- Digits with nothing after them are read to the end. -/
theorem digits?_digits {digits : List Char} (hne : digits ≠ [])
    (hdigits : ∀ c ∈ digits, c.isDigit) : digits? digits = some (digits, []) := by
  have hend : ∀ c ∈ ([] : List Char).head?, c.isDigit = false := nofun
  have hread := digits?_append hne hdigits hend
  rwa [List.append_nil] at hread

/-- Digits that may stand before a point: at least one, and no zero before another one. -/
structure IsWhole (digits : List Char) : Prop where
  ne_nil : digits ≠ []
  isDigit : ∀ c ∈ digits, c.isDigit
  length_eq_one : digits.head? = some '0' → digits.length = 1

/-- So are digits that may stand before a point. -/
theorem whole?_append {digits rest : List Char} (h : IsWhole digits)
    (hrest : ∀ c ∈ rest.head?, c.isDigit = false) : whole? (digits ++ rest) = some (digits, rest) := by
  have hzero : ¬(digits.head? = some '0' ∧ digits.length ≠ 1) := by
    rintro ⟨hhead, hlength⟩
    exact hlength (h.length_eq_one hhead)
  simp [whole?, digits?_append h.ne_nil h.isDigit hrest, hzero]

/-- Only zero begins with a zero. -/
theorem eq_zero_of_head?_toDigits {n : Nat} (h : (Nat.toDigits 10 n).head? = some '0') : n = 0 := by
  induction n using Nat.strongRecOn with
  | ind n ih =>
    by_cases hsmall : n < 10
    · have : ∀ n : Fin 10, (Nat.toDigits 10 n).head? = some '0' → n.val = 0 := by decide
      exact this ⟨n, hsmall⟩ h
    · -- the first digit of a longer number is that of its tenth part, which is not zero
      have hsplit : Nat.toDigits 10 n = Nat.toDigits 10 (n / 10) ++ [Nat.digitChar (n % 10)] := by
        rw [Nat.toDigits_eq_if (by decide), if_neg hsmall]
      rw [hsplit, List.head?_append_of_ne_nil _ Nat.toDigits_ne_nil] at h
      have := ih (n / 10) (by omega) h
      omega

/-- Natural numbers are written with such digits. -/
theorem isWhole_toDigits (n : Nat) : IsWhole (Nat.toDigits 10 n) where
  ne_nil := Nat.toDigits_ne_nil
  isDigit := fun _ hc => Nat.isDigit_of_mem_toDigits (by decide) (by decide) hc
  length_eq_one := by
    intro hhead
    rw [eq_zero_of_head?_toDigits hhead]
    rfl

/-- What begins with digits has no sign. -/
theorem IsWhole.head?_ne {digits : List Char} (h : IsWhole digits) : digits.head? ≠ some '-' := by
  intro hhead
  exact absurd (h.isDigit _ (List.mem_of_head? hhead)) (by decide)

theorem number?_toDigits (n : Nat) : number? (Nat.toDigits 10 n) = some (.natural n) := by
  have hwhole : whole? (Nat.toDigits 10 n) = some (Nat.toDigits 10 n, []) := by
    have hend : ∀ c ∈ ([] : List Char).head?, c.isDigit = false := nofun
    have hread := whole?_append (isWhole_toDigits n) hend
    rwa [List.append_nil] at hread
  simp [number?, (isWhole_toDigits n).head?_ne, hwhole, Nat.ofDigitChars_ten_toDigits]

/-- A natural number is not the name of a value. -/
theorem ofWord?_toDigits (n : Nat) : ofWord? (Nat.toDigits 10 n) = some (.natural n) := by
  have hnull : Nat.toDigits 10 n ≠ "null".toList := by
    intro h
    have : 'n' ∈ Nat.toDigits 10 n := by rw [h]; decide
    exact absurd (Nat.isDigit_of_mem_toDigits (by decide) (by decide) this) (by decide)
  rw [ofWord?, if_neg hnull, number?_toDigits]

/-! ## Reading a value -/

/-- All decimals in a value are written so that they read back. -/
inductive Legible : Json → Prop where
  | null : Legible .null
  | natural (n : Nat) : Legible (.natural n)
  | decimal {d : Decimal} (h : ofWord? (numberLayout.chars d) = some (.decimal d)) :
    Legible (.decimal d)
  | string (text : String) : Legible (.string text)
  | array {elements : List Json} (h : ∀ element ∈ elements, Legible element) :
    Legible (.array elements)
  | object {members : List (String × Json)} (h : ∀ member ∈ members, Legible member.2) :
    Legible (.object members)

/-- A value does not begin with the end of an array. -/
theorem exists_tokens_eq_cons : (json : Json) →
    ∃ token rest, json.tokens = token :: rest ∧ token ≠ .closeArray
  | .null | .natural _ | .decimal _ | .string _ => ⟨_, _, rfl, nofun⟩
  | .array [] | .array (_ :: _) => ⟨.openArray, _, rfl, nofun⟩
  | .object [] | .object (_ :: _) => ⟨.openObject, _, rfl, nofun⟩

theorem foldlM_advance {reading next : Reading} {token : Token}
    (h : advance? reading token = some next) (rest : List Token) :
    (token :: rest).foldlM advance? reading = rest.foldlM advance? next := by
  rw [List.foldlM_cons, h]
  rfl

/-- The first element of an array is read as any other value. -/
theorem foldlM_firstElement (around : List Frame) (json : Json) (rest : List Token) :
    (json.tokens ++ rest).foldlM advance? (.firstElement around) =
      (json.tokens ++ rest).foldlM advance? (.value (.array [] :: around)) := by
  obtain ⟨token, others, htokens, htoken⟩ := json.exists_tokens_eq_cons
  -- the end of the array is the only token for which the two readings differ
  have : advance? (.firstElement around) token = advance? (.value (.array [] :: around)) token := by
    cases token <;> first | rfl | exact absurd rfl htoken
  rw [htokens, List.cons_append, List.foldlM_cons, List.foldlM_cons, this]

mutual

/-- The tokens of a value take a reader past the value, whatever is around. -/
theorem foldlM_tokens (around : List Frame) (rest : List Token) :
    (json : Json) → json.Legible →
      (json.tokens ++ rest).foldlM advance? (.value around) =
        rest.foldlM advance? (.after json around)
  | .null, _ => foldlM_advance rfl rest
  | .natural n, _ => foldlM_advance (by simp [advance?, begin?, ofWord?_toDigits]) rest
  | .decimal d, .decimal h => foldlM_advance (by simp [advance?, begin?, h]) rest
  | .string text, _ => foldlM_advance rfl rest
  | .array [], _ => by
    rw [tokens, List.cons_append, foldlM_advance rfl]
    exact foldlM_advance rfl rest
  | .array (element :: others), .array h => by
    obtain ⟨helement, hothers⟩ := List.forall_mem_cons.mp h
    simp only [tokens, List.cons_append, List.append_assoc, List.nil_append]
    rw [foldlM_advance rfl, foldlM_firstElement, foldlM_tokens _ _ element helement,
      foldlM_elementTokens _ _ _ _ others hothers]
    rfl
  | .object [], _ => by
    rw [tokens, List.cons_append, foldlM_advance rfl]
    exact foldlM_advance rfl rest
  | .object ((key, value) :: others), .object h => by
    obtain ⟨hvalue, hothers⟩ := List.forall_mem_cons.mp h
    simp only [tokens, List.cons_append, List.append_assoc, List.nil_append]
    rw [foldlM_advance rfl, foldlM_advance rfl, foldlM_advance rfl,
      foldlM_tokens _ _ value hvalue, foldlM_memberTokens _ _ _ _ _ others hothers]
    rfl

/-- The further elements and the end of an array, of which some elements have been read. -/
theorem foldlM_elementTokens (around : List Frame) (rest : List Token) (before : List Json)
    (value : Json) : (elements : List Json) → (∀ element ∈ elements, element.Legible) →
      (elementTokens elements ++ .closeArray :: rest).foldlM advance?
          (.after value (.array before :: around)) =
        rest.foldlM advance? (.after (.array ((value :: before).reverse ++ elements)) around)
  | [], _ => by
    rw [List.append_nil]
    exact foldlM_advance rfl rest
  | element :: others, h => by
    obtain ⟨helement, hothers⟩ := List.forall_mem_cons.mp h
    simp only [elementTokens, List.cons_append, List.append_assoc]
    rw [foldlM_advance rfl, foldlM_tokens _ _ element helement,
      foldlM_elementTokens _ _ _ _ others hothers]
    simp

/-- The further members and the end of an object, of which some members have been read. -/
theorem foldlM_memberTokens (around : List Frame) (rest : List Token)
    (before : List (String × Json)) (key : String) (value : Json) :
    (members : List (String × Json)) → (∀ member ∈ members, member.2.Legible) →
      (memberTokens members ++ .closeObject :: rest).foldlM advance?
          (.after value (.object before key :: around)) =
        rest.foldlM advance?
          (.after (.object (((key, value) :: before).reverse ++ members)) around)
  | [], _ => by
    rw [List.append_nil]
    exact foldlM_advance rfl rest
  | (next, value) :: others, h => by
    obtain ⟨hvalue, hothers⟩ := List.forall_mem_cons.mp h
    simp only [memberTokens, List.cons_append, List.append_assoc]
    rw [foldlM_advance rfl, foldlM_advance rfl, foldlM_advance rfl,
      foldlM_tokens _ _ value hvalue, foldlM_memberTokens _ _ _ _ _ others hothers]
    simp

end

/-- A value is read from its text, however that is laid out. -/
theorem read?_text {style : Style} (hblank : style.Blank) {json : Json} (h : json.Legible) :
    read? (json.text style) = some json := by
  have hread := foldlM_tokens [] [] json h
  rw [List.append_nil] at hread
  -- the text is scanned to the tokens of the value, and these take the reader past it
  simp [read?, text, scan_chars hblank, hread, Reading.result?]

-- What is not JSON is not read.
example : (read? "[1,]").isNone ∧ (read? "[01]").isNone ∧ (read? "[\"\t\"]").isNone := by decide

end CallGate.Json
