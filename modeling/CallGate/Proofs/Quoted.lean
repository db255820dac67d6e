import CallGate.Text.Quoted
import CallGate.Proofs.Scanner

/-!
# Quoted text reads back

A quoted text ends at the first quote that is not escaped, and every character in it is written in
a way of its own. So it can be read off the front of whatever it stands in, and nothing that stands
inside it can imitate what comes after.

- `Text.Quoted.decode?`: a quoted text off the front of a text, and what comes after it.
- `Text.Quoted.decode?_encode`: it reads back what was quoted, whatever comes after.
- `Text.Quoted.encode_append_inj`: equal texts that begin with quoted ones begin with the same one.
- `Text.append_inj_of_stop`: so it is with texts of one kind of character that another kind ends.
- `Text.firstQuoted?`: the first quoted text that stands in a text.
- `Text.Quoted.isHidden_eq_false_iff`, `Text.Quoted.isHidden_of_mem_encode`: a hidden character is
  one that does not stand for itself inside quotes, and none stands in a quoted text.
-/

namespace CallGate.Text

namespace Quoted

/-! ## Reading -/

/-- What a letter stands for after a backslash. -/
def meantBy? : Char → Option Char
  | '"' => some '"'
  | '\\' => some '\\'
  | '0' => some '\x00'
  | 't' => some '\t'
  | 'r' => some '\r'
  | 'n' => some '\n'
  | _ => none

/-- Where a reader is inside quotes. -/
inductive Mode where
  | plain
  /-- After a backslash. -/
  | escape
  /-- After the letter that announces a code, before its brace. -/
  | brace
  /-- In a code, of which the digits so far have a value. -/
  | code (value : Nat)

/-- The text that has been read with one more character before it. -/
def prepend (c : Char) (read : List Char × List Char) : List Char × List Char :=
  (c :: read.1, read.2)

/-- The quoted text up to the closing quote, and what comes after it. -/
def decodeFrom? : Mode → List Char → Option (List Char × List Char)
  | _, [] => none
  | .plain, c :: rest =>
    if c = '"' then some ([], rest)
    else if c = '\\' then decodeFrom? .escape rest
    else (decodeFrom? .plain rest).map (prepend c)
  | .escape, c :: rest =>
    if c = 'u' then decodeFrom? .brace rest
    else (meantBy? c).bind fun meant => (decodeFrom? .plain rest).map (prepend meant)
  | .brace, c :: rest => if c = '\x7b' then decodeFrom? (.code 0) rest else none
  | .code value, c :: rest =>
    if c = '\x7d' then (decodeFrom? .plain rest).map (prepend (Char.ofNat value))
    else (Json.hexDigit? c).bind fun digit => decodeFrom? (.code (16 * value + digit)) rest

/-- The quoted text that a text begins with, and what comes after it. -/
def decode? : List Char → Option (List Char × List Char)
  | '"' :: rest => decodeFrom? .plain rest
  | _ => none

/-! ## What is quoted reads back -/

/-- One more digit of a code. -/
theorem decodeFrom?_digit {digit : Nat} (h : digit < 16) (value : Nat) (rest : List Char) :
    decodeFrom? (.code value) (Nat.digitChar digit :: rest) =
      decodeFrom? (.code (16 * value + digit)) rest := by
  have hread := Json.hexDigit?_digitChar h
  -- a brace is no digit, so the code does not end here
  have hbrace : Nat.digitChar digit ≠ '\x7d' := by
    intro heq
    rw [heq] at hread
    cases hread
  rw [decodeFrom?, if_neg hbrace, hread]
  rfl

/-- The digits of a number, the last one after those of the sixteenth part. -/
theorem decodeFrom?_toDigits (n : Nat) (rest : List Char) :
    decodeFrom? (.code 0) (Nat.toDigits 16 n ++ rest) = decodeFrom? (.code n) rest := by
  induction n using Nat.strongRecOn generalizing rest with
  | ind n ih =>
    rw [Nat.toDigits_eq_if (by decide)]
    by_cases hsmall : n < 16
    · rw [if_pos hsmall, List.singleton_append, decodeFrom?_digit hsmall, Nat.mul_zero,
        Nat.zero_add]
    · have hlast : n % 16 < 16 := Nat.mod_lt n (by decide)
      rw [if_neg hsmall, List.append_assoc, List.singleton_append, ih (n / 16) (by omega),
        decodeFrom?_digit hlast, Nat.div_add_mod]

/-- A character is read back from its code between braces. -/
theorem decodeFrom?_byCode (c : Char) (rest : List Char) :
    decodeFrom? .plain (byCode c ++ rest) = (decodeFrom? .plain rest).map (prepend c) := by
  have hopened : decodeFrom? .plain (byCode c ++ rest) =
      decodeFrom? (.code 0) (Nat.toDigits 16 c.toNat ++ '\x7d' :: rest) := by
    simp [byCode, decodeFrom?]
  rw [hopened, decodeFrom?_toDigits, decodeFrom?, if_pos rfl, Char.ofNat_toNat]

/-- A character that stands for another after a backslash. -/
theorem decodeFrom?_meantBy {c meant : Char} (h : meantBy? c = some meant) (rest : List Char) :
    decodeFrom? .plain ('\\' :: c :: rest) = (decodeFrom? .plain rest).map (prepend meant) := by
  have hcode : c ≠ 'u' := by
    rintro rfl
    cases h
  simp [decodeFrom?, hcode, h]

/-- A character comes out as it went in, however it is written. -/
theorem decodeFrom?_escape (c : Char) (rest : List Char) :
    decodeFrom? .plain (escape c ++ rest) = (decodeFrom? .plain rest).map (prepend c) := by
  unfold escape
  split
  -- no short form: by its code if it is hidden, or as it is
  case h_7 hquote hbackslash _ _ _ _ =>
    split
    case isTrue => exact decodeFrom?_byCode c rest
    case isFalse =>
      show decodeFrom? .plain (c :: rest) = _
      rw [decodeFrom?, if_neg hquote, if_neg hbackslash]
  all_goals exact decodeFrom?_meantBy rfl rest

/-- So do all characters up to the closing quote. -/
theorem decodeFrom?_flatMap_escape (text rest : List Char) :
    decodeFrom? .plain (text.flatMap escape ++ '"' :: rest) = some (text, rest) := by
  induction text with
  | nil => rfl
  | cons c others ih =>
    rw [List.flatMap_cons, List.append_assoc, decodeFrom?_escape, ih]
    rfl

/-- A quoted text is read back, whatever comes after it. -/
theorem decode?_encode (text rest : List Char) :
    decode? (encode text ++ rest) = some (text, rest) := by
  have hopened : decode? (encode text ++ rest) =
      decodeFrom? .plain (text.flatMap escape ++ '"' :: rest) := by
    simp [encode, decode?]
  rw [hopened, decodeFrom?_flatMap_escape]

/-- No quoted text is the beginning of another. -/
theorem encode_append_inj {text text' rest rest' : List Char}
    (h : encode text ++ rest = encode text' ++ rest') : text = text' ∧ rest = rest' := by
  have hread := decode?_encode text rest
  rw [h, decode?_encode] at hread
  cases hread
  exact ⟨rfl, rfl⟩

-- A quote inside does not end a quoted text, and a code is read to its brace.
example : decode? (encode "a\"\u200b, \"".toList ++ [',']) = some ("a\"\u200b, \"".toList, [',']) := by
  decide +kernel

/-! ## Hidden characters -/

/-- Hidden characters are those that are written by a letter or by their code. -/
theorem isHidden_eq_false_iff {c : Char} :
    isHidden c = false ↔ escape c = [c] ∨ c = '"' ∨ c = '\\' := by
  unfold escape
  split
  case h_7 hquote hbackslash _ _ _ _ =>
    split
    case isTrue h =>
      -- a code is longer than one character
      have hcode : byCode c ≠ [c] := by simp [byCode]
      constructor
      · intro hshown
        rw [h] at hshown
        cases hshown
      · rintro (heq | heq | heq)
        · exact absurd heq hcode
        · exact (hquote heq).elim
        · exact (hbackslash heq).elim
    case isFalse h => simp [h]
  all_goals decide

/-- Digits can be seen, to any base that has some. -/
theorem isHidden_of_mem_toDigits {base n : Nat} (hpos : 1 < base) (hle : base ≤ 16) {c : Char}
    (h : c ∈ Nat.toDigits base n) : isHidden c = false := by
  have hdigits : ∀ digit : Fin 16, isHidden (Nat.digitChar digit) = false := by decide
  induction n using Nat.strongRecOn with
  | ind n ih =>
    rw [Nat.toDigits_eq_if hpos] at h
    by_cases hsmall : n < base
    · rw [if_pos hsmall, List.mem_singleton] at h
      rw [h]
      exact hdigits ⟨n, by omega⟩
    · rw [if_neg hsmall, List.mem_append, List.mem_singleton] at h
      -- a digit of the quotient, or the last one
      rcases h with h | h
      · exact ih (n / base) (Nat.div_lt_self (by omega) hpos) h
      · have hlast : n % base < base := Nat.mod_lt n (by omega)
        rw [h]
        exact hdigits ⟨n % base, by omega⟩

/-- However a character is written, that can be seen. -/
theorem isHidden_of_mem_escape {c d : Char} (h : d ∈ escape c) : isHidden d = false := by
  unfold escape at h
  split at h
  case h_7 =>
    split at h
    case isTrue =>
      simp only [byCode, List.cons_append, List.mem_cons, List.mem_append, List.not_mem_nil,
        or_false] at h
      rcases h with rfl | rfl | rfl | h | rfl
      · rfl
      · rfl
      · rfl
      · exact isHidden_of_mem_toDigits (by decide) (by decide) h
      · rfl
    case isFalse hc =>
      rw [List.mem_singleton.mp h]
      simpa using hc
  all_goals
    simp only [List.mem_cons, List.not_mem_nil, or_false] at h
    rcases h with rfl | rfl <;> rfl

/-- Whatever is quoted, only characters that can be seen stand in the quoted text. -/
theorem isHidden_of_mem_encode {text : List Char} {c : Char} (h : c ∈ encode text) :
    isHidden c = false := by
  simp only [encode, List.cons_append, List.mem_cons, List.mem_append, List.mem_flatMap,
    List.not_mem_nil, or_false] at h
  rcases h with rfl | ⟨d, -, hd⟩ | rfl
  · rfl
  · exact isHidden_of_mem_escape hd
  · rfl

end Quoted

/-! ## Texts that come off the front -/

/-- What consists of one kind of character, and is followed by another kind, comes off the front of
a text in one way only. -/
theorem append_inj_of_stop {p : Char → Bool} {x y rest rest' : List Char}
    (hx : ∀ c ∈ x, p c = true) (hy : ∀ c ∈ y, p c = true)
    (hrest : ∀ c ∈ rest.head?, p c = false) (hrest' : ∀ c ∈ rest'.head?, p c = false)
    (h : x ++ rest = y ++ rest') : x = y ∧ rest = rest' := by
  -- it is what is taken as long as there are such characters
  have htake : ∀ {x rest : List Char}, (∀ c ∈ x, p c = true) → (∀ c ∈ rest.head?, p c = false) →
      (x ++ rest).takeWhile p = x := by
    intro x rest hx hrest
    rw [List.takeWhile_append_of_pos hx]
    cases rest with
    | nil => simp
    | cons c rest => simp [hrest c rfl]
  have heq : x = y := by
    rw [← htake hx hrest, h, htake hy hrest']
  rw [heq] at h
  exact ⟨heq, List.append_cancel_left h⟩

/-! ## Quoted text inside other text -/

/-- The first quoted text that stands in a text. -/
def firstQuoted? (text : String) : Option String :=
  (Quoted.decode? (text.toList.dropWhile (· ≠ '"'))).map fun read => String.ofList read.1

/-- What is quoted after a text without quotes is the first quoted text. -/
theorem firstQuoted?_append {before : String} (h : '"' ∉ before.toList) (text after : String) :
    firstQuoted? (before ++ quoted text ++ after) = some text := by
  have hdrop : (before ++ quoted text ++ after).toList.dropWhile (· ≠ '"') =
      Quoted.encode text.toList ++ after.toList := by
    rw [String.toList_append, String.toList_append, List.append_assoc,
      List.dropWhile_append_of_pos]
    · simp [quoted, Quoted.encode]
    · intro c hc
      have hne : c ≠ '"' := by
        rintro rfl
        exact h hc
      simpa using hne
  rw [firstQuoted?, hdrop, Quoted.decode?_encode]
  simp

end CallGate.Text
