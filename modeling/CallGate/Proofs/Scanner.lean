import Mathlib.Data.List.Basic
import CallGate.Json.Basic

/-!
# The tokens of a JSON text

A JSON text is read character by character into marks, strings and words. Blanks between these are
passed over, so that the layout of a text is gone here, and what stands in a string stays whole.

- `Json.Token`: the tokens. A word is a literal name or a number, which is not told apart here.
- `Json.Mode`, `Json.step`, `Json.scan`: where the scanner is in a text, one character, and a text.
- `Json.joinUnits?`: the characters of a string, of which some are given by two codes.
- `Json.tokens`: the tokens of a value.
- `Json.scan_string`, `Json.scan_word`: the scanner reads a string and a number as they are written.
- `Json.Style.Blank`: a style that sets tokens apart by blanks.
- `Json.scan_chars`: from the text of a value in such a style, whichever it is, the scanner reads
  the tokens of the value.
-/

namespace CallGate.Json

/-! ## Characters -/

/-- What may stand between tokens: blank, tab and the ends of lines. -/
def isBlank (c : Char) : Bool :=
  c = ' ' || c = '\t' || c = '\n' || c = '\r'

/-- A token of a JSON text. -/
inductive Token where
  | openArray
  | closeArray
  | openObject
  | closeObject
  | comma
  | colon
  /-- A string, by what it stands for. -/
  | string (text : String)
  /-- A literal name or a number, as it is written. -/
  | word (text : List Char)
  deriving DecidableEq

/-- The token that a single character is. -/
def mark? : Char → Option Token
  | '[' => some .openArray
  | ']' => some .closeArray
  | '\x7b' => some .openObject
  | '\x7d' => some .closeObject
  | ',' => some .comma
  | ':' => some .colon
  | _ => none

/-- What a word consists of: all but blanks, marks and quotes. -/
def isWordChar (c : Char) : Bool :=
  !isBlank c && (mark? c).isNone && c ≠ '"'

/-! ## Inside strings -/

/-- What a letter stands for after a backslash. -/
def meantBy? : Char → Option Char
  | '"' => some '"'
  | '\\' => some '\\'
  | '/' => some '/'
  | 'b' => some '\x08'
  | 'f' => some '\x0c'
  | 'n' => some '\n'
  | 'r' => some '\r'
  | 't' => some '\t'
  | _ => none

/-- The value of a hexadecimal digit. -/
def hexDigit? (c : Char) : Option Nat :=
  if '0' ≤ c ∧ c ≤ '9' then some (c.toNat - 48)
  else if 'a' ≤ c ∧ c ≤ 'f' then some (c.toNat - 87)
  else if 'A' ≤ c ∧ c ≤ 'F' then some (c.toNat - 55)
  else none

/-- The characters that codes stand for. A code from `0xD800` on and below `0xDC00` is the first
half of a character, of which the second half has to follow. -/
def joinUnits? : List Nat → Option (List Char)
  | [] => some []
  | unit :: rest =>
    if 0xD800 ≤ unit ∧ unit < 0xDC00 then
      match rest with
      | [] => none
      | second :: rest =>
        if 0xDC00 ≤ second ∧ second < 0xE000 then
          (joinUnits? rest).map
            (Char.ofNat (0x10000 + 0x400 * (unit - 0xD800) + (second - 0xDC00)) :: ·)
        else none
    else if 0xDC00 ≤ unit ∧ unit < 0xE000 then none
    else (joinUnits? rest).map (Char.ofNat unit :: ·)

/-! ## Scanning -/

/-- Where the scanner is. What has been read of a token stands last first. -/
inductive Mode where
  | between
  | word (read : List Char)
  /-- In a string, of which the codes of some characters have been read. -/
  | string (read : List Nat)
  /-- After a backslash in a string. -/
  | escape (read : List Nat)
  /-- In a code of four digits in a string, of which `missing` are still to come. -/
  | code (read : List Nat) (missing : Nat) (value : Nat)

/-- A character with which nothing is continued: the token that it is, and the mode after it. -/
def start (c : Char) : List Token × Mode :=
  if isBlank c then ([], .between)
  else
    match mark? c with
    | some mark => ([mark], .between)
    | none => ([], if c = '"' then .string [] else .word [c])

/-- One character: the tokens that end with it, and the mode after it. -/
def step : Mode → Char → Option (List Token × Mode)
  | .between, c => some (start c)
  | .word read, c =>
    if isWordChar c then some ([], .word (c :: read))
    else some (.word read.reverse :: (start c).1, (start c).2)
  | .string read, c =>
    if c = '"' then
      (joinUnits? read.reverse).map fun chars => ([.string (String.ofList chars)], .between)
    else if c = '\\' then some ([], .escape read)
    else if c.toNat < 0x20 then none
    else some ([], .string (c.toNat :: read))
  | .escape read, c =>
    if c = 'u' then some ([], .code read 4 0)
    else (meantBy? c).map fun meant => ([], .string (meant.toNat :: read))
  | .code read missing value, c =>
    (hexDigit? c).map fun digit =>
      if missing = 1 then ([], .string ((16 * value + digit) :: read))
      else ([], .code read (missing - 1) (16 * value + digit))

/-- The tokens that end where a text ends. A string has to be closed. -/
def stop : Mode → Option (List Token)
  | .between => some []
  | .word read => some [.word read.reverse]
  | _ => none

/-- The tokens of a text, of which the first may have been begun. -/
def scan : Mode → List Char → Option (List Token)
  | mode, [] => stop mode
  | mode, c :: rest => do
    let (tokens, next) ← step mode c
    let others ← scan next rest
    return tokens ++ others

/-! ## The tokens of a value -/

mutual

/-- The tokens of a value. -/
def tokens : Json → List Token
  | .null => [.word "null".toList]
  | .natural n => [.word (Nat.toDigits 10 n)]
  | .decimal d => [.word (numberLayout.chars d)]
  | .string text => [.string text]
  | .array [] => [.openArray, .closeArray]
  | .array (element :: rest) =>
    .openArray :: tokens element ++ elementTokens rest ++ [.closeArray]
  | .object [] => [.openObject, .closeObject]
  | .object ((key, value) :: rest) =>
    .openObject :: .string key :: .colon :: tokens value ++ memberTokens rest ++ [.closeObject]

/-- The tokens of the elements after the first. -/
def elementTokens : List Json → List Token
  | [] => []
  | element :: rest => .comma :: tokens element ++ elementTokens rest

/-- The tokens of the members after the first. -/
def memberTokens : List (String × Json) → List Token
  | [] => []
  | (key, value) :: rest => .comma :: .string key :: .colon :: tokens value ++ memberTokens rest

end

/-! ## Scanning marks, blanks and words -/

theorem scan_cons (mode : Mode) (c : Char) (rest : List Char) :
    scan mode (c :: rest) =
      (step mode c).bind fun r => (scan r.2 rest).map (r.1 ++ ·) := by
  rw [scan]
  cases step mode c with
  | none => rfl
  | some r => cases h : scan r.2 rest <;> simp [h]

/-- A step that ends no token. -/
theorem scan_silent {mode next : Mode} {c : Char} (h : step mode c = some ([], next))
    (rest : List Char) : scan mode (c :: rest) = scan next rest := by
  rw [scan_cons, h]
  simp

/-- A mark is a token wherever no other one has been begun. -/
theorem scan_mark {c : Char} {mark : Token} (h : mark? c = some mark) (rest : List Char) :
    scan .between (c :: rest) = (scan .between rest).map (mark :: ·) := by
  -- none of the four blanks is a mark
  have hblank : isBlank c = false := by
    by_contra hnot
    have : mark? c = none := by
      simp only [isBlank, Bool.not_eq_false, Bool.or_eq_true, decide_eq_true_eq] at hnot
      rcases hnot with ((rfl | rfl) | rfl) | rfl <;> rfl
    rw [this] at h
    cases h
  rw [scan_cons]
  simp [step, start, hblank, h]

theorem scan_blank {c : Char} (h : isBlank c) (rest : List Char) :
    scan .between (c :: rest) = scan .between rest :=
  scan_silent (by simp [step, start, h]) rest

theorem scan_blanks {blanks : List Char} (h : ∀ c ∈ blanks, isBlank c) (rest : List Char) :
    scan .between (blanks ++ rest) = scan .between rest := by
  induction blanks with
  | nil => rfl
  | cons c others ih =>
    obtain ⟨hc, hothers⟩ := List.forall_mem_cons.mp h
    rw [List.cons_append, scan_blank hc, ih hothers]

/-- A text does not continue a word. -/
def Apart (rest : List Char) : Prop :=
  ∀ c ∈ rest.head?, isWordChar c = false

theorem apart_nil : Apart [] := by
  rintro c ⟨⟩

/-- It is enough that the first character cannot stand in a word. -/
theorem apart_cons {c : Char} (h : isWordChar c = false) (rest : List Char) :
    Apart (c :: rest) := by
  rintro _ ⟨⟩
  exact h

/-- A word ends where the text does or goes on with something else. -/
theorem scan_word_apart (read : List Char) {rest : List Char} (h : Apart rest) :
    scan (.word read) rest = (scan .between rest).map (.word read.reverse :: ·) := by
  cases rest with
  | nil => rfl
  | cons c rest =>
    have hc : isWordChar c = false := h c rfl
    rw [scan_cons, scan_cons]
    simp [step, hc, Function.comp_def]

/-- The scanner gathers the characters of a word, last first. -/
theorem scan_word_append {word : List Char} (hword : ∀ c ∈ word, isWordChar c) (read : List Char)
    (rest : List Char) :
    scan (.word read) (word ++ rest) = scan (.word (word.reverse ++ read)) rest := by
  induction word generalizing read with
  | nil => rfl
  | cons c others ih =>
    obtain ⟨hc, hothers⟩ := List.forall_mem_cons.mp hword
    have hstep : step (.word read) c = some ([], .word (c :: read)) := by simp [step, hc]
    rw [List.cons_append, scan_silent hstep, ih hothers]
    simp

/-- A word is one token, if what follows does not continue it. -/
theorem scan_word {word : List Char} (hne : word ≠ []) (hword : ∀ c ∈ word, isWordChar c)
    {rest : List Char} (h : Apart rest) :
    scan .between (word ++ rest) = (scan .between rest).map (.word word :: ·) := by
  cases word with
  | nil => exact absurd rfl hne
  | cons c others =>
    obtain ⟨hc, hothers⟩ := List.forall_mem_cons.mp hword
    -- its first character is no blank, mark or quote, so it begins a word
    simp only [isWordChar, Bool.and_eq_true, Bool.not_eq_true', Option.isNone_iff_eq_none,
      ne_eq, decide_not, decide_eq_false_iff_not] at hc
    have hstart : step .between c = some ([], .word [c]) := by
      simp [step, start, hc.1.1, hc.1.2, hc.2]
    rw [List.cons_append, scan_silent hstart, scan_word_append hothers, scan_word_apart _ h]
    simp

/-! ## Scanning strings -/

/-- No character is half of another. -/
theorem joinUnits?_map_toNat (chars : List Char) :
    joinUnits? (chars.map Char.toNat) = some chars := by
  induction chars with
  | nil => rfl
  | cons c rest ih =>
    -- characters are outside the range of halves
    have hvalid : c.toNat < 0xD800 ∨ 0xDFFF < c.toNat ∧ c.toNat < 0x110000 := c.valid
    rw [List.map_cons, joinUnits?.eq_def]
    dsimp only
    rw [if_neg (by omega), if_neg (by omega), ih, Char.ofNat_toNat]
    rfl

theorem scan_backslash (read : List Nat) (rest : List Char) :
    scan (.string read) ('\\' :: rest) = scan (.escape read) rest :=
  scan_silent rfl rest

/-- A character that stands for another after a backslash. -/
theorem scan_meantBy {c meant : Char} (h : meantBy? c = some meant) (read : List Nat)
    (rest : List Char) :
    scan (.string read) ('\\' :: c :: rest) = scan (.string (meant.toNat :: read)) rest := by
  have hcode : c ≠ 'u' := by
    rintro rfl
    cases h
  have hstep : step (.escape read) c = some ([], .string (meant.toNat :: read)) := by
    simp [step, hcode, h]
  rw [scan_backslash, scan_silent hstep]

/-- A control character has two digits, and zeros before them. -/
theorem byCode_of_control {c : Char} (h : c.toNat < 0x20) :
    byCode c =
      ['\\', 'u', '0', '0', Nat.digitChar (c.toNat / 16), Nat.digitChar (c.toNat % 16)] := by
  have hdigits : ∀ n : Fin 0x20,
      List.replicate (4 - (Nat.toDigits 16 n).length) '0' ++ Nat.toDigits 16 n =
        ['0', '0', Nat.digitChar (n / 16), Nat.digitChar (n % 16)] := by decide
  have := hdigits ⟨c.toNat, h⟩
  simp only [byCode, List.cons_append, this]

theorem hexDigit?_digitChar {digit : Nat} (h : digit < 16) :
    hexDigit? (Nat.digitChar digit) = some digit := by
  have : ∀ digit : Fin 16, hexDigit? (Nat.digitChar digit) = some digit := by decide
  exact this ⟨digit, h⟩

/-- One digit of a code, but not the last one. -/
theorem scan_digit {c : Char} {digit : Nat} (h : hexDigit? c = some digit) (read : List Nat)
    (missing value : Nat) (rest : List Char) :
    scan (.code read (missing + 2) value) (c :: rest) =
      scan (.code read (missing + 1) (16 * value + digit)) rest :=
  scan_silent (by simp [step, h]) rest

/-- The last digit of a code. -/
theorem scan_last_digit {c : Char} {digit : Nat} (h : hexDigit? c = some digit) (read : List Nat)
    (value : Nat) (rest : List Char) :
    scan (.code read 1 value) (c :: rest) = scan (.string ((16 * value + digit) :: read)) rest :=
  scan_silent (by simp [step, h]) rest

/-- A control character is read back from its code of four digits. -/
theorem scan_byCode {c : Char} (h : c.toNat < 0x20) (read : List Nat) (rest : List Char) :
    scan (.string read) (byCode c ++ rest) = scan (.string (c.toNat :: read)) rest := by
  have hzero : hexDigit? '0' = some 0 := by decide
  have hhigh := hexDigit?_digitChar (show c.toNat / 16 < 16 by omega)
  have hlow := hexDigit?_digitChar (show c.toNat % 16 < 16 by omega)
  -- the two zeros add nothing, and the last two digits are those of the character
  have hvalue : 16 * (16 * (16 * (16 * 0 + 0) + 0) + c.toNat / 16) + c.toNat % 16 = c.toNat := by
    omega
  have hcode : step (.escape read) 'u' = some ([], .code read 4 0) := rfl
  rw [byCode_of_control h]
  simp only [List.cons_append, List.nil_append]
  rw [scan_backslash, scan_silent hcode, scan_digit hzero, scan_digit hzero, scan_digit hhigh,
    scan_last_digit hlow, hvalue]

/-- A character comes out of a string as it went in, however it is written. -/
theorem scan_escape (c : Char) (read : List Nat) (rest : List Char) :
    scan (.string read) (escape c ++ rest) = scan (.string (c.toNat :: read)) rest := by
  unfold escape
  split
  -- no short form: by its code if it is a control character, or as it is
  case h_8 hquote hbackslash _ _ _ _ _ =>
    split
    case isTrue h => exact scan_byCode h read rest
    case isFalse h =>
      have hstep : step (.string read) c = some ([], .string (c.toNat :: read)) := by
        rw [step, if_neg hquote, if_neg hbackslash, if_neg h]
      exact scan_silent hstep rest
  all_goals exact scan_meantBy rfl read rest

/-- So do all characters of a text, one after the other. -/
theorem scan_flatMap_escape (chars : List Char) (read : List Nat) (rest : List Char) :
    scan (.string read) (chars.flatMap escape ++ rest) =
      scan (.string ((chars.map Char.toNat).reverse ++ read)) rest := by
  induction chars generalizing read with
  | nil => rfl
  | cons c others ih =>
    rw [List.flatMap_cons, List.append_assoc, scan_escape, ih]
    simp

/-- A string is one token, whatever stands in it. -/
theorem scan_string (text : String) (rest : List Char) :
    scan .between (stringChars text ++ rest) =
      (scan .between rest).map (.string text :: ·) := by
  have hquote : step .between '"' = some ([], .string []) := rfl
  rw [stringChars, List.cons_append, List.cons_append, scan_silent hquote, List.append_assoc,
    scan_flatMap_escape, List.append_nil, List.cons_append, List.nil_append, scan_cons]
  simp [step, joinUnits?_map_toNat]

-- Other writers give a character by its code, or by the codes of its halves.
example : scan .between "\"\\u0041\\ud83d\\ude00\"".toList = some [.string "A😀"] := by
  decide +kernel

/-! ## Numbers are words -/

/-- What numbers are written with. -/
def isNumeralChar (c : Char) : Bool :=
  c.isDigit || c = '.' || c = 'e' || c = '-' || c = '+'

theorem isWordChar_of_isNumeralChar {c : Char} (h : isNumeralChar c) : isWordChar c := by
  have hdigits : ∀ n : Fin 10, isWordChar (Char.ofNat (48 + n)) := by decide
  simp only [isNumeralChar, Bool.or_eq_true, decide_eq_true_eq] at h
  rcases h with (((h | rfl) | rfl) | rfl) | rfl
  · have hc : 48 ≤ c.toNat ∧ c.toNat ≤ 57 := by
      simpa [Char.isDigit, UInt32.le_iff_toNat_le] using h
    have := hdigits ⟨c.toNat - 48, by omega⟩
    rwa [show 48 + (c.toNat - 48) = c.toNat by omega, Char.ofNat_toNat] at this
  all_goals rfl

/-- Natural numbers are written with these. -/
theorem isNumeralChar_of_mem_toDigits {n : Nat} {c : Char} (h : c ∈ Nat.toDigits 10 n) :
    isNumeralChar c := by
  have hdigit := Nat.isDigit_of_mem_toDigits (by decide) (by decide) h
  simp [isNumeralChar, hdigit]

/-- Both sides of the point are cut from the same digits, which are filled up with zeros. -/
theorem isNumeralChar_of_mem_plainChars {d : Decimal} {c : Char} (h : c ∈ d.plainChars) :
    isNumeralChar c := by
  have hzeros : ∀ n : Nat, c ∈ List.replicate n '0' → isNumeralChar c := by
    intro n hmem
    rw [(List.mem_replicate.mp hmem).2]
    rfl
  have hpadded : ∀ fill final : Nat,
      c ∈ List.replicate fill '0' ++ (Nat.toDigits 10 d.significand ++ List.replicate final '0') →
        isNumeralChar c := by
    intro fill final hmem
    rcases List.mem_append.mp hmem with hfill | hmem
    · exact hzeros fill hfill
    · rcases List.mem_append.mp hmem with hdigits | hfinal
      · exact isNumeralChar_of_mem_toDigits hdigits
      · exact hzeros final hfinal
  rcases List.mem_append.mp h with hwhole | hfraction
  · exact hpadded _ _ (List.mem_of_mem_take hwhole)
  · rcases List.mem_cons.mp hfraction with rfl | hfraction
    · rfl
    · split at hfraction
      · exact hzeros 1 hfraction
      · exact hpadded _ _ (List.mem_of_mem_drop hfraction)

/-- A first digit, perhaps a point and more digits, the letter, a sign and the digits of the
exponent. -/
theorem isNumeralChar_of_mem_scientificChars {plusSign : Bool} {d : Decimal} {c : Char}
    (h : c ∈ d.scientificChars plusSign) : isNumeralChar c := by
  rcases List.mem_append.mp h with hdigits | hexponent
  · rcases List.mem_append.mp hdigits with hfirst | hrest
    · exact isNumeralChar_of_mem_toDigits (List.mem_of_mem_take hfirst)
    · split at hrest
      · cases hrest
      · rcases List.mem_cons.mp hrest with rfl | hrest
        · rfl
        · exact isNumeralChar_of_mem_toDigits (List.mem_of_mem_drop hrest)
  · rcases List.mem_cons.mp hexponent with rfl | hexponent
    · rfl
    · rcases List.mem_append.mp hexponent with hsign | hpower
      · have : c = '-' ∨ c = '+' := by
          split_ifs at hsign <;> simp_all
        rcases this with rfl | rfl <;> rfl
      · exact isNumeralChar_of_mem_toDigits hpower

/-- So are decimals in either written form. -/
theorem isNumeralChar_of_mem_chars {layout : Decimal.Layout} {d : Decimal} {c : Char}
    (h : c ∈ layout.chars d) : isNumeralChar c := by
  rcases List.mem_append.mp h with hsign | hmagnitude
  · have : c = '-' := by
      split_ifs at hsign <;> simp_all
    rw [this]
    rfl
  · split at hmagnitude
    · exact isNumeralChar_of_mem_plainChars hmagnitude
    · exact isNumeralChar_of_mem_scientificChars hmagnitude

theorem layout_chars_ne_nil (layout : Decimal.Layout) (d : Decimal) : layout.chars d ≠ [] := by
  unfold Decimal.Layout.chars Decimal.plainChars Decimal.scientificChars
  split_ifs <;> simp

/-- A number is one word. -/
theorem scan_numeral {numeral rest : List Char} (hne : numeral ≠ [])
    (hchars : ∀ c ∈ numeral, isNumeralChar c) (hrest : Apart rest) :
    scan .between (numeral ++ rest) = (scan .between rest).map (.word numeral :: ·) :=
  scan_word hne (fun c hc => isWordChar_of_isNumeralChar (hchars c hc)) hrest

/-! ## Scanning a value -/

/-- A style whose blanks are blanks to a scanner. -/
def Style.Blank : Style → Prop
  | .compact => True
  | .pretty indent => indent.toList.all isBlank

instance : DecidablePred Style.Blank
  | .compact => inferInstanceAs (Decidable True)
  | .pretty indent => inferInstanceAs (Decidable (indent.toList.all isBlank))

theorem Style.Blank.newline {style : Style} (h : style.Blank) (depth : Nat) :
    ∀ c ∈ style.newline depth, isBlank c := by
  intro c hmem
  cases style with
  | compact => cases hmem
  | pretty indent =>
    rcases List.mem_cons.mp hmem with rfl | hmem
    · rfl
    · obtain ⟨copy, hcopy, hc⟩ := List.mem_flatten.mp hmem
      rw [List.eq_of_mem_replicate hcopy] at hc
      exact List.all_eq_true.mp h c hc

theorem scan_newline {style : Style} (h : style.Blank) (depth : Nat) (rest : List Char) :
    scan .between (style.newline depth ++ rest) = scan .between rest :=
  scan_blanks (h.newline depth) rest

/-- A colon is one token, with the blank after it or without. -/
theorem scan_colon (style : Style) (rest : List Char) :
    scan .between (style.colon ++ rest) = (scan .between rest).map (.colon :: ·) := by
  cases style with
  | compact => exact scan_mark rfl rest
  | pretty indent =>
    rw [show (Style.pretty indent).colon ++ rest = ':' :: ' ' :: rest from rfl,
      scan_mark rfl, scan_blank rfl]

/-- What follows a value on a new line does not continue a word. -/
theorem apart_newline (style : Style) (depth : Nat) {rest : List Char} (h : Apart rest) :
    Apart (style.newline depth ++ rest) := by
  cases style with
  | compact => exact h
  | pretty indent => exact apart_cons rfl _

/-- Nor does a further element, which begins with a comma. -/
theorem apart_elementPieces (style : Style) (depth : Nat) (elements : List Json)
    {rest : List Char} (h : Apart rest) :
    Apart ((elementPieces style depth elements).flatten ++ rest) := by
  cases elements with
  | nil => exact h
  | cons element others => exact apart_cons rfl _

theorem apart_memberPieces (style : Style) (depth : Nat) (members : List (String × Json))
    {rest : List Char} (h : Apart rest) :
    Apart ((memberPieces style depth members).flatten ++ rest) := by
  cases members with
  | nil => exact h
  | cons member others => exact apart_cons rfl _

mutual

/-- The tokens of a value are read from its text, whatever comes after. -/
theorem scan_pieces {style : Style} (hblank : style.Blank) (depth : Nat) {rest : List Char}
    (hrest : Apart rest) : (json : Json) →
    scan .between ((pieces style depth json).flatten ++ rest) =
      (scan .between rest).map (json.tokens ++ ·)
  | .null => by
    have hword : "null".toList.all isWordChar := by decide
    simpa [pieces, tokens] using scan_word (by decide) (List.all_eq_true.mp hword) hrest
  | .natural n => by
    simpa [pieces, tokens] using
      scan_numeral Nat.toDigits_ne_nil (fun c hc => isNumeralChar_of_mem_toDigits hc) hrest
  | .decimal d => by
    simpa [pieces, tokens] using
      scan_numeral (layout_chars_ne_nil numberLayout d)
        (fun c hc => isNumeralChar_of_mem_chars hc) hrest
  | .string text => by simpa [pieces, tokens] using scan_string text rest
  | .array [] => by
    simp only [pieces, tokens, List.flatten_cons, List.flatten_nil, List.cons_append,
      List.nil_append]
    rw [scan_mark rfl, scan_mark rfl]
    simp [Function.comp_def]
  | .array (element :: others) => by
    -- What follows an element is a comma, the start of a line or the closing bracket.
    have hclose : Apart (style.newline depth ++ ']' :: rest) :=
      apart_newline style depth (apart_cons rfl rest)
    have hthen := apart_elementPieces style (depth + 1) others hclose
    simp only [pieces, tokens, List.flatten_cons, List.flatten_append, List.flatten_nil,
      List.append_assoc, List.cons_append, List.nil_append]
    rw [scan_mark rfl, scan_newline hblank, scan_pieces hblank (depth + 1) hthen,
      scan_elementPieces hblank (depth + 1) hclose, scan_newline hblank, scan_mark rfl]
    simp [Function.comp_def]
  | .object [] => by
    simp only [pieces, tokens, List.flatten_cons, List.flatten_nil, List.cons_append,
      List.nil_append]
    rw [scan_mark rfl, scan_mark rfl]
    simp [Function.comp_def]
  | .object ((key, value) :: others) => by
    have hclose : Apart (style.newline depth ++ '\x7d' :: rest) :=
      apart_newline style depth (apart_cons rfl rest)
    have hthen := apart_memberPieces style (depth + 1) others hclose
    simp only [pieces, tokens, List.flatten_cons, List.flatten_append, List.flatten_nil,
      List.append_assoc, List.cons_append, List.nil_append]
    rw [scan_mark rfl, scan_newline hblank, scan_string, scan_colon,
      scan_pieces hblank (depth + 1) hthen, scan_memberPieces hblank (depth + 1) hclose,
      scan_newline hblank, scan_mark rfl]
    simp [Function.comp_def]

/-- So it is with the elements after the first, each behind its comma. -/
theorem scan_elementPieces {style : Style} (hblank : style.Blank) (depth : Nat)
    {rest : List Char} (hrest : Apart rest) : (elements : List Json) →
    scan .between ((elementPieces style depth elements).flatten ++ rest) =
      (scan .between rest).map (elementTokens elements ++ ·)
  | [] => by simp [elementPieces, elementTokens]
  | element :: others => by
    have hthen := apart_elementPieces style depth others hrest
    simp only [elementPieces, elementTokens, List.flatten_cons, List.flatten_append,
      List.append_assoc, List.cons_append, List.nil_append]
    rw [scan_mark rfl, scan_newline hblank, scan_pieces hblank depth hthen,
      scan_elementPieces hblank depth hrest]
    simp [Function.comp_def]

theorem scan_memberPieces {style : Style} (hblank : style.Blank) (depth : Nat)
    {rest : List Char} (hrest : Apart rest) : (members : List (String × Json)) →
    scan .between ((memberPieces style depth members).flatten ++ rest) =
      (scan .between rest).map (memberTokens members ++ ·)
  | [] => by simp [memberPieces, memberTokens]
  | (key, value) :: others => by
    have hthen := apart_memberPieces style depth others hrest
    simp only [memberPieces, memberTokens, List.flatten_cons, List.flatten_append,
      List.append_assoc, List.cons_append, List.nil_append]
    rw [scan_mark rfl, scan_newline hblank, scan_string, scan_colon,
      scan_pieces hblank depth hthen, scan_memberPieces hblank depth hrest]
    simp [Function.comp_def]

end

/-- The layout of a text is not seen in its tokens. -/
theorem scan_chars {style : Style} (hblank : style.Blank) (json : Json) :
    scan .between (json.chars style) = some json.tokens := by
  have h := scan_pieces hblank 0 apart_nil json
  simpa [chars, scan, stop] using h

end CallGate.Json
