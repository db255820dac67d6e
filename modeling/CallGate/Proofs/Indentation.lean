import CallGate.Manifest
import CallGate.Proofs.Scanner

/-!
# Indented texts are plain texts with insertions

Whether a JSON text is indented does not change its characters, but only what stands between some of
them. What that is can be told from the text without any indent, read from left to right: how many
brackets are open, whether a string literal is, and which character was the last one.

- `Json.Place`: a place in a text, and `Json.Place.next`, `Json.Place.after` the one after more of it.
- `Json.Place.inserted`: what is inserted at a place, before the character that follows.
- `Json.layOut`: a text with all insertions.
- `Json.LaidOut`: a text, its insertions, and the depth at which it ends. Texts that follow each other
  are put together by `LaidOut.cons` and `LaidOut.append`.
- `Json.laidOut_pieces`: the text of a value at any depth is laid out as the indented text is written.
- `Manifest.text_pretty_eq_layOut`: so is each manifest.
-/

namespace CallGate

namespace Json

/-! ## Places in a text -/

/-- Whether a place is in a string literal. -/
inductive Literal where
  | outside
  | inside
  /-- Inside, after a backslash. -/
  | escaped
  deriving DecidableEq

/-- A place in a text, by what stands before it. -/
structure Place where
  /-- How many brackets are open, not counting those in string literals. -/
  depth : Nat
  literal : Literal
  /-- The character before, if there is one. -/
  before : Option Char
  deriving DecidableEq

/-- An opening bracket. -/
def opens (c : Char) : Bool :=
  c = '[' || c = '\x7b'

/-- A closing bracket. -/
def closes (c : Char) : Bool :=
  c = ']' || c = '\x7d'

theorem closes_of_opens {c : Char} (h : opens c = true) : closes c = false := by
  simp only [opens, Bool.or_eq_true, decide_eq_true_eq] at h
  rcases h with rfl | rfl <;> rfl

namespace Place

/-- Before the first character. -/
def start : Place := ⟨0, .outside, none⟩

/-- The place after a character. -/
def next (place : Place) (c : Char) : Place where
  depth :=
    match place.literal with
    | .outside =>
      if opens c then place.depth + 1 else if closes c then place.depth - 1 else place.depth
    | _ => place.depth
  literal :=
    match place.literal with
    | .outside => if c = '"' then .inside else .outside
    | .inside => if c = '"' then .outside else if c = '\\' then .escaped else .inside
    | .escaped => .inside
  before := some c

/-- The place after a text. -/
def after (place : Place) (text : List Char) : Place :=
  text.foldl next place

/-- What is inserted at a place before the character that follows. Outside of string literals a line
starts after each opening bracket and each comma, and before each closing bracket, with an indent for
each bracket that is open there; but not between two brackets with nothing in them. After a colon
there is a blank. -/
def inserted (indent : String) (place : Place) (c : Char) : List Char :=
  let line (depth : Nat) := '\n' :: (List.replicate depth indent.toList).flatten
  if place.literal ≠ .outside then []
  else if closes c then if place.before.any opens then [] else line (place.depth - 1)
  else if place.before.any opens || place.before = some ',' then line place.depth
  else if place.before = some ':' then [' ']
  else []

end Place

/-- A text with what is inserted in it. -/
def layOut (indent : String) : Place → List Char → List Char
  | _, [] => []
  | place, c :: rest => place.inserted indent c ++ c :: layOut indent (place.next c) rest

-- An empty array stays as it is, and so does what looks like one in a string.
example : layOut "--" .start "[[],\"[,]\"]".toList = "[\n--[],\n--\"[,]\"\n]".toList := by
  decide

/-- A text is laid out from the left, and what comes later is laid out from the place reached. -/
theorem layOut_append (indent : String) (place : Place) (text rest : List Char) :
    layOut indent place (text ++ rest) =
      layOut indent place text ++ layOut indent (place.after text) rest := by
  induction text generalizing place with
  | nil => rfl
  | cons c text ih =>
    rw [List.cons_append, layOut, layOut, ih, List.append_assoc]
    rfl

namespace Place

/-! ## Outside of string literals -/

variable {place : Place} {depth : Nat} {c : Char}

/-- A place in or outside of a string literal, with a number of brackets open. -/
structure At (literal : Literal) (depth : Nat) (place : Place) : Prop where
  literal : place.literal = literal
  depth : place.depth = depth

/-- A place where nothing is inserted unless a bracket closes: no opening bracket, comma or colon
stands before it. -/
structure Ended (depth : Nat) (place : Place) : Prop extends At .outside depth place where
  opens : place.before.any opens = false
  comma : place.before ≠ some ','
  colon : place.before ≠ some ':'

/-- What is inserted before all but closing brackets. -/
def lead (indent : String) (place : Place) : List Char :=
  if place.before.any Json.opens || place.before = some ',' then
    Style.newline (.pretty indent) place.depth
  else if place.before = some ':' then [' ']
  else []

theorem ended_start : start.Ended 0 :=
  ⟨⟨rfl, rfl⟩, rfl, nofun, nofun⟩

/-- Outside of strings all but closing brackets are led by the same. -/
theorem inserted_of_outside (h : place.At .outside depth) (indent : String)
    (hc : closes c = false) : place.inserted indent c = place.lead indent := by
  rw [inserted, if_neg (not_not.mpr h.literal), if_neg (by rw [hc]; exact Bool.false_ne_true)]
  rfl

theorem Ended.lead (h : place.Ended depth) (indent : String) : place.lead indent = [] := by
  rw [Place.lead, h.opens, Bool.false_or, if_neg (by simpa using h.comma), if_neg h.colon]

/-- After a complete value nothing is inserted unless a bracket closes. -/
theorem Ended.inserted (h : place.Ended depth) (indent : String) (hc : closes c = false) :
    place.inserted indent c = [] := by
  rw [inserted_of_outside h.toAt indent hc, h.lead]

/-- A closing bracket after a value stands on its own line. -/
theorem Ended.inserted_closing (h : place.Ended (depth + 1)) (indent : String)
    (hc : closes c = true) : place.inserted indent c = Style.newline (.pretty indent) depth := by
  rw [Place.inserted, if_neg (not_not.mpr h.literal), if_pos hc, h.opens, if_neg Bool.false_ne_true,
    h.depth]
  rfl

/-- An opening bracket makes the place one deeper. -/
theorem At.next_opening (h : place.At .outside depth) (hc : opens c = true) :
    (place.next c).At .outside (depth + 1) := by
  have hquote : c ≠ '"' := by
    rintro rfl
    cases hc
  constructor <;> simp [next, h.literal, h.depth, hc, hquote]

/-- A closing one takes that back, and a value is complete. -/
theorem At.next_closing (h : place.At .outside (depth + 1)) (hc : closes c = true) :
    (place.next c).Ended depth := by
  simp only [closes, Bool.or_eq_true, decide_eq_true_eq] at hc
  rcases hc with rfl | rfl <;>
    exact ⟨⟨by simp [next, h.literal], by simp [next, h.literal, h.depth, Json.opens, closes]⟩,
      rfl, nofun, nofun⟩

/-- Neither a comma nor a colon changes the depth. -/
theorem At.next_separator (h : place.At .outside depth) (hc : c = ',' ∨ c = ':') :
    (place.next c).At .outside depth := by
  rcases hc with rfl | rfl <;>
    exact ⟨by simp [next, h.literal], by simp [next, h.literal, h.depth, Json.opens, closes]⟩

/-- Nor does a character of a word, which ends there or goes on. -/
theorem At.next_word (h : place.At .outside depth) (hc : isWordChar c = true) :
    closes c = false ∧ (place.next c).Ended depth := by
  -- no mark is a character of a word
  have hne : ∀ mark, isWordChar mark = false → c ≠ mark := by
    rintro mark hmark rfl
    rw [hc] at hmark
    cases hmark
  have hopens : opens c = false := by
    simp [Json.opens, hne '[' rfl, hne '\x7b' rfl]
  have hcloses : closes c = false := by
    simp [closes, hne ']' rfl, hne '\x7d' rfl]
  refine ⟨hcloses, ⟨?_, ?_⟩, hopens, ?_, ?_⟩
  · simp [next, h.literal, hne '"' rfl]
  · simp [next, h.literal, h.depth, hopens, hcloses]
  · simpa [next] using hne ',' rfl
  · simpa [next] using hne ':' rfl

/-! ## In string literals -/

/-- Nothing is inserted in a string. -/
theorem inserted_of_literal {literal : Literal} (h : place.At literal depth)
    (hliteral : literal ≠ .outside) (indent : String) (c : Char) : place.inserted indent c = [] := by
  rw [← h.literal] at hliteral
  rw [inserted, if_pos hliteral]

theorem At.next_quote (h : place.At .outside depth) : (place.next '"').At .inside depth := by
  constructor <;> simp [next, h.literal, h.depth, Json.opens, closes]

/-- In a string a backslash makes the next character an escaped one. -/
theorem At.next_backslash (h : place.At .inside depth) : (place.next '\\').At .escaped depth := by
  constructor <;> simp [next, h.literal, h.depth]

theorem At.next_escaped (h : place.At .escaped depth) (c : Char) :
    (place.next c).At .inside depth := by
  constructor <;> simp [next, h.literal, h.depth]

theorem At.next_plain (h : place.At .inside depth) (hquote : c ≠ '"') (hbackslash : c ≠ '\\') :
    (place.next c).At .inside depth := by
  constructor <;> simp [next, h.literal, h.depth, hquote, hbackslash]

/-- A quote that is not escaped ends the string, which is a complete value. -/
theorem At.next_unquote (h : place.At .inside depth) : (place.next '"').Ended depth :=
  ⟨⟨by simp [next, h.literal], by simp [next, h.literal, h.depth]⟩, rfl, nofun, nofun⟩

end Place

/-! ## Texts that are laid out -/

open Place

/-- A text from a place on, what it is with all insertions, and the place after it. -/
structure LaidOut (indent : String) (place : Place) (text laid : List Char)
    (ends : Place → Prop) : Prop where
  eq : layOut indent place text = laid
  ends : ends (place.after text)

variable {indent : String} {place : Place} {depth : Nat} {text laid rest laid' : List Char}
  {ends ends' : Place → Prop}

theorem laidOut_nil (h : ends place) : LaidOut indent place [] [] ends :=
  ⟨rfl, h⟩

theorem LaidOut.cons {c : Char} (h : LaidOut indent (place.next c) text laid ends) :
    LaidOut indent place (c :: text) (place.inserted indent c ++ c :: laid) ends where
  eq := by rw [layOut, h.eq]
  ends := h.ends

/-- A character before which nothing is inserted. -/
theorem LaidOut.cons_bare {c : Char} (hbare : place.inserted indent c = [])
    (h : LaidOut indent (place.next c) text laid ends) :
    LaidOut indent place (c :: text) (c :: laid) ends := by
  have hcons := h.cons
  rwa [hbare] at hcons

/-- A text is laid out up to its end, and a further one from there on. -/
theorem LaidOut.append (h : LaidOut indent place text laid ends)
    (h' : ∀ next, ends next → LaidOut indent next rest laid' ends') :
    LaidOut indent place (text ++ rest) (laid ++ laid') ends' where
  eq := by rw [layOut_append, h.eq, (h' _ h.ends).eq]
  ends := by
    rw [after, List.foldl_append]
    exact (h' _ h.ends).ends

/-- What is inserted before the first text stays in front. -/
theorem LaidOut.append_lead {lead : List Char}
    (h : LaidOut indent place text (lead ++ laid) ends)
    (h' : ∀ next, ends next → LaidOut indent next rest laid' ends') :
    LaidOut indent place (text ++ rest) (lead ++ (laid ++ laid')) ends' := by
  rw [← List.append_assoc]
  exact h.append h'

/-! ## Words and strings -/

variable (indent)

/-- Nothing is inserted in a word, but perhaps something before it. -/
theorem laidOut_word (h : place.At .outside depth) {word : List Char} (hne : word ≠ [])
    (hword : ∀ c ∈ word, isWordChar c) :
    LaidOut indent place word (place.lead indent ++ word) (Ended depth) := by
  -- in the middle of a word the place is that after a complete value already
  have hbare : ∀ {place : Place} {word : List Char}, place.Ended depth →
      (∀ c ∈ word, isWordChar c) → LaidOut indent place word word (Ended depth) := by
    intro place word hended hword
    induction word generalizing place with
    | nil => exact laidOut_nil hended
    | cons c others ih =>
      obtain ⟨hc, hothers⟩ := List.forall_mem_cons.mp hword
      obtain ⟨hcloses, hnext⟩ := hended.toAt.next_word hc
      exact .cons_bare (hended.inserted indent hcloses) (ih hnext hothers)
  cases word with
  | nil => exact absurd rfl hne
  | cons c others =>
    obtain ⟨hc, hothers⟩ := List.forall_mem_cons.mp hword
    obtain ⟨hcloses, hnext⟩ := h.next_word hc
    rw [← inserted_of_outside h indent hcloses]
    exact (hbare hnext hothers).cons

/-- What stands for one character in a string neither ends the string nor is anything inserted in
it. -/
theorem laidOut_escape (h : place.At .inside depth) (c : Char) :
    LaidOut indent place (escape c) (escape c) (At .inside depth) := by
  -- one character that needs no backslash
  have hplain : ∀ {place : Place} {c : Char} {text : List Char}, place.At .inside depth →
      c ≠ '"' → c ≠ '\\' → (∀ next, At .inside depth next →
        LaidOut indent next text text (At .inside depth)) →
      LaidOut indent place (c :: text) (c :: text) (At .inside depth) := by
    intro place c text hplace hquote hbackslash hrest
    exact .cons_bare (inserted_of_literal hplace nofun indent c)
      (hrest _ (hplace.next_plain hquote hbackslash))
  -- a backslash, with the character after it
  have hescaped : ∀ {c : Char} {text : List Char}, (∀ next, At .inside depth next →
        LaidOut indent next text text (At .inside depth)) →
      LaidOut indent place ('\\' :: c :: text) ('\\' :: c :: text) (At .inside depth) := by
    intro c text hrest
    have hafter := h.next_backslash
    exact .cons_bare (inserted_of_literal h nofun indent _)
      (.cons_bare (inserted_of_literal hafter nofun indent c) (hrest _ (hafter.next_escaped c)))
  have hnil : ∀ next, At .inside depth next → LaidOut indent next [] [] (At .inside depth) :=
    fun _ => laidOut_nil
  unfold escape
  split
  case h_8 hquote hbackslash _ _ _ _ _ =>
    split
    -- a code is a backslash, one more character, and digits, none of which is a quote
    case isTrue hcontrol =>
      have hdigit : ∀ n < 16, Nat.digitChar n ≠ '"' ∧ Nat.digitChar n ≠ '\\' := by decide
      obtain ⟨hhigh, hhigh'⟩ := hdigit (c.toNat / 16) (by omega)
      obtain ⟨hlow, hlow'⟩ := hdigit (c.toNat % 16) (by omega)
      rw [byCode_of_control hcontrol]
      refine hescaped fun first hfirst => ?_
      refine hplain hfirst (by decide) (by decide) fun second hsecond => ?_
      refine hplain hsecond (by decide) (by decide) fun third hthird => ?_
      refine hplain hthird hhigh hhigh' fun fourth hfourth => ?_
      exact hplain hfourth hlow hlow' hnil
    case isFalse => exact hplain h hquote hbackslash hnil
  all_goals exact hescaped hnil

/-- Nothing is inserted in a string, but perhaps something before it. -/
theorem laidOut_string (h : place.At .outside depth) (string : String) :
    LaidOut indent place (stringChars string) (place.lead indent ++ stringChars string)
      (Ended depth) := by
  -- by induction on the characters, all of which leave the place in the string
  have hchars : ∀ (chars : List Char) {place : Place}, place.At .inside depth →
      LaidOut indent place (chars.flatMap escape) (chars.flatMap escape) (At .inside depth) := by
    intro chars place hplace
    induction chars generalizing place with
    | nil => exact laidOut_nil hplace
    | cons c others ih =>
      rw [List.flatMap_cons]
      exact (laidOut_escape indent hplace c).append fun _ hnext => ih hnext
  have hclose : ∀ next, At .inside depth next → LaidOut indent next ['"'] ['"'] (Ended depth) :=
    fun next hnext => .cons_bare (inserted_of_literal hnext nofun indent _)
      (laidOut_nil hnext.next_unquote)
  have htext := ((hchars string.toList h.next_quote).append hclose).cons
  rwa [inserted_of_outside h indent rfl] at htext

/-! ## Marks -/

/-- What follows an opening bracket starts a line, one level deeper. -/
theorem laidOut_opening {c : Char} (h : place.At .outside depth) (hc : opens c = true)
    (hnext : ∀ next, At .outside (depth + 1) next →
      LaidOut indent next text (next.lead indent ++ laid) ends) :
    LaidOut indent place (c :: text)
      (place.lead indent ++ c :: (Style.newline (.pretty indent) (depth + 1) ++ laid)) ends := by
  have hopened := h.next_opening hc
  -- the place after an opening bracket is led by a line of the new depth
  have hlead : (place.next c).lead indent = Style.newline (.pretty indent) (depth + 1) := by
    rw [lead, hopened.depth]
    exact if_pos (by simp [next, hc])
  have htext := (hnext _ hopened).cons
  rwa [inserted_of_outside h indent (closes_of_opens hc), hlead] at htext

/-- A closing bracket after a value stands on its own line. -/
theorem laidOut_closing {c : Char} (h : place.Ended (depth + 1)) (hc : closes c = true) :
    LaidOut indent place [c] (Style.newline (.pretty indent) depth ++ [c]) (Ended depth) := by
  rw [← h.inserted_closing indent hc]
  exact (laidOut_nil (h.toAt.next_closing hc)).cons

/-- Brackets with nothing in them stay as they are. -/
theorem laidOut_empty {c c' : Char} (h : place.At .outside depth) (hc : opens c = true)
    (hc' : closes c' = true) :
    LaidOut indent place [c, c'] (place.lead indent ++ [c, c']) (Ended depth) := by
  have hopened := h.next_opening hc
  -- with the opening bracket right before it, no line is started for the closing one
  have hbare : (place.next c).inserted indent c' = [] := by
    rw [inserted, if_neg (not_not.mpr hopened.literal), if_pos hc']
    exact if_pos (by simp [next, hc])
  have htext := (LaidOut.cons_bare hbare (laidOut_nil (hopened.next_closing hc'))).cons
  rwa [inserted_of_outside h indent (closes_of_opens hc)] at htext

/-- What follows a comma starts a line. -/
theorem laidOut_comma (h : place.Ended depth)
    (hnext : ∀ next, At .outside depth next →
      LaidOut indent next text (next.lead indent ++ laid) ends) :
    LaidOut indent place (',' :: text) (',' :: (Style.newline (.pretty indent) depth ++ laid))
      ends := by
  have hafter := h.toAt.next_separator (.inl rfl)
  have hlead : (place.next ',').lead indent = Style.newline (.pretty indent) depth := by
    rw [lead, hafter.depth]
    exact if_pos (by simp [next])
  have htext := LaidOut.cons_bare (h.inserted indent rfl) (hnext _ hafter)
  rwa [hlead] at htext

/-- What follows a key stands after a colon and a blank. -/
theorem laidOut_key (h : place.At .outside depth) (key : String)
    (hnext : ∀ next, At .outside depth next →
      LaidOut indent next text (next.lead indent ++ laid) ends) :
    LaidOut indent place (stringChars key ++ ':' :: text)
      (place.lead indent ++ (stringChars key ++ ':' :: ' ' :: laid)) ends := by
  refine (laidOut_string indent h key).append_lead fun middle hmiddle => ?_
  have hafter := hmiddle.toAt.next_separator (.inr rfl)
  -- after a colon there is a blank and no line
  have hlead : (middle.next ':').lead indent = [' '] := by
    rw [lead, if_neg (by simp [next, opens])]
    exact if_pos rfl
  have htext := LaidOut.cons_bare (hmiddle.inserted indent rfl) (hnext _ hafter)
  rwa [hlead] at htext

/-! ## Values -/

mutual

/-- From the text of a value at some depth comes the indented text of the value at this depth,
after what is inserted before the value. -/
theorem laidOut_pieces {depth : Nat} : (json : Json) → {place : Place} →
    place.At .outside depth →
    LaidOut indent place (pieces .compact depth json).flatten
      (place.lead indent ++ (pieces (.pretty indent) depth json).flatten) (Ended depth)
  | .null, _, h => by
    have hword : "null".toList.all isWordChar := by decide
    simpa [pieces] using laidOut_word indent h (by decide) (List.all_eq_true.mp hword)
  | .natural n, _, h => by
    simpa [pieces] using laidOut_word indent h Nat.toDigits_ne_nil
      fun c hc => isWordChar_of_isNumeralChar (isNumeralChar_of_mem_toDigits hc)
  | .decimal d, _, h => by
    simpa [pieces] using laidOut_word indent h (layout_chars_ne_nil numberLayout d)
      fun c hc => isWordChar_of_isNumeralChar (isNumeralChar_of_mem_chars hc)
  | .string text, _, h => by simpa [pieces] using laidOut_string indent h text
  | .array [], _, h => laidOut_empty indent h rfl rfl
  | .array (element :: others), _, h => by
    have harray := laidOut_opening indent h (c := '[') rfl fun _ hopened =>
      (laidOut_pieces element hopened).append_lead fun _ hended =>
        (laidOut_elementPieces others hended).append fun _ hended =>
          laidOut_closing indent (c := ']') hended rfl
    simpa [pieces, Style.newline] using harray
  | .object [], _, h => laidOut_empty indent h rfl rfl
  | .object ((key, value) :: others), _, h => by
    have hobject := laidOut_opening indent h (c := '\x7b') rfl fun _ hopened =>
      laidOut_key indent hopened key fun _ hkey =>
        (laidOut_pieces value hkey).append_lead fun _ hended =>
          (laidOut_memberPieces others hended).append fun _ hended =>
            laidOut_closing indent (c := '\x7d') hended rfl
    simpa [pieces, Style.newline, Style.colon] using hobject

/-- So it is with the elements after the first, each behind its comma. -/
theorem laidOut_elementPieces {depth : Nat} : (elements : List Json) → {place : Place} →
    place.Ended depth →
    LaidOut indent place (elementPieces .compact depth elements).flatten
      (elementPieces (.pretty indent) depth elements).flatten (Ended depth)
  | [], _, h => laidOut_nil h
  | element :: others, _, h => by
    have helement := laidOut_comma indent h fun _ hcomma =>
      (laidOut_pieces element hcomma).append_lead fun _ hended =>
        laidOut_elementPieces others hended
    simpa [elementPieces, Style.newline] using helement

theorem laidOut_memberPieces {depth : Nat} : (members : List (String × Json)) → {place : Place} →
    place.Ended depth →
    LaidOut indent place (memberPieces .compact depth members).flatten
      (memberPieces (.pretty indent) depth members).flatten (Ended depth)
  | [], _, h => laidOut_nil h
  | (key, value) :: others, _, h => by
    have hmember := laidOut_comma indent h fun _ hcomma =>
      laidOut_key indent hcomma key fun _ hkey =>
        (laidOut_pieces value hkey).append_lead fun _ hended =>
          laidOut_memberPieces others hended
    simpa [memberPieces, Style.newline, Style.colon] using hmember

end

/-- The indented text of a value is its text without any indent, laid out from the first character
on. All brackets and strings are closed after it. -/
theorem laidOut_chars (json : Json) :
    LaidOut indent .start (json.chars .compact) (json.chars (.pretty indent)) (Ended 0) := by
  have htext := laidOut_pieces indent json ended_start.toAt
  rwa [ended_start.lead, List.nil_append] at htext

/-- The text of an array ends with its bracket. -/
theorem getLast?_chars_array (style : Style) (elements : List Json) :
    ((array elements).chars style).getLast? = some ']' := by
  cases elements with
  | nil => rfl
  | cons element others =>
    simp only [chars, pieces, List.flatten_append, List.flatten_cons, List.flatten_nil,
      List.append_nil, ← List.append_assoc]
    exact List.getLast?_concat

end Json

namespace Manifest

open Json

/-- The indented text of a manifest is its text without any indent, laid out. That text has as many
closing brackets as opening ones and closes its strings, and nothing is inserted after its last
bracket. -/
theorem text_pretty_eq_layOut (indent : String) (signatures : List Signature) :
    ((ofSignatures signatures).text (.pretty indent)).toList =
      layOut indent .start ((ofSignatures signatures).text .compact).toList ∧
    (Place.start.after ((ofSignatures signatures).text .compact).toList).depth = 0 ∧
    (Place.start.after ((ofSignatures signatures).text .compact).toList).literal = .outside ∧
    ((ofSignatures signatures).text .compact).toList.getLast? = some ']' ∧
    ((ofSignatures signatures).text (.pretty indent)).toList.getLast? = some ']' := by
  have hlaid := laidOut_chars indent (ofSignatures signatures)
  simp only [Json.text, String.toList_ofList]
  exact ⟨hlaid.eq.symm, hlaid.ends.depth, hlaid.ends.literal, getLast?_chars_array _ _,
    getLast?_chars_array _ _⟩

end Manifest

end CallGate
