import CallGate.Text.Quoted
import CallGate.Decimal.Layout

/-!
# Terms

The text in which a value shows its whole structure: names of types and fields, quoted strings,
numbers, lists and maps, on one line.

- `Term`: the structure to be written.
- `Term.numberLayout`: how decimals are written in terms.
- `Term.chars`, `Term.text`: the written form.
- `Term.ofSingle`, `Term.ofNat`, `Term.option`: terms of numbers and of optional terms.
-/

namespace CallGate

/-- What a value looks like when all its structure is written out. -/
inductive Term where
  /-- A bare word, such as a name or a number. -/
  | word (text : String)
  /-- A string between quotes. -/
  | quoted (text : String)
  /-- A name applied to one term. -/
  | applied (head : String) (argument : Term)
  /-- A name with named fields, of which there is at least one. -/
  | record (head : String) (fields : List (String × Term))
  /-- A list. -/
  | list (items : List Term)
  /-- A map from strings, in its own order. -/
  | map (entries : List (String × Term))

namespace Term

/-! ## Written form -/

mutual

/-- The written form of a term. -/
def chars : Term → List Char
  | .word text => text.toList
  | .quoted text => Text.Quoted.encode text.toList
  | .applied head argument => head.toList ++ '(' :: argument.chars ++ [')']
  | .record head fields => head.toList ++ [' ', '\x7b', ' '] ++ fieldChars fields ++ [' ', '\x7d']
  | .list items => '[' :: itemChars items ++ [']']
  | .map entries => '\x7b' :: entryChars entries ++ ['\x7d']

/-- The items of a list, separated by a comma and a blank. -/
def itemChars : List Term → List Char
  | [] => []
  | [item] => item.chars
  | item :: rest => item.chars ++ ',' :: ' ' :: itemChars rest

/-- The fields of a record: name, colon and term, separated like items. -/
def fieldChars : List (String × Term) → List Char
  | [] => []
  | [(name, term)] => name.toList ++ ':' :: ' ' :: term.chars
  | (name, term) :: rest =>
    name.toList ++ ':' :: ' ' :: term.chars ++ ',' :: ' ' :: fieldChars rest

/-- The entries of a map: quoted key, colon and term, separated like items. -/
def entryChars : List (String × Term) → List Char
  | [] => []
  | [(key, term)] => Text.Quoted.encode key.toList ++ ':' :: ' ' :: term.chars
  | (key, term) :: rest =>
    Text.Quoted.encode key.toList ++ ':' :: ' ' :: term.chars ++ ',' :: ' ' :: entryChars rest

end

/-- The written form of a term as a string. -/
def text (term : Term) : String :=
  String.ofList term.chars

/-! ## Numbers and options -/

/-- In terms a decimal is positional from ten-thousandths up to below `10 ^ 16`, an exponent has no
plus, and of two equally near decimals the one further from zero is written. -/
def numberLayout : Decimal.Layout where
  plainFrom := -4
  plainTo := 15
  plusSign := false
  halfway := .away

/-- The term of a natural number, in decimal. -/
def ofNat (n : Nat) : Term :=
  .word (String.ofList (Nat.toDigits 10 n))

/-- The term of a single-precision number. Not-a-number has no sign. -/
def ofSingle (x : Single) : Term :=
  match x.decimal? numberLayout.halfway, x with
  | some d, _ => .word (String.ofList (numberLayout.chars d))
  | none, .infinite true => .word "-inf"
  | none, .infinite false => .word "inf"
  | none, _ => .word "NaN"

/-- The term of what may be absent. -/
def option : Option Term → Term
  | none => .word "None"
  | some term => .applied "Some" term

end Term

end CallGate
