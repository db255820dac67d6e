import CallGate.Decimal.Layout

/-!
# JSON

- `Json`: a JSON value of the kinds that are written here. Members of an object keep their order.
- `Json.numberLayout`: how decimals are written in JSON.
- `Json.ofSingle`: a single-precision number as JSON; what is not finite has no number there.
- `Json.Style`: text without blanks, or with a line for every element and member.
- `Json.pieces`: the text as the pieces that are written one after the other.
- `Json.text`: the whole text.
-/

namespace CallGate

/-- A JSON value. -/
inductive Json where
  | null
  | natural (n : Nat)
  | decimal (d : Decimal)
  | string (text : String)
  | array (elements : List Json)
  | object (members : List (String × Json))

namespace Json

/-! ## Leaves -/

/-- In JSON a decimal is positional from millionths up to below `10 ^ 13`, an exponent has a sign,
and of two equally near decimals the one with the even last digit is written. -/
def numberLayout : Decimal.Layout where
  plainFrom := -6
  plainTo := 12
  plusSign := true
  halfway := .even

/-- A single-precision number, `null` if it is not finite. -/
def ofSingle (x : Single) : Json :=
  match x.decimal? numberLayout.halfway with
  | some d => .decimal d
  | none => .null

/-- A control character by its code, in four hexadecimal digits. -/
def byCode (c : Char) : List Char :=
  let digits := Nat.toDigits 16 c.toNat
  '\\' :: 'u' :: List.replicate (4 - digits.length) '0' ++ digits

/-- The written form of a character inside a JSON string. Only what must be escaped is. -/
def escape (c : Char) : List Char :=
  match c with
  | '"' => ['\\', '"']
  | '\\' => ['\\', '\\']
  | '\x08' => ['\\', 'b']
  | '\t' => ['\\', 't']
  | '\n' => ['\\', 'n']
  | '\x0c' => ['\\', 'f']
  | '\r' => ['\\', 'r']
  | _ => if c.toNat < 0x20 then byCode c else [c]

/-- A string between quotes. -/
def stringChars (text : String) : List Char :=
  '"' :: text.toList.flatMap escape ++ ['"']

/-! ## Layout -/

/-- How the parts of a JSON text are set apart. -/
inductive Style where
  /-- Without any blank. -/
  | compact
  /-- A line for every element and member, with `indent` once for each level around it. -/
  | pretty (indent : String)

/-- What stands before an element or member at a depth, or before a closing bracket. -/
def Style.newline : Style → (depth : Nat) → List Char
  | .compact, _ => []
  | .pretty indent, depth => '\n' :: (List.replicate depth indent.toList).flatten

/-- What stands between a key and its value. -/
def Style.colon : Style → List Char
  | .compact => [':']
  | .pretty _ => [':', ' ']

mutual

/-- The text of a value inside `depth` levels, piece by piece. -/
def pieces (style : Style) (depth : Nat) : Json → List (List Char)
  | .null => ["null".toList]
  | .natural n => [Nat.toDigits 10 n]
  | .decimal d => [numberLayout.chars d]
  | .string text => [stringChars text]
  | .array [] => [['['], [']']]
  | .array (element :: rest) =>
    ['['] :: style.newline (depth + 1) :: pieces style (depth + 1) element ++
      elementPieces style (depth + 1) rest ++ [style.newline depth, [']']]
  | .object [] => [['\x7b'], ['\x7d']]
  | .object ((key, value) :: rest) =>
    ['\x7b'] :: style.newline (depth + 1) :: stringChars key :: style.colon ::
      pieces style (depth + 1) value ++
      memberPieces style (depth + 1) rest ++ [style.newline depth, ['\x7d']]

/-- The elements after the first, each after a comma. -/
def elementPieces (style : Style) (depth : Nat) : List Json → List (List Char)
  | [] => []
  | element :: rest =>
    [','] :: style.newline depth :: pieces style depth element ++ elementPieces style depth rest

/-- The members after the first, each after a comma. -/
def memberPieces (style : Style) (depth : Nat) : List (String × Json) → List (List Char)
  | [] => []
  | (key, value) :: rest =>
    [','] :: style.newline depth :: stringChars key :: style.colon ::
      pieces style depth value ++ memberPieces style depth rest

end

/-- The whole text of a value. -/
def chars (style : Style) (json : Json) : List Char :=
  (pieces style 0 json).flatten

/-- The whole text of a value as a string. -/
def text (style : Style) (json : Json) : String :=
  String.ofList (chars style json)

end Json

end CallGate
