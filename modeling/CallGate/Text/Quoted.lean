import CallGate.Text.Hidden

/-!
# Quoted text

A text between quotes on one line, in which every character can be seen: quotes and backslashes
follow a backslash, the common controls have a letter, and other hidden characters are written by
their code.

- `Text.Quoted.escape`: the written form of one character.
- `Text.Quoted.encode`: the quoted form of a text.
- `Text.quoted`: the same on strings.
-/

namespace CallGate.Text

/-- A character by its code, in hexadecimal between braces. -/
def Quoted.byCode (c : Char) : List Char :=
  '\\' :: 'u' :: '\x7b' :: Nat.toDigits 16 c.toNat ++ ['\x7d']

/-- The written form of a character inside quotes. -/
def Quoted.escape (c : Char) : List Char :=
  match c with
  | '"' => ['\\', '"']
  | '\\' => ['\\', '\\']
  | '\x00' => ['\\', '0']
  | '\t' => ['\\', 't']
  | '\r' => ['\\', 'r']
  | '\n' => ['\\', 'n']
  | _ => if isHidden c then byCode c else [c]

/-- The quoted form of a text. -/
def Quoted.encode (text : List Char) : List Char :=
  '"' :: text.flatMap escape ++ ['"']

/-- The quoted form of a string. -/
def quoted (text : String) : String :=
  String.ofList (Quoted.encode text.toList)

end CallGate.Text
