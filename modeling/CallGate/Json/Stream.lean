import CallGate.Json.Basic
import CallGate.Sink

/-!
# JSON as it goes

JSON text written to a sink while the data is walked through: in small writes, one for each token,
each character of a string and each indent. Every part is a writer, so that the walk breaks off at
the first write that is refused, however deep it is.

- `Json.streamNull`, `Json.streamNatural`, `Json.streamString`: values without parts.
- `Json.streamBracketed`: parts between brackets, on lines of their own and after commas.
- `Json.streamArray`, `Json.streamObject`: arrays of elements and objects of members, given as what
  writes them.
-/

namespace CallGate

namespace Json

open Sink (Writer)
open Sink.Writer

/-! ## Leaves -/

/-- Writes `null`. -/
def streamNull : Writer := put "null".toList

/-- Writes a natural number. -/
def streamNatural (n : Nat) : Writer := put (Nat.toDigits 10 n)

/-- Writes a string, each character on its own. -/
def streamString (text : String) : Writer :=
  sequence ((['"'] :: text.toList.map escape ++ [['"']]).map put)

/-! ## Arrays and objects -/

/-- Writes the start of a line, each indent on its own. -/
def streamLine (style : Style) (depth : Nat) : Writer :=
  match style with
  | .compact => done
  | .pretty indent => sequence ((['\n'] :: List.replicate depth indent.toList).map put)

/-- Writes the parts after the first, each on a line of its own after a comma. -/
def streamRest (style : Style) (depth : Nat) : List Writer → Writer
  | [] => done
  | part :: rest =>
    sequence [put [','], streamLine style depth, part, streamRest style depth rest]

/-- Writes parts between brackets, which stand at `depth`; the parts stand one level further in. -/
def streamBracketed (style : Style) (depth : Nat) (opening closing : Char) :
    List Writer → Writer
  | [] => sequence [put [opening], put [closing]]
  | first :: rest =>
    sequence [put [opening], streamLine style (depth + 1), first,
      streamRest style (depth + 1) rest, streamLine style depth, put [closing]]

/-- Writes an array. -/
def streamArray (style : Style) (depth : Nat) (elements : List Writer) : Writer :=
  streamBracketed style depth '[' ']' elements

/-- Writes a member of an object. -/
def streamMember (style : Style) (member : String × Writer) : Writer :=
  sequence [streamString member.1, put style.colon, member.2]

/-- Writes an object. -/
def streamObject (style : Style) (depth : Nat) (members : List (String × Writer)) : Writer :=
  streamBracketed style depth '\x7b' '\x7d' (members.map (streamMember style))

end Json

end CallGate
