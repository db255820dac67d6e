import Mathlib.Data.List.Forall2
import CallGate.Manifest

/-!
# Writing as it goes

A manifest is written while its entries are walked through, in many small writes, and the walk
breaks off at the first write that is refused. What a sink then holds is what it would hold if the
whole text had been cut off at its limit.

- `Sink.Writer.Writes`: a writer does to every sink what one write of a text does to it.
- `Json.stream`: a JSON value written as it goes, by the writers of its parts.
- `Json.writes_stream`: that has the effect of one write of the text of the value.
- `Manifest.writeParameter_eq`, `Manifest.writeSignature_eq`, `Manifest.writeSignatures_eq`: what
  writes an entry writes the value of the entry.
- `Manifest.CutOff`: the outcome of writing bytes to a disk with room for a number of them.
- `Manifest.write_cutOff`: that is the outcome for the manifest, whatever the cut into writes.
-/

namespace CallGate

namespace Sink

namespace Writer

/-! ## The effect of a writer -/

/-- A writer does to each sink what writing a text at once does. -/
def Writes (writer : Writer) (text : List Char) : Prop :=
  ∀ sink, writer sink = sink.write (Text.utf8 text)

theorem writes_put (text : List Char) : (put text).Writes text :=
  fun _ => rfl

/-- Nothing is written by no piece, which is taken everywhere. -/
theorem writes_done : done.Writes [] := by
  intro sink
  exact sink.writeAll_eq_write []

/-- One writer after another has the effect of both texts. If the first is refused, so are both texts
together, at the same byte. -/
theorem Writes.andThen {first second : Writer} {text text' : List Char} (h : first.Writes text)
    (h' : second.Writes text') : (first.andThen second).Writes (text ++ text') := by
  intro sink
  rw [Text.utf8_append, write_append]
  simp only [Writer.andThen, h sink]
  -- after a refusal the second writer does not start, and both texts are refused at the same byte
  rcases sink.write (Text.utf8 text) with ⟨next, reason | _⟩
  · rfl
  · exact h' next

/-- Writers in a row have the effect of their texts in a row. -/
theorem writes_sequence {writers : List Writer} {texts : List (List Char)}
    (h : List.Forall₂ Writes writers texts) : (sequence writers).Writes texts.flatten := by
  induction h with
  | nil => exact writes_done
  | cons hfirst _ ih => exact hfirst.andThen ih

/-- Pieces written one by one are their text. -/
theorem writes_map_put (pieces : List (List Char)) :
    (sequence (pieces.map put)).Writes pieces.flatten := by
  refine writes_sequence ?_
  rw [List.forall₂_map_left_iff]
  exact List.forall₂_same.mpr fun piece _ => writes_put piece

end Writer

end Sink

/-! ## JSON values as they are written -/

namespace Json

open Sink Sink.Writer

mutual

/-- Writes a value inside `depth` levels. -/
def stream (style : Style) (depth : Nat) : Json → Writer
  | .null => streamNull
  | .natural n => streamNatural n
  | .decimal d => put (numberLayout.chars d)
  | .string text => streamString text
  | .array elements => streamArray style depth (elementStreams style (depth + 1) elements)
  | .object members => streamObject style depth (memberStreams style (depth + 1) members)

/-- What writes the elements of an array. -/
def elementStreams (style : Style) (depth : Nat) : List Json → List Writer
  | [] => []
  | element :: rest => stream style depth element :: elementStreams style depth rest

/-- The keys of an object with what writes their values. -/
def memberStreams (style : Style) (depth : Nat) : List (String × Json) → List (String × Writer)
  | [] => []
  | (key, value) :: rest => (key, stream style depth value) :: memberStreams style depth rest

end

theorem elementStreams_eq_map (style : Style) (depth : Nat) (elements : List Json) :
    elementStreams style depth elements = elements.map (stream style depth) := by
  induction elements with
  | nil => rfl
  | cons element rest ih => rw [elementStreams, ih, List.map_cons]

/-- The start of a line is written copy by copy of the indent. -/
theorem writes_streamLine (style : Style) (depth : Nat) :
    (streamLine style depth).Writes (style.newline depth) := by
  cases style with
  | compact => exact writes_done
  | pretty indent => exact writes_map_put (['\n'] :: List.replicate depth indent.toList)

/-- A string is written character by character, between quotes. -/
theorem writes_streamString (text : String) : (streamString text).Writes (stringChars text) := by
  have h := writes_map_put (['"'] :: text.toList.map escape ++ [['"']])
  -- the pieces between the quotes are the escaped characters, one after the other
  rwa [List.flatten_append, List.flatten_cons, ← List.flatMap_def] at h

/-- A member has the effect of its key, the colon and the text of its value. -/
theorem writes_streamMember (style : Style) (key : String) {value : Writer} {text : List Char}
    (h : value.Writes text) :
    (streamMember style (key, value)).Writes (stringChars key ++ style.colon ++ text) := by
  have hmember := writes_sequence
    (.cons (writes_streamString key) (.cons (writes_put style.colon) (.cons h .nil)))
  simpa [streamMember] using hmember

/-- Parts between brackets have the effect of their texts between brackets. -/
theorem writes_streamBracketed (style : Style) (depth : Nat) (opening closing : Char)
    {first : Writer} {rest : List Writer} {text text' : List Char} (h : first.Writes text)
    (h' : (streamRest style (depth + 1) rest).Writes text') :
    (streamBracketed style depth opening closing (first :: rest)).Writes
      (opening :: style.newline (depth + 1) ++ text ++ text' ++ style.newline depth ++
        [closing]) := by
  have hsequence := writes_sequence (.cons (writes_put [opening])
    (.cons (writes_streamLine style (depth + 1)) (.cons h (.cons h'
      (.cons (writes_streamLine style depth) (.cons (writes_put [closing]) .nil))))))
  simpa [streamBracketed] using hsequence

/-- A further part has the effect of its text on a line of its own. -/
theorem writes_streamRest_cons (style : Style) (depth : Nat) {part : Writer} {rest : List Writer}
    {text text' : List Char} (h : part.Writes text)
    (h' : (streamRest style depth rest).Writes text') :
    (streamRest style depth (part :: rest)).Writes
      (',' :: style.newline depth ++ text ++ text') := by
  have hsequence := writes_sequence (.cons (writes_put [','])
    (.cons (writes_streamLine style depth) (.cons h (.cons h' .nil))))
  simpa [streamRest] using hsequence

mutual

/-- The walk through a value has the effect of one write, at every depth. -/
theorem writes_stream (style : Style) (depth : Nat) :
    (json : Json) → (stream style depth json).Writes (pieces style depth json).flatten
  | .null => by simpa [stream, streamNull, pieces] using writes_put "null".toList
  | .natural n => by
    simpa [stream, streamNatural, pieces] using writes_put (Nat.toDigits 10 n)
  | .decimal d => by simpa [stream, pieces] using writes_put (numberLayout.chars d)
  | .string text => by simpa [stream, pieces] using writes_streamString text
  | .array [] => writes_map_put [['['], [']']]
  | .array (element :: rest) => by
    have h := writes_streamBracketed style depth '[' ']' (writes_stream style (depth + 1) element)
      (writes_elementStreams style (depth + 1) rest)
    simpa [stream, streamArray, elementStreams, pieces] using h
  | .object [] => writes_map_put [['\x7b'], ['\x7d']]
  | .object ((key, value) :: rest) => by
    have h := writes_streamBracketed style depth '\x7b' '\x7d'
      (writes_streamMember style key (writes_stream style (depth + 1) value))
      (writes_memberStreams style (depth + 1) rest)
    simpa [stream, streamObject, memberStreams, pieces] using h

/-- So have the elements after the first, each behind a comma. -/
theorem writes_elementStreams (style : Style) (depth : Nat) :
    (elements : List Json) → (streamRest style depth (elementStreams style depth elements)).Writes
      (elementPieces style depth elements).flatten
  | [] => writes_done
  | element :: rest => by
    have h := writes_streamRest_cons style depth (writes_stream style depth element)
      (writes_elementStreams style depth rest)
    simpa [elementStreams, elementPieces] using h

theorem writes_memberStreams (style : Style) (depth : Nat) :
    (members : List (String × Json)) →
      (streamRest style depth ((memberStreams style depth members).map (streamMember style))).Writes
        (memberPieces style depth members).flatten
  | [] => writes_done
  | (key, value) :: rest => by
    have h := writes_streamRest_cons style depth
      (writes_streamMember style key (writes_stream style depth value))
      (writes_memberStreams style depth rest)
    simpa [memberStreams, memberPieces] using h

end

end Json

/-! ## Entries as they are written -/

namespace Manifest

open Json

/-- What writes the entry of a parameter writes its value, key by key. -/
theorem writeParameter_eq (style : Style) (depth : Nat) (parameter : Parameter) :
    writeParameter style depth parameter = stream style depth (ofParameter parameter) := by
  simp only [writeParameter, ofParameter, stream, memberStreams]

theorem writeParameters_eq (style : Style) (depth : Nat) (parameters : List Parameter) :
    writeParameters style depth parameters =
      stream style depth (.array (parameters.map ofParameter)) := by
  have hentry : writeParameter style (depth + 1) = stream style (depth + 1) ∘ ofParameter :=
    funext (writeParameter_eq style (depth + 1))
  rw [writeParameters, stream, elementStreams_eq_map, List.map_map, hentry]

/-- A receiver is written as its kind, or as null if there is none. -/
theorem writeReceiver_eq (style : Style) (depth : Nat) (receiver : Option Kind) :
    writeReceiver receiver = stream style depth (ofReceiver receiver) := by
  cases receiver <;> simp only [writeReceiver, ofReceiver, stream]

/-- What writes the entry of an export writes its value, with those of its parameters. -/
theorem writeSignature_eq (style : Style) (depth : Nat) (signature : Signature) :
    writeSignature style depth signature = stream style depth (ofSignature signature) := by
  rw [writeSignature, writeParameters_eq, writeReceiver_eq style (depth + 1)]
  simp only [ofSignature, stream, memberStreams]

/-- What writes a table of exports writes the value of its manifest. -/
theorem writeSignatures_eq (style : Style) (signatures : List Signature) :
    writeSignatures style signatures = stream style 0 (ofSignatures signatures) := by
  -- every export is written one level deep, so the writers of the entries are those of their values
  have hentry : writeSignature style 1 = stream style 1 ∘ ofSignature :=
    funext (writeSignature_eq style 1)
  rw [writeSignatures, ofSignatures, stream, elementStreams_eq_map, List.map_map, hentry]

end Manifest

/-! ## The manifest -/

/-- The bytes of a string. -/
def Text.bytes (text : String) : List UInt8 :=
  text.toByteArray.data.toList

theorem Text.bytes_ofList (text : List Char) : bytes (String.ofList text) = utf8 text := by
  simp [bytes, utf8, List.utf8Encode]

namespace Manifest

/-- Writes the value of the catalogue's manifest as it goes, where there is room for `limit`
bytes. -/
def stream (style : Json.Style) (limit : Nat) : Except Fault Unit × Sink :=
  ended (catalogue.stream style 0 (.disk (some limit)))

/-- The outcome of writing bytes where there is room for `limit`: as many as there is room for are
taken, and it is a success exactly if these are all. -/
structure CutOff (bytes : List UInt8) (limit : Nat) (outcome : Except Fault Unit × Sink) :
    Prop where
  taken : outcome.2.taken.toList = bytes.take (min limit bytes.length)
  ok_iff : outcome.1 = .ok () ↔ bytes.length ≤ limit
  fault : limit < bytes.length → outcome.1 = .error (.unwritable "disk full")

/-- One write is cut off where the room ends. -/
theorem cutOff_write (bytes : List UInt8) (limit : Nat) :
    CutOff bytes limit (ended (Sink.write (.disk (some limit)) bytes)) := by
  have htaken : (Sink.write (.disk (some limit)) bytes).1.taken.toList =
      bytes.take (min limit bytes.length) := by
    rw [Sink.toList_write, Nat.min_comm]
    rfl
  by_cases hle : bytes.length ≤ limit
  · have hroom : (Sink.disk (some limit)).accepts bytes.length = bytes.length :=
      Nat.min_eq_left hle
    -- there is room for all of it
    have hok : (ended (Sink.write (.disk (some limit)) bytes)).1 = .ok () := by
      rw [ended, (Sink.write_complete_iff _ _).mpr hroom]
      rfl
    exact ⟨htaken, iff_of_true hok hle, fun hlt => absurd hlt (Nat.not_lt.mpr hle)⟩
  · have hroom : (Sink.disk (some limit)).accepts bytes.length ≠ bytes.length := by
      show min bytes.length limit ≠ bytes.length
      omega
    -- the reason is that of the disk, and it is reported as it is
    have hfault : (ended (Sink.write (.disk (some limit)) bytes)).1 =
        .error (.unwritable "disk full") := by
      rw [ended, Sink.write_refused hroom]
      rfl
    exact ⟨htaken, iff_of_false (by rw [hfault]; exact nofun) hle, fun _ => hfault⟩

/-- Any pieces of the bytes are cut off like one write of all. -/
theorem cutOff_writeAll {pieces : List (List UInt8)} {bytes : List UInt8}
    (h : pieces.flatten = bytes) (limit : Nat) :
    CutOff bytes limit (ended (Sink.writeAll (.disk (some limit)) pieces)) := by
  rw [Sink.writeAll_eq_write, h]
  exact cutOff_write bytes limit

/-- The walk through a value is cut off like its text. -/
theorem cutOff_stream (style : Json.Style) (json : Json) (limit : Nat) :
    CutOff (Text.bytes (json.text style)) limit
      (ended (json.stream style 0 (.disk (some limit)))) := by
  have hbytes : Text.bytes (json.text style) = Text.utf8 (json.chars style) :=
    Text.bytes_ofList _
  rw [hbytes, Json.writes_stream style 0 json]
  exact cutOff_write _ limit

/-- A manifest that is written where there is room for `limit` bytes is cut off after these, and the
writing fails exactly if it is longer. This is so for the writes of its entries one after the other,
for those of the walk through its value, and for any other cut of the text into writes. -/
theorem write_cutOff (style : Json.Style) (limit : Nat) :
    CutOff (Text.bytes (catalogue.text style)) limit (write style (some limit)) ∧
    CutOff (Text.bytes (catalogue.text style)) limit (stream style limit) ∧
    ∀ pieces : List (List UInt8), pieces.flatten = Text.bytes (catalogue.text style) →
      CutOff (Text.bytes (catalogue.text style)) limit
        (ended (Sink.writeAll (.disk (some limit)) pieces)) := by
  refine ⟨?_, cutOff_stream style catalogue limit, fun pieces h => cutOff_writeAll h limit⟩
  -- the entries are written one by one, which is the walk through the value
  rw [write, writeSignatures_eq]
  exact cutOff_stream style catalogue limit

/-- The third byte is the first of the two that an indent of one letter has. Byte by byte nothing
else is taken than in larger pieces. -/
theorem write_cutOff_bytewise :
    ((Text.bytes (catalogue.text (.pretty "é"))).map fun byte => [byte]).flatten =
      Text.bytes (catalogue.text (.pretty "é")) ∧
    (write (.pretty "é") (some 3)).1 = .error (.unwritable "disk full") ∧
    (write (.pretty "é") (some 3)).2.taken.toList = [0x5B, 0x0A, 0xC3] ∧
    (ended (Sink.writeAll (.disk (some 3))
      ((Text.bytes (catalogue.text (.pretty "é"))).map fun byte => [byte]))).2.taken.toList =
        [0x5B, 0x0A, 0xC3] := by
  have hbytes : Text.bytes (catalogue.text (.pretty "é")) =
      Text.utf8 (catalogue.chars (.pretty "é")) := Text.bytes_ofList _
  have hlong : 3 < (Text.bytes (catalogue.text (.pretty "é"))).length := by
    have hfour : ((Text.utf8 (catalogue.chars (.pretty "é"))).take 4).length = 4 := by decide
    rw [List.length_take] at hfour
    rw [hbytes]
    omega
  have htaken : (Text.bytes (catalogue.text (.pretty "é"))).take
      (min 3 (Text.bytes (catalogue.text (.pretty "é"))).length) = [0x5B, 0x0A, 0xC3] := by
    rw [Nat.min_eq_left (Nat.le_of_lt hlong), hbytes]
    decide
  have hflatten (bytes : List UInt8) : (bytes.map fun byte => [byte]).flatten = bytes := by
    rw [← List.flatMap_def]
    exact List.flatMap_singleton' bytes
  obtain ⟨hwrite, -, hpieces⟩ := write_cutOff (.pretty "é") 3
  exact ⟨hflatten _, hwrite.fault hlong, hwrite.taken.trans htaken,
    (hpieces _ (hflatten _)).taken.trans htaken⟩

end Manifest

end CallGate
