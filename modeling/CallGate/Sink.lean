/-!
# Sinks of limited room

A sink takes bytes until its room is used up. A text is written to it piece by piece, and the first
piece that does not fit ends the writing, after as much of it as there was room for.

- `Text.utf8`: the bytes of a text.
- `Sink`, `Sink.disk`: the sink, which knows why it refuses what it has no room for.
- `Sink.write`, `Sink.writeAll`: one piece, and pieces up to the first failure.
- `Sink.Writer`: something that writes to a sink and comes to an end or to the first refusal. Of
  writers one after the other none starts after a refusal (`Writer.andThen`, `Writer.sequence`).
- `Sink.text`: what has been taken, read as text.
- `Sink.writeAll_eq_write`: it does not matter how a text is cut into pieces.
- `Sink.toList_write`, `Sink.write_complete_iff`: as much of a text is taken as there is room for,
  and the writing is complete if that is all.
-/

namespace CallGate

/-- The bytes of a text in UTF-8. -/
def Text.utf8 (text : List Char) : List UInt8 :=
  text.flatMap String.utf8EncodeChar

theorem Text.utf8_append (xs ys : List Char) : utf8 (xs ++ ys) = utf8 xs ++ utf8 ys :=
  List.flatMap_append

/-- A sink of bytes. -/
structure Sink where
  /-- How many more bytes it takes, if there is a limit. -/
  room : Option Nat
  /-- Why it refuses a byte that there is no room for. -/
  reason : String
  /-- The bytes taken so far. -/
  taken : Array UInt8 := #[]

namespace Sink

/-- A file on a disk with room for so many bytes. -/
def disk (room : Option Nat) : Sink where
  room := room
  reason := "disk full"

/-! ## Writing -/

/-- How writing ended: all was taken, or a byte was refused, and why. -/
abbrev Ending := Except String Unit

/-- How many of `count` further bytes are taken. -/
def accepts (sink : Sink) (count : Nat) : Nat :=
  match sink.room with
  | none => count
  | some room => min count room

/-- The sink after it has taken bytes. -/
def take (sink : Sink) (bytes : List UInt8) : Sink where
  room := sink.room.map fun room => room - bytes.length
  reason := sink.reason
  taken := sink.taken ++ bytes

/-- Writes one piece, or as much of it as there is room for. -/
def write (sink : Sink) (bytes : List UInt8) : Sink × Ending :=
  let accepted := sink.accepts bytes.length
  (sink.take (bytes.take accepted), if accepted = bytes.length then .ok () else .error sink.reason)

/-- Writes pieces one after the other and stops at the first that is not taken whole. -/
def writeAll (sink : Sink) : List (List UInt8) → Sink × Ending
  | [] => (sink, .ok ())
  | piece :: rest =>
    match sink.write piece with
    | (next, .ok ()) => next.writeAll rest
    | (last, .error reason) => (last, .error reason)

/-! ## Writers -/

/-- What writes to a sink, up to its own end or up to the first byte that is refused. -/
abbrev Writer := Sink → Sink × Ending

namespace Writer

/-- Writes one piece of text. -/
def put (text : List Char) : Writer := fun sink =>
  sink.write (Text.utf8 text)

/-- Writes nothing. -/
def done : Writer := fun sink =>
  (sink, .ok ())

/-- One writer after another, which does not start if the first one is refused. -/
def andThen (first second : Writer) : Writer := fun sink =>
  match first sink with
  | (next, .ok ()) => second next
  | (last, .error reason) => (last, .error reason)

/-- Writers one after the other, up to the first that is refused. -/
def sequence : List Writer → Writer
  | [] => done
  | first :: rest => first.andThen (sequence rest)

end Writer

/-! ## Reading back -/

/-- The text taken so far. A character of which only the first bytes were taken, at most three,
shows as the replacement character. -/
def text (sink : Sink) : String :=
  let whole? (cut : Nat) : Option String :=
    String.fromUTF8? ⟨sink.taken.extract 0 (sink.taken.size - cut)⟩
  match whole? 0 with
  | some text => text
  | none => ([1, 2, 3].findSome? whole?).getD "" ++ "\ufffd"

/-! ## Pieces do not matter -/

theorem accepts_le (sink : Sink) (count : Nat) : sink.accepts count ≤ count := by
  unfold accepts
  split <;> omega

/-- Further bytes after `bytes` that were taken whole. -/
theorem accepts_add {sink : Sink} {bytes : List UInt8}
    (h : sink.accepts bytes.length = bytes.length) (count : Nat) :
    sink.accepts (bytes.length + count) = bytes.length + (sink.take bytes).accepts count := by
  cases hr : sink.room <;> simp only [accepts, take, hr, Option.map] at h ⊢
  omega

/-- Nothing is taken after bytes that were not taken whole. -/
theorem accepts_add_of_ne {sink : Sink} {length : Nat} (h : sink.accepts length ≠ length)
    (count : Nat) : sink.accepts (length + count) = sink.accepts length := by
  cases hr : sink.room <;> simp only [accepts, hr] at h ⊢
  · exact absurd rfl h
  · omega

/-- What there is room for is taken whole. -/
theorem write_of_eq {sink : Sink} {bytes : List UInt8}
    (h : sink.accepts bytes.length = bytes.length) :
    sink.write bytes = (sink.take bytes, .ok ()) := by simp [write, h]

/-- Of what there is no room for the first bytes are taken, and the refusal has the reason of the
sink. -/
theorem write_of_ne {sink : Sink} {bytes : List UInt8}
    (h : sink.accepts bytes.length ≠ bytes.length) :
    sink.write bytes =
      (sink.take (bytes.take (sink.accepts bytes.length)), .error sink.reason) := by
  simp [write, h]

@[simp] theorem toList_take (sink : Sink) (bytes : List UInt8) :
    (sink.take bytes).taken.toList = sink.taken.toList ++ bytes := by simp [take]

@[simp] theorem reason_take (sink : Sink) (bytes : List UInt8) :
    (sink.take bytes).reason = sink.reason := rfl

/-- Taking two pieces is taking one and then the other. -/
theorem take_append (sink : Sink) (xs ys : List UInt8) :
    sink.take (xs ++ ys) = (sink.take xs).take ys := by
  have htaken : sink.taken ++ (xs ++ ys) = sink.taken ++ xs ++ ys := Array.toList_inj.mp (by simp)
  -- the room that is left shrinks by both lengths, one after the other
  cases hr : sink.room <;> simp [take, hr, htaken, Nat.sub_sub]

/-- To write two pieces is to write the first, and the second if there was room for all of it. -/
theorem write_append (sink : Sink) (xs ys : List UInt8) :
    sink.write (xs ++ ys) =
      match sink.write xs with
      | (next, .ok ()) => next.write ys
      | (last, .error reason) => (last, .error reason) := by
  by_cases h : sink.accepts xs.length = xs.length
  · rw [write_of_eq h]
    simp only [write, List.length_append, accepts_add h, List.take_length_add_append, take_append,
      Nat.add_left_cancel_iff, reason_take]
  · -- the second piece does not get its turn: there is no room for the two of them either
    have hle := sink.accepts_le xs.length
    have hne : sink.accepts (xs ++ ys).length ≠ (xs ++ ys).length := by
      rw [List.length_append, accepts_add_of_ne h]
      omega
    rw [write_of_ne h, write_of_ne hne, List.length_append, accepts_add_of_ne h,
      List.take_append_of_le_length hle]

/-- It does not matter how a text is cut into pieces. -/
theorem writeAll_eq_write (sink : Sink) (pieces : List (List UInt8)) :
    sink.writeAll pieces = sink.write pieces.flatten := by
  induction pieces generalizing sink with
  | nil =>
    -- nothing at all is a piece that there is always room for
    have hzero : sink.accepts 0 = 0 := Nat.le_zero.mp (sink.accepts_le 0)
    have htake : sink.take [] = sink := by
      obtain ⟨room, reason, taken⟩ := sink
      cases room <;> simp [take]
    rw [List.flatten_nil, write_of_eq hzero, htake]
    rfl
  | cons piece rest ih =>
    -- the first piece and the others are two pieces, of which the second is written by induction
    rw [writeAll, List.flatten_cons, write_append]
    match sink.write piece with
    | (next, .ok ()) => exact ih next
    | (last, .error reason) => rfl

/-- As many bytes are taken as there is room for. -/
theorem toList_write (sink : Sink) (bytes : List UInt8) :
    (sink.write bytes).1.taken.toList =
      sink.taken.toList ++ bytes.take (sink.accepts bytes.length) :=
  sink.toList_take _

/-- Writing is complete if there is room for all bytes. -/
theorem write_complete_iff (sink : Sink) (bytes : List UInt8) :
    (sink.write bytes).2 = .ok () ↔ sink.accepts bytes.length = bytes.length := by
  by_cases h : sink.accepts bytes.length = bytes.length
  · rw [write_of_eq h]
    exact iff_of_true rfl h
  · rw [write_of_ne h]
    exact iff_of_false nofun h

/-- If writing is refused, it is for the reason of the sink. -/
theorem write_refused {sink : Sink} {bytes : List UInt8}
    (h : sink.accepts bytes.length ≠ bytes.length) :
    (sink.write bytes).2 = .error sink.reason := by
  rw [write_of_ne h]

end Sink

end CallGate
