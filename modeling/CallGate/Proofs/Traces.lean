import CallGate.Trace
import CallGate.Proofs.Reports
import CallGate.Proofs.Terms

/-!
# Traces tell requests' answers

What a request leaves behind says which export was asked for and with how many arguments, and how
the request ended: the term of a value tells the value, and the report of a fault tells the fault.

- `Event.taken_inj`: the first event tells the name and the number of arguments.
- `Event.ended_inj`: the second one tells the answer, as far as requests are rejected at all for
  what it reports.
- `Request.trace_faithful`: the two events of a request, and what its answer is by them.
-/

namespace CallGate

namespace Event

/-! ## What one event tells -/

theorem taken_inj {x y : Request} (h : taken x = taken y) :
    x.name = y.name ∧ x.arguments.count = y.arguments.count := by
  simp only [taken, Event.mk.injEq, List.cons.injEq, Prod.mk.injEq, Content.text.injEq,
    Content.count.injEq, true_and, and_true] at h
  exact h

theorem returned_inj {x y : Request} {v w : Value} (h : returned x v = returned y w) : v = w := by
  simp only [returned, Event.mk.injEq, List.cons.injEq, Prod.mk.injEq, Content.text.injEq,
    true_and, and_true] at h
  exact Value.eq_of_text h.2

/-- A report tells the fault among those that requests are rejected for. -/
theorem rejected_inj {x y : Request} {e f : Fault} (he : e.Issued) (hf : f.Issued)
    (h : rejected x e = rejected y f) : e = f := by
  simp only [rejected, Event.mk.injEq, List.cons.injEq, Prod.mk.injEq, Content.text.injEq,
    true_and, and_true] at h
  obtain ⟨-, -, hmessage⟩ := h
  -- all reports follow the same words, after which the faults are told by their reports
  have hreport := congrArg String.toList hmessage
  rw [String.toList_append, String.toList_append, List.append_cancel_left_eq] at hreport
  exact Fault.eq_of_message_eq he hf (String.toList_inj.mp hreport)

/-- Events of different levels tell values from faults. -/
theorem ended_inj {x y : Request} {a b : Except Fault Value}
    (ha : ∀ fault, a = .error fault → fault.Issued) (hb : ∀ fault, b = .error fault → fault.Issued)
    (h : ended x a = ended y b) : a = b := by
  -- values are traced at one level and faults at the other
  cases a with
  | ok v =>
    cases b with
    | ok w => rw [returned_inj h]
    | error f => cases congrArg Event.level h
  | error e =>
    cases b with
    | ok w => cases congrArg Event.level h
    | error f => rw [rejected_inj (ha e rfl) (hb f rfl) h]

end Event

namespace Request

/-! ## What a trace tells -/

/-- A request leaves exactly two events behind. The first one has the name as it was asked for and
the number of all arguments; the second one has the structure of the value, if there is one, and
else the kind of the fault and its report, and of all faults that requests are rejected for it can
be of this one only. Requests that leave the same events behind have the same name, the same number
of arguments and the same answer. -/
theorem trace_faithful (x y : Request) :
    (∃ last : Event,
      x.trace = [
        ⟨.debug, [("export", .text x.name), ("message", .text "dispatching export call"),
          ("num_args", .count (x.arguments.positional.length + x.arguments.named.length))]⟩,
        last] ∧
      (∀ value, x.serve = .ok value ↔
        last = ⟨.trace, [("export", .text x.name), ("message", .text "export call returned"),
          ("result", .text value.term.text)]⟩) ∧
      (∀ fault, (∃ request : Request, request.serve = .error fault) →
        (x.serve = .error fault ↔
          last = ⟨.debug, [("export", .text x.name), ("kind", .text fault.kind.name),
            ("message", .text ("export call rejected: " ++ fault.message))]⟩)) ∧
      ((∃ fault, x.serve = .error fault) ↔ last.level = .debug)) ∧
    (x.trace = y.trace →
      x.name = y.name ∧ x.arguments.count = y.arguments.count ∧ x.serve = y.serve) := by
  constructor
  · refine ⟨Event.ended x x.serve, rfl, ?_, ?_, ?_⟩
    · intro value
      constructor
      · intro h
        rw [h]
        rfl
      · intro h
        exact Event.ended_inj (y := x) (fun _ hx => (issued_of_serve hx).1) nofun h
    · rintro fault ⟨request, hrequest⟩
      constructor
      · intro h
        rw [h]
        rfl
      · intro h
        have hissued := (issued_of_serve hrequest).1
        refine Event.ended_inj (y := x) (fun _ hx => (issued_of_serve hx).1) ?_ h
        rintro _ ⟨⟩
        exact hissued
    · cases x.serve with
      | ok value =>
        constructor
        · rintro ⟨fault, h⟩
          cases h
        · intro h
          cases h
      | error fault => exact ⟨fun _ => rfl, fun _ => ⟨fault, rfl⟩⟩
  · intro h
    simp only [trace, List.cons.injEq, and_true] at h
    -- the first events tell the name and the count, and the second ones the answer
    obtain ⟨htaken, hended⟩ := h
    obtain ⟨hname, hcount⟩ := Event.taken_inj htaken
    exact ⟨hname, hcount, Event.ended_inj (fun _ hx => (issued_of_serve hx).1)
      (fun _ hy => (issued_of_serve hy).1) hended⟩

/-- A number less itself. -/
def levelling (number : Single) : Request where
  name := "subtract"
  arguments := { positional := [.single number, .single number] }

/-- Two numbers whose traces are the same, since both of them less themselves are zero, and a
rejection. -/
theorem trace_faithful_levelling :
    (levelling (.ofBits 0x3F800000)).trace = (levelling (.ofBits 0x3DCCCCCD)).trace ∧
    (levelling (.ofBits 0x3F800000)).serve = (levelling (.ofBits 0x3DCCCCCD)).serve ∧
    (levelling (.ofBits 0x3F800000)).trace = [
      ⟨.debug, [("export", .text "subtract"), ("message", .text "dispatching export call"),
        ("num_args", .count 2)]⟩,
      ⟨.trace, [("export", .text "subtract"), ("message", .text "export call returned"),
        ("result", .text "F32(0.0)")]⟩] ∧
    ∃ last : Event, misleading.trace.getLast? = some last ∧ last.level = .debug ∧
      last.fields[1]? = some ("kind", .text "InvalidArgName") := by
  have hsame : (levelling (.ofBits 0x3F800000)).trace = (levelling (.ofBits 0x3DCCCCCD)).trace := by
    decide +kernel
  have hserve : misleading.serve = .error (.unknownParameter "subtract" "a\n\u202e") := by
    decide +kernel
  obtain ⟨-, htold⟩ := trace_faithful (levelling (.ofBits 0x3F800000))
    (levelling (.ofBits 0x3DCCCCCD))
  obtain ⟨⟨last, htrace, -, hrejected, hlevel⟩, -⟩ := trace_faithful misleading misleading
  refine ⟨hsame, (htold hsame).2.2, by decide +kernel, last, ?_, ?_, ?_⟩
  · rw [htrace]
    rfl
  · exact hlevel.mp ⟨_, hserve⟩
  · rw [(hrejected _ ⟨misleading, hserve⟩).mp hserve]
    rfl

end Request

end CallGate
