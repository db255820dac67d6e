import CallGate.Invocation

/-!
# Traces

A request leaves two events behind: one when it is taken up, and one that tells how it ended.

- `Event`: a level, and fields in the order of their names.
- `Request.trace`: the events of a request.
-/

namespace CallGate

/-- How much detail an event belongs to. -/
inductive Event.Level where
  | debug
  | trace
  deriving DecidableEq

/-- What a field of an event holds. -/
inductive Event.Content where
  | text (text : String)
  | count (n : Nat)
  deriving DecidableEq

/-- An event, with its fields in the order of their names. -/
structure Event where
  level : Event.Level
  fields : List (String × Event.Content)
  deriving DecidableEq

namespace Event

/-- The name of a level. -/
def Level.name : Level → String
  | .debug => "DEBUG"
  | .trace => "TRACE"

/-- Where all events come from. -/
def target : String := "scalar_export::dispatch"

/-- A request is taken up. -/
def taken (request : Request) : Event where
  level := .debug
  fields := [
    ("export", .text request.name),
    ("message", .text "dispatching export call"),
    ("num_args", .count request.arguments.count)]

/-- A request has been answered with a value, which is shown with its structure. -/
def returned (request : Request) (value : Value) : Event where
  level := .trace
  fields := [
    ("export", .text request.name),
    ("message", .text "export call returned"),
    ("result", .text value.term.text)]

/-- A request has been rejected. -/
def rejected (request : Request) (fault : Fault) : Event where
  level := .debug
  fields := [
    ("export", .text request.name),
    ("kind", .text fault.kind.name),
    ("message", .text ("export call rejected: " ++ fault.message))]

/-- How a request ended. -/
def ended (request : Request) : Except Fault Value → Event
  | .ok value => returned request value
  | .error fault => rejected request fault

end Event

/-- The events of a request, in order. -/
def Request.trace (request : Request) : List Event :=
  [Event.taken request, Event.ended request request.serve]

end CallGate
