import CallGate.Call
import CallGate.Catalogue

/-!
# Invocation

- `Operation`: what the exports do, by name.
- `Call.invoke`: an accepted call carried out.
- `Request`, `Request.serve`: a call by name, from the look-up to the value.
-/

namespace CallGate

/-! ## Operations -/

/-- The operations on scalars and numbers. -/
inductive Operation where
  | create
  | add
  | multiply
  | subtract
  deriving DecidableEq

/-- The operation that is exported under a name. -/
def Operation.ofName? : String → Option Operation
  | "create" => some .create
  | "add" => some .add
  | "mul" => some .multiply
  | "subtract" => some .subtract
  | _ => none

namespace Call

/-- Fetches what an operation works on and carries it out. Each parameter is asked for by its index
and name, as its signature lists it. -/
def perform (call : Call) : Operation → Except Fault Value
  | .create => do
    let a ← call.single 0 "a"
    return .scalar ⟨a⟩
  | .add => do
    let object ← call.receiverScalar
    let b ← call.single 0 "b"
    return .single (object.add b)
  | .multiply => do
    let object ← call.receiverScalar
    let b ← call.single 0 "b"
    return .single (object.mul b)
  | .subtract => do
    let a ← call.single 0 "a"
    let b ← call.single 1 "b"
    return .single (a.sub b)

/-- Carries out the operation that the called export is named for. A signature whose name is no
operation's stands for a defect of the catalogue, on which the program panics: the fault of that
branch is no answer to a host but marks the panic. No signature of the catalogue leads there. -/
def invoke (call : Call) : Except Fault Value :=
  match Operation.ofName? call.exportName with
  | some operation => call.perform operation
  | none => .error (.unknownExport call.exportName Catalogue.names)

end Call

/-! ## Requests -/

/-- A call by name, as a host makes it. -/
structure Request where
  name : String
  receiver : Option Value := none
  arguments : Arguments Value := {}
  deriving DecidableEq

namespace Request

/-- The signature that is asked for. -/
def signature (request : Request) : Except Fault Signature :=
  match Catalogue.find? request.name with
  | some signature => .ok signature
  | none => .error (.unknownExport request.name Catalogue.names)

/-- The call that is asked for, if it is accepted. -/
def accept (request : Request) : Except Fault Call := do
  let signature ← request.signature
  Call.accept ⟨signature, request.receiver, request.arguments⟩

/-- The value of a request, or why it is rejected. -/
def serve (request : Request) : Except Fault Value := do
  let call ← request.accept
  call.invoke

end Request

end CallGate
