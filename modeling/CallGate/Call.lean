import CallGate.Arguments
import CallGate.Fault

/-!
# Calls

A call brings a signature, perhaps a receiver, and arguments together. It is accepted if the
receiver fits and if each parameter gets exactly one argument, of its own kind.

- `Call.argument`, `Call.single`, `Call.scalar`, `Call.receiverScalar`: access to what a call
  brings.
- `Call.checkReceiver`, `Call.checkArguments`: the checks. Of several faults the first one found is
  reported: too many arguments, then named ones in the order given, then parameters in order.
- `Call.accept`: a call that passed the checks, the receiver's first.
-/

namespace CallGate

/-- A call of an export. -/
structure Call where
  signature : Signature
  receiver : Option Value
  arguments : Arguments Value
  deriving DecidableEq

namespace Call

/-- The name of the export that is called. -/
def exportName (call : Call) : String := call.signature.name

/-! ## Access -/

/-- The argument at an index, or else under a name. The two need not belong together. -/
def argument (call : Call) (index : Nat) (name : String) : Except Fault Value :=
  match call.arguments.at? index name with
  | some value => .ok value
  | none => .error (.missingArgument call.exportName name)

/-- The fault of an argument of the wrong kind. -/
def argumentFault (call : Call) (name : String) (mismatch : KindMismatch) : Fault :=
  .argumentKind call.exportName name mismatch.wanted mismatch.found

/-- An argument as a bare number. -/
def single (call : Call) (index : Nat) (name : String) : Except Fault Single := do
  let value ← call.argument index name
  value.asSingle.mapError (call.argumentFault name)

/-- An argument as a scalar. -/
def scalar (call : Call) (index : Nat) (name : String) : Except Fault Scalar := do
  let value ← call.argument index name
  value.asScalar.mapError (call.argumentFault name)

/-- The receiver of a method, as a scalar. -/
def receiverScalar (call : Call) : Except Fault Scalar :=
  match call.signature.receiver, call.receiver with
  | none, _ => .error (.unexpectedReceiver call.exportName call.signature.role)
  | some expected, none => .error (.missingReceiver call.exportName expected)
  | some _, some value =>
    value.asScalar.mapError fun mismatch =>
      .receiverKind call.exportName mismatch.wanted mismatch.found

/-! ## Checks -/

/-- A receiver is given if and only if one is declared, and it is of the declared kind. -/
def checkReceiver (call : Call) : Except Fault Unit :=
  match call.signature.receiver, call.receiver with
  | some expected, none => .error (.missingReceiver call.exportName expected)
  | some expected, some value =>
    if value.kind = expected then .ok ()
    else .error (.receiverKind call.exportName expected value.kind)
  | none, some _ => .error (.unexpectedReceiver call.exportName call.signature.role)
  | none, none => .ok ()

/-- There are not more arguments than parameters. -/
def checkCount (call : Call) : Except Fault Unit :=
  if call.signature.parameters.length < call.arguments.count then
    .error (.tooManyArguments call.exportName call.signature.parameters.length call.arguments.count)
  else .ok ()

/-- Each named argument names a parameter that was not named before, `seen` being the names before,
and that no positional argument takes. -/
def checkNames (call : Call) (seen : List String) :
    List (NamedArgument Value) → Except Fault Unit
  | [] => .ok ()
  | argument :: rest =>
    if argument.name ∈ seen then .error (.repeatedArgument call.exportName argument.name)
    else
      match call.signature.parameter? argument.name with
      | none => .error (.unknownParameter call.exportName argument.name)
      | some parameter =>
        if parameter.index < call.arguments.positional.length then
          .error (.repeatedArgument call.exportName argument.name)
        else call.checkNames (argument.name :: seen) rest

/-- A parameter has an argument of its kind. -/
def checkParameter (call : Call) (parameter : Parameter) : Except Fault Unit :=
  match parameter.kind with
  | .single => (call.single parameter.index parameter.name).map fun _ => ()
  | .scalar => (call.scalar parameter.index parameter.name).map fun _ => ()

/-- Each parameter has an argument of its kind. -/
def checkParameters (call : Call) : List Parameter → Except Fault Unit
  | [] => .ok ()
  | parameter :: rest => do
    call.checkParameter parameter
    call.checkParameters rest

/-- Each parameter has exactly one argument, of its kind, and no argument is left. -/
def checkArguments (call : Call) : Except Fault Unit := do
  call.checkCount
  call.checkNames [] call.arguments.named
  call.checkParameters call.signature.parameters

/-- The call, if it passes the checks. -/
def accept (call : Call) : Except Fault Call := do
  call.checkReceiver
  call.checkArguments
  return call

/-! ## Structure -/

/-- The structure of a call. -/
def term (call : Call) : Term :=
  .record "ExportCall" [
    ("schema", call.signature.term),
    ("receiver", .option (call.receiver.map Value.term)),
    ("args", call.arguments.term)]

end Call

end CallGate
