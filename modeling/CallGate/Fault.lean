import CallGate.Signature

/-!
# Faults

Why a call is rejected, or why the manifest could not be written.

- `Fault`: the causes, with what is needed to report them.
- `Fault.Kind`, `Fault.kind`: the causes by name alone.
- `Fault.message`: the report in a sentence. Names that were matched stand bare in it, names that a
  host made up are quoted.
- `Fault.code`, `Fault.help`: a code to search for and advice, where there is one.
- `Fault.term`: the structure of a fault.
-/

namespace CallGate

/-- The cause of a rejection. All but the first and the last name an export that there is. -/
inductive Fault where
  /-- Nothing is exported under the name. -/
  | unknownExport (name : String) (known : List String)
  /-- There are more arguments than parameters. -/
  | tooManyArguments (exportName : String) (max got : Nat)
  /-- A parameter has no argument. -/
  | missingArgument (exportName parameter : String)
  /-- An argument is not of its parameter's kind. -/
  | argumentKind (exportName parameter : String) (expected got : Kind)
  /-- A parameter is named twice, or named and given by position. -/
  | repeatedArgument (exportName name : String)
  /-- No parameter has the name of an argument. -/
  | unknownParameter (exportName name : String)
  /-- A method is called on nothing. -/
  | missingReceiver (exportName : String) (expected : Kind)
  /-- A method is called on a value of another kind. -/
  | receiverKind (exportName : String) (expected got : Kind)
  /-- What is not a method is called on a value. -/
  | unexpectedReceiver (exportName : String) (role : Role)
  /-- The manifest could not be written, for the reason that its target gave. -/
  | unwritable (reason : String)
  deriving DecidableEq

namespace Fault

/-! ## Kinds -/

/-- The causes without their details. -/
inductive Kind where
  | unknownExport
  | tooManyArguments
  | missingArgument
  | argumentKind
  | repeatedArgument
  | unknownParameter
  | missingReceiver
  | receiverKind
  | unexpectedReceiver
  | unwritable
  deriving DecidableEq

/-- The name of a kind of fault for hosts. -/
def Kind.name : Kind → String
  | .unknownExport => "UnknownExport"
  | .tooManyArguments => "TooManyArgs"
  | .missingArgument => "ArgMissing"
  | .argumentKind => "ArgTypeMismatch"
  | .repeatedArgument => "RepeatedNamedArg"
  | .unknownParameter => "InvalidArgName"
  | .missingReceiver => "ReceiverMissing"
  | .receiverKind => "ReceiverTypeMismatch"
  | .unexpectedReceiver => "UnexpectedReceiver"
  | .unwritable => "Serialize"

/-- The kind of a fault. -/
def kind : Fault → Kind
  | .unknownExport .. => .unknownExport
  | .tooManyArguments .. => .tooManyArguments
  | .missingArgument .. => .missingArgument
  | .argumentKind .. => .argumentKind
  | .repeatedArgument .. => .repeatedArgument
  | .unknownParameter .. => .unknownParameter
  | .missingReceiver .. => .missingReceiver
  | .receiverKind .. => .receiverKind
  | .unexpectedReceiver .. => .unexpectedReceiver
  | .unwritable .. => .unwritable

/-! ## Reports -/

/-- A count as it stands in a report. -/
def countText (n : Nat) : String :=
  String.ofList (Nat.toDigits 10 n)

/-- What is reported of a fault. -/
def message : Fault → String
  | .unknownExport name known =>
    "unknown export " ++ Text.quoted name ++ ", expecting one of " ++ ", ".intercalate known
  | .tooManyArguments exportName max got =>
    "too many args for " ++ exportName ++ ": expecting at most " ++ countText max ++ " got " ++
      countText got
  | .missingArgument exportName parameter =>
    "missing parameter " ++ Text.quoted parameter ++ " for " ++ exportName
  | .argumentKind exportName parameter expected got =>
    "type mismatch for " ++ exportName ++ " param " ++ Text.quoted parameter ++ ": expecting " ++
      expected.name ++ " got " ++ got.name
  | .repeatedArgument exportName name =>
    "arg " ++ name ++ " given more than once for " ++ exportName
  | .unknownParameter exportName name =>
    exportName ++ " has no parameter named " ++ Text.quoted name
  | .missingReceiver exportName expected =>
    "method " ++ exportName ++ " requires a " ++ expected.name ++ " receiver"
  | .receiverKind exportName expected got =>
    "receiver type mismatch for " ++ exportName ++ ": expecting " ++ expected.name ++ " got " ++
      got.name
  | .unexpectedReceiver exportName role =>
    role.name ++ " export " ++ exportName ++ " does not take a receiver"
  | .unwritable reason =>
    "internal error: failed to serialize export manifest: " ++ reason

/-- The code of a fault that has one. -/
def code? : Fault → Option String
  | .unknownExport .. => some "scalar_export::unknown_export"
  | _ => none

/-- Advice on a fault that can be given some. -/
def help? : Fault → Option String
  | .missingReceiver .. => some "pass the value returned by an init export as the receiver"
  | _ => none

/-! ## Structure -/

/-- The fields of a fault's structure. -/
def fields : Fault → List (String × Term)
  | .unknownExport name known =>
    [("name", .quoted name), ("known", .list (known.map Term.quoted))]
  | .tooManyArguments exportName max got =>
    [("export_name", .quoted exportName), ("max", .ofNat max), ("got", .ofNat got)]
  | .missingArgument exportName parameter =>
    [("export_name", .quoted exportName), ("param_name", .quoted parameter)]
  | .argumentKind exportName parameter expected got =>
    [("export_name", .quoted exportName), ("param_name", .quoted parameter),
      ("expecting", expected.term), ("got", got.term)]
  | .repeatedArgument exportName name =>
    [("export_name", .quoted exportName), ("name", .quoted name)]
  | .unknownParameter exportName name =>
    [("export_name", .quoted exportName), ("name", .quoted name)]
  | .missingReceiver exportName expected =>
    [("export_name", .quoted exportName), ("receiver", expected.term)]
  | .receiverKind exportName expected got =>
    [("export_name", .quoted exportName), ("expecting", expected.term), ("got", got.term)]
  | .unexpectedReceiver exportName role =>
    [("export_name", .quoted exportName), ("kind", role.term)]
  | .unwritable reason =>
    [("msg", .quoted reason)]

/-- The structure of a fault: its kind's name over its fields. -/
def term (fault : Fault) : Term :=
  .record fault.kind.name fault.fields

end Fault

end CallGate
