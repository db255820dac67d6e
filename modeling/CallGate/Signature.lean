import CallGate.Value

/-!
# Signatures

What an export is called, what it takes and what it returns.

- `Role`: whether an export makes objects, belongs to one, or stands alone.
- `Parameter`, `Signature`: one parameter, and an export with all of them.
- `Signature.parameter?`: a parameter by its name.
- `Signature.Addressable`, `Signature.WellFormed`: what every catalogue promises of the parameters of
  its signatures, and of these as a whole.
-/

namespace CallGate

/-! ## Roles -/

/-- The part an export plays. -/
inductive Role where
  /-- It makes a new object. -/
  | init
  /-- It is called on an object. -/
  | method
  /-- It stands alone. -/
  | function
  deriving DecidableEq

namespace Role

/-- The name of a role for hosts. -/
def name : Role → String
  | .init => "init"
  | .method => "method"
  | .function => "function"

/-- The role with a name. -/
def ofName? : String → Option Role
  | "init" => some .init
  | "method" => some .method
  | "function" => some .function
  | _ => none

/-- A role in a term has its name with a capital. -/
def term : Role → Term
  | .init => .word "Init"
  | .method => .word "Method"
  | .function => .word "Function"

@[simp] theorem ofName?_name (role : Role) : ofName? role.name = some role := by cases role <;> rfl

end Role

/-! ## Parameters and signatures -/

/-- A parameter. Without a name, the argument at its index is its own. -/
structure Parameter where
  index : Nat
  name : String
  doc : String
  kind : Kind
  deriving DecidableEq

/-- The structure of a parameter. -/
def Parameter.term (parameter : Parameter) : Term :=
  .record "ParamSchema" [
    ("index", .ofNat parameter.index),
    ("name", .quoted parameter.name),
    ("doc", .quoted parameter.doc),
    ("ty", parameter.kind.term)]

/-- An export as hosts see it. -/
structure Signature where
  name : String
  doc : String
  role : Role
  /-- The kind of object it is called on, if it is called on one. -/
  receiver : Option Kind
  /-- The parameters in positional order, known by their names. -/
  parameters : List Parameter
  /-- The kind of value it returns. -/
  result : Kind
  deriving DecidableEq

namespace Signature

/-- The parameter with a name. -/
def parameter? (signature : Signature) (name : String) : Option Parameter :=
  signature.parameters.find? fun parameter => parameter.name = name

/-- The structure of a signature; its parameters are a map from their names. -/
def term (signature : Signature) : Term :=
  .record "ExportSchema" [
    ("name", .quoted signature.name),
    ("doc", .quoted signature.doc),
    ("kind", signature.role.term),
    ("receiver", .option (signature.receiver.map Kind.term)),
    ("params", .map (signature.parameters.map fun parameter => (parameter.name, parameter.term))),
    ("return_kind", signature.result.term)]

/-- Parameters have different names and stand at their indexes, so that a name or an index tells
which parameter is meant. -/
structure Addressable (signature : Signature) : Prop where
  names_distinct : (signature.parameters.map Parameter.name).Nodup
  index_eq : signature.parameters.map Parameter.index = List.range signature.parameters.length

/-- Parameters are told apart by name and by index, and exactly methods have a receiver. -/
structure WellFormed (signature : Signature) : Prop extends Addressable signature where
  receiver_iff : signature.receiver.isSome ↔ signature.role = .method

end Signature

end CallGate
