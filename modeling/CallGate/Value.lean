import CallGate.Single.Arithmetic
import CallGate.Text.Term
import CallGate.Json.Basic

/-!
# Values

What passes through the gate: a bare single-precision number, or a scalar that wraps one.

- `Scalar`: a wrapped number with its arithmetic, which never changes the scalar.
- `Kind`: the kinds of values, with the names that hosts see.
- `Value`: a value of either kind; its number, its term, its JSON, and equality as numbers.
- `KindMismatch`: why a value is not of the kind it was asked for.
-/

namespace CallGate

/-! ## Scalars -/

/-- An object that holds one number. -/
structure Scalar where
  value : Single
  deriving DecidableEq

namespace Scalar

/-- The held number plus another. -/
def add (x : Scalar) (y : Single) : Single := x.value.add y

/-- The held number times another. -/
def mul (x : Scalar) (y : Single) : Single := x.value.mul y

/-- Equality of the held numbers, as numbers. -/
def equals (x y : Scalar) : Bool := x.value.equals y.value

/-- The structure of a scalar. -/
def term (x : Scalar) : Term := .record "ScalarValue" [("value", .ofSingle x.value)]

/-- A scalar is an object with one member. -/
def json (x : Scalar) : Json := .object [("value", .ofSingle x.value)]

end Scalar

/-! ## Kinds -/

/-- The kinds of values. -/
inductive Kind where
  | single
  | scalar
  deriving DecidableEq

namespace Kind

/-- The name of a kind for hosts. -/
def name : Kind → String
  | .single => "f32"
  | .scalar => "ScalarValue"

/-- The kind with a name. -/
def ofName? : String → Option Kind
  | "f32" => some .single
  | "ScalarValue" => some .scalar
  | _ => none

/-- A kind in a term has a short name. -/
def term : Kind → Term
  | .single => .word "F32"
  | .scalar => .word "Scalar"

@[simp] theorem ofName?_name (kind : Kind) : ofName? kind.name = some kind := by cases kind <;> rfl

end Kind

/-! ## Values -/

/-- A value that a host passes or receives. -/
inductive Value where
  | single (number : Single)
  | scalar (object : Scalar)
  deriving DecidableEq

/-- A value of one kind was asked for as another. -/
structure KindMismatch where
  found : Kind
  wanted : Kind
  deriving DecidableEq

namespace KindMismatch

/-- What is reported of a mismatch. -/
def message (mismatch : KindMismatch) : String :=
  "Cannot convert primitive of type " ++ mismatch.found.name ++ " to " ++ mismatch.wanted.name

/-- The structure of a mismatch. -/
def term (mismatch : KindMismatch) : Term :=
  .record "TypeMismatch" [("kind", mismatch.found.term), ("target", mismatch.wanted.term)]

end KindMismatch

namespace Value

/-- The kind of a value. -/
def kind : Value → Kind
  | .single _ => .single
  | .scalar _ => .scalar

/-- The number that a value is or holds. -/
def number : Value → Single
  | .single number => number
  | .scalar object => object.value

/-- The mismatch between a value and a kind. It is not checked that they differ. -/
def mismatch (value : Value) (wanted : Kind) : KindMismatch :=
  ⟨value.kind, wanted⟩

/-- A value as a bare number. -/
def asSingle : Value → Except KindMismatch Single
  | .single number => .ok number
  | value => .error (value.mismatch .single)

/-- A value as a scalar. -/
def asScalar : Value → Except KindMismatch Scalar
  | .scalar object => .ok object
  | value => .error (value.mismatch .scalar)

/-- Values are equal if they are of one kind and equal as numbers. -/
def equals : Value → Value → Bool
  | .single x, .single y => x.equals y
  | .scalar x, .scalar y => x.equals y
  | _, _ => false

/-- The structure of a value. -/
def term : Value → Term
  | .single number => .applied "F32" (.ofSingle number)
  | .scalar object => .applied "Scalar" object.term

/-- A bare number is a JSON number, a scalar an object. -/
def json : Value → Json
  | .single number => .ofSingle number
  | .scalar object => object.json

end Value

end CallGate
