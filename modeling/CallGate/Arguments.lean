import CallGate.Value

/-!
# Arguments

- `NamedArgument`, `Arguments`: positional arguments, and arguments by name in the order given.
- `Arguments.at?`: the argument at a position, or else the first of a name.
- `Arguments.equals`, `Arguments.term`: equality as numbers, and structure, where arguments are
  values.
-/

namespace CallGate

/-- An argument given by name. -/
structure NamedArgument (α : Type) where
  name : String
  value : α
  deriving DecidableEq

namespace NamedArgument

/-- Named arguments are equal if their names are the same and their values equal. -/
def equals (x y : NamedArgument Value) : Bool :=
  x.name = y.name && x.value.equals y.value

/-- The structure of a named argument. -/
def term (argument : NamedArgument Value) : Term :=
  .record "NamedArg" [("name", .quoted argument.name), ("value", argument.value.term)]

end NamedArgument

/-- The arguments of a call. Positional ones go to the parameters in order. -/
structure Arguments (α : Type) where
  positional : List α := []
  named : List (NamedArgument α) := []
  deriving DecidableEq

namespace Arguments

/-! ## Access -/

section

variable {α : Type}

/-- How many arguments there are. -/
def count (arguments : Arguments α) : Nat :=
  arguments.positional.length + arguments.named.length

/-- Whether there is no argument. -/
def isEmpty (arguments : Arguments α) : Bool :=
  arguments.count = 0

/-- The first argument given under a name. -/
def named? (arguments : Arguments α) (name : String) : Option α :=
  (arguments.named.find? fun argument => argument.name = name).map NamedArgument.value

/-- The positional argument at an index, or else the first argument given under a name. -/
def at? (arguments : Arguments α) (index : Nat) (name : String) : Option α :=
  match arguments.positional[index]? with
  | some value => some value
  | none => arguments.named? name

end

/-! ## Arguments that are values -/

/-- Arguments are equal if they are equal one by one, in the order given. -/
def equals (x y : Arguments Value) : Bool :=
  x.positional.isEqv y.positional Value.equals && x.named.isEqv y.named NamedArgument.equals

/-- The structure of arguments. -/
def term (arguments : Arguments Value) : Term :=
  .record "ArgPack" [
    ("pos_args", .list (arguments.positional.map Value.term)),
    ("named_args", .list (arguments.named.map NamedArgument.term))]

end Arguments

end CallGate
