import CallGate.Signature

/-!
# The catalogue

The exports that can be called, in the order in which they are listed.

- `Catalogue.signatures`, `Catalogue.names`: the list, and the names in it.
- `Catalogue.find?`: a signature by its exact name.
- `Catalogue.wellFormed_of_mem`: every listed signature is well formed.
-/

namespace CallGate

namespace Catalogue

/-- The signature of the operation that wraps a number. -/
def create : Signature where
  name := "create"
  doc := "Create a new ScalarValue holding the given number."
  role := .init
  receiver := none
  parameters := [⟨0, "a", "The number to wrap.", .single⟩]
  result := .scalar

/-- The signature of addition to a scalar. -/
def add : Signature where
  name := "add"
  doc := "Add a number to the receiver's value."
  role := .method
  receiver := some .scalar
  parameters := [⟨0, "b", "The number to add.", .single⟩]
  result := .single

/-- The signature of multiplication of a scalar. -/
def multiply : Signature where
  name := "mul"
  doc := "Multiply the receiver's value by a number."
  role := .method
  receiver := some .scalar
  parameters := [⟨0, "b", "The number to multiply by.", .single⟩]
  result := .single

/-- The signature of subtraction of two numbers. -/
def subtract : Signature where
  name := "subtract"
  doc := "Subtract one number from another."
  role := .function
  receiver := none
  parameters := [
    ⟨0, "a", "The number to subtract from.", .single⟩,
    ⟨1, "b", "The number to subtract.", .single⟩]
  result := .single

/-- All signatures, in order. -/
def signatures : List Signature := [create, add, multiply, subtract]

/-- The names of all exports, in order. -/
def names : List String := signatures.map Signature.name

/-- The signature exported under a name. -/
def find? (name : String) : Option Signature :=
  signatures.find? fun signature => signature.name = name

/-- What is said of well-formed signatures holds of all exports. -/
theorem wellFormed_of_mem {signature : Signature} (h : signature ∈ signatures) :
    signature.WellFormed := by
  simp only [signatures, List.mem_cons, List.not_mem_nil, or_false] at h
  rcases h with rfl | rfl | rfl | rfl <;> exact ⟨⟨by decide, by decide⟩, by decide⟩

end Catalogue

end CallGate
