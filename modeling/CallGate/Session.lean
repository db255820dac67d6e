import CallGate.Value

/-!
# Sessions

Calculations with one scalar at hand, which some steps replace by their result.

- `Session.Calculation`: what is done with the scalar and another number.
- `Session.Step`: an inquiry, a calculation, or a calculation whose result becomes the scalar.
- `Session.run`: each step's answer with the scalar that is at hand after it.
-/

namespace CallGate.Session

/-- What is done with a scalar and another number. -/
inductive Calculation where
  | add
  | multiply
  | subtract
  deriving DecidableEq

/-- The result of a calculation. -/
def Calculation.result (current : Scalar) (y : Single) : Calculation → Single
  | .add => current.add y
  | .multiply => current.mul y
  | .subtract => current.value.sub y

/-- A step of a session. -/
inductive Step where
  /-- The number that the scalar holds. -/
  | value
  /-- The scalar with its structure. -/
  | structured
  /-- The scalar as JSON. -/
  | json
  /-- The result of a calculation, which leaves the scalar as it is. -/
  | calculate (calculation : Calculation) (y : Single)
  /-- The result of a calculation, which is wrapped and replaces the scalar. -/
  | proceed (calculation : Calculation) (y : Single)
  /-- Whether the scalar equals another one. -/
  | compare (y : Single)
  deriving DecidableEq

/-- The answer to a step. -/
inductive Answer where
  | number (x : Single)
  | text (text : String)
  | truth (holds : Bool)
  deriving DecidableEq

/-- The answer to a step, and the scalar after it. -/
def step (current : Scalar) : Step → Answer × Scalar
  | .value => (.number current.value, current)
  | .structured => (.text current.term.text, current)
  | .json => (.text (current.json.text .compact), current)
  | .calculate calculation y => (.number (calculation.result current y), current)
  | .proceed calculation y =>
    let result := calculation.result current y
    (.number result, ⟨result⟩)
  | .compare y => (.truth (current.equals ⟨y⟩), current)

/-- The answers to all steps, each with the scalar after it. -/
def run (current : Scalar) : List Step → List (Answer × Scalar)
  | [] => []
  | first :: rest =>
    let (answer, next) := step current first
    (answer, next) :: run next rest

end CallGate.Session
