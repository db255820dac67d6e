import CallGate.Invocation

/-!
# Programs

A program is a list of requests in which values returned earlier can be used again.

- `Operand`: a value, or the number of the step that returned it.
- `Step`: a request over operands.
- `Outcome`: how a step ended. A step that refers to a value that is not there is not tried.
- `Program.run`: the outcomes of all steps, in order.
-/

namespace CallGate

/-- What stands for a value in a program. -/
inductive Operand where
  | literal (value : Value)
  /-- The value that a step returned; the first step is 0. -/
  | result (step : Nat)
  deriving DecidableEq

/-- A request of a program. -/
structure Step where
  name : String
  receiver : Option Operand := none
  arguments : Arguments Operand := {}
  deriving DecidableEq

/-- How a step ended. -/
inductive Outcome where
  | returned (value : Value)
  | rejected (fault : Fault)
  /-- It refers to a step that returned no value, or not yet. -/
  | unresolved
  deriving DecidableEq

namespace Outcome

/-- The outcome of a request. -/
def ofExcept : Except Fault Value → Outcome
  | .ok value => .returned value
  | .error fault => .rejected fault

/-- The value that was returned, if one was. -/
def value? : Outcome → Option Value
  | .returned value => some value
  | _ => none

end Outcome

/-! ## Resolving operands -/

/-- The value of an operand, after steps with the given outcomes. -/
def Operand.resolve? (earlier : List Outcome) : Operand → Option Value
  | .literal value => some value
  | .result step => earlier[step]?.bind Outcome.value?

/-- The arguments that an argument list of operands stands for. -/
def Arguments.resolve? (earlier : List Outcome) (arguments : Arguments Operand) :
    Option (Arguments Value) := do
  let positional ← arguments.positional.mapM (Operand.resolve? earlier)
  let named ← arguments.named.mapM fun argument =>
    (argument.value.resolve? earlier).map fun value => ⟨argument.name, value⟩
  return ⟨positional, named⟩

/-- The receiver that an operand stands for, where there is one. -/
def Operand.resolveReceiver? (earlier : List Outcome) : Option Operand → Option (Option Value)
  | none => some none
  | some operand => (operand.resolve? earlier).map some

/-- The request that a step stands for. -/
def Step.resolve? (earlier : List Outcome) (step : Step) : Option Request := do
  let receiver ← Operand.resolveReceiver? earlier step.receiver
  let arguments ← step.arguments.resolve? earlier
  return ⟨step.name, receiver, arguments⟩

/-! ## Running -/

/-- The outcome of a step, after steps with the given outcomes. -/
def Step.run (earlier : List Outcome) (step : Step) : Outcome :=
  match step.resolve? earlier with
  | some request => .ofExcept request.serve
  | none => .unresolved

/-- The outcomes of steps that follow others, these included. -/
def Program.runFrom (earlier : List Outcome) : List Step → List Outcome
  | [] => earlier
  | step :: rest => runFrom (earlier ++ [step.run earlier]) rest

/-- The outcomes of all steps of a program. A rejected step does not end it. -/
def Program.run (steps : List Step) : List Outcome :=
  runFrom [] steps

end CallGate
