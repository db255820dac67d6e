import Mathlib.Data.List.Forall2
import CallGate.Program
import CallGate.Proofs.Matching

/-!
# Programs that run in step

Two programs of one shape, whose literals are related one by one, and what their runs then have in
common.

- `Arguments.Related`, `Request.Related`, `Operand.Related`, `Step.Related`: a relation of values
  carried over to what is made of values. Names, references and the number of arguments are the
  same on both sides.
- `Request.Alike`, `Outcome.Related`: two requests are answered alike, and two steps end alike.
  Faults are the same in every detail.
- `Arguments.Related.at?`: look-ups on both sides find related arguments, or both find none.
- `Operand.Related.resolve?`, `Step.Related.resolve?`: after steps that ended alike, operands have
  related values, or both have none.
- `Program.getElem?_run`: the outcome of a step in terms of the outcomes before it.
- `Step.Related.run`, `Program.run_related`: if related requests are answered alike, each step ends
  alike, and by induction so do programs.
-/

namespace CallGate

/-! ## Lists and options -/

section

variable {α β γ δ : Type} {R : α → β → Prop} {S : γ → δ → Prop}

/-- At each index both lists have related elements, or both have none. -/
theorem related_getElem? {xs : List α} {ys : List β} (h : List.Forall₂ R xs ys) (i : Nat) :
    Option.Rel R xs[i]? ys[i]? := by
  induction h generalizing i with
  | nil => exact .none
  | cons hxy hrest ih =>
    cases i with
    | zero => exact .some hxy
    | succ i => exact ih i

theorem related_bind {x : Option α} {y : Option β} (h : Option.Rel R x y) {f : α → Option γ}
    {g : β → Option δ} (hfg : ∀ a b, R a b → Option.Rel S (f a) (g b)) :
    Option.Rel S (x.bind f) (y.bind g) := by
  cases h with
  | some hab => exact hfg _ _ hab
  | none => exact .none

theorem related_map {x : Option α} {y : Option β} (h : Option.Rel R x y) {f : α → γ} {g : β → δ}
    (hfg : ∀ a b, R a b → S (f a) (g b)) : Option.Rel S (x.map f) (y.map g) := by
  cases h with
  | some hab => exact .some (hfg _ _ hab)
  | none => exact .none

/-- A list has values if all its members have, and then related ones. -/
theorem related_mapM {xs : List α} {ys : List β} (h : List.Forall₂ R xs ys) {f : α → Option γ}
    {g : β → Option δ} (hfg : ∀ a b, R a b → Option.Rel S (f a) (g b)) :
    Option.Rel (List.Forall₂ S) (xs.mapM f) (ys.mapM g) := by
  induction h with
  | nil => exact .some .nil
  | cons hab _ ih =>
    rw [List.mapM_cons, List.mapM_cons]
    -- the first value, then the values of the rest, and both lists fail where one value is missing
    exact related_bind (hfg _ _ hab) fun c d hcd =>
      related_bind ih fun cs ds hrest => .some (.cons hcd hrest)

theorem related_isSome {x : Option α} {y : Option β} (h : Option.Rel R x y) :
    x.isSome = y.isSome := by
  cases h <;> rfl

end

/-! ## Arguments and requests -/

section

variable {α β : Type}

/-- Named arguments of one name with related contents. -/
structure NamedArgument.Related (R : α → β → Prop) (x : NamedArgument α) (y : NamedArgument β) :
    Prop where
  name : x.name = y.name
  value : R x.value y.value

/-- Arguments given in the same way, with related contents. -/
structure Arguments.Related (R : α → β → Prop) (x : Arguments α) (y : Arguments β) : Prop where
  positional : List.Forall₂ R x.positional y.positional
  named : List.Forall₂ (NamedArgument.Related R) x.named y.named

namespace Arguments.Related

variable {R : α → β → Prop} {x : Arguments α} {y : Arguments β} (h : x.Related R y)

include h

theorem count : x.count = y.count := by
  rw [Arguments.count, Arguments.count, h.positional.length_eq, h.named.length_eq]

/-- Both look-ups stop at the same argument, since the names are the same one by one. -/
theorem named? (name : String) : Option.Rel R (x.named? name) (y.named? name) := by
  have hfind : Option.Rel (NamedArgument.Related R)
      (x.named.find? fun argument => argument.name = name)
      (y.named.find? fun argument => argument.name = name) := by
    have hnamed := h.named
    generalize x.named = as, y.named = bs at hnamed
    induction hnamed with
    | nil => exact .none
    | @cons a b _ _ hab _ ih =>
      rw [List.find?_cons, List.find?_cons, hab.name]
      cases decide (b.name = name) with
      | true => exact .some hab
      | false => exact ih
  exact related_map hfind fun _ _ hab => hab.value

theorem at? (index : Nat) (name : String) : Option.Rel R (x.at? index name) (y.at? index name) := by
  have hposition := related_getElem? h.positional index
  unfold Arguments.at?
  generalize x.positional[index]? = a, y.positional[index]? = b at hposition
  -- as many arguments are positional on both sides, so both look-ups go on to the names or none
  cases hposition with
  | some hab => exact .some hab
  | none => exact h.named? name

end Arguments.Related

/-- Requests of one export, given in the same way, with related values. -/
structure Request.Related (R : Value → Value → Prop) (x y : Request) : Prop where
  name : x.name = y.name
  receiver : Option.Rel R x.receiver y.receiver
  arguments : x.arguments.Related R y.arguments

/-- Two requests are answered with related values, or are rejected for the same fault. -/
inductive Request.Alike (R : Value → Value → Prop) : Except Fault Value → Except Fault Value → Prop
  | ok {x y : Value} (h : R x y) : Alike R (.ok x) (.ok y)
  | error (fault : Fault) : Alike R (.error fault) (.error fault)

/-- Related requests are answered alike. -/
def Request.Respects (R : Value → Value → Prop) : Prop :=
  ∀ {x y : Request}, x.Related R y → Alike R x.serve y.serve

end

/-! ## Programs -/

section

variable {R : Value → Value → Prop}

/-- Literals with related values, or references to one step. -/
inductive Operand.Related (R : Value → Value → Prop) : Operand → Operand → Prop
  | literal {x y : Value} (h : R x y) : Related R (.literal x) (.literal y)
  | result (step : Nat) : Related R (.result step) (.result step)

/-- Steps that make requests of one export over related operands. -/
structure Step.Related (R : Value → Value → Prop) (x y : Step) : Prop where
  name : x.name = y.name
  receiver : Option.Rel (Operand.Related R) x.receiver y.receiver
  arguments : x.arguments.Related (Operand.Related R) y.arguments

/-- Both steps return related values, or both are rejected for the same fault, or both refer to a
value that is not there. -/
inductive Outcome.Related (R : Value → Value → Prop) : Outcome → Outcome → Prop
  | returned {x y : Value} (h : R x y) : Related R (.returned x) (.returned y)
  | rejected (fault : Fault) : Related R (.rejected fault) (.rejected fault)
  | unresolved : Related R .unresolved .unresolved

/-- Requests that are answered alike give outcomes that are related. -/
theorem Outcome.related_ofExcept {x y : Except Fault Value} (h : Request.Alike R x y) :
    Related R (.ofExcept x) (.ofExcept y) := by
  cases h with
  | ok h => exact .returned h
  | error fault => exact .rejected fault

/-- Only what was returned can be referred to, and then on both sides. -/
theorem Outcome.Related.value? {x y : Outcome} (h : x.Related R y) :
    Option.Rel R x.value? y.value? := by
  cases h with
  | returned h => exact .some h
  | rejected fault => exact .none
  | unresolved => exact .none

/-! ## Resolving -/

section

variable {earlier earlier' : List Outcome}
  (hearlier : List.Forall₂ (Outcome.Related R) earlier earlier')

include hearlier

/-- A literal stands for itself, and a reference for what its step returned. -/
theorem Operand.Related.resolve? {x y : Operand} (h : x.Related R y) :
    Option.Rel R (x.resolve? earlier) (y.resolve? earlier') := by
  cases h with
  | literal h => exact .some h
  | result step => exact related_bind (related_getElem? hearlier step) fun _ _ hab => hab.value?

theorem Arguments.Related.resolve? {x y : Arguments Operand} (h : x.Related (Operand.Related R) y) :
    Option.Rel (Arguments.Related R) (x.resolve? earlier) (y.resolve? earlier') := by
  have hpositional : Option.Rel (List.Forall₂ R) (x.positional.mapM (Operand.resolve? earlier))
      (y.positional.mapM (Operand.resolve? earlier')) :=
    related_mapM h.positional fun _ _ hab => hab.resolve? hearlier
  refine related_bind hpositional fun _ _ hpositional => ?_
  refine related_bind (R := List.Forall₂ (NamedArgument.Related R)) ?_ fun _ _ hnamed =>
    .some ⟨hpositional, hnamed⟩
  exact related_mapM h.named fun _ _ hab =>
    related_map (hab.value.resolve? hearlier) fun _ _ hvalue => ⟨hab.name, hvalue⟩

/-- Having no receiver is not the same as referring to one that is missing. -/
theorem Operand.resolveReceiver?_related {x y : Option Operand}
    (h : Option.Rel (Operand.Related R) x y) :
    Option.Rel (Option.Rel R) (resolveReceiver? earlier x) (resolveReceiver? earlier' y) := by
  cases h with
  | none => exact .some .none
  | some hab => exact related_map (hab.resolve? hearlier) fun _ _ hvalue => .some hvalue

/-- Related steps make related requests, or none of them makes one. -/
theorem Step.Related.resolve? {x y : Step} (h : x.Related R y) :
    Option.Rel (Request.Related R) (x.resolve? earlier) (y.resolve? earlier') :=
  related_bind (Operand.resolveReceiver?_related hearlier h.receiver) fun _ _ hreceiver =>
    related_bind (h.arguments.resolve? hearlier) fun _ _ harguments =>
      .some ⟨h.name, hreceiver, harguments⟩

end

/-! ## Running -/

namespace Program

/-- Each step adds one outcome to the earlier ones. -/
theorem length_runFrom (earlier : List Outcome) (steps : List Step) :
    (runFrom earlier steps).length = earlier.length + steps.length := by
  induction steps generalizing earlier with
  | nil => rfl
  | cons step rest ih =>
    rw [runFrom, ih, List.length_append, List.length_singleton, List.length_cons]
    omega

/-- Every step has an outcome. -/
theorem length_run (steps : List Step) : (run steps).length = steps.length := by
  rw [run, length_runFrom, List.length_nil, Nat.zero_add]

/-- Outcomes stay as they are when further steps are run. -/
theorem isPrefix_runFrom (earlier : List Outcome) (steps : List Step) :
    earlier <+: runFrom earlier steps := by
  induction steps generalizing earlier with
  | nil => exact List.prefix_refl _
  | cons step rest ih => exact (List.prefix_append _ _).trans (ih _)

theorem getElem?_runFrom (earlier : List Outcome) (steps : List Step) (i : Nat) :
    (runFrom earlier steps)[earlier.length + i]? =
      steps[i]?.map (Step.run ((runFrom earlier steps).take (earlier.length + i))) := by
  induction steps generalizing earlier i with
  | nil => simp [runFrom]
  | cons step rest ih =>
    -- what a step reads is already there when the later steps are run
    have hprefix := isPrefix_runFrom (earlier ++ [step.run earlier]) rest
    rw [runFrom]
    cases i with
    | zero =>
      obtain ⟨later, hlater⟩ := hprefix
      rw [← hlater]
      simp
    | succ i =>
      -- the outcome of the first step counts as an earlier one for the rest
      have hlength : earlier.length + (i + 1) = (earlier ++ [step.run earlier]).length + i := by
        rw [List.length_append, List.length_singleton]
        omega
      rw [hlength, ih, List.getElem?_cons_succ]

/-- The outcome of a step is that of running it after the outcomes before it. -/
theorem getElem?_run (steps : List Step) (i : Nat) :
    (run steps)[i]? = steps[i]?.map (Step.run ((run steps).take i)) := by
  have h := getElem?_runFrom [] steps i
  rwa [List.length_nil, Nat.zero_add] at h

end Program

variable (hR : Request.Respects R)

include hR

/-- Related steps end alike, after steps that did. -/
theorem Step.Related.run {earlier earlier' : List Outcome}
    (hearlier : List.Forall₂ (Outcome.Related R) earlier earlier') {x y : Step}
    (h : x.Related R y) : Outcome.Related R (x.run earlier) (y.run earlier') := by
  have hrequest := h.resolve? hearlier
  unfold Step.run
  generalize x.resolve? earlier = a, y.resolve? earlier' = b at hrequest
  cases hrequest with
  | none => exact .unresolved
  | some hrequest => exact Outcome.related_ofExcept (hR hrequest)

theorem Program.runFrom_related {p q : List Step} (h : List.Forall₂ (Step.Related R) p q)
    {earlier earlier' : List Outcome}
    (hearlier : List.Forall₂ (Outcome.Related R) earlier earlier') :
    List.Forall₂ (Outcome.Related R) (runFrom earlier p) (runFrom earlier' q) := by
  induction h generalizing earlier earlier' with
  | nil => exact hearlier
  | cons hstep _ ih =>
    -- the outcomes so far stay related when one more step has been run
    exact ih (List.rel_append hearlier (.cons (hstep.run hR hearlier) .nil))

/-- Related programs end alike, step by step. -/
theorem Program.run_related {p q : List Step} (h : List.Forall₂ (Step.Related R) p q) :
    List.Forall₂ (Outcome.Related R) (run p) (run q) :=
  runFrom_related hR h .nil

/-- At each step both runs make related requests, which are answered alike, or neither makes one. -/
theorem Program.run_related_step {p q : List Step} (h : List.Forall₂ (Step.Related R) p q)
    {i : Nat} {x y : Step} (hx : p[i]? = some x) (hy : q[i]? = some y) :
    (∃ a b, x.resolve? ((run p).take i) = some a ∧ y.resolve? ((run q).take i) = some b ∧
      (run p)[i]? = some (.ofExcept a.serve) ∧ (run q)[i]? = some (.ofExcept b.serve) ∧
      Request.Alike R a.serve b.serve) ∨
    x.resolve? ((run p).take i) = none ∧ y.resolve? ((run q).take i) = none ∧
      (run p)[i]? = some .unresolved ∧ (run q)[i]? = some .unresolved := by
  have hstep : x.Related R y := by
    have hi := related_getElem? h i
    rw [hx, hy] at hi
    exact Option.rel_some_some.mp hi
  -- the outcomes before the step are related as part of the whole runs
  have hrequest := hstep.resolve? (List.forall₂_take i (run_related hR h))
  rw [getElem?_run, getElem?_run, hx, hy, Option.map_some, Option.map_some, Step.run, Step.run]
  generalize x.resolve? ((run p).take i) = a, y.resolve? ((run q).take i) = b at hrequest
  cases hrequest with
  | none => exact .inr ⟨rfl, rfl, rfl, rfl⟩
  | @some a b hab => exact .inl ⟨a, b, rfl, rfl, rfl, rfl, hR hab⟩

end

end CallGate
