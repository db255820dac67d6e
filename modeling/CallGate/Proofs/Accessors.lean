import CallGate.Proofs.Invocation

/-!
# Access to accepted calls

An accepted call keeps no argument that did not go to a parameter. So where all parameters are of
one kind all arguments are, and they can be asked for as this kind by any index and any name,
whether these belong together or to a parameter at all.

- `Arguments.at?_eq_none_iff`, `Arguments.passed_of_at?`: where a look-up finds nothing, and what else
  it finds.
- `Call.Acceptable.kind_eq`, `Call.Acceptable.kind_of_at?`: an acceptable call has no arguments of
  other kinds than its parameters.
- `Call.single_eq`, `Call.scalar_eq`: both accessors by what the look-up finds.
- `Call.HoldsSingles`, `Call.accessors_of_accept`: what the accessors answer on an accepted call of
  the catalogue.
-/

namespace CallGate

namespace Arguments

variable {α : Type} {arguments : Arguments α} {index : Nat} {name : String}

theorem named?_eq_none_iff :
    arguments.named? name = none ↔ ∀ argument ∈ arguments.named, argument.name ≠ name := by
  simp [named?]

/-- A look-up finds nothing beyond the positional arguments under a name that none of the others
has. -/
theorem at?_eq_none_iff : arguments.at? index name = none ↔
    arguments.positional.length ≤ index ∧
      ∀ argument ∈ arguments.named, argument.name ≠ name := by
  by_cases h : index < arguments.positional.length
  · rw [at?_of_lt name h]
    exact iff_of_false nofun fun hbeyond => Nat.not_le.mpr h hbeyond.1
  · have hbeyond := Nat.le_of_not_lt h
    rw [at?_of_le name hbeyond, named?_eq_none_iff, and_iff_right hbeyond]

/-- What a look-up finds was passed at the position, or else under the name. -/
theorem passed_of_at? {a : α} (h : arguments.at? index name = some a) :
    arguments.positional[index]? = some a ∨
      arguments.positional.length ≤ index ∧ ⟨name, a⟩ ∈ arguments.named := by
  by_cases hlt : index < arguments.positional.length
  · rw [at?_of_lt name hlt] at h
    exact .inl (by rw [List.getElem?_eq_getElem hlt, h])
  · have hbeyond := Nat.le_of_not_lt hlt
    rw [at?_of_le name hbeyond] at h
    obtain ⟨argument, hfound, rfl⟩ := Option.map_eq_some_iff.mp h
    have hname : argument.name = name := by simpa using List.find?_some hfound
    rw [← hname]
    exact .inr ⟨hbeyond, List.mem_of_find?_eq_some hfound⟩

end Arguments

namespace Call

variable {call : Call} {index : Nat} {name : String}

/-! ## Kinds of arguments -/

section

variable (hw : call.signature.WellFormed) (h : call.Acceptable) {kind : Kind}
  (hkinds : ∀ parameter ∈ call.signature.parameters, parameter.kind = kind)

include hw h hkinds

/-- Each argument was sent to a parameter, and is of its kind. -/
theorem Acceptable.kind_eq (slot : call.arguments.Slot) :
    (call.arguments.value slot).kind = kind := by
  obtain ⟨-, hone, hsent⟩ := (acceptable_iff_oneToOne hw).mp h
  -- an accepted call has no argument that was sent to no parameter
  obtain ⟨parameter, ⟨hmem, hslot⟩, -⟩ := hone.sent slot
  rw [hsent parameter hmem slot hslot, hkinds parameter hmem]

/-- Whatever a look-up finds is of this kind. -/
theorem Acceptable.kind_of_at? {value : Value} (hfound : call.arguments.at? index name = some value) :
    value.kind = kind := by
  rw [← Arguments.map_value_slot?] at hfound
  obtain ⟨slot, -, rfl⟩ := Option.map_eq_some_iff.mp hfound
  exact h.kind_eq hw hkinds slot

end

/-! ## The accessors -/

theorem single_eq (call : Call) (index : Nat) (name : String) : call.single index name =
    match call.arguments.at? index name with
    | none => .error (.missingArgument call.exportName name)
    | some (.single number) => .ok number
    | some (.scalar _) => .error (.argumentKind call.exportName name .single .scalar) := by
  rw [single, argument]
  cases call.arguments.at? index name with
  | none => rfl
  | some value => cases value <;> rfl

theorem scalar_eq (call : Call) (index : Nat) (name : String) : call.scalar index name =
    match call.arguments.at? index name with
    | none => .error (.missingArgument call.exportName name)
    | some (.single _) => .error (.argumentKind call.exportName name .scalar .single)
    | some (.scalar object) => .ok object := by
  rw [scalar, argument]
  cases call.arguments.at? index name with
  | none => rfl
  | some value => cases value <;> rfl

/-- What is asked for by an index and a name is a number or nothing. -/
structure HoldsSingles (call : Call) (index : Nat) (name : String) : Prop where
  /-- Asked for as a number, it is never reported to be of another kind. -/
  single : (∃ number, call.single index name = .ok number) ∨
    call.single index name = .error (.missingArgument call.exportName name)
  passed : ∀ number, call.single index name = .ok number →
    call.arguments.positional[index]? = some (.single number) ∨
      call.arguments.positional.length ≤ index ∧ ⟨name, .single number⟩ ∈ call.arguments.named
  missing_iff : call.single index name = .error (.missingArgument call.exportName name) ↔
    call.arguments.positional.length ≤ index ∧
      ∀ argument ∈ call.arguments.named, argument.name ≠ name
  /-- Asked for as a scalar, it is never one. -/
  scalar : ∀ object, call.scalar index name ≠ .ok object
  scalar_kind_iff : call.scalar index name =
    .error (.argumentKind call.exportName name .scalar .single) ↔
      ∃ number, call.single index name = .ok number
  scalar_missing_iff : call.scalar index name = .error (.missingArgument call.exportName name) ↔
    call.single index name = .error (.missingArgument call.exportName name)

/-- It is enough that what a look-up finds is never a scalar. -/
theorem holdsSingles_of_kinds
    (h : ∀ value, call.arguments.at? index name = some value → value.kind = .single) :
    call.HoldsSingles index name := by
  have hmissing : call.arguments.at? index name = none ↔ _ := Arguments.at?_eq_none_iff
  have hpassed : ∀ number, call.single index name = .ok number →
      call.arguments.positional[index]? = some (.single number) ∨
        call.arguments.positional.length ≤ index ∧ ⟨name, .single number⟩ ∈ call.arguments.named :=
    fun _ hnumber => Arguments.passed_of_at? (at?_of_single hnumber)
  have hsingle := call.single_eq index name
  have hscalar := call.scalar_eq index name
  -- both accessors look the same argument up, so one case of the look-up settles all fields
  cases hfound : call.arguments.at? index name with
  | none =>
    rw [hfound] at hmissing hsingle hscalar
    refine ⟨.inr hsingle, hpassed, iff_of_true hsingle (hmissing.mp rfl), ?_, ?_, ?_⟩
    all_goals simp [hsingle, hscalar]
  | some value =>
    cases value with
    | scalar object => cases h _ hfound
    | single number =>
      rw [hfound] at hmissing hsingle hscalar
      refine ⟨.inl ⟨number, hsingle⟩, hpassed, ?_, ?_, ?_, ?_⟩
      · rw [hsingle, ← hmissing]
        exact iff_of_false nofun nofun
      all_goals simp [hsingle, hscalar]

/-- On an accepted call of the catalogue, whatever is asked for, a number is found or nothing. -/
theorem accessors_of_accept {accepted : Call} (hmem : call.signature ∈ Catalogue.signatures)
    (haccept : call.accept = .ok accepted) (index : Nat) (name : String) :
    accepted.HoldsSingles index name := by
  have hw := Catalogue.wellFormed_of_mem hmem
  obtain ⟨rfl, h⟩ := acceptable_of_accept hw haccept
  refine holdsSingles_of_kinds fun value hfound => ?_
  exact h.kind_of_at? hw (fun _ hparameter => Catalogue.kind_eq hmem hparameter) hfound

/-- One half by position, less an infinity by name. -/
def mixed : Call where
  signature := Catalogue.subtract
  receiver := none
  arguments := {
    positional := [.single (.ofBits 0x3F000000)]
    named := [⟨"b", .single (.infinite false)⟩] }

/-- The first parameter is not found under its name, since it was passed by position, and what is
found under the name of none is a number too. -/
theorem accessors_of_accept_mixed :
    mixed.signature ∈ Catalogue.signatures ∧ mixed.accept = .ok mixed ∧
    mixed.single 1 "a" = .error (.missingArgument "subtract" "a") ∧
    mixed.scalar 1 "a" = .error (.missingArgument "subtract" "a") ∧
    mixed.single 0 "" = .ok (.ofBits 0x3F000000) ∧
    mixed.scalar 0 "" = .error (.argumentKind "subtract" "" .scalar .single) ∧
    ∀ object, mixed.scalar 7 "b" ≠ .ok object := by
  have hmem : mixed.signature ∈ Catalogue.signatures := by decide
  have haccept : mixed.accept = .ok mixed := by decide
  have hfirst : mixed.single 0 "" = .ok (.ofBits 0x3F000000) := by decide
  have hmissing := (accessors_of_accept hmem haccept 1 "a").missing_iff.mpr (by decide)
  refine ⟨hmem, haccept, hmissing, ?_, hfirst, ?_, ?_⟩
  · exact (accessors_of_accept hmem haccept 1 "a").scalar_missing_iff.mpr hmissing
  · exact (accessors_of_accept hmem haccept 0 "").scalar_kind_iff.mpr ⟨_, hfirst⟩
  · exact (accessors_of_accept hmem haccept 7 "b").scalar

end Call

end CallGate
