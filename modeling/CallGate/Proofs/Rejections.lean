import CallGate.Proofs.Kinds

/-!
# What requests are rejected for

A request is rejected for want of an export or by a check, and every detail of the fault but a name
or a count comes from the catalogue.

- `Request.serve_error_cases`: where the faults of requests come from.
- `Fault.Issued`: the faults of requests, by their details alone.
- `Fault.exportName?`: the export that a fault names.
- `Request.issued_of_serve`: what a request is rejected for is such a fault, and it names the export
  that was asked for.
- `Call.details_of_repeatedArgument`, `Call.details_of_unknownParameter`,
  `Call.details_of_tooManyArguments`: the names and counts in a fault are those of the call.
- `Call.accept_eq_unknownParameter_iff`: a name that no parameter has is reported for its first
  place, if nothing comes before it.
-/

namespace CallGate

/-! ## Faults of the catalogue -/

/-- The faults that requests are rejected for: an export is one of the catalogue, a parameter is one
of the export's, and kinds are the declared ones. What a host makes up is a name that is not known,
a count that is too large, or the kind of a value. -/
inductive Fault.Issued : Fault → Prop
  | unknownExport {name : String} (unknown : name ∉ Catalogue.names) :
      Issued (.unknownExport name Catalogue.names)
  | tooManyArguments {signature : Signature} (listed : signature ∈ Catalogue.signatures) {got : Nat}
      (exceeds : signature.parameters.length < got) :
      Issued (.tooManyArguments signature.name signature.parameters.length got)
  | missingArgument {signature : Signature} (listed : signature ∈ Catalogue.signatures)
      {parameter : Parameter} (mem : parameter ∈ signature.parameters) :
      Issued (.missingArgument signature.name parameter.name)
  | argumentKind {signature : Signature} (listed : signature ∈ Catalogue.signatures)
      {parameter : Parameter} (mem : parameter ∈ signature.parameters) {got : CallGate.Kind}
      (other : got ≠ parameter.kind) :
      Issued (.argumentKind signature.name parameter.name parameter.kind got)
  | repeatedArgument {signature : Signature} (listed : signature ∈ Catalogue.signatures)
      {parameter : Parameter} (mem : parameter ∈ signature.parameters) :
      Issued (.repeatedArgument signature.name parameter.name)
  | unknownParameter {signature : Signature} (listed : signature ∈ Catalogue.signatures)
      {name : String} (unknown : ∀ parameter ∈ signature.parameters, parameter.name ≠ name) :
      Issued (.unknownParameter signature.name name)
  | missingReceiver {signature : Signature} (listed : signature ∈ Catalogue.signatures)
      {expected : CallGate.Kind} (declared : signature.receiver = some expected) :
      Issued (.missingReceiver signature.name expected)
  | receiverKind {signature : Signature} (listed : signature ∈ Catalogue.signatures)
      {expected got : CallGate.Kind} (declared : signature.receiver = some expected)
      (other : got ≠ expected) :
      Issued (.receiverKind signature.name expected got)
  | unexpectedReceiver {signature : Signature} (listed : signature ∈ Catalogue.signatures)
      (declared : signature.receiver = none) :
      Issued (.unexpectedReceiver signature.name signature.role)

/-- The export that a fault names, if there is one of the name. -/
def Fault.exportName? : Fault → Option String
  | .unknownExport .. => none
  | .tooManyArguments exportName .. => some exportName
  | .missingArgument exportName .. => some exportName
  | .argumentKind exportName .. => some exportName
  | .repeatedArgument exportName .. => some exportName
  | .unknownParameter exportName .. => some exportName
  | .missingReceiver exportName .. => some exportName
  | .receiverKind exportName .. => some exportName
  | .unexpectedReceiver exportName .. => some exportName
  | .unwritable .. => none

/-! ## Where faults come from -/

theorem Catalogue.find?_eq_none_iff {name : String} : find? name = none ↔ name ∉ names := by
  rw [find?, names, List.find?_eq_none, List.mem_map]
  constructor
  · rintro h ⟨signature, hmem, hname⟩
    exact h signature hmem (by simpa using hname)
  · intro h signature hmem hname
    exact h ⟨signature, hmem, by simpa using hname⟩

namespace Call

/-- The fault of a call of the catalogue has its details from there. -/
theorem Verdict.issued {call : Call} (hmem : call.signature ∈ Catalogue.signatures) {fault : Fault}
    (h : call.Verdict (.error fault)) :
    fault.Issued ∧ fault.exportName? = some call.exportName := by
  cases h with
  | missingReceiver declared given => exact ⟨.missingReceiver hmem declared, rfl⟩
  | receiverKind declared given other => exact ⟨.receiverKind hmem declared other, rfl⟩
  | unexpectedReceiver declared given => exact ⟨.unexpectedReceiver hmem declared, rfl⟩
  | tooManyArguments receiver count =>
    exact ⟨.tooManyArguments hmem (Nat.lt_of_not_le count), rfl⟩
  | unknownParameter receiver count misnamed first unknown =>
    exact ⟨.unknownParameter hmem unknown, rfl⟩
  | repeatedArgument receiver count misnamed first known =>
    -- a name that is reported as repeated is that of a parameter
    obtain ⟨parameter, hparameter, hname⟩ := known
    rw [← hname]
    exact ⟨.repeatedArgument hmem hparameter, rfl⟩
  | missingArgument receiver count named mem first unsent =>
    exact ⟨.missingArgument hmem mem, rfl⟩
  | argumentKind receiver count named mem first sent other =>
    exact ⟨.argumentKind hmem mem other, rfl⟩

/-- A name that is reported as given twice is that of a parameter. -/
theorem details_of_repeatedArgument {call : Call} (hw : call.signature.WellFormed)
    {exportName name : String} (h : call.accept = .error (.repeatedArgument exportName name)) :
    ∃ parameter ∈ call.signature.parameters, parameter.name = name := by
  have hverdict := verdict_accept hw
  rw [h] at hverdict
  cases hverdict with
  | repeatedArgument receiver count misnamed first known => exact known

/-- A name that is reported as unknown is that of an argument, and of no parameter. -/
theorem details_of_unknownParameter {call : Call} (hw : call.signature.WellFormed)
    {exportName name : String} (h : call.accept = .error (.unknownParameter exportName name)) :
    (∃ j, call.arguments.nameAt j = name) ∧
      ∀ parameter ∈ call.signature.parameters, parameter.name ≠ name := by
  have hverdict := verdict_accept hw
  rw [h] at hverdict
  cases hverdict with
  | unknownParameter receiver count misnamed first unknown => exact ⟨⟨_, rfl⟩, unknown⟩

/-- The counts that are reported are those of the parameters and of the arguments. -/
theorem details_of_tooManyArguments {call : Call} (hw : call.signature.WellFormed)
    {exportName : String} {max got : Nat}
    (h : call.accept = .error (.tooManyArguments exportName max got)) :
    max = call.signature.parameters.length ∧ got = call.arguments.count := by
  have hverdict := verdict_accept hw
  rw [h] at hverdict
  cases hverdict with
  | tooManyArguments receiver count => exact ⟨rfl, rfl⟩

/-- A name that no parameter has is reported as unknown, and that for its first place, exactly if
the receiver and the count fit and no argument before is at fault. -/
theorem accept_eq_unknownParameter_iff {call : Call} (hw : call.signature.WellFormed)
    {j : Fin call.arguments.named.length}
    (hunknown : ∀ parameter ∈ call.signature.parameters,
      parameter.name ≠ call.arguments.nameAt j)
    (hfirst : ∀ i < j, call.arguments.nameAt i ≠ call.arguments.nameAt j) :
    call.accept = .error (.unknownParameter call.exportName (call.arguments.nameAt j)) ↔
      call.ReceiverFits ∧ call.CountFits ∧ ∀ i < j, ¬ call.Misnamed i := by
  constructor
  · intro h
    have hverdict := verdict_accept hw
    rw [h] at hverdict
    generalize hfault : Fault.unknownParameter call.exportName (call.arguments.nameAt j) = fault
      at hverdict
    cases hverdict with
    | @unknownParameter receiver count k misnamed first unknown =>
      -- the place that the scan stopped at is the first one of the name
      have hname : call.arguments.nameAt j = call.arguments.nameAt k := by
        injection hfault
      refine ⟨receiver, count, ?_⟩
      intro i hi
      refine first i (lt_of_lt_of_le hi (le_of_not_gt ?_))
      intro hk
      exact hfirst k hk hname.symm
    | _ => cases hfault
  · rintro ⟨receiver, count, first⟩
    exact accept_of_verdict hw
      (.unknownParameter receiver count (.inr (.inl hunknown)) first hunknown)

end Call

namespace Request

theorem wellFormed_of_find? {request : Request} {signature : Signature}
    (hfind : Catalogue.find? request.name = some signature) :
    (request.callOf signature).signature.WellFormed :=
  Catalogue.wellFormed_of_mem (Catalogue.find?_eq_some_iff.mp hfind).1

/-- A request for an export fails by the checks: an accepted call does not fail any more. -/
theorem accept_eq_error_of_serve {request : Request} {signature : Signature} {fault : Fault}
    (hfind : Catalogue.find? request.name = some signature) (h : request.serve = .error fault) :
    (request.callOf signature).accept = .error fault := by
  have hmem := (Catalogue.find?_eq_some_iff.mp hfind).1
  rw [serve_of_find? hfind] at h
  cases haccept : (request.callOf signature).accept with
  | error other =>
    rw [haccept] at h
    exact congrArg _ (Except.error.inj h)
  | ok accepted =>
    obtain ⟨value, hvalue, -⟩ := Call.exists_invoke_of_accept hmem haccept
    cases hvalue.symm.trans h

/-- Requests fail by the look-up or by the checks. -/
theorem serve_error_cases {request : Request} {fault : Fault} (h : request.serve = .error fault) :
    (Catalogue.find? request.name = none ∧
      fault = .unknownExport request.name Catalogue.names) ∨
    ∃ signature, Catalogue.find? request.name = some signature ∧
      (request.callOf signature).accept = .error fault := by
  cases hfind : Catalogue.find? request.name with
  | none =>
    rw [serve_of_find?_none hfind] at h
    exact .inl ⟨rfl, (Except.error.inj h).symm⟩
  | some signature => exact .inr ⟨signature, rfl, accept_eq_error_of_serve hfind h⟩

/-- What a request is rejected for. A fault names the export that was asked for, unless there is
none of that name. -/
theorem issued_of_serve {request : Request} {fault : Fault} (h : request.serve = .error fault) :
    fault.Issued ∧
      ((Catalogue.find? request.name = none ∧
          fault = .unknownExport request.name Catalogue.names) ∨
        request.name ∈ Catalogue.names ∧ fault.exportName? = some request.name) := by
  rcases serve_error_cases h with ⟨hfind, rfl⟩ | ⟨signature, hfind, haccept⟩
  · exact ⟨.unknownExport (Catalogue.find?_eq_none_iff.mp hfind), .inl ⟨hfind, rfl⟩⟩
  · obtain ⟨hmem, hname⟩ := Catalogue.find?_eq_some_iff.mp hfind
    have hverdict := Call.verdict_accept (wellFormed_of_find? hfind)
    rw [haccept] at hverdict
    obtain ⟨hissued, hexport⟩ := hverdict.issued hmem
    refine ⟨hissued, .inr ⟨?_, ?_⟩⟩
    · rw [← hname]
      exact List.mem_map_of_mem hmem
    · rw [hexport, ← hname]
      rfl

end Request

end CallGate
