import CallGate.Invocation
import CallGate.Proofs.Saturation

/-!
# Accepted calls are carried out

Between the checks and the operations nothing is lost: what an operation asks for is what was sent
to its parameters.

- `Call.Gives`, `Call.Direct`: the value of the operation that a call names, on the receiver and on
  the numbers sent to its parameters, whatever way they were passed.
- `Call.exists_direct`, `Call.invoke_of_direct`: an acceptable call of the catalogue has such a
  value, which is of the declared kind, and is answered with it.
- `Call.Settled`, `Call.accept_suffices`: what accepting a call promises, and where the faults of
  requests come from.
- `Request.Saturated`, `Request.serve_eq_ok_iff_saturated`: which requests are answered with a
  value, and with which one.
-/

namespace CallGate

/-! ## The catalogue -/

namespace Catalogue

theorem names_nodup : (signatures.map Signature.name).Nodup := by decide

theorem eq_of_name {x y : Signature} (hx : x ∈ signatures) (hy : y ∈ signatures)
    (h : x.name = y.name) : x = y :=
  List.inj_on_of_nodup_map names_nodup hx hy h

/-- Looking a name up finds the one signature that has it. -/
theorem find?_eq_some_iff {name : String} {signature : Signature} :
    find? name = some signature ↔ signature ∈ signatures ∧ signature.name = name :=
  find?_name_eq_some_iff names_nodup

/-- Methods are called on scalars. -/
theorem receiver_eq {signature : Signature} (h : signature ∈ signatures) :
    signature.receiver = if signature.role = .method then some .scalar else none := by
  have hall : ∀ signature ∈ signatures,
      signature.receiver = if signature.role = .method then some .scalar else none := by decide
  exact hall signature h

theorem eq_of_mem {signature : Signature} (h : signature ∈ signatures) :
    signature = create ∨ signature = add ∨ signature = multiply ∨ signature = subtract := by
  simpa [signatures] using h

/-- All parameters are numbers. -/
theorem kind_eq {signature : Signature} (h : signature ∈ signatures) {parameter : Parameter}
    (hmem : parameter ∈ signature.parameters) : parameter.kind = .single := by
  have hall : ∀ signature ∈ signatures, ∀ parameter ∈ signature.parameters,
      parameter.kind = .single := by decide
  exact hall signature h parameter hmem

end Catalogue

namespace Call

/-! ## What operations ask for -/

/-- What goes on after a step that did not fail has its value. -/
theorem exists_of_bind {α β : Type} {first : Except Fault α} {next : α → Except Fault β} {b : β}
    (h : (first >>= next) = .ok b) : ∃ a, first = .ok a ∧ next a = .ok b := by
  cases first with
  | error fault => cases h
  | ok a => exact ⟨a, rfl, h⟩

theorem invoke_create {call : Call} (h : call.exportName = "create") :
    call.invoke = (call.single 0 "a").map fun a => .scalar ⟨a⟩ := by
  rw [invoke, h]
  show call.perform .create = _
  rw [perform]
  cases call.single 0 "a" <;> rfl

theorem invoke_add {call : Call} (h : call.exportName = "add") :
    call.invoke = call.receiverScalar.bind fun object =>
      (call.single 0 "b").map fun b => .single (object.add b) := by
  rw [invoke, h]
  show call.perform .add = _
  rw [perform]
  cases call.receiverScalar <;> cases call.single 0 "b" <;> rfl

theorem invoke_multiply {call : Call} (h : call.exportName = "mul") :
    call.invoke = call.receiverScalar.bind fun object =>
      (call.single 0 "b").map fun b => .single (object.mul b) := by
  rw [invoke, h]
  show call.perform .multiply = _
  rw [perform]
  cases call.receiverScalar <;> cases call.single 0 "b" <;> rfl

theorem invoke_subtract {call : Call} (h : call.exportName = "subtract") :
    call.invoke = (call.single 0 "a").bind fun a =>
      (call.single 1 "b").map fun b => .single (a.sub b) := by
  rw [invoke, h]
  show call.perform .subtract = _
  rw [perform]
  cases call.single 0 "a" <;> cases call.single 1 "b" <;> rfl

/-- A number is sent to the parameter with a name. -/
def Gives (call : Call) (name : String) (number : Single) : Prop :=
  ∃ parameter ∈ call.signature.parameters, parameter.name = name ∧
    ∃ slot, call.arguments.SentTo parameter slot ∧ call.arguments.value slot = .single number

/-- An operation that asks for a parameter by its index and name gets the number sent there. -/
theorem single_of_gives {call : Call} (hw : call.signature.WellFormed) (hn : call.WellNamed)
    (parameter : Parameter) (hmem : parameter ∈ call.signature.parameters) {number : Single}
    (h : call.Gives parameter.name number) :
    call.single parameter.index parameter.name = .ok number := by
  obtain ⟨other, hother, hname, slot, hsent, hvalue⟩ := h
  -- the parameter of that name is the one with that index
  rw [hw.eq_of_name hother hmem hname] at hsent
  rw [single, argument, hn.at?_of_sentTo hw hmem hsent, hvalue]
  rfl

theorem gives_of_served {call : Call} {parameter : Parameter}
    (hmem : parameter ∈ call.signature.parameters) (hkind : parameter.kind = .single)
    (h : call.Served parameter) : ∃ number, call.Gives parameter.name number := by
  obtain ⟨slot, hsent, hk⟩ := h
  rw [hkind] at hk
  cases hvalue : call.arguments.value slot with
  | single number => exact ⟨number, parameter, hmem, rfl, slot, hsent, hvalue⟩
  | scalar object =>
    rw [hvalue] at hk
    cases hk

theorem receiverScalar_of_eq {call : Call} {expected : Kind} {object : Scalar}
    (hdeclared : call.signature.receiver = some expected)
    (hgiven : call.receiver = some (.scalar object)) : call.receiverScalar = .ok object := by
  rw [receiverScalar, hdeclared, hgiven]
  rfl

/-- Where a scalar is declared, a receiver that fits is one. -/
theorem exists_object_of_fits {call : Call} (h : call.ReceiverFits)
    (hdeclared : call.signature.receiver = some .scalar) :
    ∃ object, call.receiver = some (.scalar object) := by
  rw [ReceiverFits, hdeclared, Option.map_eq_some_iff] at h
  obtain ⟨value, hgiven, hkind⟩ := h
  cases value with
  | single number => cases hkind
  | scalar object => exact ⟨object, hgiven⟩

/-- A number that is fetched was found as one. -/
theorem at?_of_single {call : Call} {i : Nat} {name : String} {number : Single}
    (h : call.single i name = .ok number) :
    call.arguments.at? i name = some (.single number) := by
  rw [single, argument] at h
  cases hfound : call.arguments.at? i name with
  | none =>
    rw [hfound] at h
    cases h
  | some value =>
    rw [hfound] at h
    cases value with
    | single found =>
      cases h
      rfl
    | scalar object => cases h

/-- A scalar that is fetched as the receiver was given as one. -/
theorem receiver_of_receiverScalar {call : Call} {object : Scalar}
    (h : call.receiverScalar = .ok object) : call.receiver = some (.scalar object) := by
  rw [receiverScalar] at h
  cases hdeclared : call.signature.receiver with
  | none =>
    rw [hdeclared] at h
    cases h
  | some expected =>
    cases hgiven : call.receiver with
    | none =>
      rw [hdeclared, hgiven] at h
      cases h
    | some value =>
      rw [hdeclared, hgiven] at h
      cases value with
      | single number => cases h
      | scalar found =>
        cases h
        rfl

/-! ## Direct values -/

/-- The value of the operation that a call names, on what was sent to its parameters. -/
inductive Direct (call : Call) : Value → Prop
  | create {a : Single} (name : call.exportName = "create") (first : call.Gives "a" a) :
      Direct call (.scalar ⟨a⟩)
  | add {object : Scalar} {b : Single} (name : call.exportName = "add")
      (receiver : call.receiver = some (.scalar object)) (first : call.Gives "b" b) :
      Direct call (.single (object.add b))
  | multiply {object : Scalar} {b : Single} (name : call.exportName = "mul")
      (receiver : call.receiver = some (.scalar object)) (first : call.Gives "b" b) :
      Direct call (.single (object.mul b))
  | subtract {a b : Single} (name : call.exportName = "subtract") (first : call.Gives "a" a)
      (second : call.Gives "b" b) :
      Direct call (.single (a.sub b))

/-- An acceptable call of the catalogue gives a number to each of its parameters. -/
theorem Acceptable.exists_gives {call : Call} (h : call.Acceptable)
    (hmem : call.signature ∈ Catalogue.signatures) {parameter : Parameter}
    (hparameter : parameter ∈ call.signature.parameters) :
    ∃ number, call.Gives parameter.name number :=
  gives_of_served hparameter (Catalogue.kind_eq hmem hparameter) (h.served parameter hparameter)

/-- An acceptable call of the catalogue names an operation, and has a value of the kind that its
signature declares. -/
theorem exists_direct {call : Call} (hmem : call.signature ∈ Catalogue.signatures)
    (h : call.Acceptable) :
    ∃ operation value, Operation.ofName? call.exportName = some operation ∧ call.Direct value ∧
      value.kind = call.signature.result := by
  have hgives : ∀ parameter ∈ call.signature.parameters,
      ∃ number, call.Gives parameter.name number := fun _ hp => h.exists_gives hmem hp
  have hobject := exists_object_of_fits h.receiver
  -- one case for each export; the signature of each has to be a constructor application
  obtain ⟨signature, receiver, arguments⟩ := call
  rcases Catalogue.eq_of_mem hmem with rfl | rfl | rfl | rfl
  · obtain ⟨a, ha⟩ := hgives _ List.mem_cons_self
    exact ⟨.create, _, rfl, .create rfl ha, rfl⟩
  · obtain ⟨object, hreceiver⟩ := hobject rfl
    obtain ⟨b, hb⟩ := hgives _ List.mem_cons_self
    exact ⟨.add, _, rfl, .add rfl hreceiver hb, rfl⟩
  · obtain ⟨object, hreceiver⟩ := hobject rfl
    obtain ⟨b, hb⟩ := hgives _ List.mem_cons_self
    exact ⟨.multiply, _, rfl, .multiply rfl hreceiver hb, rfl⟩
  · obtain ⟨a, ha⟩ := hgives _ List.mem_cons_self
    obtain ⟨b, hb⟩ := hgives _ (List.mem_cons_of_mem _ List.mem_cons_self)
    exact ⟨.subtract, _, rfl, .subtract rfl ha hb, rfl⟩

/-- Operations ask for their parameters by the indexes and names of the catalogue, so that they get
what was sent there. -/
theorem invoke_of_direct {call : Call} (hmem : call.signature ∈ Catalogue.signatures)
    (h : call.Acceptable) {value : Value} (hdirect : call.Direct value) :
    call.invoke = .ok value := by
  have hw := Catalogue.wellFormed_of_mem hmem
  have hn := h.named
  -- the name of the operation tells the signature, and with it the parameters asked for
  have hsignature : ∀ signature ∈ Catalogue.signatures, call.exportName = signature.name →
      call.signature = signature := fun signature hs hname => Catalogue.eq_of_name hmem hs hname
  cases hdirect with
  | create name first =>
    have hs : call.signature = Catalogue.create := hsignature _ (by decide) name
    have ha := single_of_gives hw hn ⟨0, "a", _, .single⟩
      (by rw [hs]; exact List.mem_cons_self) first
    rw [invoke_create name, ha]
    rfl
  | add name receiver first =>
    have hs : call.signature = Catalogue.add := hsignature _ (by decide) name
    have hb := single_of_gives hw hn ⟨0, "b", _, .single⟩
      (by rw [hs]; exact List.mem_cons_self) first
    have hobject := receiverScalar_of_eq
      (show call.signature.receiver = some .scalar by rw [hs]; rfl) receiver
    rw [invoke_add name, hobject, hb]
    rfl
  | multiply name receiver first =>
    have hs : call.signature = Catalogue.multiply := hsignature _ (by decide) name
    have hb := single_of_gives hw hn ⟨0, "b", _, .single⟩
      (by rw [hs]; exact List.mem_cons_self) first
    have hobject := receiverScalar_of_eq
      (show call.signature.receiver = some .scalar by rw [hs]; rfl) receiver
    rw [invoke_multiply name, hobject, hb]
    rfl
  | subtract name first second =>
    have hs : call.signature = Catalogue.subtract := hsignature _ (by decide) name
    have ha := single_of_gives hw hn ⟨0, "a", _, .single⟩
      (by rw [hs]; exact List.mem_cons_self) first
    have hb := single_of_gives hw hn ⟨1, "b", _, .single⟩
      (by rw [hs]; exact List.mem_cons_of_mem _ List.mem_cons_self) second
    rw [invoke_subtract name, ha, hb]
    rfl

/-- Invocation of an acceptable call returns its direct value and nothing else. -/
theorem invoke_eq_ok_iff_direct {call : Call} (hmem : call.signature ∈ Catalogue.signatures)
    (h : call.Acceptable) {value : Value} : call.invoke = .ok value ↔ call.Direct value := by
  constructor
  · intro hinvoke
    -- the call has some direct value, and invocation returns that one
    obtain ⟨-, other, -, hdirect, -⟩ := exists_direct hmem h
    rw [invoke_of_direct hmem h hdirect] at hinvoke
    cases hinvoke
    exact hdirect
  · exact invoke_of_direct hmem h

/-! ## The order of named arguments -/

/-- A call with other named arguments. -/
def withNamed (call : Call) (named : List (NamedArgument Value)) : Call :=
  { call with arguments := { call.arguments with named } }

section

variable {call : Call} {named : List (NamedArgument Value)}
  (hperm : named.Perm call.arguments.named)

include hperm

/-- What is sent to a parameter does not depend on the order. -/
theorem exists_sentTo_perm {parameter : Parameter} {value : Value}
    (h : ∃ slot, call.arguments.SentTo parameter slot ∧ call.arguments.value slot = value) :
    ∃ slot, (call.withNamed named).arguments.SentTo parameter slot ∧
      (call.withNamed named).arguments.value slot = value := by
  rw [Arguments.exists_sentTo_iff] at h ⊢
  exact h.imp_right hperm.mem_iff.mpr

/-- Whether names are given twice, or for a place already taken, is not a matter of order. -/
theorem WellNamed.perm : (call.withNamed named).WellNamed ↔ call.WellNamed := by
  have hdistinct : (named.map NamedArgument.name).Nodup ↔
      (call.arguments.named.map NamedArgument.name).Nodup := (hperm.map _).nodup_iff
  constructor
  · intro h
    exact ⟨hdistinct.mp h.distinct, fun argument hmem => h.free argument (hperm.mem_iff.mpr hmem)⟩
  · intro h
    exact ⟨hdistinct.mpr h.distinct, fun argument hmem => h.free argument (hperm.mem_iff.mp hmem)⟩

/-- Nor is whether a call is acceptable. -/
theorem Acceptable.perm (h : call.Acceptable) : (call.withNamed named).Acceptable where
  receiver := h.receiver
  count := by
    show call.arguments.positional.length + named.length ≤ call.signature.parameters.length
    rw [hperm.length_eq]
    exact h.count
  named := (WellNamed.perm hperm).mpr h.named
  served parameter hmem := by
    obtain ⟨slot, hsent, hkind⟩ := h.served parameter hmem
    -- the argument may be at another place of the list, with the same value
    obtain ⟨other, hother, hvalue⟩ := exists_sentTo_perm hperm ⟨slot, hsent, rfl⟩
    exact ⟨other, hother, by rw [hvalue, hkind]⟩

theorem Gives.perm {name : String} {number : Single} (h : call.Gives name number) :
    (call.withNamed named).Gives name number := by
  obtain ⟨parameter, hmem, hname, hsent⟩ := h
  exact ⟨parameter, hmem, hname, exists_sentTo_perm hperm hsent⟩

theorem Direct.perm {value : Value} (h : call.Direct value) :
    (call.withNamed named).Direct value := by
  cases h with
  | create name first => exact .create name (first.perm hperm)
  | add name receiver first => exact .add name receiver (first.perm hperm)
  | multiply name receiver first => exact .multiply name receiver (first.perm hperm)
  | subtract name first second => exact .subtract name (first.perm hperm) (second.perm hperm)

end

end Call

/-! ## Requests -/

namespace Request

/-- The call of a signature that a request makes. -/
def callOf (request : Request) (signature : Signature) : Call :=
  ⟨signature, request.receiver, request.arguments⟩

/-- A request with other named arguments. -/
def withNamed (request : Request) (named : List (NamedArgument Value)) : Request :=
  { request with arguments := { request.arguments with named } }

/-- A request for what is not exported is rejected with the list of exports. -/
theorem serve_of_find?_none {request : Request} (h : Catalogue.find? request.name = none) :
    request.serve = .error (.unknownExport request.name Catalogue.names) := by
  simp [serve, accept, Request.signature, h, bind, Except.bind]

theorem serve_of_find? {request : Request} {signature : Signature}
    (h : Catalogue.find? request.name = some signature) :
    request.serve = (request.callOf signature).accept.bind Call.invoke := by
  simp [serve, accept, Request.signature, h, bind, Except.bind, callOf]

end Request

/-! ## What accepting a call promises -/

namespace Call

/-- No argument of a call is lost, none is used twice, and the receiver is at hand. -/
structure Settled (call : Call) : Prop where
  /-- Each parameter gets an argument when it is asked for as its kind. -/
  fetched : ∀ parameter ∈ call.signature.parameters, ∃ slot,
    call.arguments.slot? parameter.index parameter.name = some slot ∧
      call.fetch parameter = .ok (call.arguments.value slot)
  /-- Each argument is the one that exactly one parameter gets. -/
  used : ∀ slot, ∃! parameter, parameter ∈ call.signature.parameters ∧
    call.arguments.slot? parameter.index parameter.name = some slot
  receiver : call.signature.receiver = some .scalar →
    ∃ object, call.receiver = some (.scalar object) ∧ call.receiverScalar = .ok object
  noReceiver : call.signature.receiver = none →
    call.receiverScalar = .error (.unexpectedReceiver call.exportName call.signature.role)

/-- Checks that pass leave nothing open for the invocation. -/
theorem Acceptable.settled {call : Call} (hw : call.signature.WellFormed)
    (h : call.Acceptable) : call.Settled where
  fetched parameter hmem := by
    obtain ⟨slot, hsent, hkind⟩ := h.served parameter hmem
    exact ⟨slot, (h.named.slot?_eq_some_iff hw hmem).mpr hsent,
      fetch_of_sentTo hw h.named hmem hsent hkind⟩
  used slot := by
    -- arguments and parameters are one to one, and what a parameter gets is what was sent to it
    obtain ⟨parameter, ⟨hmem, hsent⟩, hunique⟩ := (h.oneToOne hw).sent slot
    refine ⟨parameter, ⟨hmem, (h.named.slot?_eq_some_iff hw hmem).mpr hsent⟩, ?_⟩
    rintro other ⟨hother, hslot⟩
    exact hunique other ⟨hother, (h.named.slot?_eq_some_iff hw hother).mp hslot⟩
  receiver hdeclared := by
    obtain ⟨object, hgiven⟩ := exists_object_of_fits h.receiver hdeclared
    exact ⟨object, hgiven, receiverScalar_of_eq hdeclared hgiven⟩
  noReceiver hdeclared := by
    unfold receiverScalar
    rw [hdeclared]

/-- An accepted call is settled. One of the catalogue names an operation, which returns a value of
the declared kind. So a request fails only for want of an export, or by a check. -/
theorem accept_suffices :
    (∀ call accepted : Call, call.signature.WellFormed → call.accept = .ok accepted →
      accepted = call ∧ accepted.Settled) ∧
    (∀ call accepted : Call, call.signature ∈ Catalogue.signatures →
      call.accept = .ok accepted →
      ∃ operation value, Operation.ofName? accepted.exportName = some operation ∧
        accepted.invoke = .ok value ∧ value.kind = accepted.signature.result) ∧
    ∀ (request : Request) (fault : Fault), request.serve = .error fault →
      (Catalogue.find? request.name = none ∧
        fault = .unknownExport request.name Catalogue.names) ∨
      ∃ signature, Catalogue.find? request.name = some signature ∧
        (request.callOf signature).accept = .error fault := by
  have hinvoke : ∀ call accepted : Call, call.signature ∈ Catalogue.signatures →
      call.accept = .ok accepted →
      ∃ operation value, Operation.ofName? accepted.exportName = some operation ∧
        accepted.invoke = .ok value ∧ value.kind = accepted.signature.result := by
    intro call accepted hmem haccept
    obtain ⟨rfl, h⟩ := acceptable_of_accept (Catalogue.wellFormed_of_mem hmem) haccept
    obtain ⟨operation, value, hname, hdirect, hkind⟩ := exists_direct hmem h
    exact ⟨operation, value, hname, invoke_of_direct hmem h hdirect, hkind⟩
  refine ⟨?_, hinvoke, ?_⟩
  · intro call accepted hw haccept
    obtain ⟨rfl, h⟩ := acceptable_of_accept hw haccept
    exact ⟨rfl, h.settled hw⟩
  · intro request fault hserve
    -- a request is looked up, then checked, then invoked, and only the first two can fail
    cases hfind : Catalogue.find? request.name with
    | none =>
      rw [Request.serve_of_find?_none hfind] at hserve
      exact .inl ⟨rfl, (Except.error.inj hserve).symm⟩
    | some signature =>
      refine .inr ⟨signature, rfl, ?_⟩
      rw [Request.serve_of_find? hfind] at hserve
      cases haccept : (request.callOf signature).accept with
      | error other =>
        rw [haccept] at hserve
        exact congrArg _ (Except.error.inj hserve)
      | ok accepted =>
        -- an accepted call does not fail any more
        have hmem := (Catalogue.find?_eq_some_iff.mp hfind).1
        obtain ⟨-, value, -, hvalue, -⟩ := hinvoke _ accepted hmem haccept
        rw [haccept] at hserve
        cases hvalue.symm.trans hserve

/-- A call that is right although its names are in reverse. -/
def blended : Call where
  signature := blend
  receiver := some (.single .nan)
  arguments := {
    positional := [.single .zero]
    named := [⟨"d", .scalar ⟨.nan⟩⟩, ⟨"c", .single .nan⟩, ⟨"b", .scalar ⟨.zero⟩⟩] }

/-- Twice a scalar, where the factor is given by name. -/
def doubled : Call where
  signature := Catalogue.multiply
  receiver := some (.scalar ⟨.finite false ⟨0x3F000000, by decide⟩⟩)
  arguments := { named := [⟨"b", .single (.finite false ⟨0x40000000, by decide⟩)⟩] }

theorem settled_blended :
    (blended.signature.WellFormed ∧ blended.accept = .ok blended ∧ blended.Settled) ∧
    (doubled.signature ∈ Catalogue.signatures ∧ doubled.accept = .ok doubled ∧
      ∃ operation value, Operation.ofName? doubled.exportName = some operation ∧
        doubled.invoke = .ok value ∧ value.kind = .single) ∧
    ∃ signature, Catalogue.find? "add" = some signature ∧
      (Request.callOf { name := "add" } signature).accept =
        .error (.missingReceiver "add" .scalar) := by
  have haccept : blended.accept = .ok blended := by decide
  have hdoubled : doubled.accept = .ok doubled := by decide
  have hmem : doubled.signature ∈ Catalogue.signatures := by decide
  have hserve : Request.serve { name := "add" } = .error (.missingReceiver "add" .scalar) := by
    decide
  obtain ⟨hsettled, hinvoke, hfault⟩ := accept_suffices
  refine ⟨⟨wellFormed_blend, haccept, (hsettled _ _ wellFormed_blend haccept).2⟩,
    ⟨hmem, hdoubled, hinvoke _ _ hmem hdoubled⟩, ?_⟩
  exact (hfault _ _ hserve).resolve_left fun h => absurd h.1 (by decide)

end Call

/-! ## Which requests are answered -/

namespace Request

/-- A request names an export of the catalogue, has a scalar as its receiver exactly if that is a
method, and brings numbers only, which go to the parameters one to one. -/
structure Saturated (request : Request) (signature : Signature) : Prop where
  exported : signature ∈ Catalogue.signatures
  name_eq : signature.name = request.name
  receiver : signature.role = .method → ∃ object, request.receiver = some (.scalar object)
  noReceiver : signature.role ≠ .method → request.receiver = none
  singles : ∀ slot, ∃ number, request.arguments.value slot = .single number
  oneToOne : (request.callOf signature).OneToOne

/-- In the catalogue methods are what takes a receiver, and it is a scalar. -/
theorem receiverFits_iff {request : Request} {signature : Signature}
    (hmem : signature ∈ Catalogue.signatures) :
    (request.callOf signature).ReceiverFits ↔
      (signature.role = .method → ∃ object, request.receiver = some (.scalar object)) ∧
        (signature.role ≠ .method → request.receiver = none) := by
  show request.receiver.map Value.kind = signature.receiver ↔ _
  rw [Catalogue.receiver_eq hmem]
  by_cases hrole : signature.role = .method
  · rw [if_pos hrole]
    constructor
    · intro h
      refine ⟨fun _ => ?_, fun hnot => absurd hrole hnot⟩
      obtain ⟨value, hgiven, hkind⟩ := Option.map_eq_some_iff.mp h
      cases value with
      | single number => cases hkind
      | scalar object => exact ⟨object, hgiven⟩
    · rintro ⟨h, -⟩
      obtain ⟨object, hgiven⟩ := h hrole
      rw [hgiven]
      rfl
  · rw [if_neg hrole, Option.map_eq_none_iff]
    exact ⟨fun h => ⟨fun hmethod => absurd hmethod hrole, fun _ => h⟩, fun h => h.2 hrole⟩

/-- Saturation is what the checks of the catalogue's exports look for. -/
theorem saturated_iff {request : Request} {signature : Signature} :
    request.Saturated signature ↔
      Catalogue.find? request.name = some signature ∧ (request.callOf signature).Acceptable := by
  rw [Catalogue.find?_eq_some_iff]
  constructor
  · intro h
    have hw : (request.callOf signature).signature.WellFormed :=
      Catalogue.wellFormed_of_mem h.exported
    refine ⟨⟨h.exported, h.name_eq⟩, (Call.acceptable_iff_oneToOne hw).mpr
      ⟨(receiverFits_iff h.exported).mpr ⟨h.receiver, h.noReceiver⟩, h.oneToOne, ?_⟩⟩
    intro parameter hmem slot _
    obtain ⟨number, hvalue⟩ := h.singles slot
    rw [Catalogue.kind_eq h.exported hmem]
    show (request.arguments.value slot).kind = _
    rw [hvalue]
    rfl
  · rintro ⟨⟨hexported, hname⟩, h⟩
    have hw : (request.callOf signature).signature.WellFormed :=
      Catalogue.wellFormed_of_mem hexported
    obtain ⟨hfits, hone, hkinds⟩ := (Call.acceptable_iff_oneToOne hw).mp h
    obtain ⟨hreceiver, hnoReceiver⟩ := (receiverFits_iff hexported).mp hfits
    refine ⟨hexported, hname, hreceiver, hnoReceiver, fun slot => ?_, hone⟩
    -- each argument goes to some parameter, all of which are numbers
    obtain ⟨parameter, ⟨hmem, hsent⟩, -⟩ := hone.sent slot
    have hkind := hkinds parameter hmem slot hsent
    rw [Catalogue.kind_eq hexported hmem] at hkind
    cases hvalue : request.arguments.value slot with
    | single number => exact ⟨number, rfl⟩
    | scalar object =>
      change (request.arguments.value slot).kind = .single at hkind
      rw [hvalue] at hkind
      cases hkind

/-- A request is answered by the direct value of the call that it saturates. -/
theorem serve_eq_ok_iff_direct {request : Request} {value : Value} :
    request.serve = .ok value ↔
      ∃ signature, request.Saturated signature ∧ (request.callOf signature).Direct value := by
  constructor
  · intro hserve
    cases hfind : Catalogue.find? request.name with
    | none =>
      rw [serve_of_find?_none hfind] at hserve
      cases hserve
    | some signature =>
      have hmem := (Catalogue.find?_eq_some_iff.mp hfind).1
      rw [serve_of_find? hfind] at hserve
      cases haccept : (request.callOf signature).accept with
      | error fault =>
        rw [haccept] at hserve
        cases hserve
      | ok accepted =>
        -- an accepted call is the one that was checked, and it is acceptable
        obtain ⟨rfl, h⟩ := Call.acceptable_of_accept (Catalogue.wellFormed_of_mem hmem) haccept
        rw [haccept] at hserve
        exact ⟨signature, saturated_iff.mpr ⟨hfind, h⟩,
          (Call.invoke_eq_ok_iff_direct hmem h).mp hserve⟩
  · rintro ⟨signature, hsaturated, hdirect⟩
    obtain ⟨hfind, h⟩ := saturated_iff.mp hsaturated
    have hmem := hsaturated.exported
    rw [serve_of_find? hfind, Call.accept_of_acceptable (Catalogue.wellFormed_of_mem hmem) h]
    exact Call.invoke_of_direct hmem h hdirect

/-- One direction is enough, since the old order is a permutation of the new one. -/
theorem withNamed_perm_imp (request : Request) {named : List (NamedArgument Value)}
    (hperm : named.Perm request.arguments.named) {value : Value}
    (h : request.serve = .ok value) : (request.withNamed named).serve = .ok value := by
  obtain ⟨signature, hsaturated, hdirect⟩ := serve_eq_ok_iff_direct.mp h
  obtain ⟨hfind, hacceptable⟩ := saturated_iff.mp hsaturated
  have hperm' : named.Perm (request.callOf signature).arguments.named := hperm
  exact serve_eq_ok_iff_direct.mpr
    ⟨signature, saturated_iff.mpr ⟨hfind, hacceptable.perm hperm'⟩, hdirect.perm hperm'⟩

/-- A request is answered with a value exactly if it is saturated, and then with that of the
operation it names, on its receiver and on the numbers sent to the parameters. The order of named
arguments plays no part. -/
theorem serve_eq_ok_iff_saturated (request : Request) :
    ((∃ value, request.serve = .ok value) ↔ ∃ signature, request.Saturated signature) ∧
    (∀ value, request.serve = .ok value ↔
      ∃ signature, request.Saturated signature ∧ (request.callOf signature).Direct value) ∧
    ∀ named : List (NamedArgument Value), named.Perm request.arguments.named →
      ∀ value, (request.withNamed named).serve = .ok value ↔ request.serve = .ok value := by
  refine ⟨⟨?_, ?_⟩, fun value => serve_eq_ok_iff_direct, fun named hperm value => ⟨?_, ?_⟩⟩
  · rintro ⟨value, hserve⟩
    obtain ⟨signature, hsaturated, -⟩ := serve_eq_ok_iff_direct.mp hserve
    exact ⟨signature, hsaturated⟩
  · rintro ⟨signature, hsaturated⟩
    obtain ⟨-, h⟩ := saturated_iff.mp hsaturated
    have hmem : (request.callOf signature).signature ∈ Catalogue.signatures := hsaturated.exported
    obtain ⟨-, value, -, hdirect, -⟩ := Call.exists_direct hmem h
    exact ⟨value, serve_eq_ok_iff_direct.mpr ⟨signature, hsaturated, hdirect⟩⟩
  · intro h
    exact withNamed_perm_imp (request.withNamed named) hperm.symm h
  · exact withNamed_perm_imp request hperm

/-- One half less an infinity, by names in reverse. -/
def swapped : Request where
  name := "subtract"
  arguments := {
    named := [⟨"b", .single (.infinite false)⟩,
      ⟨"a", .single (.finite false ⟨0x3F000000, by decide⟩)⟩] }

theorem swapped_saturated :
    swapped.serve = .ok (.single (.infinite true)) ∧
      (∃ signature, swapped.Saturated signature) ∧
      (swapped.withNamed swapped.arguments.named.reverse).serve =
        .ok (.single (.infinite true)) := by
  have hserve : swapped.serve = .ok (.single (.infinite true)) := by decide
  obtain ⟨hiff, -, hperm⟩ := serve_eq_ok_iff_saturated swapped
  exact ⟨hserve, hiff.mp ⟨_, hserve⟩,
    (hperm _ (List.reverse_perm swapped.arguments.named) _).mpr hserve⟩

end Request

end CallGate
