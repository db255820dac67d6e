import CallGate.Proofs.Passing

/-!
# The order of named arguments

The scan of the names stops at its first fault and a look-up takes the first match, and yet the
order in which named arguments are given shows in nothing but the name that a rejection is for.

- `Call.checkNames_cons_cases`, `Call.checkNames_cases`: what a step of the scan comes to, and the
  whole scan, whatever the signature.
- `Call.WellNamed.agree`: from well-named arguments each parameter gets the same in any order.
- `Call.exists_fault_of_not_wellNamed`: the scan finds fault with arguments that are not, in any
  order, if not the same fault.
- `Request.OrderFree`: an answer that is not a fault of a name.
- `Request.serve_perm`: such an answer is the same in any order.
-/

namespace CallGate

/-- A fault that the scan of the names reports. -/
def Fault.OfNames (fault : Fault) : Prop :=
  fault.kind = .repeatedArgument ∨ fault.kind = .unknownParameter

namespace Call

/-! ## What the scan comes to -/

/-- At a name the scan goes on, if the name is new to it and free, or it finds fault with the
name. -/
theorem checkNames_cons_cases (call : Call) (seen : List String) (argument : NamedArgument Value)
    (rest : List (NamedArgument Value)) :
    (argument.name ∉ seen ∧ call.Free argument.name ∧
      call.checkNames seen (argument :: rest) = call.checkNames (argument.name :: seen) rest) ∨
    ∃ fault, call.checkNames seen (argument :: rest) = .error fault ∧ fault.OfNames := by
  rw [checkNames]
  by_cases hseen : argument.name ∈ seen
  · rw [if_pos hseen]
    exact .inr ⟨_, rfl, .inl rfl⟩
  · rw [if_neg hseen]
    cases hp : call.signature.parameter? argument.name with
    | none => exact .inr ⟨_, rfl, .inr rfl⟩
    | some parameter =>
      obtain ⟨hmem, hname⟩ := Signature.mem_of_parameter? hp
      dsimp only
      by_cases htaken : parameter.index < call.arguments.positional.length
      · rw [if_pos htaken]
        exact .inr ⟨_, rfl, .inl rfl⟩
      · rw [if_neg htaken]
        exact .inl ⟨hseen, ⟨parameter, hmem, hname, Nat.le_of_not_lt htaken⟩, rfl⟩

/-- The scan passes over names that are new to it, different and free, or finds fault with one. -/
theorem checkNames_cases (call : Call) (seen : List String) (named : List (NamedArgument Value)) :
    (call.checkNames seen named = .ok () ∧ (named.map NamedArgument.name).Nodup ∧
      ∀ argument ∈ named, argument.name ∉ seen ∧ call.Free argument.name) ∨
    ∃ fault, call.checkNames seen named = .error fault ∧ fault.OfNames := by
  induction named generalizing seen with
  | nil => exact .inl ⟨rfl, List.nodup_nil, nofun⟩
  | cons argument rest ih =>
    rcases call.checkNames_cons_cases seen argument rest with ⟨hfresh, hfree, hstep⟩ | hfault
    · rw [hstep]
      refine (ih (argument.name :: seen)).imp_left fun ⟨hok, hdistinct, hrest⟩ => ⟨hok, ?_, ?_⟩
      · -- the name has been seen now, so that none of the rest is the same
        rw [List.map_cons, List.nodup_cons, List.mem_map]
        refine ⟨?_, hdistinct⟩
        rintro ⟨other, hother, hsame⟩
        exact (hrest other hother).1 (hsame ▸ List.mem_cons_self)
      · intro other hother
        rcases List.mem_cons.mp hother with rfl | hother
        · exact ⟨hfresh, hfree⟩
        · exact (hrest other hother).imp_left fun hnot hseen => hnot (List.mem_cons_of_mem _ hseen)
    · exact .inr hfault

theorem wellNamed_or_fault (call : Call) :
    (call.checkNames [] call.arguments.named = .ok () ∧ call.WellNamed) ∨
    ∃ fault, call.checkNames [] call.arguments.named = .error fault ∧ fault.OfNames :=
  (call.checkNames_cases [] call.arguments.named).imp_left fun ⟨hok, hdistinct, hfree⟩ =>
    ⟨hok, hdistinct, fun argument hargument => (hfree argument hargument).2⟩

/-! ## Well-named arguments -/

/-- Each parameter gets the same from well-named arguments, whatever their order. -/
theorem WellNamed.agree {call : Call} {named : List (NamedArgument Value)}
    (hperm : named.Perm call.arguments.named) (h : call.WellNamed) :
    (call.withNamed named).Agree call where
  signature := rfl
  receiver := rfl
  at? parameter _ := by
    have hnamed : Arguments.named? ⟨call.arguments.positional, named⟩ parameter.name =
        call.arguments.named? parameter.name :=
      congrArg (Option.map NamedArgument.value)
        (find?_name_perm hperm h.distinct parameter.name)
    show Arguments.at? ⟨call.arguments.positional, named⟩ _ _ = _
    rw [Arguments.at?, Arguments.at?, hnamed]

theorem exists_fault_of_not_wellNamed {call : Call} (h : ¬ call.WellNamed) :
    ∃ fault, call.checkNames [] call.arguments.named = .error fault ∧ fault.OfNames :=
  call.wellNamed_or_fault.resolve_left fun hnamed => h hnamed.2

end Call

/-! ## Requests -/

namespace Request

/-- An answer that is no fault of a name. -/
def OrderFree : Except Fault Value → Prop
  | .ok _ => True
  | .error fault => ¬ fault.OfNames

/-- In two orders the checks find nothing different before the scan of the names. Either this finds
no fault in both orders, and then nothing is different after it, or it finds one in both. -/
theorem serve_perm_cases (request : Request) {named : List (NamedArgument Value)}
    (hperm : named.Perm request.arguments.named) :
    (request.withNamed named).serve = request.serve ∨
      (¬ OrderFree (request.withNamed named).serve ∧ ¬ OrderFree request.serve) := by
  cases hfind : Catalogue.find? request.name with
  | none =>
    left
    rw [serve_of_find?_none hfind]
    exact serve_of_find?_none hfind
  | some signature =>
    have hmem := (Catalogue.find?_eq_some_iff.mp hfind).1
    have hw := Catalogue.wellFormed_of_mem hmem
    let call := request.callOf signature
    have hserve : request.serve = call.accept.bind Call.invoke := serve_of_find? hfind
    have hserve' : (request.withNamed named).serve =
        (call.withNamed named).accept.bind Call.invoke := serve_of_find? hfind
    have hcount : (call.withNamed named).arguments.count = call.arguments.count :=
      congrArg (call.arguments.positional.length + ·) hperm.length_eq
    rw [hserve, hserve']
    by_cases hn : call.WellNamed
    · left
      refine (hn.agree hperm).accept_bind_invoke hmem hcount ?_
      rw [Call.checkNames_of_wellNamed hw hn]
      exact Call.checkNames_of_wellNamed hw ((Call.WellNamed.perm hperm).mpr hn)
    · obtain ⟨fault, hfault, hof⟩ := Call.exists_fault_of_not_wellNamed hn
      obtain ⟨fault', hfault', hof'⟩ := Call.exists_fault_of_not_wellNamed
        fun h => hn ((Call.WellNamed.perm hperm).mp h)
      have hreceiver : (call.withNamed named).checkReceiver = call.checkReceiver := rfl
      have hcheckCount : (call.withNamed named).checkCount = call.checkCount := by
        rw [Call.checkCount, Call.checkCount, hcount]
        rfl
      rw [Call.accept_eq, Call.accept_eq, hfault, hfault', hreceiver, hcheckCount]
      -- a fault of the receiver or of the count is found first, and is the same one
      cases call.checkReceiver with
      | error _ => exact .inl rfl
      | ok _ =>
        cases call.checkCount with
        | error _ => exact .inl rfl
        | ok _ => exact .inr ⟨fun h => h hof', fun h => h hof⟩

/-- Requests that differ in the order of their named arguments are answered alike, if one of the
answers is a value or a fault of another kind than those of names. Otherwise both are rejected for a
name. -/
theorem serve_perm (request : Request) {named : List (NamedArgument Value)}
    (hperm : named.Perm request.arguments.named) :
    (OrderFree (request.withNamed named).serve ∨ OrderFree request.serve →
      (request.withNamed named).serve = request.serve) ∧
    (¬ (OrderFree (request.withNamed named).serve ∨ OrderFree request.serve) →
      (∃ fault, (request.withNamed named).serve = .error fault ∧ fault.OfNames) ∧
        ∃ fault, request.serve = .error fault ∧ fault.OfNames) := by
  have hrejected : ∀ answer : Except Fault Value, ¬ OrderFree answer →
      ∃ fault, answer = .error fault ∧ fault.OfNames := by
    intro answer h
    cases answer with
    | ok value => exact absurd trivial h
    | error fault => exact ⟨fault, rfl, not_not.mp h⟩
  constructor
  · intro h
    rcases serve_perm_cases request hperm with heq | ⟨hnot, hnot'⟩
    · exact heq
    · exact (h.elim hnot hnot').elim
  · intro h
    exact ⟨hrejected _ fun hfree => h (.inl hfree), hrejected _ fun hfree => h (.inr hfree)⟩

/-- Subtraction with two names that no parameter has. -/
def astray : Request where
  name := "subtract"
  arguments := { named := [⟨"x", .single .zero⟩, ⟨"y", .single .nan⟩] }

/-- Only the name for which a request is rejected can depend on the order. -/
theorem serve_perm_swapped_astray :
    (swapped.arguments.named.reverse.Perm swapped.arguments.named ∧
      (swapped.withNamed swapped.arguments.named.reverse).serve = .ok (.single (.infinite true)) ∧
      swapped.serve = .ok (.single (.infinite true))) ∧
    (astray.arguments.named.reverse.Perm astray.arguments.named ∧
      (astray.withNamed astray.arguments.named.reverse).serve =
        .error (.unknownParameter "subtract" "y") ∧
      astray.serve = .error (.unknownParameter "subtract" "x") ∧
      ¬ OrderFree astray.serve) := by
  have hswapped : swapped.serve = .ok (.single (.infinite true)) := by decide
  have hfirst : astray.serve = .error (.unknownParameter "subtract" "x") := by decide
  have hsecond : (astray.withNamed astray.arguments.named.reverse).serve =
      .error (.unknownParameter "subtract" "y") := by decide
  have hperm := List.reverse_perm swapped.arguments.named
  have hperm' := List.reverse_perm astray.arguments.named
  refine ⟨⟨hperm, ?_, hswapped⟩, hperm', hsecond, hfirst, ?_⟩
  · rw [(serve_perm swapped hperm).1 (.inr (by rw [hswapped]; trivial)), hswapped]
  · intro hfree
    -- the answers would be the same
    have hsame := (serve_perm astray hperm').1 (.inr hfree)
    rw [hfirst, hsecond] at hsame
    exact absurd hsame (by decide)

end Request

end CallGate
