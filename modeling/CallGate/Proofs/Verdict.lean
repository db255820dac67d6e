import CallGate.Proofs.Names

/-!
# The verdict on a call

What a call is answered with, told without the checks: which of several faults is reported, and
with what details.

- `Call.ReceiverFits`, `Call.CountFits`, `Call.Served`: what the checks of the receiver, of the count
  and of the parameters look for.
- `Call.Verdict`: the answer to a call, the first fault by these properties or the call itself.
- `Call.fetch_eq`, `Call.checkParameter_eq`: a parameter is checked by asking for its argument.
- `Call.accept_of_verdict`, `Call.exists_verdict`: the checks find each verdict, and every call has
  one.
- `Call.accept_eq_iff_verdict`: so the checks find exactly the verdict.
-/

namespace CallGate

namespace Call

/-! ## What the checks look for -/

/-- A receiver is given exactly if one is declared, and it is of the declared kind. -/
def ReceiverFits (call : Call) : Prop :=
  call.receiver.map Value.kind = call.signature.receiver

/-- There are not more arguments than parameters. -/
def CountFits (call : Call) : Prop :=
  call.arguments.positional.length + call.arguments.named.length ≤
    call.signature.parameters.length

/-- A parameter is sent an argument of its kind. -/
def Served (call : Call) (parameter : Parameter) : Prop :=
  ∃ slot, call.arguments.SentTo parameter slot ∧
    (call.arguments.value slot).kind = parameter.kind

/-- The answer to a call. A fault of the receiver comes before one of the count, that before one of
a name, and that before one of a parameter; of the last two the first in the list is reported. -/
inductive Verdict (call : Call) : Except Fault Call → Prop
  | missingReceiver {expected : Kind} (declared : call.signature.receiver = some expected)
      (given : call.receiver = none) :
      Verdict call (.error (.missingReceiver call.exportName expected))
  | receiverKind {expected : Kind} {value : Value}
      (declared : call.signature.receiver = some expected) (given : call.receiver = some value)
      (other : value.kind ≠ expected) :
      Verdict call (.error (.receiverKind call.exportName expected value.kind))
  | unexpectedReceiver {value : Value} (declared : call.signature.receiver = none)
      (given : call.receiver = some value) :
      Verdict call (.error (.unexpectedReceiver call.exportName call.signature.role))
  | tooManyArguments (receiver : call.ReceiverFits) (count : ¬ call.CountFits) :
      Verdict call (.error (.tooManyArguments call.exportName call.signature.parameters.length
        (call.arguments.positional.length + call.arguments.named.length)))
  | unknownParameter (receiver : call.ReceiverFits) (count : call.CountFits)
      {j : Fin call.arguments.named.length} (misnamed : call.Misnamed j)
      (first : ∀ i < j, ¬ call.Misnamed i)
      (unknown : ∀ parameter ∈ call.signature.parameters,
        parameter.name ≠ call.arguments.nameAt j) :
      Verdict call (.error (.unknownParameter call.exportName (call.arguments.nameAt j)))
  | repeatedArgument (receiver : call.ReceiverFits) (count : call.CountFits)
      {j : Fin call.arguments.named.length} (misnamed : call.Misnamed j)
      (first : ∀ i < j, ¬ call.Misnamed i)
      (known : ∃ parameter ∈ call.signature.parameters,
        parameter.name = call.arguments.nameAt j) :
      Verdict call (.error (.repeatedArgument call.exportName (call.arguments.nameAt j)))
  | missingArgument (receiver : call.ReceiverFits) (count : call.CountFits)
      (named : ∀ j, ¬ call.Misnamed j) {parameter : Parameter}
      (mem : parameter ∈ call.signature.parameters)
      (first : ∀ other ∈ call.signature.parameters,
        other.index < parameter.index → call.Served other)
      (unsent : ∀ slot, ¬ call.arguments.SentTo parameter slot) :
      Verdict call (.error (.missingArgument call.exportName parameter.name))
  | argumentKind (receiver : call.ReceiverFits) (count : call.CountFits)
      (named : ∀ j, ¬ call.Misnamed j) {parameter : Parameter}
      (mem : parameter ∈ call.signature.parameters)
      (first : ∀ other ∈ call.signature.parameters,
        other.index < parameter.index → call.Served other)
      {slot : call.arguments.Slot} (sent : call.arguments.SentTo parameter slot)
      (other : (call.arguments.value slot).kind ≠ parameter.kind) :
      Verdict call (.error (.argumentKind call.exportName parameter.name parameter.kind
        (call.arguments.value slot).kind))
  | accepted (receiver : call.ReceiverFits) (count : call.CountFits)
      (named : ∀ j, ¬ call.Misnamed j)
      (served : ∀ parameter ∈ call.signature.parameters, call.Served parameter) :
      Verdict call (.ok call)

/-! ## The receiver and the count -/

/-- A receiver that fits passes its check, also where none is declared and none given. -/
theorem checkReceiver_of_fits {call : Call} (h : call.ReceiverFits) :
    call.checkReceiver = .ok () := by
  unfold ReceiverFits at h
  cases hg : call.receiver with
  | none => simp [checkReceiver, ← h, hg]
  | some value => simp [checkReceiver, ← h, hg]

theorem checkCount_of_fits {call : Call} (h : call.CountFits) : call.checkCount = .ok () :=
  if_neg (Nat.not_lt.mpr h)

theorem checkCount_of_not_fits {call : Call} (h : ¬ call.CountFits) :
    call.checkCount = .error (.tooManyArguments call.exportName call.signature.parameters.length
      (call.arguments.positional.length + call.arguments.named.length)) :=
  if_pos (Nat.lt_of_not_le h)

/-! ## The parameters -/

/-- The argument of a parameter, asked for as its kind. -/
def fetch (call : Call) (parameter : Parameter) : Except Fault Value :=
  match parameter.kind with
  | .single => (call.single parameter.index parameter.name).map .single
  | .scalar => (call.scalar parameter.index parameter.name).map .scalar

/-- The answer to that is told by the look-up, in one way for all kinds. -/
theorem fetch_eq (call : Call) (parameter : Parameter) :
    call.fetch parameter =
      match call.arguments.at? parameter.index parameter.name with
      | none => .error (.missingArgument call.exportName parameter.name)
      | some value =>
        if value.kind = parameter.kind then .ok value
        else .error (.argumentKind call.exportName parameter.name parameter.kind value.kind) := by
  -- four cases of a kind and a look-up, and with a value its kind decides
  cases hk : parameter.kind <;> cases ha : call.arguments.at? parameter.index parameter.name with
  | none => simp [fetch, hk, single, scalar, argument, ha, bind, Except.bind, Except.map]
  | some value =>
    cases value <;>
      simp [fetch, hk, single, scalar, argument, ha, bind, Except.bind, Except.map,
        Except.mapError, Value.asSingle, Value.asScalar, Value.kind, Value.mismatch, argumentFault]

/-- A parameter is checked by asking for its argument. -/
theorem checkParameter_eq (call : Call) (parameter : Parameter) :
    call.checkParameter parameter = (call.fetch parameter).map fun _ => () := by
  cases hk : parameter.kind with
  | single =>
    rw [checkParameter, fetch, hk]
    cases call.single parameter.index parameter.name <;> rfl
  | scalar =>
    rw [checkParameter, fetch, hk]
    cases call.scalar parameter.index parameter.name <;> rfl

/-- A parameter gets what it is sent, if that is of its kind. -/
theorem fetch_of_sentTo {call : Call} (hw : call.signature.WellFormed) (hn : call.WellNamed)
    {parameter : Parameter} (hmem : parameter ∈ call.signature.parameters)
    {slot : call.arguments.Slot} (hsent : call.arguments.SentTo parameter slot)
    (hkind : (call.arguments.value slot).kind = parameter.kind) :
    call.fetch parameter = .ok (call.arguments.value slot) := by
  rw [fetch_eq, hn.at?_of_sentTo hw hmem hsent]
  exact if_pos hkind

theorem checkParameter_of_served {call : Call} (hw : call.signature.WellFormed)
    (hn : call.WellNamed) {parameter : Parameter} (hmem : parameter ∈ call.signature.parameters)
    (h : call.Served parameter) : call.checkParameter parameter = .ok () := by
  obtain ⟨slot, hsent, hkind⟩ := h
  rw [checkParameter_eq, fetch_of_sentTo hw hn hmem hsent hkind]
  rfl

/-- A parameter that is sent nothing is reported as missing. -/
theorem checkParameter_of_unsent {call : Call} {parameter : Parameter}
    (h : ∀ slot, ¬ call.arguments.SentTo parameter slot) :
    call.checkParameter parameter =
      .error (.missingArgument call.exportName parameter.name) := by
  -- whatever a look-up found would have been sent to the parameter
  have hnone : call.arguments.at? parameter.index parameter.name = none := by
    rw [← Arguments.map_value_slot?, Option.map_eq_none_iff, Option.eq_none_iff_forall_ne_some]
    exact fun slot hslot => h slot (Arguments.sentTo_of_slot? hslot)
  rw [checkParameter_eq, fetch_eq, hnone]
  rfl

/-- A parameter that is sent a value of another kind is reported with both kinds. -/
theorem checkParameter_of_kind {call : Call} (hw : call.signature.WellFormed)
    (hn : call.WellNamed) {parameter : Parameter} (hmem : parameter ∈ call.signature.parameters)
    {slot : call.arguments.Slot} (hsent : call.arguments.SentTo parameter slot)
    (hkind : (call.arguments.value slot).kind ≠ parameter.kind) :
    call.checkParameter parameter =
      .error (.argumentKind call.exportName parameter.name parameter.kind
        (call.arguments.value slot).kind) := by
  rw [checkParameter_eq, fetch_eq, hn.at?_of_sentTo hw hmem hsent]
  dsimp only
  rw [if_neg hkind]
  rfl

/-- Parameters without a fault are passed over. -/
theorem checkParameters_append (call : Call) {before : List Parameter}
    (h : ∀ parameter ∈ before, call.checkParameter parameter = .ok ()) (after : List Parameter) :
    call.checkParameters (before ++ after) = call.checkParameters after := by
  induction before with
  | nil => rfl
  | cons parameter rest ih =>
    rw [List.cons_append, checkParameters, h parameter List.mem_cons_self]
    exact ih fun other hother => h other (List.mem_cons_of_mem _ hother)

theorem checkParameters_of_served {call : Call} (hw : call.signature.WellFormed)
    (hn : call.WellNamed) (h : ∀ parameter ∈ call.signature.parameters, call.Served parameter) :
    call.checkParameters call.signature.parameters = .ok () := by
  have happend := checkParameters_append call (fun parameter hmem =>
    checkParameter_of_served hw hn hmem (h parameter hmem)) []
  rw [List.append_nil] at happend
  rw [happend]
  rfl

/-- The fault of the first parameter that has one is the one that is found. -/
theorem checkParameters_of_first {call : Call} (hw : call.signature.WellFormed)
    (hn : call.WellNamed) {parameter : Parameter} (hmem : parameter ∈ call.signature.parameters)
    (hfirst : ∀ other ∈ call.signature.parameters,
      other.index < parameter.index → call.Served other)
    {fault : Fault} (h : call.checkParameter parameter = .error fault) :
    call.checkParameters call.signature.parameters = .error fault := by
  obtain ⟨before, after, hsplit, hlt⟩ := hw.exists_split hmem
  -- those before it have a lower index, and so no fault
  have hbefore : ∀ other ∈ before, call.checkParameter other = .ok () := by
    intro other hother
    have hmem' : other ∈ call.signature.parameters := by
      rw [hsplit]
      exact List.mem_append_left _ hother
    exact checkParameter_of_served hw hn hmem' (hfirst other hmem' (hlt other hother))
  rw [hsplit, checkParameters_append call hbefore, checkParameters, h]
  rfl

/-! ## All checks -/

/-- The checks one after the other. -/
theorem accept_eq (call : Call) :
    call.accept = call.checkReceiver.bind fun _ => call.checkCount.bind fun _ =>
      (call.checkNames [] call.arguments.named).bind fun _ =>
        (call.checkParameters call.signature.parameters).map fun _ => call := by
  simp only [accept, checkArguments, bind]
  cases call.checkReceiver <;> cases call.checkCount <;>
    cases call.checkNames [] call.arguments.named <;>
      cases call.checkParameters call.signature.parameters <;> rfl

/-- Nothing that the checks look for is wrong with a call. -/
structure Acceptable (call : Call) : Prop where
  receiver : call.ReceiverFits
  count : call.CountFits
  named : call.WellNamed
  served : ∀ parameter ∈ call.signature.parameters, call.Served parameter

theorem accept_of_acceptable {call : Call} (hw : call.signature.WellFormed)
    (h : call.Acceptable) : call.accept = .ok call := by
  rw [accept_eq, checkReceiver_of_fits h.receiver, checkCount_of_fits h.count,
    checkNames_of_wellNamed hw h.named, checkParameters_of_served hw h.named h.served]
  rfl

/-- Where all names fit, the first parameter that is sent nothing is reported, if the ones before it
are sent something of their kinds. -/
theorem accept_of_unsent {call : Call} (hw : call.signature.WellFormed)
    (hreceiver : call.ReceiverFits) (hcount : call.CountFits) (hn : call.WellNamed)
    {parameter : Parameter} (hmem : parameter ∈ call.signature.parameters)
    (hfirst : ∀ other ∈ call.signature.parameters,
      other.index < parameter.index → call.Served other)
    (hunsent : ∀ slot, ¬ call.arguments.SentTo parameter slot) :
    call.accept = .error (.missingArgument call.exportName parameter.name) := by
  rw [accept_eq, checkReceiver_of_fits hreceiver, checkCount_of_fits hcount,
    checkNames_of_wellNamed hw hn,
    checkParameters_of_first hw hn hmem hfirst (checkParameter_of_unsent hunsent)]
  rfl

/-- The checks find each verdict. -/
theorem accept_of_verdict {call : Call} (hw : call.signature.WellFormed)
    {outcome : Except Fault Call} (h : call.Verdict outcome) : call.accept = outcome := by
  cases h with
  | missingReceiver declared given =>
    rw [accept_eq, checkReceiver, declared, given]
    rfl
  | receiverKind declared given other =>
    rw [accept_eq, checkReceiver, declared, given]
    dsimp only
    rw [if_neg other]
    rfl
  | unexpectedReceiver declared given =>
    rw [accept_eq, checkReceiver, declared, given]
    rfl
  | tooManyArguments receiver count =>
    rw [accept_eq, checkReceiver_of_fits receiver, checkCount_of_not_fits count]
    rfl
  | unknownParameter receiver count _ first unknown =>
    rw [accept_eq, checkReceiver_of_fits receiver, checkCount_of_fits count,
      checkNames_of_first_unknown hw first unknown]
    rfl
  | repeatedArgument receiver count misnamed first known =>
    rw [accept_eq, checkReceiver_of_fits receiver, checkCount_of_fits count,
      checkNames_of_first_known hw misnamed first known]
    rfl
  | missingArgument receiver count named mem first unsent =>
    exact accept_of_unsent hw receiver count (wellNamed_of_not_misnamed named) mem first unsent
  | argumentKind receiver count named mem first sent other =>
    have hn := wellNamed_of_not_misnamed named
    rw [accept_eq, checkReceiver_of_fits receiver, checkCount_of_fits count,
      checkNames_of_wellNamed hw hn,
      checkParameters_of_first hw hn mem first (checkParameter_of_kind hw hn mem sent other)]
    rfl
  | accepted receiver count named served =>
    exact accept_of_acceptable hw ⟨receiver, count, wellNamed_of_not_misnamed named, served⟩

/-- Of the parameters that are not served one has the lowest index. -/
theorem exists_first_unserved {call : Call}
    (h : ∃ parameter ∈ call.signature.parameters, ¬ call.Served parameter) :
    ∃ parameter ∈ call.signature.parameters, ¬ call.Served parameter ∧
      ∀ other ∈ call.signature.parameters, other.index < parameter.index → call.Served other := by
  obtain ⟨parameter, ⟨hmem, hunserved⟩, hmin⟩ :=
    (InvImage.wf Parameter.index Nat.lt_wfRel.wf).has_min
      {parameter | parameter ∈ call.signature.parameters ∧ ¬ call.Served parameter} h
  refine ⟨parameter, hmem, hunserved, fun other hother hlt => ?_⟩
  by_contra hnot
  exact hmin other ⟨hother, hnot⟩ hlt

/-- A receiver can be missing, of another kind, or not expected. -/
theorem exists_verdict_of_not_receiverFits {call : Call} (h : ¬ call.ReceiverFits) :
    ∃ outcome, call.Verdict outcome := by
  unfold ReceiverFits at h
  cases hd : call.signature.receiver with
  | none =>
    cases hg : call.receiver with
    | none => exact absurd (by rw [hd, hg]; rfl) h
    | some value => exact ⟨_, .unexpectedReceiver hd hg⟩
  | some expected =>
    cases hg : call.receiver with
    | none => exact ⟨_, .missingReceiver hd hg⟩
    | some value =>
      -- with the declared kind the receiver would fit
      refine ⟨_, .receiverKind hd hg fun hkind => h ?_⟩
      rw [hd, hg, ← hkind]
      rfl

/-- The first argument whose name is at fault decides. -/
theorem exists_verdict_of_misnamed {call : Call} (hr : call.ReceiverFits) (hc : call.CountFits)
    (h : ∃ j, call.Misnamed j) : ∃ outcome, call.Verdict outcome := by
  obtain ⟨j, hj, hfirst⟩ := exists_first_misnamed h
  by_cases hknown : ∃ parameter ∈ call.signature.parameters,
      parameter.name = call.arguments.nameAt j
  · -- whatever is wrong with the name of a parameter is reported as a repetition
    exact ⟨_, .repeatedArgument hr hc hj hfirst hknown⟩
  · refine ⟨_, .unknownParameter hr hc hj hfirst fun parameter hmem hname => ?_⟩
    exact hknown ⟨parameter, hmem, hname⟩

/-- The first parameter that is not served decides: it is sent another kind, or nothing. -/
theorem exists_verdict_of_unserved {call : Call} (hr : call.ReceiverFits) (hc : call.CountFits)
    (hn : ∀ j, ¬ call.Misnamed j)
    (h : ∃ parameter ∈ call.signature.parameters, ¬ call.Served parameter) :
    ∃ outcome, call.Verdict outcome := by
  obtain ⟨parameter, hmem, hunserved, hfirst⟩ := exists_first_unserved h
  by_cases hsent : ∃ slot, call.arguments.SentTo parameter slot
  · obtain ⟨slot, hsent⟩ := hsent
    refine ⟨_, .argumentKind hr hc hn hmem hfirst hsent fun hkind => ?_⟩
    exact hunserved ⟨slot, hsent, hkind⟩
  · exact ⟨_, .missingArgument hr hc hn hmem hfirst fun slot hslot => hsent ⟨slot, hslot⟩⟩

/-- Every call has a verdict. -/
theorem exists_verdict (call : Call) : ∃ outcome, call.Verdict outcome := by
  -- the fault of the first stage that fails; what passes all of them is accepted
  by_cases hr : call.ReceiverFits
  · by_cases hc : call.CountFits
    · by_cases hn : ∃ j, call.Misnamed j
      · exact exists_verdict_of_misnamed hr hc hn
      · have hn : ∀ j, ¬ call.Misnamed j := fun j hj => hn ⟨j, hj⟩
        by_cases hs : ∃ parameter ∈ call.signature.parameters, ¬ call.Served parameter
        · exact exists_verdict_of_unserved hr hc hn hs
        · refine ⟨_, .accepted hr hc hn fun parameter hmem => ?_⟩
          by_contra hnot
          exact hs ⟨parameter, hmem, hnot⟩
    · exact ⟨_, .tooManyArguments hr hc⟩
  · exact exists_verdict_of_not_receiverFits hr

theorem verdict_accept {call : Call} (hw : call.signature.WellFormed) :
    call.Verdict call.accept := by
  -- there is some verdict, and the checks find it
  obtain ⟨outcome, h⟩ := call.exists_verdict
  rwa [accept_of_verdict hw h]

/-- An accepted call is returned as it is, and nothing is wrong with it. -/
theorem acceptable_of_accept {call accepted : Call} (hw : call.signature.WellFormed)
    (h : call.accept = .ok accepted) : accepted = call ∧ call.Acceptable := by
  have hverdict := verdict_accept hw
  rw [h] at hverdict
  cases hverdict with
  | accepted receiver count named served =>
    exact ⟨rfl, receiver, count, wellNamed_of_not_misnamed named, served⟩

/-- The checks answer a call with its verdict, and with nothing else. -/
theorem accept_eq_iff_verdict (call : Call) (hw : call.signature.WellFormed)
    (outcome : Except Fault Call) : call.accept = outcome ↔ call.Verdict outcome := by
  constructor
  · rintro rfl
    exact verdict_accept hw
  · exact accept_of_verdict hw

/-- A method whose parameters are of both kinds. -/
def blend : Signature where
  name := "blend"
  doc := ""
  role := .method
  receiver := some .single
  parameters := [⟨0, "a", "", .single⟩, ⟨1, "b", "", .scalar⟩, ⟨2, "c", "", .single⟩,
    ⟨3, "d", "", .scalar⟩]
  result := .single

theorem wellFormed_blend : blend.WellFormed := ⟨⟨by decide, by decide⟩, by decide⟩

/-- A call with an argument of the wrong kind, a name that is unknown and one that is taken. -/
def thriceWrong : Call where
  signature := blend
  receiver := some (.single .nan)
  arguments := {
    positional := [.scalar ⟨.nan⟩]
    named := [⟨"b", .scalar ⟨.zero⟩⟩, ⟨"z", .single .zero⟩, ⟨"a", .single .zero⟩] }

/-- The unknown name is reported, which comes before the name that is taken and before the wrong
kind. -/
theorem verdict_thriceWrong :
    thriceWrong.signature.WellFormed ∧
      thriceWrong.accept = .error (.unknownParameter "blend" "z") ∧
      thriceWrong.Verdict (.error (.unknownParameter "blend" "z")) := by
  have haccept : thriceWrong.accept = .error (.unknownParameter "blend" "z") := by decide
  exact ⟨wellFormed_blend, haccept,
    (accept_eq_iff_verdict thriceWrong wellFormed_blend _).mp haccept⟩

end Call

end CallGate
