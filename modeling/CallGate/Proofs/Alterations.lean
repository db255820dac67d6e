import CallGate.Proofs.Invocation

/-!
# One argument more or less

An accepted call has as many arguments as parameters, and each parameter gets its own one. So there
is no room for another argument, which the count tells before anything else is looked at; and without
one of them some parameter gets none. Where a positional argument is taken away the later ones move
up, so that it is always the last position that is left without one.

- `Call.withArguments`, `Request.withArguments`: the same with other arguments.
- `Call.served_iff`, `Call.not_sentTo_of`: what a parameter gets, by position and by name.
- `Call.Acceptable.accept_extra`: one argument more.
- `Call.Acceptable.accept_without_positional`, `Call.Acceptable.accept_without_named`: one argument
  less.
- `Request.Tight`, `Request.tight_of_serve`: so it is with every request that is answered with a value.
-/

namespace CallGate

namespace Call

/-- A call with other arguments. -/
def withArguments (call : Call) (arguments : Arguments Value) : Call :=
  { call with arguments }

/-! ## What a parameter gets -/

theorem served_iff {call : Call} {parameter : Parameter} :
    call.Served parameter ↔ ∃ value : Value, value.kind = parameter.kind ∧
      (call.arguments.positional[parameter.index]? = some value ∨
        ⟨parameter.name, value⟩ ∈ call.arguments.named) := by
  constructor
  · rintro ⟨slot, hsent, hkind⟩
    exact ⟨_, hkind, Arguments.exists_sentTo_iff.mp ⟨slot, hsent, rfl⟩⟩
  · rintro ⟨value, hkind, hgiven⟩
    obtain ⟨slot, hsent, rfl⟩ := Arguments.exists_sentTo_iff.mpr hgiven
    exact ⟨slot, hsent, hkind⟩

/-- A parameter is sent nothing if it stands after the positional arguments and none is named
like it. -/
theorem not_sentTo_of {call : Call} {parameter : Parameter}
    (hindex : call.arguments.positional.length ≤ parameter.index)
    (hname : ∀ argument ∈ call.arguments.named, argument.name ≠ parameter.name)
    (slot : call.arguments.Slot) : ¬ call.arguments.SentTo parameter slot := by
  intro hsent
  rcases Arguments.exists_sentTo_iff.mp ⟨slot, hsent, rfl⟩ with hposition | hnamed
  · rw [List.getElem?_eq_none hindex] at hposition
    cases hposition
  · exact hname _ hnamed rfl

namespace Acceptable

variable {call : Call} (hw : call.signature.WellFormed) (h : call.Acceptable)

include hw h

theorem count_eq : call.arguments.positional.length + call.arguments.named.length =
    call.signature.parameters.length :=
  (h.oneToOne hw).count_eq hw

/-! ## One argument more -/

/-- One argument more is too many, whatever it is and wherever it stands. -/
theorem accept_extra {arguments : Arguments Value}
    (hcount : arguments.positional.length + arguments.named.length =
      call.arguments.positional.length + call.arguments.named.length + 1) :
    (call.withArguments arguments).accept =
      .error (.tooManyArguments call.exportName call.signature.parameters.length
        (call.signature.parameters.length + 1)) := by
  have hgot : arguments.positional.length + arguments.named.length =
      call.signature.parameters.length + 1 := by
    rw [hcount, h.count_eq hw]
  have hnot : ¬ (call.withArguments arguments).CountFits := by
    show ¬ arguments.positional.length + arguments.named.length ≤ call.signature.parameters.length
    omega
  rw [← hgot]
  have hwell : (call.withArguments arguments).signature.WellFormed := hw
  exact accept_of_verdict hwell (.tooManyArguments h.receiver hnot)

/-! ## One argument less -/

/-- Without one of the positional arguments the last position is left without one. That the others
move up does no harm where all of them are of the kind of any parameter. -/
theorem accept_without_positional {before after : List Value} {removed : Value} {kind : Kind}
    (hsplit : call.arguments.positional = before ++ removed :: after)
    (hvalues : ∀ value ∈ call.arguments.positional, value.kind = kind)
    (hkinds : ∀ parameter ∈ call.signature.parameters, parameter.kind = kind)
    {parameter : Parameter} (hmem : parameter ∈ call.signature.parameters)
    (hindex : parameter.index = call.arguments.positional.length - 1) :
    (call.withArguments ⟨before ++ after, call.arguments.named⟩).accept =
      .error (.missingArgument call.exportName parameter.name) := by
  have hlength : call.arguments.positional.length = (before ++ after).length + 1 := by
    simp only [hsplit, List.length_append, List.length_cons]
    omega
  have hcount := h.count_eq hw
  have hsub : ∀ value ∈ before ++ after, value.kind = kind := by
    intro value hvalue
    refine hvalues value ?_
    rw [hsplit]
    exact ((List.sublist_cons_self removed after).append_left before).subset hvalue
  have hwell : (call.withArguments
      ⟨before ++ after, call.arguments.named⟩).signature.WellFormed := hw
  refine accept_of_unsent hwell h.receiver ?_ ⟨h.named.distinct, ?_⟩ hmem ?_ (not_sentTo_of ?_ ?_)
  · show (before ++ after).length + call.arguments.named.length ≤ call.signature.parameters.length
    omega
  · -- a name that is free stays so
    intro argument hargument
    obtain ⟨other, hother, hname, hle⟩ := h.named.free argument hargument
    refine ⟨other, hother, hname, ?_⟩
    show (before ++ after).length ≤ other.index
    omega
  · -- the positions before the last one still have an argument
    intro other hother hlt
    have hposition : other.index < (before ++ after).length := by omega
    refine served_iff.mpr ⟨(before ++ after)[other.index], ?_,
      .inl (List.getElem?_eq_getElem hposition)⟩
    rw [hsub _ (List.getElem_mem hposition), hkinds other hother]
  · show (before ++ after).length ≤ parameter.index
    omega
  · -- the last position was taken, so that its name is not free
    intro argument hargument hname
    obtain ⟨other, hother, hsame, hle⟩ := h.named.free argument hargument
    rw [hw.eq_of_name hother hmem (hsame.trans hname)] at hle
    omega

/-- Without one of the named arguments the parameter of its name is left without one. -/
theorem accept_without_named {before after : List (NamedArgument Value)}
    {removed : NamedArgument Value} (hsplit : call.arguments.named = before ++ removed :: after) :
    (call.withArguments ⟨call.arguments.positional, before ++ after⟩).accept =
      .error (.missingArgument call.exportName removed.name) := by
  have hmem : removed ∈ call.arguments.named := by
    rw [hsplit]
    exact List.mem_append_right _ List.mem_cons_self
  have hsub : ∀ argument ∈ before ++ after, argument ∈ call.arguments.named := by
    rw [hsplit]
    exact ((List.sublist_cons_self removed after).append_left before).subset
  have hdistinct := h.named.distinct
  rw [hsplit, List.map_append, List.map_cons, List.nodup_middle, ← List.map_append,
    List.nodup_cons] at hdistinct
  obtain ⟨hremoved, hrest⟩ := hdistinct
  obtain ⟨parameter, hparameter, hname, hfree⟩ := h.named.free removed hmem
  have hcount := h.count_eq hw
  have hlength : call.arguments.named.length = (before ++ after).length + 1 := by
    simp only [hsplit, List.length_append, List.length_cons]
    omega
  rw [← hname]
  have hwell : (call.withArguments
      ⟨call.arguments.positional, before ++ after⟩).signature.WellFormed := hw
  refine accept_of_unsent hwell h.receiver ?_
    ⟨hrest, fun argument hargument => h.named.free argument (hsub _ hargument)⟩ hparameter ?_
    (not_sentTo_of hfree ?_)
  · show call.arguments.positional.length + (before ++ after).length ≤
      call.signature.parameters.length
    omega
  · -- what another parameter gets is not the argument that was taken away
    intro other hother hlt
    obtain ⟨value, hkind, hgiven⟩ := served_iff.mp (h.served other hother)
    refine served_iff.mpr ⟨value, hkind, hgiven.imp_right fun hnamed => ?_⟩
    rw [hsplit, List.mem_append, List.mem_cons] at hnamed
    refine List.mem_append.mpr (hnamed.imp_right fun hnamed => hnamed.resolve_left ?_)
    rintro rfl
    rw [hw.eq_of_name hother hparameter hname.symm] at hlt
    exact Nat.lt_irrefl _ hlt
  · intro argument hargument hsame
    exact hremoved (List.mem_map.mpr ⟨argument, hargument, hsame.trans hname⟩)

end Acceptable

end Call

/-! ## Requests -/

namespace Request

/-- A request with other arguments. -/
def withArguments (request : Request) (arguments : Arguments Value) : Request :=
  { request with arguments }

/-- A request that can neither gain nor lose an argument. -/
structure Tight (request : Request) (signature : Signature) : Prop where
  /-- Another positional argument is one too many, at any place. -/
  extra_positional : ∀ (before after : List Value) (extra : Value),
    request.arguments.positional = before ++ after →
    (request.withArguments ⟨before ++ extra :: after, request.arguments.named⟩).serve =
      .error (.tooManyArguments request.name signature.parameters.length
        (signature.parameters.length + 1))
  /-- So is another named one, whatever its name. -/
  extra_named : ∀ (before after : List (NamedArgument Value)) (extra : NamedArgument Value),
    request.arguments.named = before ++ after →
    (request.withArguments ⟨request.arguments.positional, before ++ extra :: after⟩).serve =
      .error (.tooManyArguments request.name signature.parameters.length
        (signature.parameters.length + 1))
  /-- Whichever positional argument is taken away, the parameter of the last position gets none. -/
  without_positional : ∀ (before after : List Value) (removed : Value),
    request.arguments.positional = before ++ removed :: after →
    ∃ parameter ∈ signature.parameters,
      parameter.index + 1 = request.arguments.positional.length ∧
      (request.withArguments ⟨before ++ after, request.arguments.named⟩).serve =
        .error (.missingArgument request.name parameter.name)
  /-- If a named argument is taken away, the parameter of that name gets none. -/
  without_named : ∀ (before after : List (NamedArgument Value)) (removed : NamedArgument Value),
    request.arguments.named = before ++ removed :: after →
    ∃ parameter ∈ signature.parameters, parameter.name = removed.name ∧
      (request.withArguments ⟨request.arguments.positional, before ++ after⟩).serve =
        .error (.missingArgument request.name parameter.name)

theorem serve_withArguments {request : Request} {signature : Signature}
    (hfind : Catalogue.find? request.name = some signature) {arguments : Arguments Value}
    {fault : Fault}
    (h : ((request.callOf signature).withArguments arguments).accept = .error fault) :
    (request.withArguments arguments).serve = .error fault := by
  have hserve : (request.withArguments arguments).serve =
      ((request.callOf signature).withArguments arguments).accept.bind Call.invoke :=
    serve_of_find? hfind
  rw [hserve, h]
  rfl

/-- A request that is answered with a value can neither gain nor lose an argument. -/
theorem tight_of_serve {request : Request} {value : Value} (h : request.serve = .ok value) :
    ∃ signature, Catalogue.find? request.name = some signature ∧ request.Tight signature := by
  obtain ⟨signature, hsaturated, -⟩ := serve_eq_ok_iff_direct.mp h
  obtain ⟨hfind, hcall⟩ := saturated_iff.mp hsaturated
  have hexported := hsaturated.exported
  have hw : (request.callOf signature).signature.WellFormed :=
    Catalogue.wellFormed_of_mem hexported
  have hexport : (request.callOf signature).exportName = request.name := hsaturated.name_eq
  have hcount : request.arguments.positional.length + request.arguments.named.length =
    signature.parameters.length := hcall.count_eq hw
  have hextra : ∀ arguments : Arguments Value, arguments.count = request.arguments.count + 1 →
      (request.withArguments arguments).serve =
        .error (.tooManyArguments request.name signature.parameters.length
          (signature.parameters.length + 1)) := by
    intro arguments hmore
    rw [← hexport]
    exact serve_withArguments hfind (hcall.accept_extra hw hmore)
  refine ⟨signature, hfind, ?_, ?_, ?_, ?_⟩
  · intro before after extra hsplit
    refine hextra _ ?_
    simp only [Arguments.count, hsplit, List.length_append, List.length_cons]
    omega
  · intro before after extra hsplit
    refine hextra _ ?_
    simp only [Arguments.count, hsplit, List.length_append, List.length_cons]
    omega
  · intro before after removed hsplit
    have hlast : request.arguments.positional.length - 1 < signature.parameters.length := by
      simp only [hsplit, List.length_append, List.length_cons] at hcount ⊢
      omega
    have hindex : signature.parameters[request.arguments.positional.length - 1].index =
        request.arguments.positional.length - 1 :=
      hw.index_of_getElem? (List.getElem?_eq_getElem hlast)
    -- the parameter at the last position is the one that is left without an argument
    refine ⟨_, List.getElem_mem hlast, ?_, ?_⟩
    · rw [hindex, hsplit, List.length_append, List.length_cons]
      omega
    · -- all arguments of the catalogue's exports are numbers
      have hvalues : ∀ argument ∈ request.arguments.positional, argument.kind = .single := by
        intro argument hargument
        obtain ⟨i, hi, rfl⟩ := List.mem_iff_getElem.mp hargument
        obtain ⟨number, hnumber⟩ := hsaturated.singles (.inl ⟨i, hi⟩)
        exact congrArg Value.kind hnumber
      rw [← hexport]
      exact serve_withArguments hfind (hcall.accept_without_positional hw hsplit hvalues
        (fun _ hparameter => Catalogue.kind_eq hexported hparameter) (List.getElem_mem hlast) hindex)
  · intro before after removed hsplit
    obtain ⟨parameter, hparameter, hname, -⟩ := hcall.named.free removed (by
      show removed ∈ request.arguments.named
      rw [hsplit]
      exact List.mem_append_right _ List.mem_cons_self)
    refine ⟨parameter, hparameter, hname, ?_⟩
    rw [← hexport, hname]
    exact serve_withArguments hfind (hcall.accept_without_named hw hsplit)

/-- One half less an infinity, by position. -/
def ordered : Request where
  name := "subtract"
  arguments := {
    positional := [.single (.ofBits 0x3F000000), .single (.infinite false)] }

/-- Without its first argument a request lacks the second one, and without a named argument it lacks
the one that was named. A scalar by a name that is taken and no parameter's kind is reported as one
argument too many. -/
theorem tight_ordered_swapped :
    ordered.serve = .ok (.single (.infinite true)) ∧
    (ordered.withArguments ⟨ordered.arguments.positional, [⟨"a", .scalar ⟨.nan⟩⟩]⟩).serve =
      .error (.tooManyArguments "subtract" 2 3) ∧
    (ordered.withArguments ⟨[.single (.infinite false)], []⟩).serve =
      .error (.missingArgument "subtract" "b") ∧
    swapped.serve = .ok (.single (.infinite true)) ∧
    (swapped.withArguments ⟨[], swapped.arguments.named.tail⟩).serve =
      .error (.missingArgument "subtract" "b") := by
  have hordered : ordered.serve = .ok (.single (.infinite true)) := by decide
  have hswapped : swapped.serve = .ok (.single (.infinite true)) := by decide
  have hfind : Catalogue.find? "subtract" = some Catalogue.subtract := by decide
  obtain ⟨signature, hsignature, htight⟩ := tight_of_serve hordered
  obtain ⟨signature', hsignature', htight'⟩ := tight_of_serve hswapped
  obtain rfl : signature = Catalogue.subtract := Option.some.inj (hsignature.symm.trans hfind)
  obtain rfl : signature' = Catalogue.subtract := Option.some.inj (hsignature'.symm.trans hfind)
  obtain ⟨last, hlast, hindex, hmissing⟩ := htight.without_positional [] _ _ rfl
  obtain ⟨named, -, hname, hmissing'⟩ := htight'.without_named [] _ _ rfl
  refine ⟨hordered, htight.extra_named [] [] _ rfl, ?_, hswapped, ?_⟩
  · have hwell : Catalogue.subtract.WellFormed := Catalogue.wellFormed_of_mem (by decide)
    have hb : last = ⟨1, "b", "The number to subtract.", .single⟩ :=
      hwell.eq_of_index hlast (by decide) (Nat.succ.inj hindex)
    rw [hb] at hmissing
    exact hmissing
  · rw [hname] at hmissing'
    exact hmissing'

end Request

end CallGate
