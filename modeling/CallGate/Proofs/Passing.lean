import CallGate.Proofs.Invocation

/-!
# Passing by position and by name

An argument may move from the end of the positional ones to the front of the named ones, under the
name of its parameter, and nothing changes: not the value, not the fault, not one of its details.

- `Call.Agree`: two calls of which each parameter gets the same. All but the checks of count and of
  names is then the same (`Agree.checkParameters`, `Agree.invoke`).
- `Call.ofLast`, `Call.ofFirst`: the call before the move and after it.
- `Call.agree_moved`, `Call.checkNames_moved`: the two agree, and the scan goes in step: a name that
  it finds taken by position in the one it has seen in the other.
- `Request.serve_by_name`: requests before one move, and after all moves, are served alike.
-/

namespace CallGate

namespace Call

/-! ## Calls that agree -/

/-- The same export is called on the same receiver, and each parameter gets the same. -/
structure Agree (x y : Call) : Prop where
  signature : x.signature = y.signature
  receiver : x.receiver = y.receiver
  at? : ∀ parameter ∈ x.signature.parameters,
    x.arguments.at? parameter.index parameter.name = y.arguments.at? parameter.index parameter.name

namespace Agree

variable {x y : Call} (h : x.Agree y)

include h

theorem exportName : x.exportName = y.exportName := congrArg Signature.name h.signature

theorem checkReceiver : x.checkReceiver = y.checkReceiver := by
  rw [Call.checkReceiver, Call.checkReceiver, h.exportName, h.signature, h.receiver]

theorem receiverScalar : x.receiverScalar = y.receiverScalar := by
  rw [Call.receiverScalar, Call.receiverScalar, h.exportName, h.signature, h.receiver]

/-- A parameter is fetched from both calls with the same value or the same fault. -/
theorem single (parameter : Parameter) (hmem : parameter ∈ x.signature.parameters) :
    x.single parameter.index parameter.name = y.single parameter.index parameter.name := by
  have hfault : x.argumentFault parameter.name = y.argumentFault parameter.name := by
    funext mismatch
    rw [argumentFault, argumentFault, h.exportName]
  rw [Call.single, Call.single, argument, argument, h.at? parameter hmem, h.exportName, hfault]

/-- Parameters are checked by what they get. -/
theorem checkParameters {parameters : List Parameter}
    (hsub : ∀ parameter ∈ parameters, parameter ∈ x.signature.parameters) :
    x.checkParameters parameters = y.checkParameters parameters := by
  induction parameters with
  | nil => rfl
  | cons parameter rest ih =>
    have hcheck : x.checkParameter parameter = y.checkParameter parameter := by
      rw [checkParameter_eq, checkParameter_eq, fetch_eq, fetch_eq,
        h.at? parameter (hsub parameter List.mem_cons_self), h.exportName]
    rw [Call.checkParameters, Call.checkParameters, hcheck,
      ih fun other hother => hsub other (List.mem_cons_of_mem _ hother)]

/-- The operations of the catalogue ask for nothing but parameters and the receiver. -/
theorem invoke (hmem : x.signature ∈ Catalogue.signatures) : x.invoke = y.invoke := by
  have hname := h.exportName
  -- each operation asks for parameters of its own signature, which get the same in both calls
  rcases Catalogue.eq_of_mem hmem with hs | hs | hs | hs
  · have hx : x.exportName = "create" := congrArg Signature.name hs
    have ha := h.single ⟨0, "a", _, .single⟩ (by rw [hs]; exact List.mem_cons_self)
    rw [invoke_create hx, invoke_create (hname ▸ hx), ha]
  · have hx : x.exportName = "add" := congrArg Signature.name hs
    have hb := h.single ⟨0, "b", _, .single⟩ (by rw [hs]; exact List.mem_cons_self)
    rw [invoke_add hx, invoke_add (hname ▸ hx), h.receiverScalar, hb]
  · have hx : x.exportName = "mul" := congrArg Signature.name hs
    have hb := h.single ⟨0, "b", _, .single⟩ (by rw [hs]; exact List.mem_cons_self)
    rw [invoke_multiply hx, invoke_multiply (hname ▸ hx), h.receiverScalar, hb]
  · have hx : x.exportName = "subtract" := congrArg Signature.name hs
    have ha := h.single ⟨0, "a", _, .single⟩ (by rw [hs]; exact List.mem_cons_self)
    have hb := h.single ⟨1, "b", _, .single⟩
      (by rw [hs]; exact List.mem_cons_of_mem _ List.mem_cons_self)
    rw [invoke_subtract hx, invoke_subtract (hname ▸ hx), ha, hb]

/-- With the same count and the same names found fault with, the answers are the same. -/
theorem accept_bind_invoke (hmem : x.signature ∈ Catalogue.signatures)
    (hcount : x.arguments.count = y.arguments.count)
    (hnames : x.checkNames [] x.arguments.named = y.checkNames [] y.arguments.named) :
    x.accept.bind Call.invoke = y.accept.bind Call.invoke := by
  have hcheckCount : x.checkCount = y.checkCount := by
    rw [checkCount, checkCount, hcount, h.exportName, h.signature]
  rw [accept_eq, accept_eq, h.checkReceiver, hcheckCount, hnames,
    h.checkParameters fun _ hparameter => hparameter, ← h.signature]
  -- where all stages pass, it remains that the invocations agree
  cases y.checkReceiver <;> cases y.checkCount <;>
    cases y.checkNames [] y.arguments.named <;>
      cases y.checkParameters x.signature.parameters <;> first | rfl | exact h.invoke hmem

end Agree

/-! ## Moving one argument -/

section

variable (signature : Signature) (receiver : Option Value) (positional : List Value) (value : Value)
  (named : List (NamedArgument Value))

/-- A call whose last positional argument is `value`. -/
def ofLast : Call :=
  ⟨signature, receiver, ⟨positional ++ [value], named⟩⟩

/-- The same call, where that argument is the first one by name. -/
def ofFirst (name : String) : Call :=
  ⟨signature, receiver, ⟨positional, ⟨name, value⟩ :: named⟩⟩

variable {signature} (hw : signature.WellFormed) {positional} {parameter : Parameter}
  (hp : signature.parameters[positional.length]? = some parameter)

include hw hp

/-- Moving the last positional argument to the front of the named ones changes no look-up. -/
theorem agree_moved :
    (ofLast signature receiver positional value named).Agree
      (ofFirst signature receiver positional value named parameter.name) where
  signature := rfl
  receiver := rfl
  at? other hother := by
    have hmem : parameter ∈ signature.parameters := List.mem_of_getElem? hp
    have hindex : parameter.index = positional.length := hw.index_of_getElem? hp
    show Arguments.at? ⟨positional ++ [value], named⟩ other.index other.name =
      Arguments.at? ⟨positional, ⟨parameter.name, value⟩ :: named⟩ other.index other.name
    -- only the parameter of the argument that is moved is looked up in another place
    rcases Nat.lt_trichotomy other.index positional.length with hlt | heq | hgt
    · rw [Arguments.at?_of_lt _ (show _ < (positional ++ [value]).length by simp; omega),
        Arguments.at?_of_lt _ hlt]
      exact congrArg some (List.getElem_append_left hlt)
    · obtain rfl : other = parameter := hw.eq_of_index hother hmem (heq.trans hindex.symm)
      rw [Arguments.at?_of_lt _ (show _ < (positional ++ [value]).length by simp; omega),
        Arguments.at?_of_le _ (Nat.le_of_eq heq.symm)]
      simp [Arguments.named?, heq]
    · have hne : parameter.name ≠ other.name := by
        intro hname
        rw [hw.eq_of_name hmem hother hname] at hindex
        omega
      rw [Arguments.at?_of_le _ (show (positional ++ [value]).length ≤ _ by simp; omega),
        Arguments.at?_of_le _ (Nat.le_of_lt hgt)]
      simp [Arguments.named?, hne]

/-- The scans of the two calls go in step, where what the second has seen is what the first has and
the name of the argument that was moved. -/
theorem checkNames_moved {seen seen' : List String}
    (hseen : ∀ name, name ∈ seen' ↔ name = parameter.name ∨ name ∈ seen)
    (rest : List (NamedArgument Value)) :
    (ofLast signature receiver positional value named).checkNames seen rest =
      (ofFirst signature receiver positional value named parameter.name).checkNames seen' rest := by
  have hmem : parameter ∈ signature.parameters := List.mem_of_getElem? hp
  have hindex : parameter.index = positional.length := hw.index_of_getElem? hp
  induction rest generalizing seen seen' with
  | nil => rfl
  | cons argument rest ih =>
    by_cases hname : argument.name = parameter.name
    · -- what is taken by position in the one call is seen in the other
      have hlast : parameter.index < (positional ++ [value]).length := by simp; omega
      rw [checkNames_cons_of_taken hw hmem hname.symm (.inr hlast),
        checkNames_cons_of_taken hw hmem hname.symm (.inl ((hseen _).mpr (.inl hname)))]
      rfl
    by_cases hin : argument.name ∈ seen
    · rw [checkNames_cons_of_seen hin, checkNames_cons_of_seen ((hseen _).mpr (.inr hin))]
      rfl
    have hin' : argument.name ∉ seen' := fun h => ((hseen _).mp h).elim hname hin
    by_cases hknown : ∃ other ∈ signature.parameters, other.name = argument.name
    · obtain ⟨other, hother, hsame⟩ := hknown
      have hne : other.index ≠ positional.length := by
        intro heq
        have hparameter := hw.eq_of_index hother hmem (heq.trans hindex.symm)
        exact hname (hsame.symm.trans (congrArg Parameter.name hparameter))
      -- any other parameter is taken by position in both calls or in neither
      by_cases htaken : other.index < positional.length
      · rw [checkNames_cons_of_taken hw hother hsame
            (.inr (show _ < (positional ++ [value]).length by simp; omega)),
          checkNames_cons_of_taken hw hother hsame (.inr htaken)]
        rfl
      · rw [checkNames_cons_of_free hw hin ⟨other, hother, hsame,
            show (positional ++ [value]).length ≤ _ by simp; omega⟩,
          checkNames_cons_of_free hw hin' ⟨other, hother, hsame, Nat.le_of_not_lt htaken⟩]
        refine ih fun name => ?_
        rw [List.mem_cons, List.mem_cons, hseen]
        exact or_left_comm
    · have hunknown : ∀ other ∈ signature.parameters, other.name ≠ argument.name :=
        fun other hother hsame => hknown ⟨other, hother, hsame⟩
      rw [checkNames_cons_of_unknown hin hunknown, checkNames_cons_of_unknown hin' hunknown]
      rfl

/-- Both scans from the start: the argument that was moved is found in order and seen. -/
theorem checkNames_ofFirst :
    (ofLast signature receiver positional value named).checkNames [] named =
      (ofFirst signature receiver positional value named parameter.name).checkNames []
        (⟨parameter.name, value⟩ :: named) := by
  have hmem : parameter ∈ signature.parameters := List.mem_of_getElem? hp
  have hindex : parameter.index = positional.length := hw.index_of_getElem? hp
  rw [checkNames_cons_of_free hw List.not_mem_nil
    ⟨parameter, hmem, rfl, Nat.le_of_eq hindex.symm⟩]
  exact checkNames_moved receiver value named hw hp (by simp) named

end

end Call

/-! ## Requests -/

/-- Values for the first parameters, each under the name of its own. -/
def Signature.byName (signature : Signature) (values : List Value) : List (NamedArgument Value) :=
  List.zipWith (fun parameter value => ⟨parameter.name, value⟩) signature.parameters values

/-- A list that is matched with a longer one can be extended by one element. -/
theorem zipWith_concat {α β γ : Type} {f : α → β → γ} {xs : List α} {ys : List β} {x : α}
    (h : xs[ys.length]? = some x) (y : β) :
    List.zipWith f xs (ys ++ [y]) = List.zipWith f xs ys ++ [f x y] := by
  induction ys generalizing xs with
  | nil =>
    cases xs with
    | nil => cases h
    | cons a rest =>
      cases h
      simp
  | cons b rest ih =>
    cases xs with
    | nil => cases h
    | cons a others =>
      rw [List.cons_append, List.zipWith_cons_cons, List.zipWith_cons_cons, List.cons_append]
      rw [ih (by simpa using h)]

namespace Request

theorem serve_callOf {request : Request} {signature : Signature}
    (hmem : signature ∈ Catalogue.signatures) (hname : signature.name = request.name) :
    request.serve = (request.callOf signature).accept.bind Call.invoke :=
  serve_of_find? (Catalogue.find?_eq_some_iff.mpr ⟨hmem, hname⟩)

/-- Moving one argument does not change the answer. -/
theorem serve_moved {signature : Signature} (hmem : signature ∈ Catalogue.signatures)
    (receiver : Option Value) {positional : List Value} (value : Value)
    (named : List (NamedArgument Value)) {parameter : Parameter}
    (hp : signature.parameters[positional.length]? = some parameter) :
    serve ⟨signature.name, receiver, ⟨positional ++ [value], named⟩⟩ =
      serve ⟨signature.name, receiver, ⟨positional, ⟨parameter.name, value⟩ :: named⟩⟩ := by
  have hw := Catalogue.wellFormed_of_mem hmem
  rw [serve_callOf hmem rfl, serve_callOf hmem rfl]
  refine (Call.agree_moved receiver value named hw hp).accept_bind_invoke hmem ?_ ?_
  · show (positional ++ [value]).length + named.length = positional.length + (named.length + 1)
    rw [List.length_append, List.length_singleton]
    omega
  · exact Call.checkNames_ofFirst receiver value named hw hp

/-- The argument that is moved first is the last one by position, so that all can be moved. -/
theorem serve_byName {signature : Signature} (hmem : signature ∈ Catalogue.signatures)
    (receiver : Option Value) (positional : List Value) (named : List (NamedArgument Value))
    (hcount : positional.length ≤ signature.parameters.length) :
    serve ⟨signature.name, receiver, ⟨positional, named⟩⟩ =
      serve ⟨signature.name, receiver, ⟨[], signature.byName positional ++ named⟩⟩ := by
  induction positional using List.reverseRecOn generalizing named with
  | nil => simp [Signature.byName]
  | append_singleton rest value ih =>
    have hlt : rest.length < signature.parameters.length := by
      rw [List.length_append, List.length_singleton] at hcount
      omega
    -- the last argument is moved, and then the ones before it, for a longer list of named ones
    have hp := List.getElem?_eq_getElem hlt
    rw [serve_moved hmem receiver value named hp, ih _ (Nat.le_of_lt hlt)]
    rw [Signature.byName, Signature.byName, zipWith_concat hp, List.append_assoc]
    rfl

/-- A request is served alike, be it with a value or with a fault, when its last positional argument
is passed first among the named ones, and when all positional ones are. -/
theorem serve_by_name {signature : Signature} (hmem : signature ∈ Catalogue.signatures)
    (receiver : Option Value) (positional : List Value) (value : Value)
    (named : List (NamedArgument Value))
    (hcount : positional.length < signature.parameters.length) :
    serve ⟨signature.name, receiver, ⟨positional ++ [value], named⟩⟩ =
      serve ⟨signature.name, receiver,
        ⟨positional, ⟨signature.parameters[positional.length].name, value⟩ :: named⟩⟩ ∧
    serve ⟨signature.name, receiver, ⟨positional ++ [value], named⟩⟩ =
      serve ⟨signature.name, receiver,
        ⟨[], signature.byName (positional ++ [value]) ++ named⟩⟩ := by
  constructor
  · exact serve_moved hmem receiver value named (List.getElem?_eq_getElem hcount)
  · refine serve_byName hmem receiver _ named ?_
    rw [List.length_append, List.length_singleton]
    exact hcount

/-- A parameter given twice is found out in both ways of passing it. -/
theorem serve_by_name_twice :
    Catalogue.subtract ∈ Catalogue.signatures ∧ 0 < Catalogue.subtract.parameters.length ∧
      serve ⟨"subtract", none, ⟨[.single .zero], [⟨"a", .single .nan⟩]⟩⟩ =
        .error (.repeatedArgument "subtract" "a") ∧
      serve ⟨"subtract", none, ⟨[], [⟨"a", .single .zero⟩, ⟨"a", .single .nan⟩]⟩⟩ =
        .error (.repeatedArgument "subtract" "a") := by
  have hmem : Catalogue.subtract ∈ Catalogue.signatures := by decide
  have hserve : serve ⟨"subtract", none, ⟨[.single .zero], [⟨"a", .single .nan⟩]⟩⟩ =
      .error (.repeatedArgument "subtract" "a") := by decide
  have hmoved := (serve_by_name hmem none [] (.single .zero) [⟨"a", .single .nan⟩]
    (by decide)).1
  exact ⟨hmem, by decide, hserve, hmoved.symm.trans hserve⟩

end Request

end CallGate
