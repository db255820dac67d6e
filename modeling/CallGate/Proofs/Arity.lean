import CallGate.Proofs.Accessors
import CallGate.Proofs.Order

/-!
# How many parameters lack an argument

Arguments that pass the count and the scan of their names go to different parameters. So each
parameter either has an argument of its own or lacks one, and those that lack one are as many as
there are arguments too few. None of this asks for the receiver or for the kinds of the arguments.

- `Call.lacking`: the parameters that a look-up finds no argument for.
- `Call.reached`: the names of the parameters that arguments go to, one for each argument.
- `Call.WellNamed.perm_reached`: the parameters that get an argument are those.
- `Call.WellNamed.length_lacking_add_count`: so the arguments and the parameters that lack one make
  up all parameters.
- `Call.checkParameters_cases`, `Call.checkArguments_cases`: what the checks of arguments come to.
- `Call.exists_lacking_of_missing`, `Call.lacking_eq_nil_of_checkArguments`: they report as missing
  what is lacking, and accept nothing where something is.
- `Call.arity_of_checks`: how many parameters lack an argument, and what the checks say of too few
  arguments.
-/

namespace CallGate

namespace Call

/-! ## Parameters without an argument -/

/-- The parameters that get no argument. -/
def lacking (call : Call) : List Parameter :=
  call.signature.parameters.filter fun parameter =>
    (call.arguments.at? parameter.index parameter.name).isNone

theorem mem_lacking_iff {call : Call} {parameter : Parameter} :
    parameter ∈ call.lacking ↔ parameter ∈ call.signature.parameters ∧
      call.arguments.at? parameter.index parameter.name = none := by
  rw [lacking, List.mem_filter, Option.isNone_iff_eq_none]

/-- The names of the parameters that arguments go to: those of the first parameters, for the
positional arguments, and those of the named arguments. -/
def reached (call : Call) : List String :=
  (call.signature.parameters.take call.arguments.positional.length).map Parameter.name ++
    call.arguments.named.map NamedArgument.name

theorem length_reached {call : Call} (hcount : call.CountFits) :
    call.reached.length = call.arguments.count := by
  have hle : call.arguments.positional.length + call.arguments.named.length ≤
    call.signature.parameters.length := hcount
  rw [reached, List.length_append, List.length_map, List.length_map, List.length_take,
    Nat.min_eq_left (by omega), Arguments.count]

namespace WellNamed

variable {call : Call} (hn : call.WellNamed) (ha : call.signature.Addressable)

include hn ha

/-- No two arguments go to one parameter. -/
theorem nodup_reached : call.reached.Nodup := by
  rw [reached, List.nodup_append']
  refine ⟨?_, hn.distinct, ?_⟩
  · exact ha.names_distinct.sublist ((List.take_sublist _ _).map _)
  · -- a name of the first parameters is not free
    intro name hfirst hnamed
    obtain ⟨parameter, hparameter, rfl⟩ := List.mem_map.mp hfirst
    obtain ⟨argument, hargument, hname⟩ := List.mem_map.mp hnamed
    obtain ⟨hmem, hlt⟩ := ha.mem_take_iff.mp hparameter
    obtain ⟨other, hother, hsame, hle⟩ := hn.free argument hargument
    rw [ha.eq_of_name hother hmem (hsame.trans hname)] at hle
    exact Nat.not_le.mpr hlt hle

/-- A parameter gets an argument if one goes to it. -/
theorem mem_reached_iff {name : String} :
    name ∈ call.reached ↔ ∃ parameter ∈ call.signature.parameters,
      call.arguments.at? parameter.index parameter.name ≠ none ∧ parameter.name = name := by
  simp only [reached, List.mem_append, List.mem_map, ha.mem_take_iff, ne_eq,
    Arguments.at?_eq_none_iff]
  constructor
  · rintro (⟨parameter, ⟨hmem, hlt⟩, hname⟩ | ⟨argument, hargument, rfl⟩)
    · exact ⟨parameter, hmem, fun h => Nat.not_le.mpr hlt h.1, hname⟩
    · obtain ⟨parameter, hmem, hname, -⟩ := hn.free argument hargument
      exact ⟨parameter, hmem, fun h => h.2 argument hargument hname.symm, hname⟩
  · rintro ⟨parameter, hmem, hgets, rfl⟩
    by_cases hlt : parameter.index < call.arguments.positional.length
    · exact .inl ⟨parameter, ⟨hmem, hlt⟩, rfl⟩
    · right
      -- beyond the positions it is found under its name, so some named argument has that
      by_contra hnone
      exact hgets ⟨Nat.le_of_not_lt hlt, fun argument hargument hname =>
        hnone ⟨argument, hargument, hname⟩⟩

/-- The parameters that get an argument are those that arguments go to. -/
theorem perm_reached :
    ((call.signature.parameters.filter fun parameter =>
      (call.arguments.at? parameter.index parameter.name).isSome).map Parameter.name).Perm
      call.reached := by
  refine (List.perm_ext_iff_of_nodup ?_ (hn.nodup_reached ha)).mpr fun name => ?_
  · exact ha.names_distinct.sublist (List.filter_sublist.map _)
  · rw [hn.mem_reached_iff ha, List.mem_map]
    simp only [List.mem_filter, Option.isSome_iff_ne_none, and_assoc]

/-- Every parameter lacks an argument or has one of its own. -/
theorem length_lacking_add_count (hcount : call.CountFits) :
    call.lacking.length + call.arguments.count = call.signature.parameters.length := by
  have hgets := (hn.perm_reached ha).length_eq
  rw [List.length_map, length_reached hcount] at hgets
  -- the parameters are those that get an argument and those that lack one
  have hsplit := List.length_eq_length_filter_add (l := call.signature.parameters)
    fun parameter => (call.arguments.at? parameter.index parameter.name).isSome
  simp only [Option.not_isSome] at hsplit
  rw [hsplit, hgets, Nat.add_comm]
  rfl

end WellNamed

/-! ## What the checks report -/

theorem checkParameter_eq_missing_iff {call : Call} {parameter : Parameter}
    {exportName name : String} :
    call.checkParameter parameter = .error (.missingArgument exportName name) ↔
      call.arguments.at? parameter.index parameter.name = none ∧
        call.exportName = exportName ∧ parameter.name = name := by
  rw [checkParameter_eq, fetch_eq]
  cases call.arguments.at? parameter.index parameter.name with
  | none => simp [Except.map]
  | some value => by_cases hkind : value.kind = parameter.kind <;> simp [hkind, Except.map]

/-- The check of the parameters comes to the fault of one of them, or finds none. -/
theorem checkParameters_cases (call : Call) (parameters : List Parameter) :
    (call.checkParameters parameters = .ok () ∧
      ∀ parameter ∈ parameters, call.checkParameter parameter = .ok ()) ∨
    ∃ parameter ∈ parameters, ∃ fault, call.checkParameter parameter = .error fault ∧
      call.checkParameters parameters = .error fault := by
  induction parameters with
  | nil => exact .inl ⟨rfl, nofun⟩
  | cons parameter rest ih =>
    rw [checkParameters]
    cases hcheck : call.checkParameter parameter with
    | error fault => exact .inr ⟨parameter, List.mem_cons_self, fault, hcheck, rfl⟩
    | ok _ =>
      rcases ih with ⟨hok, hrest⟩ | ⟨other, hother, hfault⟩
      · exact .inl ⟨hok, List.forall_mem_cons.mpr ⟨hcheck, hrest⟩⟩
      · exact .inr ⟨other, List.mem_cons_of_mem _ hother, hfault⟩

theorem checkCount_eq_ok_iff {call : Call} : call.checkCount = .ok () ↔ call.CountFits := by
  constructor
  · intro h
    by_contra hnot
    rw [checkCount_of_not_fits hnot] at h
    cases h
  · exact checkCount_of_fits

/-- Only where the count and the names are in order are the parameters looked at. Before that no
argument is reported as missing. -/
theorem checkArguments_cases (call : Call) :
    (call.CountFits ∧ call.WellNamed ∧
      call.checkArguments = call.checkParameters call.signature.parameters) ∨
    ∃ fault, call.checkArguments = .error fault ∧ fault.kind ≠ .missingArgument := by
  rw [checkArguments]
  by_cases hcount : call.CountFits
  · rw [checkCount_of_fits hcount]
    rcases call.wellNamed_or_fault with ⟨hok, hn⟩ | ⟨fault, hfault, hof⟩
    · rw [hok]
      exact .inl ⟨hcount, hn, rfl⟩
    · rw [hfault]
      -- the scan of the names has faults of its own, and a missing argument is none of these
      refine .inr ⟨fault, rfl, fun hmissing => ?_⟩
      rw [Fault.OfNames, hmissing] at hof
      simp at hof
  · rw [checkCount_of_not_fits hcount]
    refine .inr ⟨_, rfl, ?_⟩
    show Fault.Kind.tooManyArguments ≠ .missingArgument
    decide

/-- An argument that is reported as missing is that of a parameter which lacks one. -/
theorem exists_lacking_of_missing {call : Call} {exportName name : String}
    (h : call.checkArguments = .error (.missingArgument exportName name)) :
    call.CountFits ∧ call.WellNamed ∧ ∃ parameter ∈ call.lacking, parameter.name = name := by
  rcases call.checkArguments_cases with ⟨hcount, hn, hparameters⟩ | ⟨fault, hfault, hkind⟩
  · refine ⟨hcount, hn, ?_⟩
    -- the fault is that of a parameter, whose look-up found nothing
    rw [hparameters] at h
    rcases call.checkParameters_cases call.signature.parameters with
      ⟨hok, -⟩ | ⟨parameter, hmem, fault, hcheck, hfault⟩
    · cases h.symm.trans hok
    · obtain rfl := Except.error.inj (hfault.symm.trans h)
      obtain ⟨hnone, -, hname⟩ := checkParameter_eq_missing_iff.mp hcheck
      exact ⟨parameter, mem_lacking_iff.mpr ⟨hmem, hnone⟩, hname⟩
  · obtain rfl := Except.error.inj (hfault.symm.trans h)
    exact absurd rfl hkind

/-- Arguments that the checks accept leave no parameter without one. -/
theorem lacking_eq_nil_of_checkArguments {call : Call} (h : call.checkArguments = .ok ()) :
    call.CountFits ∧ call.WellNamed ∧ call.lacking = [] := by
  rcases call.checkArguments_cases with ⟨hcount, hn, hparameters⟩ | ⟨fault, hfault, -⟩
  · refine ⟨hcount, hn, List.eq_nil_iff_forall_not_mem.mpr fun parameter hlacking => ?_⟩
    obtain ⟨hmem, hnone⟩ := mem_lacking_iff.mp hlacking
    -- a parameter that lacks an argument would have been reported
    have hmissing := checkParameter_eq_missing_iff.mpr ⟨hnone, rfl, rfl⟩
    rw [hparameters] at h
    rcases call.checkParameters_cases call.signature.parameters with
      ⟨-, hok⟩ | ⟨other, -, fault, -, hfault⟩
    · cases hmissing.symm.trans (hok parameter hmem)
    · cases h.symm.trans hfault
  · cases h.symm.trans hfault

/-- Arguments that pass the count and the scan of the names are not more than the parameters, and as
many parameters lack an argument as there are arguments too few. So none is reported as missing
unless there are too few, and too few are not accepted. -/
theorem arity_of_checks {call : Call} (ha : call.signature.Addressable) :
    (call.checkCount = .ok () → call.checkNames [] call.arguments.named = .ok () →
      call.arguments.count ≤ call.signature.parameters.length ∧
      call.lacking.length = call.signature.parameters.length - call.arguments.count) ∧
    (∀ exportName name, call.checkArguments = .error (.missingArgument exportName name) →
      call.arguments.count < call.signature.parameters.length) ∧
    (call.arguments.count < call.signature.parameters.length → call.checkArguments ≠ .ok ()) := by
  refine ⟨?_, ?_, ?_⟩
  · intro hcheckCount hscan
    have hcount := checkCount_eq_ok_iff.mp hcheckCount
    rcases call.wellNamed_or_fault with ⟨-, hn⟩ | ⟨fault, hfault, -⟩
    · have hsum := hn.length_lacking_add_count ha hcount
      omega
    · cases hscan.symm.trans hfault
  · intro exportName name hmissing
    obtain ⟨hcount, hn, parameter, hlacking, -⟩ := exists_lacking_of_missing hmissing
    have hsum := hn.length_lacking_add_count ha hcount
    have hpos := List.length_pos_of_mem hlacking
    omega
  · intro hfewer haccept
    obtain ⟨hcount, hn, hnil⟩ := lacking_eq_nil_of_checkArguments haccept
    have hsum := hn.length_lacking_add_count ha hcount
    rw [hnil, List.length_nil] at hsum
    omega

/-- The first of four parameters by position and the last by name. -/
def outermost : Call where
  signature := { blend with receiver := none }
  receiver := none
  arguments := {
    positional := [.single .nan]
    named := [⟨"d", .single .zero⟩] }

/-- The two parameters between them lack an argument. That the last one is of the wrong kind is not
reported, and that a method without a receiver is no export does not matter. -/
theorem arity_of_checks_outermost :
    outermost.signature.Addressable ∧ ¬ outermost.signature.WellFormed ∧
    outermost.checkCount = .ok () ∧
    outermost.checkNames [] outermost.arguments.named = .ok () ∧
    outermost.lacking.length = 4 - 2 ∧
    outermost.checkArguments = .error (.missingArgument "blend" "b") ∧
    2 < outermost.signature.parameters.length ∧
    outermost.checkArguments ≠ .ok () := by
  have ha : outermost.signature.Addressable := ⟨by decide, by decide⟩
  have hcount : outermost.checkCount = .ok () := by decide
  have hscan : outermost.checkNames [] outermost.arguments.named = .ok () := by decide
  have hmissing : outermost.checkArguments = .error (.missingArgument "blend" "b") := by decide
  have hfewer : 2 < outermost.signature.parameters.length :=
    (arity_of_checks ha).2.1 _ _ hmissing
  refine ⟨ha, fun hw => ?_, hcount, hscan, ((arity_of_checks ha).1 hcount hscan).2, hmissing,
    hfewer, (arity_of_checks ha).2.2 hfewer⟩
  exact absurd (hw.receiver_iff.mpr rfl) (by decide)

end Call

end CallGate
