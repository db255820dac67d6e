import Mathlib.Order.WellFounded
import CallGate.Proofs.Matching

/-!
# Names of arguments

The scan of the named arguments, which keeps the names that it has seen, and what it comes to.

- `Call.Misnamed`: a named argument is at fault, told by its place in the list alone.
- `Call.Free`, `Call.WellNamed`: a name that is left for an argument, and arguments whose names are
  different and free.
- `Call.checkNames_append`: the invariant of the scan. It passes over such arguments, and has then
  seen their names.
- `Call.checkNames_of_first_unknown`, `Call.checkNames_of_first_known`: it reports the first fault,
  and of two kinds only, by whether a parameter has the name.
- `Call.WellNamed.slot?_eq_some_iff`: when it reports none, each parameter is sent at most one
  argument, and a look-up takes that one.
-/

namespace CallGate

namespace Call

/-! ## Faults by place -/

/-- A named argument is at fault: its name stands earlier in the list, or no parameter has it, or a
positional argument takes the parameter that has it. -/
def Misnamed (call : Call) (j : Fin call.arguments.named.length) : Prop :=
  (∃ i < j, call.arguments.nameAt i = call.arguments.nameAt j) ∨
  (∀ parameter ∈ call.signature.parameters, parameter.name ≠ call.arguments.nameAt j) ∨
  ∃ parameter ∈ call.signature.parameters, parameter.name = call.arguments.nameAt j ∧
    parameter.index < call.arguments.positional.length

/-- Of the arguments whose names are at fault one stands first. -/
theorem exists_first_misnamed {call : Call} (h : ∃ j, call.Misnamed j) :
    ∃ j, call.Misnamed j ∧ ∀ i < j, ¬ call.Misnamed i := by
  obtain ⟨j, hj, hmin⟩ := wellFounded_lt.has_min {j | call.Misnamed j} h
  exact ⟨j, hj, fun i hi hmisnamed => hmin i hmisnamed hi⟩

/-! ## Free names -/

/-- A name is that of a parameter which no positional argument takes. -/
def Free (call : Call) (name : String) : Prop :=
  ∃ parameter ∈ call.signature.parameters, parameter.name = name ∧
    call.arguments.positional.length ≤ parameter.index

/-- All names of arguments are different and free. -/
structure WellNamed (call : Call) : Prop where
  distinct : (call.arguments.named.map NamedArgument.name).Nodup
  free : ∀ argument ∈ call.arguments.named, call.Free argument.name

/-- A name that is not at fault is that of a parameter no positional argument takes. -/
theorem free_of_not_misnamed {call : Call} {j : Fin call.arguments.named.length}
    (h : ¬ call.Misnamed j) : call.Free (call.arguments.nameAt j) := by
  simp only [Misnamed, not_or, not_forall, not_exists, not_and] at h
  obtain ⟨-, ⟨parameter, hmem, hname⟩, htaken⟩ := h
  have hname := not_not.mp hname
  exact ⟨parameter, hmem, hname, Nat.le_of_not_lt (htaken parameter hmem hname)⟩

/-- The names up to a place with no fault before it are different and free. -/
theorem wellNamed_take {call : Call} {k : Nat}
    (h : ∀ j : Fin call.arguments.named.length, j.val < k → ¬ call.Misnamed j) :
    ((call.arguments.named.take k).map NamedArgument.name).Nodup ∧
      ∀ argument ∈ call.arguments.named.take k, call.Free argument.name := by
  constructor
  · rw [List.Nodup, List.pairwise_map, List.pairwise_iff_getElem]
    intro i j hi hj hij heq
    -- of two equal names the second is at fault, as the first stands earlier
    rw [List.length_take] at hi hj
    rw [List.getElem_take, List.getElem_take] at heq
    exact h ⟨j, by omega⟩ (show j < k by omega) (.inl ⟨⟨i, by omega⟩, hij, heq⟩)
  · intro argument hmem
    obtain ⟨j, hj, rfl⟩ := List.mem_iff_getElem.mp hmem
    rw [List.length_take] at hj
    rw [List.getElem_take]
    exact free_of_not_misnamed (h ⟨j, by omega⟩ (show j < k by omega))

/-- If no name is at fault, all are different and free. -/
theorem wellNamed_of_not_misnamed {call : Call} (h : ∀ j, ¬ call.Misnamed j) :
    call.WellNamed := by
  obtain ⟨hdistinct, hfree⟩ := wellNamed_take (k := call.arguments.named.length) fun j _ => h j
  rw [List.take_length] at hdistinct hfree
  exact ⟨hdistinct, hfree⟩

/-! ## One step of the scan -/

/-- A free name that has not been seen is noted, and the scan goes on. -/
theorem checkNames_cons_of_free {call : Call} (hw : call.signature.WellFormed)
    {seen : List String} {argument : NamedArgument Value} (hfresh : argument.name ∉ seen)
    (hfree : call.Free argument.name) (rest : List (NamedArgument Value)) :
    call.checkNames seen (argument :: rest) = call.checkNames (argument.name :: seen) rest := by
  obtain ⟨parameter, hmem, hname, hle⟩ := hfree
  have hp : call.signature.parameter? argument.name = some parameter := by
    rw [← hname, hw.parameter?_name hmem]
  rw [checkNames, if_neg hfresh, hp]
  exact if_neg (Nat.not_lt.mpr hle)

/-- A name that no parameter has ends the scan. -/
theorem checkNames_cons_of_unknown {call : Call} {seen : List String}
    {argument : NamedArgument Value} (hfresh : argument.name ∉ seen)
    (hunknown : ∀ parameter ∈ call.signature.parameters, parameter.name ≠ argument.name)
    (rest : List (NamedArgument Value)) :
    call.checkNames seen (argument :: rest) =
      .error (.unknownParameter call.exportName argument.name) := by
  rw [checkNames, if_neg hfresh, Signature.parameter?_eq_none_iff.mpr hunknown]

theorem checkNames_cons_of_seen {call : Call} {seen : List String}
    {argument : NamedArgument Value} (hseen : argument.name ∈ seen)
    (rest : List (NamedArgument Value)) :
    call.checkNames seen (argument :: rest) =
      .error (.repeatedArgument call.exportName argument.name) := by
  rw [checkNames, if_pos hseen]

/-- So does the name of a parameter, seen before or taken by position. -/
theorem checkNames_cons_of_taken {call : Call} (hw : call.signature.WellFormed)
    {seen : List String} {argument : NamedArgument Value} {parameter : Parameter}
    (hmem : parameter ∈ call.signature.parameters) (hname : parameter.name = argument.name)
    (htaken : argument.name ∈ seen ∨ parameter.index < call.arguments.positional.length)
    (rest : List (NamedArgument Value)) :
    call.checkNames seen (argument :: rest) =
      .error (.repeatedArgument call.exportName argument.name) := by
  by_cases hseen : argument.name ∈ seen
  · exact checkNames_cons_of_seen hseen rest
  · have hp : call.signature.parameter? argument.name = some parameter := by
      rw [← hname, hw.parameter?_name hmem]
    rw [checkNames, if_neg hseen, hp]
    exact if_pos (htaken.resolve_left hseen)

/-! ## The whole scan -/

/-- The scan passes over arguments with different free names and has then seen these. -/
theorem checkNames_append {call : Call} (hw : call.signature.WellFormed)
    (seen : List String) {earlier : List (NamedArgument Value)}
    (hdistinct : (earlier.map NamedArgument.name).Nodup)
    (hfresh : ∀ argument ∈ earlier, argument.name ∉ seen)
    (hfree : ∀ argument ∈ earlier, call.Free argument.name)
    (later : List (NamedArgument Value)) :
    call.checkNames seen (earlier ++ later) =
      call.checkNames ((earlier.map NamedArgument.name).reverse ++ seen) later := by
  induction earlier generalizing seen with
  | nil => rfl
  | cons argument rest ih =>
    -- the invariant holds of the rest with one more name seen, as that name does not come again
    rw [List.map_cons, List.nodup_cons] at hdistinct
    rw [List.cons_append, checkNames_cons_of_free hw (hfresh argument List.mem_cons_self)
      (hfree argument List.mem_cons_self)]
    rw [ih _ hdistinct.2 ?_ fun other hother => hfree other (List.mem_cons_of_mem _ hother)]
    · rw [List.map_cons, List.reverse_cons, List.append_assoc]
      rfl
    · intro other hother hmem
      rcases List.mem_cons.mp hmem with heq | hmem
      · exact hdistinct.1 (heq ▸ List.mem_map_of_mem hother)
      · exact hfresh other (List.mem_cons_of_mem _ hother) hmem

theorem checkNames_of_wellNamed {call : Call} (hw : call.signature.WellFormed)
    (h : call.WellNamed) : call.checkNames [] call.arguments.named = .ok () := by
  have happend := checkNames_append hw [] h.distinct (by simp) h.free []
  rw [List.append_nil] at happend
  rw [happend]
  rfl

/-- Up to the first fault the scan has found nothing, and it has seen the names before. -/
theorem checkNames_of_first {call : Call} (hw : call.signature.WellFormed)
    {j : Fin call.arguments.named.length} (hfirst : ∀ i < j, ¬ call.Misnamed i) :
    call.checkNames [] call.arguments.named =
      call.checkNames ((call.arguments.named.take j).map NamedArgument.name).reverse
        (call.arguments.named[j] :: call.arguments.named.drop (j + 1)) := by
  obtain ⟨hdistinct, hfree⟩ := wellNamed_take (k := j) fun i hi => hfirst i hi
  have hsplit : call.arguments.named.take j ++
      call.arguments.named[j] :: call.arguments.named.drop (j + 1) = call.arguments.named := by
    simp
  have happend := checkNames_append hw [] hdistinct (by simp) hfree
    (call.arguments.named[j] :: call.arguments.named.drop (j + 1))
  rwa [hsplit, List.append_nil] at happend

/-- The scan reports the first name at fault as unknown if no parameter has it. -/
theorem checkNames_of_first_unknown {call : Call} (hw : call.signature.WellFormed)
    {j : Fin call.arguments.named.length} (hfirst : ∀ i < j, ¬ call.Misnamed i)
    (hunknown : ∀ parameter ∈ call.signature.parameters,
      parameter.name ≠ call.arguments.nameAt j) :
    call.checkNames [] call.arguments.named =
      .error (.unknownParameter call.exportName (call.arguments.nameAt j)) := by
  rw [checkNames_of_first hw hfirst]
  refine checkNames_cons_of_unknown ?_ hunknown _
  -- an unknown name cannot have been seen: all names before are those of parameters
  intro hseen
  rw [List.mem_reverse, List.mem_map] at hseen
  obtain ⟨argument, hargument, hname⟩ := hseen
  obtain ⟨-, hfree⟩ := wellNamed_take (k := j) fun i hi => hfirst i hi
  obtain ⟨parameter, hmem, hparameter, -⟩ := hfree argument hargument
  exact hunknown parameter hmem (hparameter.trans hname)

/-- And as repeated if one has it. -/
theorem checkNames_of_first_known {call : Call} (hw : call.signature.WellFormed)
    {j : Fin call.arguments.named.length} (hmisnamed : call.Misnamed j)
    (hfirst : ∀ i < j, ¬ call.Misnamed i)
    (hknown : ∃ parameter ∈ call.signature.parameters,
      parameter.name = call.arguments.nameAt j) :
    call.checkNames [] call.arguments.named =
      .error (.repeatedArgument call.exportName (call.arguments.nameAt j)) := by
  obtain ⟨parameter, hmem, hname⟩ := hknown
  rw [checkNames_of_first hw hfirst]
  refine checkNames_cons_of_taken hw hmem hname ?_ _
  -- a known name is at fault for one of two reasons, and the scan says the same for both
  rcases hmisnamed with ⟨i, hi, heq⟩ | hunknown | ⟨other, hother, hsame, hlt⟩
  · left
    rw [List.mem_reverse]
    show call.arguments.nameAt j ∈ _
    rw [← heq]
    have htake : call.arguments.named[i] ∈ call.arguments.named.take j := by
      rw [List.mem_take_iff_getElem]
      exact ⟨i, by omega, rfl⟩
    exact List.mem_map_of_mem htake
  · exact absurd hname (hunknown parameter hmem)
  · right
    rwa [hw.eq_of_name hmem hother (hname.trans hsame.symm)]

/-! ## Look-ups after the scan -/

namespace WellNamed

variable {call : Call} (hn : call.WellNamed)

include hn

/-- No parameter is sent two arguments. -/
theorem sentTo_unique (hw : call.signature.WellFormed) {parameter : Parameter}
    (hmem : parameter ∈ call.signature.parameters) {x y : call.arguments.Slot}
    (hx : call.arguments.SentTo parameter x) (hy : call.arguments.SentTo parameter y) : x = y := by
  -- a name is not free if there is an argument at the index of its parameter
  have apart : ∀ (i : Fin call.arguments.positional.length) (j : Fin call.arguments.named.length),
      call.arguments.SentTo parameter (.inl i) → call.arguments.SentTo parameter (.inr j) →
        False := by
    intro i j hi hj
    have hindex : parameter.index = i := hi
    have hname : parameter.name = call.arguments.named[j].name := hj
    obtain ⟨other, hother, hsame, hle⟩ := hn.free _ (List.getElem_mem j.isLt)
    rw [hw.eq_of_name hother hmem (hsame.trans hname.symm), hindex] at hle
    exact absurd i.isLt (Nat.not_lt.mpr hle)
  rcases x with i | j <;> rcases y with i' | j'
  · have hi : parameter.index = i := hx
    have hi' : parameter.index = i' := hy
    exact congrArg Sum.inl (Fin.ext (hi.symm.trans hi'))
  · exact (apart i j' hx hy).elim
  · exact (apart i' j hy hx).elim
  · have hj : parameter.name = call.arguments.named[j].name := hx
    have hj' : parameter.name = call.arguments.named[j'].name := hy
    have hlt : j.val < (call.arguments.named.map NamedArgument.name).length := by simp
    -- by one name at two places, but the names are distinct
    have hget : (call.arguments.named.map NamedArgument.name)[j.val]? =
        (call.arguments.named.map NamedArgument.name)[j'.val]? := by
      rw [List.getElem?_map, List.getElem?_map, List.getElem?_eq_getElem j.isLt,
        List.getElem?_eq_getElem j'.isLt]
      exact congrArg some (hj.symm.trans hj')
    exact congrArg Sum.inr (Fin.ext ((List.getElem?_inj hlt hn.distinct).mp hget))

/-- A parameter gets exactly what it is sent. -/
theorem slot?_eq_some_iff (hw : call.signature.WellFormed) {parameter : Parameter}
    (hmem : parameter ∈ call.signature.parameters) {slot : call.arguments.Slot} :
    call.arguments.slot? parameter.index parameter.name = some slot ↔
      call.arguments.SentTo parameter slot := by
  constructor
  · exact Arguments.sentTo_of_slot?
  · intro hsent
    cases h : call.arguments.slot? parameter.index parameter.name with
    | none => exact absurd hsent (Arguments.not_sentTo_of_slot? h slot)
    | some other =>
      rw [hn.sentTo_unique hw hmem (Arguments.sentTo_of_slot? h) hsent]

/-- What was sent to a parameter is found by its index and name. -/
theorem at?_of_sentTo (hw : call.signature.WellFormed) {parameter : Parameter}
    (hmem : parameter ∈ call.signature.parameters) {slot : call.arguments.Slot}
    (hsent : call.arguments.SentTo parameter slot) :
    call.arguments.at? parameter.index parameter.name = some (call.arguments.value slot) := by
  rw [← Arguments.map_value_slot?, (hn.slot?_eq_some_iff hw hmem).mpr hsent]
  rfl

end WellNamed

end Call

end CallGate
