import Mathlib.Data.Fintype.Sum
import CallGate.Call

/-!
# Arguments and parameters

Which parameter an argument is sent to, and which argument a parameter gets when it is asked for.

- `find?_name_perm`: with different names, the first match is the only one.
- `Signature.Addressable.eq_of_name`, `Signature.Addressable.eq_of_index`: where parameters have
  different names and stand at their indexes, one is known by its name, and by its index.
- `Arguments.Slot`, `Arguments.value`: the places where arguments stand, and the argument at one.
- `Arguments.SentTo`: an argument is sent to the parameter of its index or of its name.
- `Arguments.slot?`: the slot that a look-up takes its argument from. This is the look-up itself,
  over arguments of which each is its own slot, so that equal values at two slots stay apart.
- `Arguments.map_value_slot?`, `Arguments.sentTo_of_slot?`: a look-up returns the argument at that
  slot, which is one that was sent to the parameter.
-/

namespace CallGate

/-! ## Parameters by name and by index -/

/-- What is looked up in a list by a name that is its own is found. -/
theorem find?_name_eq_some_iff {α : Type} {nameOf : α → String} {xs : List α}
    (hdistinct : (xs.map nameOf).Nodup) {name : String} {x : α} :
    (xs.find? fun y => nameOf y = name) = some x ↔ x ∈ xs ∧ nameOf x = name := by
  constructor
  · intro h
    exact ⟨List.mem_of_find?_eq_some h, by simpa using List.find?_some h⟩
  · rintro ⟨hmem, hname⟩
    have hsome : (xs.find? fun y => nameOf y = name).isSome := by
      rw [List.find?_isSome]
      exact ⟨x, hmem, by simpa using hname⟩
    obtain ⟨y, hy⟩ := Option.isSome_iff_exists.mp hsome
    have hyname : nameOf y = name := by simpa using List.find?_some hy
    -- some element is found, and only one has the name
    rw [hy, List.inj_on_of_nodup_map hdistinct (List.mem_of_find?_eq_some hy) hmem
      (hyname.trans hname.symm)]

/-- Look-ups by a name that is its own do not depend on the order. -/
theorem find?_name_perm {α : Type} {nameOf : α → String} {xs ys : List α} (hperm : xs.Perm ys)
    (hdistinct : (ys.map nameOf).Nodup) (name : String) :
    (xs.find? fun x => nameOf x = name) = ys.find? fun y => nameOf y = name := by
  refine Option.ext fun x => ?_
  -- membership does not depend on the order, and with distinct names it decides the look-up
  have hdistinct' : (xs.map nameOf).Nodup := (hperm.map _).nodup_iff.mpr hdistinct
  rw [find?_name_eq_some_iff hdistinct', find?_name_eq_some_iff hdistinct, hperm.mem_iff]

namespace Signature

theorem parameter?_eq_none_iff {signature : Signature} {name : String} :
    signature.parameter? name = none ↔
      ∀ parameter ∈ signature.parameters, parameter.name ≠ name := by
  simp [parameter?]

theorem mem_of_parameter? {signature : Signature} {name : String} {parameter : Parameter}
    (h : signature.parameter? name = some parameter) :
    parameter ∈ signature.parameters ∧ parameter.name = name :=
  ⟨List.mem_of_find?_eq_some h, by simpa using List.find?_some h⟩

namespace Addressable

variable {signature : Signature} (ha : signature.Addressable)

include ha

theorem eq_of_name {x y : Parameter} (hx : x ∈ signature.parameters)
    (hy : y ∈ signature.parameters) (h : x.name = y.name) : x = y :=
  List.inj_on_of_nodup_map ha.names_distinct hx hy h

/-- The parameter at a position has it as its index. -/
theorem index_of_getElem? {i : Nat} {parameter : Parameter}
    (h : signature.parameters[i]? = some parameter) : parameter.index = i := by
  have hi : i < signature.parameters.length := (List.getElem?_eq_some_iff.mp h).1
  have hmap : (signature.parameters.map Parameter.index)[i]? = some parameter.index := by simp [h]
  rw [ha.index_eq, List.getElem?_range hi] at hmap
  exact (Option.some.inj hmap).symm

/-- The first parameters are those of lower index. -/
theorem mem_take_iff {k : Nat} {parameter : Parameter} :
    parameter ∈ signature.parameters.take k ↔
      parameter ∈ signature.parameters ∧ parameter.index < k := by
  -- each parameter stands at its index, so positions and indexes are the same
  have hindex : ∀ (i : Nat) (hi : i < signature.parameters.length),
      signature.parameters[i].index = i :=
    fun i hi => ha.index_of_getElem? (List.getElem?_eq_getElem hi)
  rw [List.mem_take_iff_getElem, List.mem_iff_getElem]
  constructor
  · rintro ⟨i, hi, rfl⟩
    exact ⟨⟨i, by omega, rfl⟩, by rw [hindex]; omega⟩
  · rintro ⟨⟨i, hi, rfl⟩, hlt⟩
    rw [hindex] at hlt
    exact ⟨i, by omega, rfl⟩

theorem parameter?_name {parameter : Parameter} (h : parameter ∈ signature.parameters) :
    signature.parameter? parameter.name = some parameter :=
  (find?_name_eq_some_iff ha.names_distinct).mpr ⟨h, rfl⟩

/-- A parameter stands at the position of its index. -/
theorem getElem?_index {parameter : Parameter} (h : parameter ∈ signature.parameters) :
    signature.parameters[parameter.index]? = some parameter := by
  obtain ⟨i, hi⟩ := List.mem_iff_getElem?.mp h
  rwa [ha.index_of_getElem? hi]

theorem index_lt {parameter : Parameter} (h : parameter ∈ signature.parameters) :
    parameter.index < signature.parameters.length :=
  (List.getElem?_eq_some_iff.mp (ha.getElem?_index h)).1

theorem eq_of_index {x y : Parameter} (hx : x ∈ signature.parameters)
    (hy : y ∈ signature.parameters) (h : x.index = y.index) : x = y := by
  have hxy := ha.getElem?_index hx
  rw [h, ha.getElem?_index hy] at hxy
  exact (Option.some.inj hxy).symm

/-- A parameter stands after exactly those of lower index. -/
theorem exists_split {parameter : Parameter} (h : parameter ∈ signature.parameters) :
    ∃ before after, signature.parameters = before ++ parameter :: after ∧
      ∀ other ∈ before, other.index < parameter.index := by
  obtain ⟨before, after, hsplit⟩ := List.append_of_mem h
  refine ⟨before, after, hsplit, fun other hother => ?_⟩
  -- the indexes are those of a range, so that they increase along the list
  have hsorted : (signature.parameters.map Parameter.index).Pairwise (· < ·) := by
    rw [ha.index_eq]
    exact List.pairwise_lt_range
  rw [hsplit, List.map_append, List.pairwise_append] at hsorted
  exact hsorted.2.2 _ (List.mem_map_of_mem hother) _ (by simp)

end Addressable

end Signature

/-! ## Slots -/

namespace Arguments

section

variable {α β : Type}

/-- The place of an argument: among the positional ones, or among the named ones. -/
abbrev Slot (arguments : Arguments α) : Type :=
  Fin arguments.positional.length ⊕ Fin arguments.named.length

/-- The argument at a slot. -/
def value (arguments : Arguments α) : arguments.Slot → α
  | .inl i => arguments.positional[i]
  | .inr j => arguments.named[j].value

/-- The name of a named argument. -/
def nameAt (arguments : Arguments α) (j : Fin arguments.named.length) : String :=
  arguments.named[j].name

/-- A positional argument is sent to the parameter of its index, a named one to the parameter of
its name. -/
def SentTo (arguments : Arguments α) (parameter : Parameter) : arguments.Slot → Prop
  | .inl i => parameter.index = i
  | .inr j => parameter.name = arguments.nameAt j

theorem card_slot (arguments : Arguments α) : Fintype.card arguments.Slot = arguments.count := by
  simp [count]

/-- What is sent to a parameter stands at its position or under its name. -/
theorem exists_sentTo_iff {arguments : Arguments α} {parameter : Parameter} {a : α} :
    (∃ slot, arguments.SentTo parameter slot ∧ arguments.value slot = a) ↔
      arguments.positional[parameter.index]? = some a ∨
        ⟨parameter.name, a⟩ ∈ arguments.named := by
  constructor
  · rintro ⟨i | j, hsent, rfl⟩
    · left
      rw [show parameter.index = i from hsent]
      exact List.getElem?_eq_getElem i.isLt
    · right
      rw [show parameter.name = arguments.named[j].name from hsent]
      exact List.getElem_mem j.isLt
  · rintro (h | h)
    · obtain ⟨hi, ha⟩ := List.getElem?_eq_some_iff.mp h
      exact ⟨.inl ⟨parameter.index, hi⟩, rfl, ha⟩
    · -- a member of the list stands at some place, which is the slot
      obtain ⟨j, hj, ha⟩ := List.mem_iff_getElem.mp h
      refine ⟨.inr ⟨j, hj⟩, ?_, ?_⟩
      · show parameter.name = (arguments.named[j]).name
        rw [ha]
      · show (arguments.named[j]).value = a
        rw [ha]

/-! ## Look-ups -/

theorem at?_of_lt {arguments : Arguments α} {index : Nat} (name : String)
    (h : index < arguments.positional.length) :
    arguments.at? index name = some arguments.positional[index] := by
  simp [at?, h]

/-- Beyond the positional arguments only names are looked at. -/
theorem at?_of_le {arguments : Arguments α} {index : Nat} (name : String)
    (h : arguments.positional.length ≤ index) :
    arguments.at? index name = arguments.named? name := by
  rw [at?, List.getElem?_eq_none h]

/-- The same arguments with other contents. -/
def map (f : α → β) (arguments : Arguments α) : Arguments β where
  positional := arguments.positional.map f
  named := arguments.named.map fun argument => ⟨argument.name, f argument.value⟩

/-- A look-up does not depend on what the arguments hold. -/
theorem at?_map (f : α → β) (arguments : Arguments α) (index : Nat) (name : String) :
    (arguments.map f).at? index name = (arguments.at? index name).map f := by
  cases h : arguments.positional[index]? with
  | some a => simp [at?, map, h]
  | none => simp [at?, named?, map, h, List.find?_map, Function.comp_def]

/-- The arguments of which each is its own slot. -/
def slots (arguments : Arguments α) : Arguments arguments.Slot where
  positional := (List.finRange _).map .inl
  named := (List.finRange _).map fun j => ⟨arguments.named[j].name, .inr j⟩

/-- With each slot replaced by its argument, these are the arguments. -/
theorem map_value_slots (arguments : Arguments α) :
    arguments.slots.map arguments.value = arguments := by
  have hpositional : (List.finRange arguments.positional.length).map
      (fun i => arguments.positional[i]) = arguments.positional := by
    simp
  have hnamed : (List.finRange arguments.named.length).map
      (fun j => arguments.named[j]) = arguments.named := by
    simp
  show (⟨_, _⟩ : Arguments α) = ⟨_, _⟩
  simp only [slots, List.map_map, Function.comp_def, value]
  rw [hpositional, hnamed]

/-- The slot of the argument at an index, or else of the first under a name. -/
def slot? (arguments : Arguments α) (index : Nat) (name : String) : Option arguments.Slot :=
  arguments.slots.at? index name

/-- Looking up a slot and taking its argument is looking up the argument. -/
theorem map_value_slot? (arguments : Arguments α) (index : Nat) (name : String) :
    (arguments.slot? index name).map arguments.value = arguments.at? index name := by
  unfold slot?
  rw [← at?_map, map_value_slots]

theorem slot?_of_lt {arguments : Arguments α} {index : Nat} (name : String)
    (h : index < arguments.positional.length) :
    arguments.slot? index name = some (.inl ⟨index, h⟩) := by
  rw [slot?, at?_of_lt name (by simpa [slots] using h)]
  simp [slots]

theorem slot?_of_le {arguments : Arguments α} {index : Nat} (name : String)
    (h : arguments.positional.length ≤ index) :
    arguments.slot? index name =
      ((List.finRange arguments.named.length).find? fun j =>
        arguments.named[j].name = name).map .inr := by
  rw [slot?, at?_of_le name (by simpa [slots] using h)]
  simp [named?, slots, List.find?_map, Function.comp_def]

/-- What a parameter gets was sent to it. -/
theorem sentTo_of_slot? {arguments : Arguments α} {parameter : Parameter} {slot : arguments.Slot}
    (h : arguments.slot? parameter.index parameter.name = some slot) :
    arguments.SentTo parameter slot := by
  by_cases hi : parameter.index < arguments.positional.length
  · rw [slot?_of_lt _ hi] at h
    cases h
    rfl
  · rw [slot?_of_le _ (Nat.le_of_not_lt hi)] at h
    obtain ⟨j, hj, rfl⟩ := Option.map_eq_some_iff.mp h
    have hname : arguments.named[j].name = parameter.name := by simpa using List.find?_some hj
    exact hname.symm

/-- A parameter that gets nothing was sent nothing. -/
theorem not_sentTo_of_slot? {arguments : Arguments α} {parameter : Parameter}
    (h : arguments.slot? parameter.index parameter.name = none) (slot : arguments.Slot) :
    ¬ arguments.SentTo parameter slot := by
  -- a positional argument at the index would have been found
  have hi : ¬ parameter.index < arguments.positional.length := by
    intro hi
    rw [slot?_of_lt _ hi] at h
    cases h
  rw [slot?_of_le _ (Nat.le_of_not_lt hi), Option.map_eq_none_iff, List.find?_eq_none] at h
  rcases slot with i | j
  · intro hsent
    exact hi (by rw [show parameter.index = i from hsent]; exact i.isLt)
  · intro hsent
    have hname : parameter.name = arguments.named[j].name := hsent
    exact h j (List.mem_finRange j) (by simpa using hname.symm)

end

end Arguments

end CallGate
