import Mathlib.Data.Fintype.Card
import CallGate.Proofs.Verdict

/-!
# Saturated calls

A call has nothing wrong with it if its arguments are as many as its parameters and each goes to its
own one.

- `Call.OneToOne`: sending the arguments to the parameters is a one-to-one correspondence.
- `Call.Acceptable.oneToOne`: the count, the scan and the parameters together make it one.
- `Call.OneToOne.count_eq`: in one there are as many arguments as parameters.
- `Call.acceptable_iff_oneToOne`: the checks look for such a correspondence, for a fitting receiver
  and for kinds, and for nothing else.
-/

namespace CallGate

namespace Call

/-! ## The correspondence -/

/-- Each argument is sent to exactly one parameter, and each parameter is sent exactly one. -/
structure OneToOne (call : Call) : Prop where
  sent : ∀ slot, ∃! parameter,
    parameter ∈ call.signature.parameters ∧ call.arguments.SentTo parameter slot
  received : ∀ parameter ∈ call.signature.parameters,
    ∃! slot, call.arguments.SentTo parameter slot

theorem Acceptable.oneToOne {call : Call} (hw : call.signature.WellFormed)
    (h : call.Acceptable) : call.OneToOne where
  sent slot := by
    rcases slot with i | j
    · -- there are not more positional arguments than parameters
      have hi : i.val < call.signature.parameters.length := by
        have hcount : call.arguments.positional.length + call.arguments.named.length ≤
          call.signature.parameters.length := h.count
        omega
      have hindex : call.signature.parameters[i.val].index = i :=
        hw.index_of_getElem? (List.getElem?_eq_getElem hi)
      refine ⟨call.signature.parameters[i.val], ⟨List.getElem_mem hi, hindex⟩, ?_⟩
      rintro other ⟨hmem, hsent⟩
      have hother : other.index = i := hsent
      exact hw.eq_of_index hmem (List.getElem_mem hi) (hother.trans hindex.symm)
    · obtain ⟨parameter, hmem, hname, -⟩ := h.named.free _ (List.getElem_mem j.isLt)
      refine ⟨parameter, ⟨hmem, hname⟩, ?_⟩
      rintro other ⟨hother, hsent⟩
      have hsame : other.name = call.arguments.named[j].name := hsent
      exact hw.eq_of_name hother hmem (hsame.trans hname.symm)
  received parameter hmem := by
    obtain ⟨slot, hsent, -⟩ := h.served parameter hmem
    exact ⟨slot, hsent, fun other hother => h.named.sentTo_unique hw hmem hother hsent⟩

namespace OneToOne

variable {call : Call} (h : call.OneToOne)

include h

theorem slot_unique {parameter : Parameter} (hmem : parameter ∈ call.signature.parameters)
    {x y : call.arguments.Slot} (hx : call.arguments.SentTo parameter x)
    (hy : call.arguments.SentTo parameter y) : x = y :=
  (h.received parameter hmem).unique hx hy

theorem wellNamed : call.WellNamed where
  distinct := by
    rw [List.Nodup, List.pairwise_map, List.pairwise_iff_getElem]
    intro i j hi hj hij heq
    obtain ⟨parameter, ⟨hmem, hsent⟩, -⟩ := h.sent (.inr ⟨i, hi⟩)
    have hname : parameter.name = call.arguments.named[i].name := hsent
    have hsame : call.arguments.SentTo parameter (.inr ⟨j, hj⟩) := hname.trans heq
    have hslot := Sum.inr.inj (h.slot_unique hmem hsent hsame)
    exact absurd (Fin.mk.inj hslot) (Nat.ne_of_lt hij)
  free argument hargument := by
    obtain ⟨j, hj, rfl⟩ := List.mem_iff_getElem.mp hargument
    obtain ⟨parameter, ⟨hmem, hsent⟩, -⟩ := h.sent (.inr ⟨j, hj⟩)
    refine ⟨parameter, hmem, hsent, ?_⟩
    by_contra hlt
    -- the positional argument there would be a second one for the parameter
    have htaken : call.arguments.SentTo parameter (.inl ⟨parameter.index, by omega⟩) := rfl
    cases h.slot_unique hmem hsent htaken

/-- There are as many arguments as parameters. -/
theorem count_eq (hw : call.signature.WellFormed) :
    call.arguments.count = call.signature.parameters.length := by
  choose target htarget htarget_unique using h.sent
  -- the index of the parameter that each argument is sent to
  let place (slot : call.arguments.Slot) : Fin call.signature.parameters.length :=
    ⟨(target slot).index, hw.index_lt (htarget slot).1⟩
  have hinjective : Function.Injective place := by
    intro x y hxy
    have htargets : target x = target y :=
      hw.eq_of_index (htarget x).1 (htarget y).1 (Fin.mk.inj hxy)
    -- two arguments sent to one parameter are one argument
    refine h.slot_unique (htarget x).1 (htarget x).2 ?_
    rw [htargets]
    exact (htarget y).2
  have hsurjective : Function.Surjective place := by
    intro k
    have hmem : call.signature.parameters[k] ∈ call.signature.parameters := List.getElem_mem k.isLt
    obtain ⟨slot, hsent, -⟩ := h.received _ hmem
    refine ⟨slot, Fin.ext ?_⟩
    show (target slot).index = k
    rw [← htarget_unique slot _ ⟨hmem, hsent⟩]
    exact hw.index_of_getElem? (List.getElem?_eq_getElem k.isLt)
  have hcard := Fintype.card_of_bijective (f := place) ⟨hinjective, hsurjective⟩
  rwa [Arguments.card_slot, Fintype.card_fin] at hcard

end OneToOne

/-- The checks look for a fitting receiver, a one-to-one correspondence, and arguments of the kinds
that their parameters have. -/
theorem acceptable_iff_oneToOne {call : Call} (hw : call.signature.WellFormed) :
    call.Acceptable ↔ call.ReceiverFits ∧ call.OneToOne ∧
      ∀ parameter ∈ call.signature.parameters, ∀ slot,
        call.arguments.SentTo parameter slot →
          (call.arguments.value slot).kind = parameter.kind := by
  constructor
  · intro h
    refine ⟨h.receiver, h.oneToOne hw, fun parameter hmem slot hsent => ?_⟩
    -- the argument that serves the parameter is the only one sent to it
    obtain ⟨other, hother, hkind⟩ := h.served parameter hmem
    rwa [h.named.sentTo_unique hw hmem hsent hother]
  · rintro ⟨hreceiver, h, hkinds⟩
    refine ⟨hreceiver, Nat.le_of_eq (h.count_eq hw), h.wellNamed, fun parameter hmem => ?_⟩
    obtain ⟨slot, hsent, -⟩ := h.received parameter hmem
    exact ⟨slot, hsent, hkinds parameter hmem slot hsent⟩

end Call

end CallGate
