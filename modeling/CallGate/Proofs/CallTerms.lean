import CallGate.Call
import CallGate.Proofs.Terms
import CallGate.Proofs.Words

/-!
# Terms tell calls

The term of a call holds all there is to the call: its signature with its parameters, the receiver
if there is one, and the arguments in the order given. Each of these can be told from its own term,
so calls can be told apart by what is written of them, even if names are made up to look like the
text around them.

- `Parameter.term_injective`, `Signature.term_injective`: no two signatures have the same term.
- `NamedArgument.term_injective`, `Arguments.term_injective`: nor do any two packs of arguments.
- `Call.legible_term`, `Call.term_injective`: nor do any two calls.
- `Call.texts_unambiguous`: so it is with their texts.
-/

namespace CallGate

/-! ## Signatures -/

namespace Role

@[simp] theorem legible_term (role : Role) : role.term.Legible := by
  cases role <;> exact .word (by decide)

theorem term_injective : Function.Injective Role.term := by
  intro x y h
  cases x <;> cases y <;> first | rfl | exact absurd (Term.word.inj h) (by decide)

end Role

namespace Parameter

@[simp] theorem legible_term (parameter : Parameter) : parameter.term.Legible :=
  Term.legible_record ["index", "name", "doc", "ty"] rfl (by decide) (by simp)

/-- All fields of a parameter are in its term, and each can be told from its own. -/
theorem term_injective : Function.Injective Parameter.term := by
  rintro ⟨index, name, doc, kind⟩ ⟨index', name', doc', kind'⟩ h
  simp only [term, Term.record.injEq, List.cons.injEq, Prod.mk.injEq, Term.quoted.injEq, true_and,
    and_true] at h
  -- quoted texts are equal as they stand; the count and the kind by their own terms
  obtain ⟨hindex, rfl, rfl, hkind⟩ := h
  rw [Term.ofNat_injective hindex, Kind.term_injective hkind]

end Parameter

namespace Signature

@[simp] theorem legible_term (signature : Signature) : signature.term.Legible := by
  refine Term.legible_record ["name", "doc", "kind", "receiver", "params", "return_kind"] rfl
    (by decide) ?_
  have hreceiver := Term.legible_option Kind.legible_term signature.receiver
  have hparameters : (Term.map (signature.parameters.map fun parameter =>
      (parameter.name, parameter.term))).Legible :=
    .map (List.forall_mem_map.mpr fun parameter _ => parameter.legible_term)
  simp [hreceiver, hparameters]

/-- No two signatures have the same term, also if their parameters have the same names. -/
theorem term_injective : Function.Injective Signature.term := by
  rintro ⟨name, doc, role, receiver, parameters, result⟩
    ⟨name', doc', role', receiver', parameters', result'⟩ h
  simp only [term, Term.record.injEq, List.cons.injEq, Prod.mk.injEq, Term.quoted.injEq,
    Term.map.injEq, true_and, and_true] at h
  obtain ⟨rfl, rfl, hrole, hreceiver, hparameters, hresult⟩ := h
  -- parameters are written as a map from names, and an entry holds the whole parameter
  have hentry : Function.Injective fun parameter : Parameter => (parameter.name, parameter.term) :=
    fun _ _ hsame => Parameter.term_injective (Prod.mk.inj hsame).2
  rw [Role.term_injective hrole, Kind.term_injective hresult,
    Option.map_injective Kind.term_injective (Term.option_injective hreceiver),
    List.map_injective_iff.mpr hentry hparameters]

end Signature

/-! ## Arguments -/

namespace NamedArgument

@[simp] theorem legible_term (argument : NamedArgument Value) : argument.term.Legible :=
  Term.legible_record ["name", "value"] rfl (by decide) (by simp)

/-- A named argument is told by its name and its value. -/
theorem term_injective : Function.Injective NamedArgument.term := by
  rintro ⟨name, value⟩ ⟨name', value'⟩ h
  simp only [term, Term.record.injEq, List.cons.injEq, Prod.mk.injEq, Term.quoted.injEq, true_and,
    and_true] at h
  obtain ⟨rfl, hvalue⟩ := h
  rw [Value.term_injective hvalue]

end NamedArgument

namespace Arguments

@[simp] theorem legible_term (arguments : Arguments Value) : arguments.term.Legible := by
  refine Term.legible_record ["pos_args", "named_args"] rfl (by decide) ?_
  have hpositional : (Term.list (arguments.positional.map Value.term)).Legible :=
    .list (List.forall_mem_map.mpr fun value _ => value.legible_term)
  have hnamed : (Term.list (arguments.named.map NamedArgument.term)).Legible :=
    .list (List.forall_mem_map.mpr fun argument _ => argument.legible_term)
  simp [hpositional, hnamed]

/-- Positional and named arguments stand in two lists, each in the order given. -/
theorem term_injective : Function.Injective Arguments.term := by
  rintro ⟨positional, named⟩ ⟨positional', named'⟩ h
  simp only [term, Term.record.injEq, List.cons.injEq, Prod.mk.injEq, Term.list.injEq, true_and,
    and_true] at h
  obtain ⟨hpositional, hnamed⟩ := h
  rw [List.map_injective_iff.mpr Value.term_injective hpositional,
    List.map_injective_iff.mpr NamedArgument.term_injective hnamed]

end Arguments

/-! ## Calls -/

namespace Call

theorem legible_term (call : Call) : call.term.Legible := by
  refine Term.legible_record ["schema", "receiver", "args"] rfl (by decide) ?_
  have hreceiver := Term.legible_option Value.legible_term call.receiver
  simp [hreceiver]

/-- No two calls have the same term. -/
theorem term_injective : Function.Injective Call.term := by
  rintro ⟨signature, receiver, arguments⟩ ⟨signature', receiver', arguments'⟩ h
  simp only [term, Term.record.injEq, List.cons.injEq, Prod.mk.injEq, true_and, and_true] at h
  -- three fields, each told by its own term
  obtain ⟨hsignature, hreceiver, harguments⟩ := h
  rw [Signature.term_injective hsignature, Arguments.term_injective harguments,
    Option.map_injective Value.term_injective (Term.option_injective hreceiver)]

/-- The texts of arguments tell the arguments, and the texts of calls, accepted or not, tell the
calls, where numbers are the same if they have the same word or both are not a number. -/
theorem texts_unambiguous :
    (∀ x y : Arguments Value, x.term.text = y.term.text ↔ x = y) ∧
    (∀ x y : Call, x.term.text = y.term.text ↔ x = y) ∧
    ∀ v w : UInt32, Single.ofBits v = Single.ofBits w ↔ v = w ∨ Word.IsNaN v ∧ Word.IsNaN w := by
  refine ⟨fun x y => ⟨fun h => ?_, fun h => by rw [h]⟩,
    fun x y => ⟨fun h => ?_, fun h => by rw [h]⟩, fun v w => Single.ofBits_inj⟩
  · exact Arguments.term_injective (x.legible_term.eq_of_text y.legible_term h)
  · exact term_injective (x.legible_term.eq_of_text y.legible_term h)

-- the quotes in a name that looks like the end of one argument and the beginning of another
example :
    (Arguments.mk [] [⟨"x\", value: F32(0.0) \x7d, NamedArg \x7b name: \"y",
      .single (.ofBits 0)⟩]).term.text =
      "ArgPack \x7b pos_args: [], named_args: [NamedArg \x7b name: " ++
        "\"x\\\", value: F32(0.0) \x7d, NamedArg \x7b name: \\\"y\", value: F32(0.0) \x7d] \x7d" := by
  decide +kernel

end Call

end CallGate
