import Mathlib.Data.List.Nodup
import CallGate.Fault
import CallGate.Proofs.CallTerms

/-!
# Terms tell faults

The term of a fault holds its kind and all its details, wherever the fault comes from: names in it
are quoted, and counts and kinds are bare words. So it tells the fault. The sentence in which a fault
is reported does that only for faults of the catalogue, since it has names that stand bare.

- `Fault.Kind.name_injective`: no two kinds of faults have the same name.
- `Fault.Kind.fieldNames`, `Fault.map_fst_fields`: the names of the fields, which the kind tells.
- `Fault.legible_term`, `Fault.term_injective`: terms of faults can be read, and no two faults have
  the same one.
- `Fault.text_eq_iff`: so it is with their texts.
-/

namespace CallGate.Fault

/-! ## Kinds -/

namespace Kind

/-- All kinds of faults. -/
def all : List Kind := [
  .unknownExport, .tooManyArguments, .missingArgument, .argumentKind, .repeatedArgument,
  .unknownParameter, .missingReceiver, .receiverKind, .unexpectedReceiver, .unwritable]

theorem mem_all (kind : Kind) : kind ∈ all := by cases kind <;> decide

/-- No two kinds of faults have the same name. -/
theorem name_injective : Function.Injective name := by
  have hnames : (all.map name).Nodup := by decide
  intro x y h
  exact List.inj_on_of_nodup_map hnames x.mem_all y.mem_all h

/-- The names of the fields that a fault of a kind has in its term. -/
def fieldNames : Kind → List String
  | .unknownExport => ["name", "known"]
  | .tooManyArguments => ["export_name", "max", "got"]
  | .missingArgument => ["export_name", "param_name"]
  | .argumentKind => ["export_name", "param_name", "expecting", "got"]
  | .repeatedArgument => ["export_name", "name"]
  | .unknownParameter => ["export_name", "name"]
  | .missingReceiver => ["export_name", "receiver"]
  | .receiverKind => ["export_name", "expecting", "got"]
  | .unexpectedReceiver => ["export_name", "kind"]
  | .unwritable => ["msg"]

theorem isName_of_mem (kind : Kind) : ∀ word ∈ kind.name :: kind.fieldNames, Term.IsName word := by
  cases kind <;> decide

end Kind

/-! ## Terms -/

/-- The fields of a fault have the names that its kind prescribes. -/
theorem map_fst_fields (fault : Fault) : fault.fields.map Prod.fst = fault.kind.fieldNames := by
  cases fault <;> rfl

/-- The term of a fault can be read. -/
theorem legible_term (fault : Fault) : fault.term.Legible := by
  refine Term.legible_record fault.kind.fieldNames fault.map_fst_fields fault.kind.isName_of_mem ?_
  have hknown (known : List String) : (Term.list (known.map Term.quoted)).Legible :=
    .list (List.forall_mem_map.mpr fun name _ => .quoted name)
  cases fault <;> simp [fields, hknown]

/-- Faults of one kind are told by their fields. -/
theorem eq_of_fields {x y : Fault} (hkind : x.kind = y.kind) (h : x.fields = y.fields) : x = y := by
  have hquoted : Function.Injective Term.quoted := fun _ _ => Term.quoted.inj
  -- the kinds agree, so only faults of one constructor are left, and these have fields one by one
  cases x <;> cases y <;> cases hkind <;>
    simpa [fields, hquoted.list_map.eq_iff, Term.ofNat_injective.eq_iff,
      Kind.term_injective.eq_iff, Role.term_injective.eq_iff] using h

/-- No two faults have the same term. -/
theorem term_injective : Function.Injective Fault.term := by
  intro x y h
  simp only [term, Term.record.injEq] at h
  -- the head of the record is the name of the kind
  obtain ⟨hkind, hfields⟩ := h
  exact eq_of_fields (Kind.name_injective hkind) hfields

/-- The texts of any two faults are the same only if the faults are, and so are their kinds. -/
theorem text_eq_iff (x y : Fault) : x.term.text = y.term.text ↔ x = y ∧ x.kind = y.kind := by
  constructor
  · intro h
    have hsame : x = y := term_injective (x.legible_term.eq_of_text y.legible_term h)
    exact ⟨hsame, congrArg kind hsame⟩
  · rintro ⟨rfl, -⟩
    rfl

-- The report does not tell faults whose names are made up to look like the rest of it.
example :
    (repeatedArgument "c" "a given more than once for b").message =
      (repeatedArgument "b given more than once for c" "a").message ∧
    (repeatedArgument "c" "a given more than once for b").term.text ≠
      (repeatedArgument "b given more than once for c" "a").term.text := by
  decide +kernel

end CallGate.Fault
