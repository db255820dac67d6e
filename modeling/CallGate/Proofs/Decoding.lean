import Mathlib.Data.List.Forall2
import CallGate.Manifest
import CallGate.Invocation
import CallGate.Proofs.Matching
import CallGate.Proofs.Reader

/-!
# Decoding the manifest

What the program that reads a manifest gets out of it: the signatures that it was written for, and
so the same verdict on every request as the catalogue that it was written from.

- `Json.member?`, `Json.asString?`, `Json.asNatural?`, `Json.list?`: access to a JSON value.
- `Json.Same`: values that differ in the order of members at most, `Json.same_object_of_perm`.
- `Manifest.parameter?`, `Manifest.signature?`, `Manifest.signatures?`: the decoded entries.
- `Manifest.read?_text_ofSignatures`, `Manifest.signatures?_ofSignatures`: the way back from the
  text to the JSON value, and from there to the signatures.
- `Manifest.signatures?_same`: the signatures do not depend on the order of members.
- `Request.acceptAmong`: the checks of a request against any table of signatures.
- `Manifest.lossless`: the way back, and what follows for the catalogue.
-/

namespace CallGate

namespace Json

/-! ## Access -/

/-- The value of the first member with a key. -/
def member? (key : String) : Json → Option Json
  | .object members => (members.find? fun member => member.1 = key).map Prod.snd
  | _ => none

/-- The text of a string. -/
def asString? : Json → Option String
  | .string text => some text
  | _ => none

/-- The number that a natural number is. -/
def asNatural? : Json → Option Nat
  | .natural n => some n
  | _ => none

/-- The elements of an array, if all of them decode. -/
def list? {α : Type} (decode : Json → Option α) : Json → Option (List α)
  | .array elements => elements.mapM decode
  | _ => none

/-- A list decodes if what it was encoded from does, element by element. -/
theorem list?_map {α : Type} {encode : α → Json} {decode : Json → Option α}
    (h : ∀ a, decode (encode a) = some a) (as : List α) :
    list? decode (.array (as.map encode)) = some as := by
  show (as.map encode).mapM decode = some as
  induction as with
  | nil => rfl
  | cons a rest ih => simp [h, ih]

/-! ## The order of members -/

/-- The same value, but for the order of members. Of members with one key the first one counts. -/
inductive Same : Json → Json → Prop where
  | null : Same .null .null
  | natural (n : Nat) : Same (.natural n) (.natural n)
  | decimal (d : Decimal) : Same (.decimal d) (.decimal d)
  | string (text : String) : Same (.string text) (.string text)
  | array {xs ys : List Json} (h : List.Forall₂ Same xs ys) : Same (.array xs) (.array ys)
  | object {xs ys : List (String × Json)}
    (h : ∀ key, Option.Rel Same ((Json.object xs).member? key) ((Json.object ys).member? key)) :
    Same (.object xs) (.object ys)

namespace Same

mutual

/-- Every value is the same as itself, by induction on the value and its lists. -/
theorem refl : (json : Json) → json.Same json
  | .null => .null
  | .natural n => .natural n
  | .decimal d => .decimal d
  | .string text => .string text
  | .array elements => .array (refl_elements elements)
  | .object members => by
    refine .object fun key => ?_
    -- whatever is found under the key is one of the members, to which the induction applies
    cases h : (Json.object members).member? key with
    | none => exact .none
    | some value =>
      obtain ⟨member, hfind, rfl⟩ := Option.map_eq_some_iff.mp h
      exact .some (refl_members members member (List.mem_of_find?_eq_some hfind))

theorem refl_elements : (elements : List Json) → List.Forall₂ Same elements elements
  | [] => .nil
  | element :: others => .cons (refl element) (refl_elements others)

theorem refl_members : (members : List (String × Json)) →
    ∀ member ∈ members, member.2.Same member.2
  | [], _, h => by cases h
  | (_, value) :: others, member, h => by
    rcases List.mem_cons.mp h with rfl | h
    · exact refl value
    · exact refl_members others member h

end

variable {x y : Json}

/-- What decodes alike from the same values decodes alike from the members with a key. -/
theorem member? {α : Type} {decode : Json → Option α} (h : x.Same y)
    (hdecode : ∀ a b, a.Same b → decode a = decode b) (key : String) :
    (x.member? key >>= decode) = (y.member? key >>= decode) := by
  have hmember : Option.Rel Same (x.member? key) (y.member? key) := by
    cases h with
    | object h => exact h key
    | _ => exact .none
  generalize x.member? key = a, y.member? key = b at hmember
  cases hmember with
  | some hab => exact hdecode _ _ hab
  | none => rfl

theorem asString? (h : x.Same y) : x.asString? = y.asString? := by
  cases h <;> rfl

theorem asNatural? (h : x.Same y) : x.asNatural? = y.asNatural? := by
  cases h <;> rfl

theorem list? {α : Type} {decode : Json → Option α} (h : x.Same y)
    (hdecode : ∀ a b, a.Same b → decode a = decode b) : x.list? decode = y.list? decode := by
  cases h with
  | array h =>
    show List.mapM decode _ = List.mapM decode _
    induction h with
    | nil => rfl
    | cons hab _ ih => rw [List.mapM_cons, List.mapM_cons, hdecode _ _ hab, ih]
  | _ => rfl

end Same

/-- Members with different keys may stand in any order. -/
theorem same_object_of_perm {xs ys : List (String × Json)} (hperm : xs.Perm ys)
    (hkeys : (ys.map Prod.fst).Nodup) : (Json.object xs).Same (.object ys) := by
  refine .object fun key => ?_
  have hmember : (Json.object xs).member? key = (Json.object ys).member? key :=
    congrArg (Option.map Prod.snd) (find?_name_perm hperm hkeys key)
  rw [hmember]
  cases (Json.object ys).member? key with
  | none => exact .none
  | some value => exact .some (.refl value)

end Json

namespace Manifest

/-! ## Entries -/

/-- The parameter of an entry. -/
def parameter? (json : Json) : Option Parameter := do
  let index ← json.member? "index" >>= Json.asNatural?
  let name ← json.member? "name" >>= Json.asString?
  let doc ← json.member? "doc" >>= Json.asString?
  let kind ← json.member? "type" >>= Json.asString? >>= Kind.ofName?
  return { index, name, doc, kind }

/-- The kind of a receiver, or that there is none. -/
def receiver? : Json → Option (Option Kind)
  | .null => some none
  | .string name => (Kind.ofName? name).map some
  | _ => none

/-- The signature of an entry. -/
def signature? (json : Json) : Option Signature := do
  let name ← json.member? "name" >>= Json.asString?
  let doc ← json.member? "doc" >>= Json.asString?
  let role ← json.member? "kind" >>= Json.asString? >>= Role.ofName?
  let receiver ← json.member? "receiver" >>= receiver?
  let parameters ← json.member? "params" >>= Json.list? parameter?
  let result ← json.member? "returns" >>= Json.asString? >>= Kind.ofName?
  return { name, doc, role, receiver, parameters, result }

/-- The signatures of a manifest. -/
def signatures? (json : Json) : Option (List Signature) :=
  json.list? signature?

section

variable {x y : Json}

theorem parameter?_same (h : x.Same y) : parameter? x = parameter? y := by
  have hstring := h.member? fun _ _ => Json.Same.asString?
  have hnatural := h.member? fun _ _ => Json.Same.asNatural?
  rw [parameter?, parameter?, hnatural, hstring, hstring, hstring]

theorem receiver?_same (h : x.Same y) : receiver? x = receiver? y := by
  cases h <;> rfl

/-- So it is with those of a signature, some of which are decoded further. -/
theorem signature?_same (h : x.Same y) : signature? x = signature? y := by
  have hstring := h.member? fun _ _ => Json.Same.asString?
  have hreceiver := h.member? fun _ _ => receiver?_same
  have hparameters := h.member? fun _ _ h => Json.Same.list? h fun _ _ => parameter?_same
  rw [signature?, signature?, hstring, hstring, hstring, hstring, hreceiver, hparameters]

/-- Members are asked for by their keys. -/
theorem signatures?_same (h : x.Same y) : signatures? x = signatures? y :=
  h.list? fun _ _ => signature?_same

end

/-! ## The way back -/

theorem parameter?_ofParameter (parameter : Parameter) :
    parameter? (ofParameter parameter) = some parameter := by
  simp [parameter?, ofParameter, Json.member?, Json.asNatural?, Json.asString?]

/-- Null stands for no receiver and is told from every kind. -/
theorem receiver?_ofReceiver (receiver : Option Kind) :
    receiver? (ofReceiver receiver) = some receiver := by
  cases receiver with
  | none => rfl
  | some kind => simp [receiver?, ofReceiver]

/-- A signature is decoded from its entry, its parameters in order. -/
theorem signature?_ofSignature (signature : Signature) :
    signature? (ofSignature signature) = some signature := by
  have hparameters := Json.list?_map parameter?_ofParameter signature.parameters
  simp [signature?, ofSignature, Json.member?, Json.asString?, receiver?_ofReceiver, hparameters]

/-- The signatures are decoded from the manifest that was written for them. -/
theorem signatures?_ofSignatures (signatures : List Signature) :
    signatures? (ofSignatures signatures) = some signatures :=
  Json.list?_map signature?_ofSignature signatures

/-- There are no decimals in a manifest. -/
theorem legible_ofSignatures (signatures : List Signature) :
    (ofSignatures signatures).Legible := by
  have hparameter : ∀ parameter, (ofParameter parameter).Legible := by
    intro parameter
    refine .object fun member hmem => ?_
    simp only [List.mem_cons, List.not_mem_nil, or_false] at hmem
    rcases hmem with rfl | rfl | rfl | rfl
    · exact .natural _
    all_goals exact .string _
  have hreceiver : ∀ receiver, (ofReceiver receiver).Legible := by
    rintro (- | kind)
    · exact .null
    · exact .string _
  have hsignature : ∀ signature, (ofSignature signature).Legible := by
    intro signature
    refine .object fun member hmem => ?_
    simp only [List.mem_cons, List.not_mem_nil, or_false] at hmem
    rcases hmem with rfl | rfl | rfl | rfl | rfl | rfl
    -- the receiver and the parameters; all other members are strings
    case inr.inr.inr.inl => exact hreceiver _
    case inr.inr.inr.inr.inl => exact .array (List.forall_mem_map.mpr fun p _ => hparameter p)
    all_goals exact .string _
  exact .array (List.forall_mem_map.mpr fun signature _ => hsignature signature)

/-- A manifest is read from its text, in any layout of blanks. -/
theorem read?_text_ofSignatures {style : Json.Style} (hblank : style.Blank)
    (signatures : List Signature) :
    Json.read? ((ofSignatures signatures).text style) = some (ofSignatures signatures) :=
  Json.read?_text hblank (legible_ofSignatures signatures)

/-- Two blanks set tokens apart. -/
theorem read?_text : Json.read? text = some catalogue := by
  have hblank : (Json.Style.pretty "  ").Blank := by decide
  exact read?_text_ofSignatures hblank Catalogue.signatures

end Manifest

/-! ## Checks by a table -/

/-- The call that is asked for, if it is accepted where the signatures of a table are exported. -/
def Request.acceptAmong (request : Request) (table : List Signature) : Except Fault Call :=
  match table.find? fun signature => signature.name = request.name with
  | some signature => Call.accept ⟨signature, request.receiver, request.arguments⟩
  | none => .error (.unknownExport request.name (table.map Signature.name))

theorem Request.acceptAmong_signatures (request : Request) :
    request.acceptAmong Catalogue.signatures = request.accept := by
  simp only [acceptAmong, accept, signature, Catalogue.find?, Catalogue.names]
  cases Catalogue.signatures.find? fun signature => signature.name = request.name <;> rfl

namespace Manifest

/-- A manifest loses nothing of the signatures that it is written for: its text, laid out with
blanks or without, is read as the JSON value, and the JSON value decodes to the signatures, in
whatever order its members are kept. From the catalogue's own manifest, as text or as a value, a
host gets a table by which it accepts and rejects requests exactly as they are when served, with the
same faults. -/
theorem lossless {style : Json.Style} (hblank : style.Blank) :
    (∀ signatures : List Signature,
      Json.read? ((ofSignatures signatures).text style) = some (ofSignatures signatures) ∧
        signatures? (ofSignatures signatures) = some signatures ∧
        ∀ json, (ofSignatures signatures).Same json → signatures? json = some signatures) ∧
    Json.read? text = some catalogue ∧
    ∀ json, catalogue.Same json ∨ Json.read? (catalogue.text style) = some json →
      ∃ table, signatures? json = some table ∧
        ∀ request : Request, request.acceptAmong table = request.accept := by
  have hsame : ∀ signatures json, (ofSignatures signatures).Same json →
      signatures? json = some signatures := by
    intro signatures json h
    rw [← signatures?_same h, signatures?_ofSignatures]
  refine ⟨fun signatures => ⟨read?_text_ofSignatures hblank signatures,
    signatures?_ofSignatures signatures, hsame signatures⟩, read?_text, fun json hjson => ?_⟩
  -- read from text or given as a value, it is the catalogue up to the order of members
  have hcatalogue : catalogue.Same json := by
    rcases hjson with h | h
    · exact h
    · have hread : Json.read? (catalogue.text style) = some catalogue :=
        read?_text_ofSignatures hblank Catalogue.signatures
      rw [Option.some.inj (hread.symm.trans h)]
      exact .refl json
  exact ⟨Catalogue.signatures, hsame _ _ hcatalogue, Request.acceptAmong_signatures⟩

/-- An export whose name and description look like the layout of a manifest. -/
def layoutLike : Signature where
  name := "],\n\t\x7b\"name\": \""
  doc := "\x01\\u0022, \x7d]"
  role := .function
  receiver := none
  parameters := []
  result := .single

/-- The entry of an export with its members from the last to the first. -/
def backwards (signature : Signature) : Json :=
  match ofSignature signature with
  | .object members => .object members.reverse
  | json => json

/-- Names and descriptions full of quotes, brackets and blanks, and members in reverse. -/
theorem lossless_layoutLike :
    (Json.Style.pretty "\t \r").Blank ∧
    Json.read? ((ofSignatures [layoutLike]).text (.pretty "\t \r")) =
      some (ofSignatures [layoutLike]) ∧
    (ofSignatures [layoutLike]).Same (.array [backwards layoutLike]) ∧
    signatures? (.array [backwards layoutLike]) = some [layoutLike] := by
  have hblank : (Json.Style.pretty "\t \r").Blank := by decide
  have hbackwards : (ofSignatures [layoutLike]).Same (.array [backwards layoutLike]) :=
    .array (.cons (Json.same_object_of_perm (List.reverse_perm _).symm (by decide)) .nil)
  obtain ⟨hread, -, hsame⟩ := (lossless hblank).1 [layoutLike]
  exact ⟨hblank, hread, hbackwards, hsame _ hbackwards⟩

end Manifest

end CallGate
