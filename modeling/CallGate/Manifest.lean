import CallGate.Catalogue
import CallGate.Fault
import CallGate.Json.Stream

/-!
# The manifest

The catalogue for programs that generate bindings: a JSON array with an object for each export.

- `Manifest.ofSignature`, `Manifest.ofSignatures`: the entry of an export, and all entries.
- `Manifest.writeSignature`, `Manifest.writeSignatures`: the same as they are written to a sink, one
  after the other and up to the first refusal.
- `Manifest.text`: the manifest of the catalogue as text, indented by two blanks.
- `Manifest.write`: the manifest of the catalogue written to a disk, which may fill up.
- `Manifest.plain`: the manifest of the catalogue where only one bare value can be written.
- `Manifest.reported`: what is reported if the target refuses, with the reason it gives.
-/

namespace CallGate

namespace Manifest

/-! ## Entries -/

/-- The entry of a parameter. -/
def ofParameter (parameter : Parameter) : Json :=
  .object [
    ("index", .natural parameter.index),
    ("name", .string parameter.name),
    ("doc", .string parameter.doc),
    ("type", .string parameter.kind.name)]

/-- The kind of an export's receiver, `null` if it has none. -/
def ofReceiver : Option Kind → Json
  | none => .null
  | some kind => .string kind.name

/-- The entry of an export. -/
def ofSignature (signature : Signature) : Json :=
  .object [
    ("name", .string signature.name),
    ("doc", .string signature.doc),
    ("kind", .string signature.role.name),
    ("receiver", ofReceiver signature.receiver),
    ("params", .array (signature.parameters.map ofParameter)),
    ("returns", .string signature.result.name)]

/-- The manifest of a list of signatures. -/
def ofSignatures (signatures : List Signature) : Json :=
  .array (signatures.map ofSignature)

/-- The manifest of the catalogue. -/
def catalogue : Json := ofSignatures Catalogue.signatures

/-- The manifest of the catalogue as text, indented by two blanks. -/
def text : String := catalogue.text (.pretty "  ")

/-! ## Entries as they are written -/

section

open Json
open Sink (Writer)

/-- Writes the entry of a parameter. -/
def writeParameter (style : Style) (depth : Nat) (parameter : Parameter) : Writer :=
  streamObject style depth [
    ("index", streamNatural parameter.index),
    ("name", streamString parameter.name),
    ("doc", streamString parameter.doc),
    ("type", streamString parameter.kind.name)]

/-- Writes the entries of parameters, in order. -/
def writeParameters (style : Style) (depth : Nat) (parameters : List Parameter) : Writer :=
  streamArray style depth (parameters.map (writeParameter style (depth + 1)))

/-- Writes the kind of an export's receiver. -/
def writeReceiver : Option Kind → Writer
  | none => streamNull
  | some kind => streamString kind.name

/-- Writes the entry of an export. -/
def writeSignature (style : Style) (depth : Nat) (signature : Signature) : Writer :=
  streamObject style depth [
    ("name", streamString signature.name),
    ("doc", streamString signature.doc),
    ("kind", streamString signature.role.name),
    ("receiver", writeReceiver signature.receiver),
    ("params", writeParameters style (depth + 1) signature.parameters),
    ("returns", streamString signature.result.name)]

/-- Writes the manifest of a list of signatures. -/
def writeSignatures (style : Style) (signatures : List Signature) : Writer :=
  streamArray style 0 (signatures.map (writeSignature style 1))

end

/-! ## Targets -/

/-- What is reported of an outcome at the target: a refusal for its reason. -/
def reported {α : Type} (outcome : Except String α) : Except Fault α :=
  outcome.mapError .unwritable

/-- What is reported of writing that has ended, and where it ended. -/
def ended (written : Sink × Sink.Ending) : Except Fault Unit × Sink :=
  (reported written.2, written.1)

/-- Writes the manifest of the catalogue to a disk with room for `limit` bytes, if there is a
limit. -/
def write (style : Json.Style) (limit : Option Nat) : Except Fault Unit × Sink :=
  ended (writeSignatures style Catalogue.signatures (.disk limit))

/-- A JSON value where only one bare value can be written: anything but a string or number is
refused. -/
def plainJson : Json → Except String String
  | .string text => .ok text
  | .natural n => .ok (String.ofList (Nat.toDigits 10 n))
  | _ => .error "an error occurred when formatting an argument"

/-- Writes the manifest of the catalogue where only one bare value can be written. -/
def plain : Except Fault String := reported (plainJson catalogue)

end Manifest

end CallGate
