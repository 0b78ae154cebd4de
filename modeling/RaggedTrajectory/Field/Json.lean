import RaggedTrajectory.Field.Manifest
import RaggedTrajectory.Json.Reading

/-!
# Attributes and manifests in JSON

Attributes are a list of pairs. The value of an attribute carries no tag: it is the first that fits
of an integer, a number, a text, a list of integers and a list of numbers.
-/

namespace RaggedTrajectory

open Json (Value)

namespace AttributeValue

/-- The value without a tag. -/
def toJson : AttributeValue → Value
  | integer n => .ofInt n.toInt
  | float x => .ofFloat x
  | text s => .ofText s
  | integers ns => .array (ns.map fun n => .ofInt n.toInt)
  | floats xs => .array (xs.map .ofFloat)

/-- The first kind of value that fits. -/
def ofJson? (value : Value) : Option AttributeValue :=
  (value.int64?.map integer)
    <|> (value.float?.map float)
    <|> (value.text?.map text)
    <|> ((value.list? Value.int64?).map integers)
    <|> ((value.list? Value.float?).map floats)

end AttributeValue

namespace Attributes

/-- The pairs in their order. -/
def toJson (attributes : Attributes) : Value :=
  .array (attributes.entries.map fun (key, value) => .array [.ofText key, value.toJson])

/-- Pairs in their order, repeated names included. -/
def ofJson? (value : Value) : Option Attributes :=
  (value.list? (Value.pair? Value.text? AttributeValue.ofJson?)).map fun entries => ⟨entries⟩

end Attributes

/-- A type by its name. -/
def DataType.ofJson? (value : Value) : Option DataType := value.constant? DataType.ofName?

/-- A shape by its name. -/
def FieldShape.ofJson? (value : Value) : Option FieldShape := value.constant? FieldShape.ofName?

/-- An origin by its name. -/
def FieldOrigin.ofJson? (value : Value) : Option FieldOrigin :=
  value.constant? FieldOrigin.ofName?

namespace FieldBinding

/-- An object with one member, named for the kind of binding. -/
def toJson : FieldBinding → Value
  | array name => .ofMembers [("array", .ofText name)]
  | component name index =>
    .ofMembers [("component", .ofMembers [("array", .ofText name), ("index", .ofInt index)])]

/-- A binding by the name of its only member. -/
def ofJson? : Value → Option FieldBinding
  | .object [(key, value)] =>
    match Utf8.decode? key with
    | some "array" => value.text?.map array
    | some "component" =>
      match value.fields? [("array", .required), ("index", .required)] with
      | some [some name, some index] => return component (← name.text?) (← index.word?)
      | _ => none
    | _ => none
  | _ => none

end FieldBinding

namespace Field

/-- A record of the parts of a field. -/
def toJson (field : Field) : Value :=
  .ofMembers [
    ("name", .ofText field.name),
    ("dtype", .ofText field.dtype.name),
    ("shape", .ofText field.shape.name),
    ("attributes", field.attributes.toJson),
    ("binding", field.binding.toJson),
    ("origin", .ofText field.origin.name)]

/-- A field from the record of its parts. -/
def ofJson? (value : Value) : Option Field :=
  match value.fields? [("name", .required), ("dtype", .required), ("shape", .required),
      ("attributes", .required), ("binding", .required), ("origin", .required)] with
  | some [some name, some dtype, some shape, some attributes, some binding, some origin] => do
    return {
      name := ← name.text?
      dtype := ← DataType.ofJson? dtype
      shape := ← FieldShape.ofJson? shape
      attributes := ← Attributes.ofJson? attributes
      binding := ← FieldBinding.ofJson? binding
      origin := ← FieldOrigin.ofJson? origin }
  | _ => none

end Field

namespace Manifest

/-- A record with the list of fields. -/
def toJson (manifest : Manifest) : Value :=
  .ofMembers [("fields", .array (manifest.fields.map Field.toJson))]

/-- A manifest from its record; names are taken as they come. -/
def ofJson? (value : Value) : Option Manifest :=
  match value.fields? [("fields", .required)] with
  | some [some fields] => (fields.list? Field.ofJson?).map fun fields => ⟨fields⟩
  | _ => none

end Manifest

end RaggedTrajectory
