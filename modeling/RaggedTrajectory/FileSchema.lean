import RaggedTrajectory.Field.Json
import RaggedTrajectory.Time.Format

/-!
# Schema blocks

Behind its header a file describes itself: global attributes, the axes, and the variables with
their types, axes and attributes. From this the reader rebuilds the manifest, whose fields are the
variables on the record axis, and the origin of time, which is part of the units of time.
-/

namespace RaggedTrajectory

open Json (Value)

/-- An axis. The record axis has no fixed length. -/
structure Dimension where
  name : String
  length : Option UInt64
  deriving DecidableEq, Repr

/-- A variable as it is declared in a file. -/
structure Variable where
  name : String
  dtype : DataType
  dimensions : List String
  attributes : Attributes
  /-- The origin of the field, if the variable is one. -/
  origin : Option FieldOrigin
  deriving DecidableEq, Repr

/-- The description of a file. -/
structure FileSchema where
  globalAttributes : Attributes
  dimensions : List Dimension
  declarations : List Variable
  deriving DecidableEq, Repr

namespace Dimension

/-- A record with name and length. -/
def toJson (dimension : Dimension) : Value :=
  .ofMembers [
    ("name", .ofText dimension.name),
    ("length", dimension.length.elim .null fun n => .ofInt n.toNat)]

/-- An axis from its record. -/
def ofJson? (value : Value) : Option Dimension :=
  match value.fields? [("name", .required), ("length", .nullable)] with
  | some [some name, length] => do
    let length ← Value.nullable? Value.word? length
    return ⟨← name.text?, length.map UInt64.ofNat⟩
  | _ => none

end Dimension

namespace Variable

/-- The variable of a field. -/
def ofField (field : Field) : Variable :=
  ⟨field.name, field.dtype, field.shape.dimensions, field.attributes, some field.origin⟩

/-- Whether a variable is on the record axis. -/
def isRecord (declared : Variable) : Bool :=
  declared.dimensions.head? = some FieldShape.recordAxis

/-- The shape of a variable on the record axis, if a field can have it. -/
def shape? (declared : Variable) : Option FieldShape :=
  match declared.dimensions with
  | [_] => some .scalar
  | [_, second] => if second = FieldShape.componentAxis then some .vector3 else none
  | _ => none

/-- A record of the parts of a variable. The origin is left out where there is none. -/
def toJson (declared : Variable) : Value :=
  .ofMembers ([
    ("name", .ofText declared.name),
    ("dtype", .ofText declared.dtype.name),
    ("dimensions", .array (declared.dimensions.map .ofText)),
    ("attributes", declared.attributes.toJson)] ++
    declared.origin.toList.map fun origin => ("origin", .ofText origin.name))

/-- A variable from its record. -/
def ofJson? (value : Value) : Option Variable :=
  match value.fields? [("name", .required), ("dtype", .required), ("dimensions", .required),
      ("attributes", .required), ("origin", .optional)] with
  | some [some name, some dtype, some dimensions, some attributes, origin] => do
    return {
      name := ← name.text?
      dtype := ← DataType.ofJson? dtype
      dimensions := ← dimensions.list? Value.text?
      attributes := ← Attributes.ofJson? attributes
      origin := ← Value.nullable? FieldOrigin.ofJson? origin }
  | _ => none

end Variable

namespace FileSchema

/-- What the units of time start with. -/
def timeUnitsStart : String := "seconds since "

/-- A record of the parts of a schema. -/
def toJson (schema : FileSchema) : Value :=
  .ofMembers [
    ("global_attributes", schema.globalAttributes.toJson),
    ("dimensions", .array (schema.dimensions.map Dimension.toJson)),
    ("variables", .array (schema.declarations.map Variable.toJson))]

/-- A schema from its record. -/
def ofJson? (value : Value) : Option FileSchema :=
  match value.fields? [("global_attributes", .required), ("dimensions", .required),
      ("variables", .required)] with
  | some [some attributes, some dimensions, some declarations] => do
    return {
      globalAttributes := ← Attributes.ofJson? attributes
      dimensions := ← dimensions.list? Dimension.ofJson?
      declarations := ← declarations.list? Variable.ofJson? }
  | _ => none

/-- The block of a schema. -/
def encode (schema : FileSchema) : Bytes := schema.toJson.render

/-- The schema of a block. -/
def decode (bytes : Bytes) : Except Error FileSchema :=
  match (Value.parse? bytes).bind ofJson? with
  | some schema => .ok schema
  | none => .error .serialization

/-- The first variable with a given name. -/
def findVariable (schema : FileSchema) (name : String) : Option Variable :=
  schema.declarations.find? fun declared => declared.name = name

/-- Adds the field of a variable to a manifest, if the variable is on the record axis. -/
def addField (manifest : Manifest) (declared : Variable) : Except Error Manifest :=
  if declared.isRecord then
    match declared.shape? with
    | none => .error (.schema (.unsupportedDimensions declared.name declared.dimensions))
    | some shape =>
      manifest.push {
        name := declared.name
        dtype := declared.dtype
        shape
        attributes := declared.attributes
        binding := .array declared.name
        origin := declared.origin.getD .extended }
  else .ok manifest

/-- The fields of a file, in the order of their variables. -/
def manifest (schema : FileSchema) : Except Error Manifest :=
  schema.declarations.foldlM addField .empty

/-- The units of time, if they are given as a text. -/
def timeUnits? (schema : FileSchema) : Option String :=
  match (schema.findVariable "time").bind fun time => time.attributes.get? "units" with
  | some (.text units) => some units
  | _ => none

/-- The rest of a text after a given start. -/
def afterStart? (start text : List Char) : Option (List Char) :=
  if start.isPrefixOf text then some (text.drop start.length) else none

/-- The origin of time, from the units of time. -/
def timeOrigin (schema : FileSchema) : Except Error Timestamp :=
  match schema.timeUnits? with
  | none => .error (.schema .noTimeUnits)
  | some units =>
    match afterStart? timeUnitsStart.toList units.toList with
    | none => .error (.schema (.unknownTimeUnits units))
    | some origin =>
      match Timestamp.parse? origin with
      | none => .error (.schema (.badTimeOrigin (String.ofList origin)))
      | some t => .ok t

end FileSchema

end RaggedTrajectory
