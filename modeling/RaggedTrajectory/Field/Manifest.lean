import RaggedTrajectory.Error
import RaggedTrajectory.Field.Attributes

/-!
# Manifests

A manifest is the ordered list of the fields that a run records for every particle. A field says
which array of a snapshot its values come from. Names are unique as long as fields are only added
by `Manifest.push`.

* `Manifest.push_eq_ok_iff`: a field is added at the end exactly when its name is new.
-/

namespace RaggedTrajectory

/-- Where the values of a field come from. -/
inductive FieldBinding where
  /-- All values of an array. -/
  | array (name : String)
  /-- One of the three components of an array. -/
  | component (array : String) (index : Nat)
  deriving DecidableEq, Repr

/-- The array that is read. -/
def FieldBinding.arrayName : FieldBinding → String
  | array name => name
  | component name _ => name

/-- Whether a field is always present. -/
inductive FieldOrigin where
  | standard
  | extended
  deriving DecidableEq, Repr

namespace FieldOrigin

/-- The name of the origin in a schema. -/
def name : FieldOrigin → String
  | standard => "standard"
  | extended => "extended"

/-- The origin with a given name. -/
def ofName? (name : String) : Option FieldOrigin :=
  [standard, extended].find? fun origin => origin.name = name

end FieldOrigin

/-- One value or vector that is recorded for every particle. -/
structure Field where
  name : String
  dtype : DataType
  shape : FieldShape
  attributes : Attributes
  binding : FieldBinding
  origin : FieldOrigin
  deriving DecidableEq, Repr

namespace Field

/-- The values of one particle. -/
def width (field : Field) : Nat := field.shape.width

/-- The bytes of one particle. -/
def stride (field : Field) : Nat := field.dtype.size * field.width

/-- A standard field with one value, read from the array of its own name. -/
def standard (name : String) (dtype : DataType) (attributes : List (String × AttributeValue)) :
    Field :=
  ⟨name, dtype, .scalar, Attributes.ofList attributes, .array name, .standard⟩

/-- The field read from elsewhere. -/
def boundTo (field : Field) (binding : FieldBinding) : Field := { field with binding }

end Field

/-- An ordered list of fields. -/
structure Manifest where
  fields : List Field
  deriving DecidableEq, Repr

namespace Manifest

/-- No fields. -/
def empty : Manifest := ⟨[]⟩

/-- The names of the fields. -/
def names (manifest : Manifest) : List String := manifest.fields.map Field.name

/-- The number of fields. -/
def length (manifest : Manifest) : Nat := manifest.fields.length

/-- The first field with a given name. -/
def get? (manifest : Manifest) (name : String) : Option Field :=
  manifest.fields.find? fun field => field.name = name

/-- The place of the first field with a given name. -/
def position? (manifest : Manifest) (name : String) : Option Nat :=
  manifest.fields.findIdx? fun field => field.name = name

/-- Whether there is a field with a given name. -/
def contains (manifest : Manifest) (name : String) : Bool := (manifest.get? name).isSome

/-- Adds a field at the end; its name must be new. -/
def push (manifest : Manifest) (field : Field) : Except Error Manifest :=
  if manifest.contains field.name then .error (.schema (.duplicateField field.name))
  else .ok ⟨manifest.fields ++ [field]⟩

/-- Adds fields one after the other until one is refused. The fields before it stay. -/
def pushAll (manifest : Manifest) : List Field → Except Error Unit × Manifest
  | [] => (.ok (), manifest)
  | field :: rest =>
    match manifest.push field with
    | .ok longer => pushAll longer rest
    | .error e => (.error e, manifest)

/-- Adds all fields of another manifest, one after the other. -/
def extend (manifest other : Manifest) : Except Error Unit × Manifest :=
  manifest.pushAll other.fields

/-- The extended fields. -/
def extended (manifest : Manifest) : List Field :=
  manifest.fields.filter fun field => field.origin = .extended

/-- Whether some field holds vectors. -/
def hasVectors (manifest : Manifest) : Bool :=
  manifest.fields.any fun field => field.shape = .vector3

/-- The bytes of one particle in all fields. -/
def stride (manifest : Manifest) : Nat := sumOf (manifest.fields.map Field.stride)

theorem contains_iff (manifest : Manifest) (name : String) :
    manifest.contains name = true ↔ name ∈ manifest.names := by
  simp [contains, get?, names, List.find?_isSome]

theorem push_eq_ok_iff (manifest longer : Manifest) (field : Field) :
    manifest.push field = .ok longer ↔
      field.name ∉ manifest.names ∧ longer = ⟨manifest.fields ++ [field]⟩ := by
  by_cases h : manifest.contains field.name = true
  · simp [push, h, (contains_iff manifest field.name).1 h]
  · have hn : field.name ∉ manifest.names := fun m => h ((contains_iff manifest field.name).2 m)
    simp [push, h, hn, eq_comm]

end Manifest

/-- The fields that every run records, in the order of the file. -/
def standardManifest : Manifest where
  fields := [
    (Field.standard "longitude" .float32
      [("long_name", .text "longitude of the particle"),
       ("units", .text "degrees_east")]).boundTo (.component "positions" 0),
    (Field.standard "latitude" .float32
      [("long_name", .text "latitude of the particle"),
       ("units", .text "degrees_north")]).boundTo (.component "positions" 1),
    (Field.standard "depth" .float32
      [("long_name", .text "particle depth below sea surface"),
       ("units", .text "meters"),
       ("axis", .text "z positive down")]).boundTo (.component "positions" 2),
    Field.standard "mass" .float32 [("units", .text "grams")],
    Field.standard "age" .int32
      [("long_name", .text "from age at time of release"),
       ("units", .text "seconds")],
    Field.standard "flag" .int8
      [("long_name", .text "particle status flag"),
       ("valid_range", .integers [0, 5]),
       ("flag_values", .integers [1, 2, 3, 4]),
       ("flag_meanings", .text "on_land off_maps evaporated below_surface")],
    (Field.standard "status" .int8
      [("long_name", .text "particle status flag"),
       ("valid_range", .integers [0, 10]),
       ("flag_values", .integers [2, 3, 7, 10]),
       ("flag_meanings", .text "2:in_water 3:on_land 7:off_maps 10:evaporated")]).boundTo
        (.array "status_codes"),
    (Field.standard "id" .int8
      [("long_name", .text "particle ID"),
       ("units", .text "1")]).boundTo (.array "spill_num")]

end RaggedTrajectory
