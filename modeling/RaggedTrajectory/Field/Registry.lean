import RaggedTrajectory.Field.Manifest

/-!
# Extended fields

A source of particles declares the arrays it keeps. A registry knows the standard fields and which
arrays they already write; from the declarations it derives one extended field for every other
array. The first declaration of a name counts.
-/

namespace RaggedTrajectory

/-- An array that a source of particles declares. -/
structure Source where
  name : String
  dtype : DataType
  /-- The dimensions of one particle's value: none for a single value. -/
  dims : List Nat
  deriving DecidableEq, Repr

/-- The variables of the time axis, which every file has besides its fields. -/
def axisVariables : List String := ["time", "particle_count"]

/-- The standard fields, and the names that stand for data written already. -/
structure Registry where
  standard : Manifest
  covered : List String
  deriving Repr

namespace Registry

/-- A registry for given standard fields. Besides the arrays listed in `covered`, the fields' own
names and the variables of the time axis are taken. -/
def withStandard (standard : Manifest) (covered : List String) : Registry :=
  ⟨standard, covered ++ axisVariables ++ standard.names⟩

/-- The registry of the standard fields. -/
def default : Registry :=
  withStandard standardManifest
    ["positions", "current_time_stamp", "status_codes", "spill_num", "age", "mass", "flag"]

/-- Whether an array of this name is written already. -/
def isCovered (registry : Registry) (name : String) : Bool := name ∈ registry.covered

/-- The extended field of a declared array. -/
def fieldOf (source : Source) (shape : FieldShape) : Field :=
  ⟨source.name, source.dtype, shape, .empty, .array source.name, .extended⟩

/-- Adds the field of one declaration, unless its name is covered or was declared before. -/
def addSource (registry : Registry) (extended : Manifest) (source : Source) :
    Except Error Manifest :=
  if registry.isCovered source.name || extended.contains source.name then .ok extended
  else
    match FieldShape.ofDims? source.dims with
    | none => .error (.schema (.undefinedDimension source.name source.dims))
    | some shape => extended.push (fieldOf source shape)

/-- The extended fields of the declared arrays, in the order of the declarations. -/
def deriveExtended (registry : Registry) (sources : List Source) : Except Error Manifest :=
  sources.foldlM registry.addSource .empty

end Registry

end RaggedTrajectory
