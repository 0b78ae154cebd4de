/-!
# Field shapes

A field holds one value for each particle, or three.
-/

namespace RaggedTrajectory

/-- The length of the component axis. -/
def vectorWidth : Nat := 3

/-- How many values a particle has. -/
inductive FieldShape where
  /-- One value, on the record axis. -/
  | scalar
  /-- Three values, on the record axis and the component axis. -/
  | vector3
  deriving DecidableEq, Repr, Inhabited

namespace FieldShape

/-- The record axis. -/
def recordAxis : String := "data"

/-- The component axis. -/
def componentAxis : String := "world_point"

/-- The shape of an array whose particles have values of the given dimensions, if a field can hold
it. -/
def ofDims? (dims : List Nat) : Option FieldShape :=
  if dims = [] then some scalar
  else if dims = [vectorWidth] then some vector3
  else none

/-- The values of one particle. -/
def width : FieldShape → Nat
  | scalar => 1
  | vector3 => vectorWidth

/-- The axes of a variable of this shape. -/
def dimensions : FieldShape → List String
  | scalar => [recordAxis]
  | vector3 => [recordAxis, componentAxis]

/-- The name of the shape in a manifest. -/
def name : FieldShape → String
  | scalar => "scalar"
  | vector3 => "vector3"

/-- The shape with a given name. -/
def ofName? (name : String) : Option FieldShape :=
  [scalar, vector3].find? fun shape => shape.name = name

/-- The name of the shape in messages. -/
def title : FieldShape → String
  | scalar => "Scalar"
  | vector3 => "Vector3"

theorem width_pos (shape : FieldShape) : 0 < shape.width := by cases shape <;> decide

end FieldShape

end RaggedTrajectory
