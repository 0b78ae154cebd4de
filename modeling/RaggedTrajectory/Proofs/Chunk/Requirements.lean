import RaggedTrajectory.Chunk

/-!
# What a chunk asks of a snapshot

An array that a field is bound to must have the right shape, the component that is asked for, and a
value for every particle. These requirements have an order, and so have the fields of a manifest: a
snapshot that meets all of them has a chunk, and otherwise the first one that is not met is the
error.

* `Requirement.firstFault_append`: where the first fault of two rows of requirements is.
* `Field.firstFault_requirements`: what decides whether a field has a column.
* `Chunk.firstFault_requirements`: what decides whether a snapshot has a chunk.
-/

namespace RaggedTrajectory

/-- The error of an outcome. -/
def Error.of? {α : Type} : Except Error α → Option Error
  | .ok _ => none
  | .error e => some e

/-- Something that is asked for, and the error where it is not given. -/
structure Requirement where
  met : Bool
  fault : Error

namespace Requirement

/-- The error of the first requirement that is not met. -/
def firstFault (requirements : List Requirement) : Option Error :=
  (requirements.find? fun requirement => !requirement.met).map Requirement.fault

@[simp]
theorem firstFault_nil : firstFault [] = none := rfl

@[simp]
theorem firstFault_cons (requirement : Requirement) (requirements : List Requirement) :
    firstFault (requirement :: requirements) =
      if requirement.met then firstFault requirements else some requirement.fault := by
  rw [firstFault, List.find?_cons]
  cases requirement.met <;> rfl

/-- The first fault of two rows is that of the first row, if it has one. -/
theorem firstFault_append (first second : List Requirement) :
    firstFault (first ++ second) = (firstFault first).or (firstFault second) := by
  induction first with
  | nil => rfl
  | cons requirement first ih =>
    rw [List.cons_append, firstFault_cons, firstFault_cons]
    split
    · exact ih
    · rfl

theorem firstFault_eq_none_iff {requirements : List Requirement} :
    firstFault requirements = none ↔ ∀ requirement ∈ requirements, requirement.met = true := by
  simp [firstFault]

end Requirement

open Requirement (firstFault firstFault_append)

namespace Field

/-- Whether an array of a snapshot of `count` particles has the values of a field. -/
def Fits (field : Field) (count : Nat) (array : ParticleArray) : Prop :=
  match field.binding with
  | .array _ => array.shape = field.shape ∧ array.data.length = count * field.width
  | .component _ index =>
    array.shape = .vector3 ∧ field.shape = .scalar ∧ index < vectorWidth ∧
      array.data.length = count * vectorWidth

/-- What a field asks of the array that it is bound to: first the shape, then the component, then
the number of values. -/
def arrayRequirements (field : Field) (count : Nat) (array : ParticleArray) : List Requirement :=
  let hasShape (right : Bool) : Requirement :=
    ⟨right, .unsupportedFieldShape field.name field.binding.arrayName array.shape field.shape⟩
  let hasLength (expected : Nat) : Requirement :=
    ⟨array.data.length = expected,
      .particleCountMismatch field.name expected array.data.length⟩
  match field.binding with
  | .array _ => [hasShape (array.shape = field.shape), hasLength (count * field.width)]
  | .component _ index =>
    [hasShape (array.shape = .vector3 ∧ field.shape = .scalar),
      ⟨index < vectorWidth, .schema (.componentOutside field.name index)⟩,
      hasLength (count * vectorWidth)]

/-- What a field asks of a snapshot: nothing where its array is missing. -/
def requirements (field : Field) (snapshot : Snapshot) : List Requirement :=
  match snapshot.get? field.binding.arrayName with
  | none => []
  | some array => field.arrayRequirements snapshot.count array

/-- An array fits if it meets all that the field asks for. -/
theorem fits_iff (field : Field) (count : Nat) (array : ParticleArray) :
    field.Fits count array ↔ firstFault (field.arrayRequirements count array) = none := by
  rw [Requirement.firstFault_eq_none_iff]
  unfold Fits arrayRequirements
  cases field.binding with
  | array name => simp
  | component name index => simp [and_assoc]

/-- A field has a column unless its array misses a requirement, and then the first one it misses is
the error. -/
theorem firstFault_arrayRequirements (field : Field) (count : Nat) (array : ParticleArray) :
    firstFault (field.arrayRequirements count array) =
      Error.of? (field.columnOf count array) := by
  -- Each check of the column is one requirement; the cases go along the checks in their order.
  unfold arrayRequirements columnOf
  cases field.binding with
  | array name =>
    by_cases shape : array.shape = field.shape
    · by_cases length : array.data.length = count * field.width <;> simp [shape, length, Error.of?]
    · simp [shape, Error.of?]
  | component name index =>
    by_cases shape : array.shape = .vector3 ∧ field.shape = .scalar
    · by_cases inside : index < vectorWidth
      · by_cases length : array.data.length = count * vectorWidth <;>
          simp [shape, inside, Nat.not_le.2 inside, length, Error.of?]
      · simp [shape, inside, Nat.not_lt.1 inside, Error.of?]
    · have other := Decidable.not_and_iff_or_not.1 shape
      simp [shape, other, Error.of?]

theorem firstFault_requirements (field : Field) (snapshot : Snapshot) :
    firstFault (field.requirements snapshot) = Error.of? (field.column snapshot) := by
  unfold requirements column
  cases snapshot.get? field.binding.arrayName with
  | none => rfl
  | some array => exact firstFault_arrayRequirements field snapshot.count array

end Field

namespace Chunk

/-- What a chunk asks of a snapshot: what its fields ask for, field by field. -/
def requirements (manifest : Manifest) (snapshot : Snapshot) : List Requirement :=
  manifest.fields.flatMap (·.requirements snapshot)

/-- All is met if every array that is there fits the fields that are bound to it. -/
theorem firstFault_requirements_eq_none_iff (manifest : Manifest) (snapshot : Snapshot) :
    firstFault (requirements manifest snapshot) = none ↔
      ∀ field ∈ manifest.fields, ∀ array, snapshot.get? field.binding.arrayName = some array →
        field.Fits snapshot.count array := by
  -- A field without its array asks for nothing, so the array can be taken as given.
  have own : ∀ field : Field, (∀ requirement ∈ field.requirements snapshot,
      requirement.met = true) ↔ ∀ array, snapshot.get? field.binding.arrayName = some array →
        field.Fits snapshot.count array := by
    intro field
    unfold Field.requirements
    cases snapshot.get? field.binding.arrayName with
    | none => simp
    | some array => simp [Field.fits_iff, Requirement.firstFault_eq_none_iff]
  simp only [requirements, Requirement.firstFault_eq_none_iff, List.mem_flatMap, ← own]
  constructor
  · exact fun all field mem requirement inside => all requirement ⟨field, mem, inside⟩
  · rintro all requirement ⟨field, mem, inside⟩
    exact all field mem requirement inside

/-- The columns of fields are put together one after the other, up to the first that fails. -/
theorem firstFault_payload (snapshot : Snapshot) (fields : List Field) :
    firstFault (fields.flatMap (·.requirements snapshot)) =
      Error.of? (payload snapshot fields) := by
  induction fields with
  | nil => rfl
  | cons field fields ih =>
    rw [List.flatMap_cons, firstFault_append, Field.firstFault_requirements, ih, payload]
    -- The other fields are not looked at when the first one has no column.
    cases field.column snapshot with
    | error e => rfl
    | ok column => cases payload snapshot fields <;> rfl

/-- A snapshot has a chunk unless it misses a requirement, and then the first one it misses is the
error. -/
theorem firstFault_requirements (manifest : Manifest) (step : UInt32) (recordStart : UInt64)
    (snapshot : Snapshot) (policy : CompressionPolicy) :
    firstFault (requirements manifest snapshot) =
      Error.of? (encode manifest step recordStart snapshot policy) := by
  rw [requirements, firstFault_payload, encode]
  cases payload snapshot manifest.fields <;> rfl

end Chunk

end RaggedTrajectory
