import RaggedTrajectory.Field.Registry
import RaggedTrajectory.FileSchema

/-!
# The layout of a run

Planning a run fixes the length of its time axis and the fields it records. The layout that comes
out describes every file of the run.
-/

namespace RaggedTrajectory

/-- What a run is asked to be. -/
structure RunParameters where
  /-- The start of the run, which is the origin of time. -/
  startTime : Option Timestamp
  stepCount : Option UInt32
  /-- Whether the uncertain population is recorded too. -/
  uncertain : Bool
  sources : Option (List Source)
  deriving Repr

/-- What is fixed for a run. -/
structure RunLayout where
  startTime : Timestamp
  stepCount : UInt32
  uncertain : Bool
  manifest : Manifest
  deriving DecidableEq, Repr

/-- Descriptions that every file of a run carries. -/
structure GlobalAttributes where
  comment : String := "Particle trajectory output"
  source : String := "trajectory-rs version 0.1.0"
  references : String := "TBD"
  featureType : String := "particle_trajectory"
  institution : String := "unspecified"
  conventions : String := "CF-1.6"
  deriving DecidableEq, Repr, Inhabited

namespace GlobalAttributes

/-- The attributes of a file made at a given moment. -/
def toAttributes (globals : GlobalAttributes) (created : Timestamp) : Attributes :=
  Attributes.ofList [
    ("comment", .text globals.comment),
    ("creation_date", .text created.formatWhole),
    ("source", .text globals.source),
    ("references", .text globals.references),
    ("feature_type", .text globals.featureType),
    ("institution", .text globals.institution),
    ("conventions", .text globals.conventions)]

end GlobalAttributes

namespace Registry

/-- The fields of a run: the standard ones, and the ones derived from the sources if extended
output is asked for. -/
def manifestFor (registry : Registry) (sources : Option (List Source)) (extended : Bool) :
    Except Error Manifest :=
  if extended then
    match sources with
    | none => .error .missingSources
    | some sources => do
      let derived ← registry.deriveExtended sources
      match registry.standard.extend derived with
      | (.ok (), manifest) => return manifest
      | (.error e, _) => throw e
  else .ok registry.standard

/-- The layout of a run. -/
def plan (registry : Registry) (parameters : RunParameters) (extended : Bool) :
    Except Error RunLayout :=
  match parameters.startTime, parameters.stepCount with
  | none, _ => .error (.missingParameter .startTime)
  | _, none => .error (.missingParameter .stepCount)
  | some startTime, some stepCount =>
    if stepCount = 0 then .error (.config .noSteps)
    else do
      let manifest ← registry.manifestFor parameters.sources extended
      return ⟨startTime, stepCount, parameters.uncertain, manifest⟩

end Registry

namespace RunLayout

/-- The units of the time axis. -/
def timeUnits (layout : RunLayout) : String :=
  FileSchema.timeUnitsStart ++ layout.startTime.format

/-- The seconds from the start of the run to a moment. -/
def elapsedSeconds (layout : RunLayout) (time : Timestamp) : Binary64 :=
  time.secondsSince layout.startTime

/-- The variable of time. -/
def timeVariable (layout : RunLayout) : Variable where
  name := "time"
  dtype := .float64
  dimensions := ["time"]
  attributes := Attributes.ofList [
    ("units", .text layout.timeUnits),
    ("long_name", .text "time"),
    ("standard_name", .text "time"),
    ("calendar", .text "gregorian"),
    ("comment", .text "unspecified time zone")]
  origin := none

/-- The variable that counts the particles of each step. -/
def countVariable : Variable where
  name := "particle_count"
  dtype := .int32
  dimensions := ["time"]
  attributes := Attributes.ofList [
    ("units", .text "1"),
    ("long_name", .text "number of particles in a given timestep"),
    ("ragged_row_count", .text "particle count at nth timestep")]
  origin := none

/-- The schema of a file of the run that is made at a given moment. -/
def fileSchema (layout : RunLayout) (globals : GlobalAttributes) (created : Timestamp) :
    FileSchema where
  globalAttributes := globals.toAttributes created
  dimensions := [
    ⟨"time", some layout.stepCount.toUInt64⟩,
    ⟨FieldShape.recordAxis, none⟩,
    ⟨FieldShape.componentAxis, some (UInt64.ofNat vectorWidth)⟩]
  declarations :=
    layout.timeVariable :: countVariable :: layout.manifest.fields.map Variable.ofField

end RunLayout

end RaggedTrajectory
