import RaggedTrajectory.Config
import RaggedTrajectory.Lifecycle

/-!
# Outputters

An outputter has a configuration, global attributes and at most one run. The configuration can be
changed between runs only, and every change is checked before it is taken over.
-/

namespace RaggedTrajectory

/-- What a user gives to make an outputter. The path is required. -/
structure OutputOptions where
  path : Option Path := none
  allData : Bool := false
  compress : Bool := true
  format : FileFormat := .enhanced
  codec : Codec := .lz4
  globals : GlobalAttributes := {}

/-- The state of an outputter. -/
structure Outputter where
  config : OutputConfig
  globals : GlobalAttributes
  registry : Registry
  lifecycle : Lifecycle

/-- A new value for a setting. -/
inductive Change where
  | path (value : Path)
  | allData (value : Bool)
  | compress (value : Bool)
  | format (value : FileFormat)
  | codec (value : Codec)
  | globalAttributes (value : GlobalAttributes)

/-- Where the snapshots of a step come from. -/
abbrev SnapshotSource := UInt32 → Except Error (List Snapshot)

/-- A cache as a source. -/
def SnapshotCache.source (cache : SnapshotCache) : SnapshotSource :=
  fun step => cache.load step.toNat

namespace Change

/-- The setting that is changed. -/
def setting : Change → Setting
  | path _ => .path
  | allData _ => .allData
  | compress _ => .compress
  | format _ => .format
  | codec _ => .codec
  | globalAttributes _ => .globalAttributes

/-- A configuration with the new value. Global attributes are not part of it. -/
def applyTo : Change → OutputConfig → OutputConfig
  | path value, config => { config with path := value }
  | allData value, config => { config with allData := value }
  | compress value, config => { config with compress := value }
  | format value, config => { config with format := value }
  | codec value, config => { config with codec := value }
  | globalAttributes _, config => config

/-- Accepts a new path only if it can become a new file. -/
def check (disk : Disk) : Change → Except Error Unit
  | path value => disk.validateTarget value
  | _ => .ok ()

end Change

namespace Outputter

/-- An outputter for a configuration. -/
def create (config : OutputConfig) (disk : Disk) : Except Error Outputter := do
  config.validate
  disk.validateTarget config.path
  return ⟨config, {}, .default, .idle⟩

/-- An outputter for the choices of a user. -/
def build (options : OutputOptions) (disk : Disk) : Except Error Outputter := do
  match options.path with
  | none => throw (.missingParameter .path)
  | some path =>
    let config : OutputConfig :=
      ⟨path, options.allData, options.compress, options.format, options.codec⟩
    let outputter ← create config disk
    return { outputter with globals := options.globals }

/-- Changes a setting. A change that is refused leaves the outputter as it was. -/
def set (outputter : Outputter) (change : Change) (disk : Disk) :
    Except Error Unit × Outputter :=
  if outputter.lifecycle.isOpen then
    (.error (.configurationLocked change.setting), outputter)
  else
    match change with
    | .globalAttributes globals => (.ok (), { outputter with globals })
    | change =>
      let config := change.applyTo outputter.config
      match do change.check disk; config.validate with
      | .error e => (.error e, outputter)
      | .ok () => (.ok (), { outputter with config })

/-- Plans a run and makes its files, at a moment that the files remember. -/
def prepare (outputter : Outputter) (parameters : RunParameters) (created : Timestamp)
    (disk : Disk) : Except Error Destinations × Outputter × Disk :=
  let config := outputter.config
  if outputter.lifecycle.isOpen then (.error .alreadyRunning, outputter, disk)
  else
    match outputter.registry.plan parameters config.allData with
    | .error e => (.error e, outputter, disk)
    | .ok layout =>
      let destinations := Destinations.derive config.path layout.uncertain
      match outputter.lifecycle.begin destinations layout outputter.globals created config.format
          config.policy disk with
      | (.error e, lifecycle, disk) => (.error e, { outputter with lifecycle }, disk)
      | (.ok (), lifecycle, disk) => (.ok destinations, { outputter with lifecycle }, disk)

/-- The file of a population in the open run. -/
def destination? (outputter : Outputter) (population : Population) : Option Path := do
  let run ← outputter.lifecycle.run
  run.destinations.pathFor? population

/-- Writes the snapshot of one population. -/
def write (outputter : Outputter) (step : UInt32) (snapshot : Snapshot) (disk : Disk) :
    Except Error Receipt × Outputter × Disk :=
  match outputter.lifecycle.write step snapshot disk with
  | (.error e, lifecycle, disk) => (.error e, { outputter with lifecycle }, disk)
  | (.ok _, lifecycle, disk) =>
    let outputter := { outputter with lifecycle }
    match outputter.destination? snapshot.population with
    | some path => (.ok ⟨step, [path], snapshot.time⟩, outputter, disk)
    | none => (.error .writeTargetClosed, outputter, disk)

/-- Writes snapshots one after another, up to the first that fails. -/
def writeEach (lifecycle : Lifecycle) (step : UInt32) (disk : Disk) :
    List Snapshot → Except Error Unit × Lifecycle × Disk
  | [] => (.ok (), lifecycle, disk)
  | snapshot :: rest =>
    match lifecycle.write step snapshot disk with
    | (.error e, lifecycle, disk) => (.error e, lifecycle, disk)
    | (.ok _, lifecycle, disk) => writeEach lifecycle step disk rest

/-- Writes all the snapshots that a source has for a step. -/
def writeOutput (outputter : Outputter) (step : UInt32) (source : SnapshotSource) (disk : Disk) :
    Except Error Receipt × Outputter × Disk :=
  if ¬outputter.lifecycle.isOpen then (.error .writeTargetClosed, outputter, disk)
  else
    match source step with
    | .error e => (.error e, outputter, disk)
    | .ok [] => (.error (.refused (.noSnapshots step.toNat)), outputter, disk)
    | .ok (first :: rest) =>
      match writeEach outputter.lifecycle step disk (first :: rest) with
      | (.error e, lifecycle, disk) => (.error e, { outputter with lifecycle }, disk)
      | (.ok (), lifecycle, disk) =>
        (lifecycle.receipt step first.time, { outputter with lifecycle }, disk)

/-- Removes the files of the run and unlocks the configuration. -/
def rewind (outputter : Outputter) (disk : Disk) : Except Error Unit × Outputter × Disk :=
  match outputter.lifecycle.rewind disk with
  | (result, lifecycle, disk) => (result, { outputter with lifecycle }, disk)

end Outputter

end RaggedTrajectory
