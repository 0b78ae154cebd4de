import RaggedTrajectory.Field.DataType
import RaggedTrajectory.Field.Shape
import RaggedTrajectory.Text.Quoted

/-!
# Causes of failure

Every operation that can fail names its cause by a value of `Error`. The wording is in one place,
`Error.message`. `Action` is the shape of an operation that fails or not and changes a state in
either case. An operation in parts is taken apart by `Error.bind_eq_ok_iff`, and one behind a check
by `Error.guard_eq_ok_iff`.
-/

namespace RaggedTrajectory

/-- Why a path cannot become a new file. -/
inductive DestinationFault where
  | isDirectory
  | alreadyExists
  | noFileName
  /-- The parent is missing or is no directory. -/
  | noParent (parent : String)
  deriving DecidableEq, Repr

/-- A parameter that has no default. -/
inductive Parameter where
  | path
  | startTime
  | stepCount
  deriving DecidableEq, Repr

/-- A setting of an outputter. -/
inductive Setting where
  | path
  | allData
  | compress
  | format
  | codec
  | globalAttributes
  deriving DecidableEq, Repr

/-- What is wrong with a description of fields. -/
inductive SchemaFault where
  | duplicateField (name : String)
  | undefinedDimension (name : String) (dims : List Nat)
  | tooManyParticles (count : Nat)
  | componentOutside (field : String) (index : Nat)
  | mixedTypes (appended target : DataType)
  | unsupportedDimensions (name : String) (dimensions : List String)
  | noTimeUnits
  | unknownTimeUnits (units : String)
  | badTimeOrigin (origin : String)
  deriving DecidableEq, Repr

/-- What is wrong with the bytes of a file. -/
inductive CorruptFault where
  | partialValues (length : Nat) (dtype : DataType)
  | truncatedChunkHeader
  | badChunkMagic
  | unknownFormatTag (tag : Nat)
  | unknownCodecTag (tag : Nat)
  | truncatedChunk (step : Nat)
  | rawLength (step declared count : Nat)
  | undecodableLz4
  | undecodableZstd
  | decompressedLength (length expected : Nat)
  | vectorWidth (found : Nat)
  | inconsistentOffsets
  | tooManySteps (written count : Nat)
  | truncatedTable
  | outsideFile (region : String)
  | entryMismatch (step : Nat)
  | recordGap (expected found : Nat)
  | rowCount (recorded covered : Nat)
  deriving DecidableEq, Repr

/-- What is wrong with a configuration. -/
inductive ConfigFault where
  /-- The text is no configuration. -/
  | unreadable
  | emptyPath
  | noCodec
  | noSteps
  deriving DecidableEq, Repr

/-- Why the file system or a source of data refuses a request. -/
inductive Refusal where
  | notFound
  | alreadyExists
  | notADirectory
  | isADirectory
  | nameTooLong
  | linkLoop
  /-- A directory has no bytes to map. -/
  | notMappable
  /-- A path with a zero byte. -/
  | zeroByte
  /-- The bytes are no text. -/
  | notText
  | shortHeader
  | noCachedData (step : Nat)
  | noSnapshots (step : Nat)
  /-- Any other refusal, in the words of the system. -/
  | other (message : String)
  deriving DecidableEq, Repr

/-- The cause of a failure. -/
inductive Error where
  | invalidDestination (path : String) (fault : DestinationFault)
  | missingParameter (parameter : Parameter)
  | missingSources
  | configurationLocked (setting : Setting)
  | alreadyRunning
  | schema (fault : SchemaFault)
  | unsupportedFieldShape (field array : String) (found expected : FieldShape)
  | particleCountMismatch (field : String) (expected found : Nat)
  | writeTargetClosed
  | noUncertainDestination
  | stepOutOfRange (step stepCount : Nat)
  | unknownField (name : String)
  | invalidMagic
  | unsupportedVersion (major minor : Nat)
  | checksumMismatch (step : Nat)
  | corrupt (fault : CorruptFault)
  | config (fault : ConfigFault)
  | refused (refusal : Refusal)
  /-- The text is no value of the type it is read as. -/
  | serialization
  /-- A moment beyond the calendar. -/
  | beyondCalendar
  /-- A sum that is too large for a word, in a build that checks. -/
  | overflow
  deriving DecidableEq, Repr

/-- Why a path cannot become a new file, in words. -/
def DestinationFault.message : DestinationFault → String
  | isDirectory => "output path must be a file, not a directory"
  | alreadyExists => "file exists; choose a filename that does not exist"
  | noFileName => "path does not contain a file name"
  | noParent parent => parent ++ " does not appear to be a valid directory"

/-- The name of a parameter. -/
def Parameter.name : Parameter → String
  | path => "path"
  | startTime => "start_time"
  | stepCount => "step_count"

/-- The name of a setting. -/
def Setting.name : Setting → String
  | path => "path"
  | allData => "all_data"
  | compress => "compress"
  | format => "format"
  | codec => "codec"
  | globalAttributes => "global_attributes"

/-- What is wrong with a description of fields, in words. -/
def SchemaFault.message : SchemaFault → String
  | duplicateField name => s!"duplicate field '{name}'"
  | undefinedDimension name dims =>
    s!"'{name}' has an undefined dimension: {Text.bracketed (dims.map Nat.repr)}"
  | tooManyParticles count => s!"{count} particles exceed the particle_count range"
  | componentOutside field index =>
    s!"field '{field}' binds component {index} of a {vectorWidth}-wide array"
  | mixedTypes appended target =>
    s!"cannot append {appended.name} values to a {target.name} array"
  | unsupportedDimensions name dimensions =>
    let shown := Text.bracketed (dimensions.map Text.quote)
    s!"variable '{name}' has unsupported dimensions {shown}"
  | noTimeUnits => "time variable has no units"
  | unknownTimeUnits units => s!"unrecognized time units '{units}'"
  | badTimeOrigin origin => s!"bad time origin '{origin}'"

/-- What is wrong with the bytes of a file, in words. -/
def CorruptFault.message : CorruptFault → String
  | partialValues length dtype =>
    s!"{length} bytes is not a whole number of {dtype.name} values"
  | truncatedChunkHeader => "truncated chunk header"
  | badChunkMagic => "bad chunk magic"
  | unknownFormatTag tag => s!"unknown format tag {tag}"
  | unknownCodecTag tag => s!"unknown codec tag {tag}"
  | truncatedChunk step => s!"chunk for timestep {step} is truncated"
  | rawLength step declared count =>
    s!"chunk for timestep {step} declares {declared} raw bytes for {count} particles"
  | undecodableLz4 => "LZ4 decompression failed"
  | undecodableZstd => "Zstd decompression failed"
  | decompressedLength length expected =>
    s!"decompressed {length} bytes, header says {expected}"
  | vectorWidth found => s!"vector width {found} (expected {RaggedTrajectory.vectorWidth})"
  | inconsistentOffsets => "header region offsets are inconsistent"
  | tooManySteps written count =>
    s!"steps written ({written}) exceeds time axis length ({count})"
  | truncatedTable => "truncated step table"
  | outsideFile region => s!"{region} lies outside the file"
  | entryMismatch step => s!"chunk for timestep {step} disagrees with its step table entry"
  | recordGap expected found => s!"record offsets jump from {expected} to {found}"
  | rowCount recorded covered => s!"header records {recorded} rows but steps cover {covered}"

/-- What is wrong with a configuration, in words. -/
def ConfigFault.message : ConfigFault → String
  | unreadable => "the text is not a configuration"
  | emptyPath => "path must not be empty"
  | noCodec => "compress is on but codec is 'none'"
  | noSteps => "step_count must be positive"

/-- Why a request was refused, in words. -/
def Refusal.message : Refusal → String
  | notFound => "No such file or directory (os error 2)"
  | alreadyExists => "File exists (os error 17)"
  | notADirectory => "Not a directory (os error 20)"
  | isADirectory => "Is a directory (os error 21)"
  | nameTooLong => "File name too long (os error 36)"
  | linkLoop => "Too many levels of symbolic links (os error 40)"
  | notMappable => "No such device (os error 19)"
  | zeroByte => "file name contained an unexpected NUL byte"
  | notText => "stream did not contain valid UTF-8"
  | shortHeader => "Insufficient bytes for header"
  | noCachedData step => s!"no cached data for timestep {step}"
  | noSnapshots step => s!"cache holds no snapshots for timestep {step}"
  | other message => message

/-- The cause in words. -/
def Error.message : Error → String
  | invalidDestination path fault =>
    s!"Invalid destination {Text.quoteWith true path}: {fault.message}"
  | missingParameter parameter => s!"Missing required run parameter: {parameter.name}"
  | missingSources =>
    "Extended export requested but no particle source descriptors were supplied"
  | configurationLocked setting =>
    s!"Cannot change '{setting.name}' in the middle of a run (rewind first)"
  | alreadyRunning => "A run is already open; rewind before starting another"
  | schema fault => s!"Schema error: {fault.message}"
  | unsupportedFieldShape field array found expected =>
    s!"Unsupported shape for field '{field}': snapshot array '{array}' is {found.title}, " ++
      s!"field expects {expected.title}"
  | particleCountMismatch field expected found =>
    s!"Field '{field}' has {found} values, expected {expected} for this timestep"
  | writeTargetClosed => "No open run: call prepare_for_model_run before writing"
  | noUncertainDestination =>
    "Uncertain snapshot supplied but the run has no uncertain destination"
  | stepOutOfRange step stepCount =>
    s!"Timestep {step} is outside the time axis (length {stepCount})"
  | unknownField name => s!"Unknown field: {name}"
  | invalidMagic => "Invalid magic number in header"
  | unsupportedVersion major minor => s!"Unsupported format version: {major}.{minor}"
  | checksumMismatch step => s!"Chunk checksum verification failed for timestep {step}"
  | corrupt fault => s!"Corrupt trajectory file: {fault.message}"
  | config fault => s!"Invalid configuration: {fault.message}"
  | refused refusal => s!"I/O error: {refusal.message}"
  | serialization => "Serialization error"
  | beyondCalendar => "moment beyond the calendar"
  | overflow => "attempt to add with overflow"

/-- An operation on a state that fails or gives a result, and leaves a state in either case. -/
abbrev Action (σ α : Type) := ExceptT Error (StateM σ) α

/-- Runs an operation on a state. -/
def Action.on {σ α : Type} (action : Action σ α) (state : σ) : Except Error α × σ :=
  action.run.run state

namespace Error

variable {α β : Type}

theorem ok_bind (value : α) (next : α → Except Error β) : Except.ok value >>= next = next value :=
  rfl

theorem throw_bind (e : Error) (next : α → Except Error β) :
    (throw e : Except Error α) >>= next = throw e := rfl

/-- An operation in two parts gives a result if both do. -/
theorem bind_eq_ok_iff {operation : Except Error α} {next : α → Except Error β} {result : β} :
    operation >>= next = .ok result ↔ ∃ value, operation = .ok value ∧ next value = .ok result := by
  cases operation <;> simp [bind, Except.bind]

/-- An operation behind a check gives a result if nothing is refused. -/
theorem guard_eq_ok_iff {refused : Prop} [Decidable refused] {e : Error} {next : α → Except Error β}
    {rest : Except Error β} {result : β} :
    (if refused then throw e >>= next else rest) = .ok result ↔ ¬refused ∧ rest = .ok result := by
  by_cases c : refused <;> simp [c, throw, throwThe, MonadExceptOf.throw, bind, Except.bind]

section Lists

variable {items : List α} {check : α → Except Error Unit}

/-- An operation succeeds on all items if it succeeds on each of them. -/
theorem forM_eq_ok_iff : items.forM check = .ok () ↔ ∀ item ∈ items, check item = .ok () := by
  induction items with
  | nil => exact ⟨fun _ item mem => (by cases mem), fun _ => rfl⟩
  | cons item items ih =>
    rw [List.forall_mem_cons, ← ih]
    refine bind_eq_ok_iff.trans ⟨fun ⟨_, first, others⟩ => ⟨first, others⟩, ?_⟩
    exact fun ⟨first, others⟩ => ⟨(), first, others⟩

/-- If it fails on an item, it has succeeded on those in front, and the others do not matter. -/
theorem forM_eq_error {front rest : List α} {item : α} {e : Error}
    (passed : ∀ other ∈ front, check other = .ok ()) (refused : check item = .error e) :
    (front ++ item :: rest).forM check = .error e := by
  induction front with
  | nil =>
    show (check item >>= fun _ => rest.forM check) = .error e
    rw [refused]
    rfl
  | cons other front ih =>
    show (check other >>= fun _ => (front ++ item :: rest).forM check) = .error e
    rw [passed other List.mem_cons_self, ok_bind]
    exact ih fun other mem => passed other (List.mem_cons_of_mem _ mem)

end Lists

end Error

end RaggedTrajectory
