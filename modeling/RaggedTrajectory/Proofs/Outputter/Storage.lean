import RaggedTrajectory.Proofs.Chunk.Storage
import RaggedTrajectory.Proofs.Lifecycle.Records
import RaggedTrajectory.Proofs.Outputter.Batches
import RaggedTrajectory.Proofs.Reader.Opening

/-!
# How the files of a run are stored

The configuration that a run was prepared with says in which format its files are and how their
chunks are stored. Until the run is rewound this does not change: in every file the header has the
format and the codec of the configuration, and the chunk of every accepted call is stored by this
codec or by none. Without compression, and in the classic format, all chunks have their values as
they are.

* `Outputter.holds_apply`: an operation adds the calls that it makes and that are accepted.
* `OutputConfig.governs_of_extends`: what a configuration makes of a file.
* `Outputter.governs_of_prepare`: the files of a run, after any operations.
-/

namespace RaggedTrajectory

/-! ## Accepted calls -/

namespace Outputter

/-- The accepted calls among those that write snapshots one after another, up to the first that is
refused. -/
def acceptedEach (lifecycle : Lifecycle) (step : UInt32) (disk : Disk) :
    List Snapshot → List WriteCall
  | [] => []
  | snapshot :: rest =>
    match lifecycle.write step snapshot disk with
    | (.error _, _, _) => []
    | (.ok _, lifecycle, disk) => ⟨step, snapshot⟩ :: acceptedEach lifecycle step disk rest

end Outputter

/-- The accepted calls of an operation. -/
def Operation.accepted (state : Outputter × Disk) : Operation → List WriteCall
  | write step snapshot =>
    WriteCall.acceptedBy ⟨step, snapshot⟩ (state.1.lifecycle.write step snapshot state.2).1
  | writeOutput step source =>
    Outputter.acceptedEach state.1.lifecycle step state.2 ((source step).toOption.getD [])
  | set _ | prepare _ _ | rewind => []

namespace Outputter

/-- The accepted calls of operations in their order. -/
def acceptedAll : List Operation → Outputter × Disk → List WriteCall
  | [], _ => []
  | operation :: operations, state =>
    operation.accepted state ++ acceptedAll operations (operation.apply state)

/-- Operations on an open run, other than to rewind it, keep what the run is made with. -/
theorem terms_afterAll {outputter : Outputter} (opened : outputter.lifecycle.isOpen = true)
    {operations : List Operation} (others : ∀ operation ∈ operations, operation ≠ .rewind)
    (disk : Disk) : (afterAll operations (outputter, disk)).1.terms = outputter.terms := by
  induction operations generalizing outputter disk with
  | nil => rfl
  | cons operation operations ih =>
    obtain ⟨own, later⟩ := List.forall_mem_cons.1 others
    have same := terms_apply opened own disk
    exact (ih ((isOpen_of_terms same).trans opened) later _).trans same

section Holds

variable {policy : CompressionPolicy} {first : FileImage} {accepted : List WriteCall}
  {intact : Prop}

/-- Snapshots that are written one after another. -/
theorem holds_writeEach {lifecycle : Lifecycle} {disk : Disk}
    (holds : lifecycle.Holds policy first accepted intact disk) (step : UInt32)
    (snapshots : List Snapshot) :
    (writeEach lifecycle step disk snapshots).2.1.Holds policy first
      (accepted ++ acceptedEach lifecycle step disk snapshots) intact
      (writeEach lifecycle step disk snapshots).2.2 := by
  induction snapshots generalizing lifecycle disk accepted with
  | nil =>
    rw [acceptedEach, List.append_nil]
    exact holds
  | cons snapshot snapshots ih =>
    have next := Lifecycle.holds_write holds step snapshot
    rw [writeEach, acceptedEach]
    generalize lifecycle.write step snapshot disk = outcome at *
    obtain ⟨_ | range, after, last⟩ := outcome
    · exact next
    · have others := ih next
      rw [List.append_assoc] at others
      exact others

/-- An operation on an open run, other than to rewind it, adds its accepted calls to those that the
files are made of. -/
theorem holds_apply {outputter : Outputter} {disk : Disk}
    (holds : outputter.lifecycle.Holds policy first accepted intact disk) {operation : Operation}
    (other : operation ≠ .rewind) :
    (operation.apply (outputter, disk)).1.lifecycle.Holds policy first
      (accepted ++ operation.accepted (outputter, disk)) intact
      (operation.apply (outputter, disk)).2 := by
  cases operation with
  | set change =>
    rw [Operation.accepted, List.append_nil, Operation.apply, lifecycle_set]
    exact holds
  | prepare parameters created =>
    obtain ⟨run, opened, -⟩ := id holds
    have busy : outputter.lifecycle.isOpen = true := by
      rw [Lifecycle.isOpen, opened]
      rfl
    rw [Operation.accepted, List.append_nil, Operation.apply, prepare_of_open busy]
    exact holds
  | write step snapshot =>
    rw [Operation.accepted, Operation.apply, write_snd]
    exact Lifecycle.holds_write holds step snapshot
  | writeOutput step source =>
    rw [Operation.accepted, Operation.apply, writeOutput_snd]
    exact holds_writeEach holds step _
  | rewind => exact absurd rfl other

/-- So do operations in their order. -/
theorem holds_afterAll {outputter : Outputter} {disk : Disk}
    (holds : outputter.lifecycle.Holds policy first accepted intact disk)
    {operations : List Operation} (others : ∀ operation ∈ operations, operation ≠ .rewind) :
    (afterAll operations (outputter, disk)).1.lifecycle.Holds policy first
      (accepted ++ acceptedAll operations (outputter, disk)) intact
      (afterAll operations (outputter, disk)).2 := by
  induction operations generalizing outputter disk accepted with
  | nil =>
    rw [acceptedAll, List.append_nil]
    exact holds
  | cons operation operations ih =>
    obtain ⟨own, later⟩ := List.forall_mem_cons.1 others
    have last := ih (holds_apply holds own) later
    rw [List.append_assoc] at last
    exact last

end Holds

end Outputter

/-! ## What a configuration makes of a file -/

/-- The chunks of the records of calls, by the policy of a codec. -/
theorem WriteCall.forall₂_isStored {layout : RunLayout} {codec : Codec} {start : Nat}
    {calls : List WriteCall} {made : List StepRecord}
    (all : records layout (.ofCodec codec) start calls = .ok made)
    (short : ∀ record ∈ made, record.chunk.length < 2 ^ 64) :
    List.Forall₂ (fun call chunk => ∃ header stored,
      Chunk.IsStored codec layout.manifest call.step call.snapshot chunk header stored) calls
      (made.map StepRecord.chunk) := by
  induction calls generalizing start made with
  | nil =>
    cases all
    exact .nil
  | cons call calls ih =>
    obtain ⟨record, others, one, rest, rfl⟩ := records_cons.1 all
    obtain ⟨own, later⟩ := List.forall_mem_cons.1 short
    obtain ⟨-, -, -, -, encoded⟩ := record_eq_ok one
    exact .cons (Chunk.isStored_of_encode encoded own) (ih rest later)

/-- A file that a configuration says how to store. It has chunks of calls, and behind them what
does not belong to them. -/
structure OutputConfig.Governs (config : OutputConfig) (manifest : Manifest)
    (calls : List WriteCall) (header : Header) (chunks : List Bytes) (rest bytes : Bytes) :
    Prop where
  /-- The header is read, whether sums stop or wrap. -/
  decoded : ∀ overflow, Header.decode overflow bytes = .ok header
  data : bytes.drop header.dataOffset.toNat = chunks.flatten ++ rest
  format : header.format = config.format
  codec : header.codec =
    if config.compress = true ∧ config.format = .enhanced then config.codec else .stored
  /-- Every chunk is stored by the codec of the file, or by none. -/
  stored : List.Forall₂ (fun call chunk => ∃ own stored,
    Chunk.IsStored header.codec manifest call.step call.snapshot chunk own stored) calls chunks
  /-- Where there is no codec, every chunk has its values as they are. -/
  raw : config.compress = false ∨ config.format = .classic →
    List.Forall₂ (fun call chunk => ∃ own,
      Chunk.IsRaw manifest call.step call.snapshot chunk own) calls chunks

/-- Where an image underlies, its header and its chunks are found, whatever the counters say. -/
theorem FileImage.exists_of_underlies {image : FileImage} {most : UInt32} {bytes : Bytes}
    (underlies : image.Underlies most bytes) (room : bytes.length < 2 ^ 64) :
    ∃ header rest, (∀ overflow, Header.decode overflow bytes = .ok header) ∧
      image.IsHeader header ∧
      bytes.drop header.dataOffset.toNat = StepRecord.chunks image.records ++ rest ∧
      bytes.length = image.bytes.length + rest.length := by
  have short := Nat.lt_of_le_of_lt (length_le_of_underlies underlies) room
  obtain ⟨header, table, rest, own, -, length, rfl⟩ := underlies
  have valid (overflow : Overflow) : header.validate overflow = .ok () := by
    rw [own.same]
    exact validate_counters overflow short header.recordLength own.counted
  have offset : header.dataOffset.toNat =
      (header.encode ++ (image.block ++ table)).length := by
    rw [own.same]
    refine (toNat_dataOffset short).trans ?_
    simp only [dataOffset, tableOffset, List.length_append, Header.length_encode, length]
    omega
  refine ⟨header, rest, fun overflow => Header.decode_encode (valid overflow) _, own, ?_, ?_⟩
  · have front (data : Bytes) : header.encode ++ (image.block ++ (table ++ data)) =
        (header.encode ++ (image.block ++ table)) ++ data := by
      simp only [List.append_assoc]
    rw [offset, front, List.drop_left]
  · simp only [length_bytes, dataOffset, tableOffset, List.length_append, Header.length_encode,
      length]
    omega

/-- What a configuration makes of a file that was new before the calls. -/
theorem OutputConfig.governs_of_extends {config : OutputConfig} {layout : RunLayout}
    {schema : FileSchema} {calls : List WriteCall} {intact : Prop} {writer : Writer} {bytes : Bytes}
    (further : writer.Extends layout config.policy
      (TrajectoryFile.newImage schema config.format config.policy.method layout.stepCount) calls
      intact bytes) (room : bytes.length < 2 ^ 64) :
    ∃ header chunks rest, config.Governs layout.manifest calls header chunks rest bytes ∧
      (intact → rest = []) := by
  obtain ⟨records, made⟩ := further.made room
  obtain ⟨header, rest, decoded, own, data, length⟩ :=
    FileImage.exists_of_underlies made.file.underlies room
  have codec : header.codec = config.fileCodec := by
    rw [own.same]
    show config.policy.method = _
    rw [config.policy_eq, CompressionPolicy.method_ofCodec]
  -- A chunk is a part of the file, so its length is a word.
  have short : ∀ record ∈ records, record.chunk.length < 2 ^ 64 := by
    intro record mem
    have inside : record.chunk.length ≤ (StepRecord.chunks records).length := by
      rw [StepRecord.chunks, List.flatMap_def]
      exact (List.sublist_flatten_of_mem (List.mem_map_of_mem mem)).length_le
    rw [FileImage.length_bytes] at length
    dsimp only at length
    omega
  have all := made.records
  rw [further.policy, config.policy_eq] at all
  have stored := WriteCall.forall₂_isStored all short
  refine ⟨header, records.map StepRecord.chunk, rest, ⟨decoded, ?_, ?_, codec, ?_, ?_⟩, ?_⟩
  · rw [data, StepRecord.chunks, List.flatMap_def]
  · rw [own.same]
    rfl
  · rw [codec]
    exact stored
  · intro none
    rw [fileCodec_eq_stored none] at stored
    apply stored.imp
    rintro call chunk ⟨own, values, kept⟩
    exact ⟨own, Chunk.isRaw_of_isStored kept⟩
  · -- The file is the image, so there is no room for anything else.
    intro holds
    rw [(made.exact holds).2] at length
    exact List.eq_nil_of_length_eq_zero (by omega)

/-- A run was prepared, on whatever disk, and any operations followed, but to rewind the run. The
outputter still has the configuration of the run, and the file of every destination is stored as
this configuration says: its header has the configured format, and the codec if payloads are to be
compressed and the format knows it; the chunks of the accepted calls are stored by this codec or by
none. If no request to the disk is refused, nothing else is behind the header. -/
theorem Outputter.governs_of_prepare {outputter next last : Outputter} {disk opened final : Disk}
    {parameters : RunParameters} {created : Timestamp} {destinations : Destinations}
    (prepared : outputter.prepare parameters created disk = (.ok destinations, next, opened))
    {operations : List Operation} (others : ∀ operation ∈ operations, operation ≠ .rewind)
    (ran : afterAll operations (next, opened) = (last, final)) {population : Population}
    {path : Path} (destination : destinations.pathFor? population = some path) :
    last.config = outputter.config ∧ ∃ layout bytes,
      outputter.registry.plan parameters outputter.config.allData = .ok layout ∧
      final.bytesAt? path = some bytes ∧
      (bytes.length < 2 ^ 64 → ∃ header chunks rest,
        outputter.config.Governs layout.manifest
          ((acceptedAll operations (next, opened)).filter (·.snapshot.population = population))
          header chunks rest bytes ∧
        (opened.IsReliable → rest = [])) := by
  obtain ⟨-, layout, lifecycle, planned, -, begun, rfl⟩ := prepare_eq_ok prepared
  have begins := Lifecycle.holds_of_begin begun
  have plan := Lifecycle.plan?_of_begin begun
  have busy : lifecycle.isOpen = true := by
    rw [Lifecycle.isOpen_eq_isSome_plan?, plan]
    rfl
  have terms := @terms_afterAll { outputter with lifecycle } busy operations others opened
  have holds := @holds_afterAll _ _ _ _ { outputter with lifecycle } opened begins operations others
  rw [ran] at terms holds
  obtain ⟨run, still, holds⟩ := holds
  -- The open run is the one that was begun.
  have same : last.lifecycle.plan? = some (layout, destinations) :=
    (congrArg (fun terms => terms.2.2) terms).trans plan
  rw [Lifecycle.plan?, still] at same
  cases same
  obtain ⟨writer, bytes, held, further⟩ := OpenRun.exists_extends_of_holds holds destination
  refine ⟨congrArg (fun terms => terms.1) terms, run.layout, bytes, planned, held, ?_⟩
  intro room
  exact OutputConfig.governs_of_extends further room

/-! ## A small run with a twin -/

namespace TwinRun

/-- A setting that cannot be changed any more, snapshots of which the second one is faulty, the same
snapshots put right, and a step that is not there. -/
def operations : List Operation :=
  [.set (.format .enhanced), .writeOutput 0 faulty, .writeOutput 0 corrected, .write 7 (pair .base)]

end TwinRun

/-- The primary file is classic, and it has two chunks and nothing else. -/
theorem Outputter.governs_twinRun :
    let final := afterAll TwinRun.operations (TwinRun.outputter, TwinRun.start)
    final.1.config.format = .classic ∧ ∃ bytes header chunks,
      final.2.bytesAt? SmallRun.path = some bytes ∧
      BlockedTwin.outputter.config.Governs TwinRun.layout.manifest
        [⟨0, TwinRun.pair .base⟩, ⟨0, TwinRun.pair .base⟩] header chunks [] bytes := by
  have others : ∀ operation ∈ TwinRun.operations, operation ≠ .rewind := by
    simp [TwinRun.operations]
  obtain ⟨config, layout, bytes, planned, held, stored⟩ :=
    governs_of_prepare TwinRun.prepare_eq others rfl
      (show TwinRun.destinations.pathFor? .base = some SmallRun.path from rfl)
  -- The path names the same file as in the beginning.
  have names : (afterAll TwinRun.operations (TwinRun.outputter, TwinRun.start)).2.Names
      SmallRun.path 0 := by
    obtain ⟨path, own, named⟩ := (Lifecycle.isApart_of_begin TwinRun.begin_eq _ rfl).named
      (.base, 0) (List.mem_cons_self ..)
    cases own
    exact Disk.names_of_part (Disk.isPart_of_nodes (by decide +kernel) (by decide +kernel)) named
  have short : bytes.length < 2 ^ 64 := by
    have same := held.symm.trans (Disk.bytesAt?_of_names names)
    rw [Option.some.inj same]
    decide +kernel
  obtain ⟨header, chunks, rest, governs, whole⟩ := stored short
  obtain rfl := whole TwinRun.isReliable_start
  cases planned
  exact ⟨congrArg OutputConfig.format config, bytes, header, chunks, held, governs⟩

end RaggedTrajectory
