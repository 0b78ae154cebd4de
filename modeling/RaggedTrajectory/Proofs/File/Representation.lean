import RaggedTrajectory.Proofs.File.Run

/-!
# The representation of an open file

While a file is open, three counters in memory and two on the disk speak of the same thing: how
many records there are, which steps are written and where the file ends. `Writer.IsOpenOn` says how
they hang together with the calls that were accepted, and that no byte of the file is anything else
than header, schema block, table or chunk. It holds after every run, so an accepted call is
append-only: of the bytes that were there, only the counters of the header and the entry of its step
change.

* `Writer.isOpenOn_of_holds`: the invariant of runs gives the representation.
* `Writer.getElem?_of_write`: an accepted call changes no other byte.
* `Writer.isOpenOn_of_run`: both, after any run from a new file on.
-/

namespace RaggedTrajectory

namespace Writer

/-- What an open file, its writer and the accepted calls have to do with each other. -/
structure IsOpenOn (writer : Writer) (layout : RunLayout) (schema : FileSchema)
    (accepted : List WriteCall) (records : List StepRecord) (table : List StepEntry)
    (content : Bytes) : Prop where
  /-- The file is the header in memory, the schema block, the table and the chunks. -/
  bytes : content = writer.file.header.encode ++ schema.encode ++
    table.flatMap StepEntry.encode ++ records.flatMap StepRecord.chunk
  /-- The records are those of the accepted calls, in their order, each with its own chunk. -/
  made : WriteCall.records layout writer.policy 0 accepted = .ok records
  /-- The table has an entry for every step. -/
  entries : table.length = layout.stepCount.toNat
  /-- The end in memory is the length of the file. -/
  ending : writer.file.ending.toNat = content.length
  /-- The table starts behind the schema block. -/
  tableOffset : writer.file.header.tableOffset.toNat = Header.size + schema.encode.length
  /-- The chunks start behind the table. -/
  dataOffset : writer.file.header.dataOffset.toNat =
    Header.size + schema.encode.length + layout.stepCount.toNat * Header.entrySize
  /-- The writer and the header count the records of all accepted calls. -/
  nextRecord : writer.nextRecord = UInt64.ofNat (WriteCall.recordTotal accepted)
  recordLength : writer.file.header.recordLength = UInt64.ofNat (WriteCall.recordTotal accepted)
  /-- The header counts the steps up to the largest one that is written. -/
  stepsWritten : writer.file.header.stepsWritten.toNat = spanOf (accepted.map WriteCall.step)
  inAxis : writer.file.header.stepsWritten ≤ layout.stepCount
  /-- The entry of a step leads to the chunk of the last call for it, and nowhere else. -/
  written : ∀ before record after, records = before ++ record :: after →
    (∀ later ∈ after, later.step ≠ record.step) →
    ∃ entry, table[record.step.toNat]? = some entry ∧ entry.written = true ∧
      entry.chunkOffset.toNat =
        writer.file.header.dataOffset.toNat + (before.flatMap StepRecord.chunk).length ∧
      entry.chunkLength.toNat = record.chunk.length ∧
      entry.chunkOffset.toNat + entry.chunkLength.toNat ≤ writer.file.ending.toNat ∧
      content.slice entry.chunkOffset.toNat entry.chunkLength.toNat = record.chunk
  /-- The entry of a step without an accepted call is unwritten. -/
  unwritten : ∀ step < layout.stepCount, (∀ call ∈ accepted, call.step ≠ step) →
    table[step.toNat]? = some .unwritten

section Holds

variable {layout : RunLayout} {schema : FileSchema} {format : FileFormat}
  {accepted : List WriteCall} {records : List StepRecord} {writer : Writer} {disk : Disk}

/-- The invariant of runs gives the representation of the open file. -/
theorem isOpenOn_of_holds (holds : writer.Holds layout schema format accepted records disk)
    (room : (disk.content writer.file.id).length < 2 ^ 64) :
    writer.IsOpenOn layout schema accepted records (writer.image layout schema format records).table
      (disk.content writer.file.id) := by
  have header := holds.file.header
  have ending := holds.file.ending
  have within := holds.file.within
  have bytes := holds.content
  have own : (writer.image layout schema format records).records = records := rfl
  have data : (writer.image layout schema format records).dataOffset =
    Header.size + schema.encode.length + layout.stepCount.toNat * Header.entrySize := rfl
  rw [bytes] at room ⊢
  have dataWord := FileImage.toNat_dataOffset room
  rw [← header] at dataWord
  -- Offsets and lengths are words that do not wrap, since the file has room for all they point to.
  refine ⟨?_, holds.records, FileImage.length_table _, ending, ?_, ?_, holds.nextRecord,
    recordLength_of_holds holds, ?_, ?_, ?_, ?_⟩
  · rw [header, FileImage.bytes, List.append_assoc, List.append_assoc]
    rfl
  · rw [header]
    exact FileImage.toNat_tableOffset room
  · rw [dataWord, data]
  · rw [header, FileImage.toNat_stepsWritten within, own, WriteCall.map_step_records holds.records]
  · rw [header]
    exact FileImage.stepsWritten_le within
  · intro before record after split last
    have inside : record.step < layout.stepCount :=
      within record (own.trans split ▸ List.mem_append_cons_self)
    have entry := FileImage.entry_eq_entryAt (own.trans split) last
    obtain ⟨offset, length⟩ := FileImage.toNat_entry (own.trans split) last room
    refine ⟨_, FileImage.getElem?_table _ inside, ?_, ?_, length, ?_, ?_⟩
    · rw [entry]
      rfl
    · rw [dataWord]
      exact offset
    · rw [ending, offset, length]
      exact FileImage.chunk_le_length (own.trans split)
    · rw [offset, length]
      exact FileImage.slice_chunk (own.trans split)
  · intro step inside absent
    rw [FileImage.getElem?_table _ inside,
      FileImage.entry_eq_unwritten (WriteCall.step_ne_of_records holds.records absent)]

/-! ## Appending only -/

/-- An accepted call leaves every byte as it is, except for the counters of the header and the entry
of its step; the file gets longer by its chunk. -/
theorem getElem?_of_write (holds : writer.Holds layout schema format accepted records disk)
    (room : (disk.content writer.file.id).length < 2 ^ 64) {call : WriteCall}
    {range : UInt64 × UInt64} {next : Writer} {after : Disk}
    (wrote : writer.write layout call.step call.snapshot disk = (.ok range, next, after)) :
    ∃ record, call.record layout writer.policy (WriteCall.recordTotal accepted) = .ok record ∧
      (after.content next.file.id).length =
        (disk.content writer.file.id).length + record.chunk.length ∧
      ∀ i < (disk.content writer.file.id).length, ¬(52 ≤ i ∧ i < 64) →
        ¬(Header.size + schema.encode.length + call.step.toNat * Header.entrySize ≤ i ∧
          i < Header.size + schema.encode.length + (call.step.toNat + 1) * Header.entrySize) →
        (after.content next.file.id)[i]? = (disk.content writer.file.id)[i]? := by
  rcases write_on holds.reliable writer layout call.step call.snapshot with
    ⟨e, refused⟩ | ⟨record, last, made, checked, appended, -, content, -⟩
  · rw [refused] at wrote
    cases wrote
  rw [appended] at wrote
  cases wrote
  obtain ⟨-, -, own⟩ := record_eq_ok made
  have next : call.record layout writer.policy (WriteCall.recordTotal accepted) = .ok record :=
    own _ holds.nextRecord
  have step := (WriteCall.record_eq_ok next).1
  have inside := TrajectoryFile.inside_of_check holds.file checked
  -- The call appended one record by three writes, which spare all other bytes.
  rw [holds.content] at room
  have whole := TrajectoryFile.applyAll_appendWrites holds.file room inside
  refine ⟨record, next, ?_, fun i before counters slot => ?_⟩
  · show (after.content writer.file.id).length = _
    rw [content, holds.content, whole, FileImage.length_bytes_append]
  show (after.content writer.file.id)[i]? = _
  have offset : (writer.file.header.entryOffset record.step).toNat =
      Header.size + schema.encode.length + record.step.toNat * Header.entrySize := by
    rw [holds.file.header]
    exact FileImage.toNat_entryOffset room (UInt32.le_of_lt inside)
  rw [← step, Nat.succ_mul, ← Nat.add_assoc, ← offset] at slot
  rw [holds.content] at before
  rw [content, holds.content]
  exact TrajectoryFile.getElem?_appendWrites holds.file room inside before counters slot

end Holds

/-- After any calls to the writer of a new file, whatever steps they are for and however many of
them fail, the open file is represented by the accepted calls; and the next call that is accepted is
append-only. The disk grants every request, and the file is shorter than `2 ^ 63` bytes. -/
theorem isOpenOn_of_run {path : Path} {population : Population} {layout : RunLayout}
    {schema : FileSchema} {format : FileFormat} {policy : CompressionPolicy}
    {disk start last : Disk} {writer finish : Writer} {calls accepted : List WriteCall}
    (reliable : disk.IsReliable)
    (made : (create path population layout schema format policy).on disk = (.ok writer, start))
    (run : writeAll layout calls writer start = (accepted, finish, last))
    (room : (last.content finish.file.id).length < 2 ^ 63) :
    finish.policy = policy ∧
      (∃ records table,
        finish.IsOpenOn layout schema accepted records table (last.content finish.file.id)) ∧
      ∀ (call : WriteCall) (range : UInt64 × UInt64) (next : Writer) (after : Disk),
        finish.write layout call.step call.snapshot last = (.ok range, next, after) →
        ∃ record, call.record layout policy (WriteCall.recordTotal accepted) = .ok record ∧
          (after.content next.file.id).length =
            (last.content finish.file.id).length + record.chunk.length ∧
          ∀ i < (last.content finish.file.id).length, ¬(52 ≤ i ∧ i < 64) →
            ¬(Header.size + schema.encode.length + call.step.toNat * Header.entrySize ≤ i ∧
              i < Header.size + schema.encode.length + (call.step.toNat + 1) * Header.entrySize) →
            (after.content next.file.id)[i]? = (last.content finish.file.id)[i]? := by
  have short : (last.content finish.file.id).length < 2 ^ 64 := Nat.lt_trans room (by decide)
  obtain ⟨policy, records, holds⟩ := holds_of_run reliable made run short
  refine ⟨policy, ⟨records, _, isOpenOn_of_holds holds short⟩, ?_⟩
  intro call range next after wrote
  rw [← policy]
  exact getElem?_of_write holds short wrote

/-- The file of the small run is represented by its two accepted calls. -/
theorem isOpenOn_smallRun :
    ∃ records table, SmallRun.finish.IsOpenOn SmallRun.layout SmallRun.schema SmallRun.accepted
      records table (SmallRun.final.content SmallRun.finish.file.id) :=
  (isOpenOn_of_run SmallRun.reliable SmallRun.create_on SmallRun.writeAll_eq
    SmallRun.length_lt).2.1

end Writer

end RaggedTrajectory
