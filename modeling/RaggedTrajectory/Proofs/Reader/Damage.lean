import RaggedTrajectory.Proofs.Chunk.Damage
import RaggedTrajectory.Proofs.Reader.RoundTrip

/-!
# Files with one changed byte

The chunks lie behind header, schema block and table, so a file with another byte in a chunk can be
opened, and the entries are as they were. Reading a step whose chunk has another byte fails, and
the failure says that the file is damaged, unless the byte is one that nothing is compared with.

* `Reader.failsOnly_readEntry`: a step that cannot be read is reported as damaged.
* `Reader.readStep_of_changed`: a step whose chunk was changed is not read.
* `Writer.readStep_of_damaged_run`: the files of whole runs.
-/

namespace RaggedTrajectory

open Error (FailsOnly IsDamage)

/-! ## Regions -/

namespace Bytes

theorem failsOnly_region (bytes : Bytes) (offset length : UInt64) (name : String) :
    FailsOnly IsDamage (bytes.region offset length name) := by
  unfold region
  split
  · exact Error.failsOnly_ok _
  · exact Error.failsOnly_throw trivial

/-- Another byte in a region is in the same place of the region. -/
theorem region_set {bytes part : Bytes} {offset length : UInt64} {name : String}
    (found : bytes.region offset length name = .ok part) (place : Nat) (value : UInt8) :
    region (bytes.set (offset.toNat + place) value) offset length name =
      .ok (part.set place value) := by
  rw [region_eq_ok_iff] at found ⊢
  obtain ⟨before, behind, rfl⟩ := found
  rw [List.length_set, slice_set_of_inside bytes value (Nat.le_add_right _ _),
    Nat.add_sub_cancel_left]
  exact ⟨before, behind, rfl⟩

end Bytes

/-! ## Headers of chunks -/

namespace Chunk

/-- The words in front of the codec, as those of the header that was accepted. -/
theorem words_of_decode {manifest : Manifest} {bytes : Bytes} {header : ChunkHeader}
    {fields : List FieldData} (decoded : decode manifest bytes = .ok (header, fields)) :
    LittleEndian.wordAt bytes 4 4 = header.step.toNat ∧
      LittleEndian.wordAt bytes 8 8 = header.recordStart.toNat ∧
      LittleEndian.wordAt bytes 16 8 = header.count.toNat := by
  obtain ⟨first, -⟩ := decode_eq_ok_iff.1 decoded
  obtain ⟨-, -, codec, -, rfl⟩ := ChunkHeader.decode_eq_ok_iff.1 first
  exact ⟨(ChunkHeader.step_ofWords bytes codec).symm,
    (ChunkHeader.recordStart_ofWords bytes codec).symm,
    (ChunkHeader.count_ofWords bytes codec).symm⟩

/-- Nothing follows the payload of a chunk that was made. -/
theorem length_of_encode {manifest : Manifest} {step : UInt32} {recordStart : UInt64}
    {snapshot : Snapshot} {policy : CompressionPolicy} {chunk : Bytes}
    (made : encode manifest step recordStart snapshot policy = .ok chunk)
    (length : chunk.length < 2 ^ 64) :
    chunk.length = ChunkHeader.size + LittleEndian.wordAt chunk 33 8 := by
  obtain ⟨raw, -, rfl⟩ := exists_payload_of_encode made
  generalize definition : headerOf step recordStart snapshot.count raw policy = header at *
  have read := ChunkHeader.decode_encode header (policy.store raw).1
  obtain ⟨-, -, codec, -, words⟩ := ChunkHeader.decode_eq_ok_iff.1 read
  rw [List.length_append, ChunkHeader.length_encode] at length ⊢
  rw [← ChunkHeader.storedLength_ofWords _ codec, ← words, ← definition]
  have word : (UInt64.ofNat (policy.store raw).1.length).toNat = (policy.store raw).1.length :=
    UInt64.toNat_ofNat_of_lt' (Nat.lt_of_le_of_lt (Nat.le_add_left _ _) length)
  exact congrArg (ChunkHeader.size + ·) word.symm

end Chunk

/-! ## Reading a step -/

namespace Reader

/-- A step that cannot be read is reported as damaged. -/
theorem failsOnly_readEntry (reader : Reader) (step : UInt32) (entry : StepEntry) :
    FailsOnly IsDamage (reader.readEntry step entry) := by
  unfold readEntry
  split
  · exact Error.failsOnly_ok _
  · refine Error.failsOnly_bind (Bytes.failsOnly_region _ _ _ _) fun chunk => ?_
    refine Error.failsOnly_bind (Chunk.failsOnly_decode _ _) fun (header, fields) => ?_
    dsimp only
    split
    · exact Error.failsOnly_ok _
    · exact Error.failsOnly_throw trivial

/-- A step whose chunk has another byte than the one that was made is not read, unless nothing is
compared with this byte. -/
theorem readStep_of_changed {reader : Reader} {layout : RunLayout} {policy : CompressionPolicy}
    {start offset place : Nat} {call : WriteCall} {record : StepRecord} {value : UInt8}
    (made : call.record layout policy start = .ok record)
    (manifest : reader.manifest = layout.manifest.asDeclared)
    (small : call.snapshot.count ≤ TrajectoryFile.maxCount)
    (length : record.chunk.length < 2 ^ 64)
    (found : reader.entries[call.step.toNat]? = some (record.entryAt offset))
    (region : reader.bytes.region (record.entryAt offset).chunkOffset
      (record.entryAt offset).chunkLength "chunk" = .ok (record.chunk.set place value))
    (inside : place < record.chunk.length) (changed : record.chunk[place]? ≠ some value)
    (guarded : ¬Chunk.IsUnguarded record.chunk place) :
    ∃ e, reader.readStep call.step = .error e ∧ e.IsDamage := by
  have failsOnly := reader.failsOnly_readEntry call.step (record.entryAt offset)
  have own := entry_eq_ok_iff.2 found
  cases read : reader.readEntry call.step (record.entryAt offset) with
  | error e => exact ⟨e, by simp only [readStep, own, read, Error.ok_bind]; rfl, failsOnly e read⟩
  | ok fields =>
    -- Then both byte strings are chunks, and the entry makes them agree on the step, on its first
    -- record and on the number of particles.
    obtain ⟨-, -, counted, begins, encoded⟩ := WriteCall.record_eq_ok made
    obtain ⟨chunk, header, same, accepted, step, first, count⟩ := (readEntry_eq_ok_iff rfl).1 read
    cases region.symm.trans same
    rw [manifest, Chunk.decode_asDeclared] at accepted
    have word : call.snapshot.count < 2 ^ 64 := Nat.lt_of_le_of_lt small (by decide)
    replace count : header.count.toNat = call.snapshot.count := by
      rw [count, (StepRecord.count_entryAt counted small offset).1]
      exact UInt64.toNat_ofNat_of_lt' word
    -- What was read has a raw length that is a word, so what was made has one.
    have wellFormed := Chunk.isWellFormed_of_decode accepted
    obtain ⟨stepWord, startWord, countWord⟩ := Chunk.words_of_decode accepted
    have fits : call.snapshot.count * layout.manifest.stride < 2 ^ 64 := by
      rw [← count, ← countWord, wellFormed.sized]
      exact LittleEndian.wordAt_lt _ 25 8
    obtain ⟨original, decoded, sameStep, sameStart, sameCount⟩ :=
      Chunk.decode_encode encoded word fits length
    obtain ⟨stepMade, startMade, countMade⟩ := Chunk.words_of_decode decoded
    refine absurd (Chunk.isUnguarded_of_isWellFormed (Chunk.isWellFormed_of_decode decoded)
      wellFormed (Chunk.length_of_encode encoded length) inside changed ?_ ?_ ?_) guarded
    · rw [stepWord, stepMade, step, sameStep]
    · rw [startWord, startMade, first, sameStart, ← begins]
      rfl
    · rw [countWord, countMade, count, sameCount]
      exact (UInt64.toNat_ofNat_of_lt' word).symm

end Reader

/-! ## Whole runs -/

/-- An image with another byte behind its table can be opened, and the table is as it was. -/
theorem FileImage.ofBytes_set {image : FileImage} {schema : FileSchema} {manifest : Manifest}
    (overflow : Overflow) (within : image.IsWithinAxis) (room : image.bytes.length < 2 ^ 64)
    (decoded : FileSchema.decode image.block = .ok schema)
    (fields : schema.manifest = .ok manifest) {place : Nat} (behind : image.dataOffset ≤ place)
    (value : UInt8) :
    Reader.ofBytes overflow (image.bytes.set place value) =
      .ok { image.reader schema manifest with bytes := image.bytes.set place value } := by
  have front := image.length_front
  have split : image.bytes.set place value = image.header.encode ++ (image.block ++
      (image.tableBytes ++
        (StepRecord.chunks image.records).set (place - image.dataOffset) value)) := by
    rw [bytes, ← List.append_assoc, ← List.append_assoc, List.append_assoc image.header.encode,
      List.set_append_right _ _ (front ▸ behind), front]
    simp only [List.append_assoc]
  rw [split]
  exact ofBytes_front overflow within room decoded fields _

/-- With another byte in the chunk of a record the file can be opened, but the step of the record is
reported as damaged. -/
theorem FileImage.readStep_of_set {image : FileImage} {schema : FileSchema} {layout : RunLayout}
    {policy : CompressionPolicy} {start place : Nat} {call : WriteCall} {record : StepRecord}
    {front back : List StepRecord} {value : UInt8} (overflow : Overflow)
    (within : image.IsWithinAxis) (room : image.bytes.length < 2 ^ 64)
    (decoded : FileSchema.decode image.block = .ok schema)
    (fields : schema.manifest = .ok layout.manifest.asDeclared)
    (records : image.records = front ++ record :: back)
    (made : call.record layout policy start = .ok record)
    (small : call.snapshot.count ≤ TrajectoryFile.maxCount)
    (found : image.table[call.step.toNat]? =
      some (record.entryAt (image.dataOffset + (StepRecord.chunks front).length)))
    (inside : place < record.chunk.length) (changed : record.chunk[place]? ≠ some value)
    (guarded : ¬Chunk.IsUnguarded record.chunk place) :
    ∃ damaged e,
      Reader.ofBytes overflow (image.bytes.set
        ((record.entryAt (image.dataOffset + (StepRecord.chunks front).length)).chunkOffset.toNat +
          place) value) = .ok damaged ∧
      damaged.readStep call.step = .error e ∧ e.IsDamage := by
  have ends := chunk_le_length records
  have offset : (record.entryAt
      (image.dataOffset + (StepRecord.chunks front).length)).chunkOffset.toNat =
        image.dataOffset + (StepRecord.chunks front).length :=
    UInt64.toNat_ofNat_of_lt' (show _ < 2 ^ 64 by omega)
  -- The chunk lies behind the table, so only the region of its entry sees the other byte.
  have opened := ofBytes_set overflow within room decoded fields (show image.dataOffset ≤
    (record.entryAt (image.dataOffset + (StepRecord.chunks front).length)).chunkOffset.toNat + place
    by omega) value
  have region := region_chunk
    (hasChunks_reader image schema layout.manifest.asDeclared) records room
  refine ⟨_, Exists.imp (fun e failed => ⟨opened, failed⟩) ?_⟩
  exact Reader.readStep_of_changed made rfl small (by omega) found
    (Bytes.region_set region place value) inside changed guarded

namespace SmallRun

/-- The entry of the pair of particles. -/
def pairEntry : StepEntry := (finish.image layout schema .classic records).entry 1

def pairChunk : Bytes :=
  (Chunk.encode layout.manifest 1 0 pair finish.policy).toOption.getD []

theorem region_pairEntry :
    reader.bytes.region pairEntry.chunkOffset pairEntry.chunkLength "chunk" = .ok pairChunk := by
  rw [Bytes.region_eq_ok_iff]
  decide +kernel

end SmallRun

namespace Writer

/-- A written entry is that of the last accepted call for its step. -/
theorem exists_record_of_written {layout : RunLayout} {schema : FileSchema} {format : FileFormat}
    {accepted : List WriteCall} {records : List StepRecord} {writer : Writer} {disk : Disk}
    (holds : writer.Holds layout schema format accepted records disk) {step : UInt32}
    {entry : StepEntry}
    (found : (writer.image layout schema format records).table[step.toNat]? = some entry)
    (written : entry.written = true) :
    ∃ start call record front back,
      call.record layout writer.policy start = .ok record ∧ call ∈ accepted ∧ call.step = step ∧
      (writer.image layout schema format records).records = front ++ record :: back ∧
      entry = record.entryAt ((writer.image layout schema format records).dataOffset +
        (StepRecord.chunks front).length) := by
  have inside : step < (writer.image layout schema format records).stepCount := by
    have bound := (List.getElem?_eq_some_iff.1 found).1
    rw [FileImage.length_table] at bound
    exact UInt32.lt_iff_toNat_lt.2 bound
  rw [FileImage.getElem?_table _ inside] at found
  cases found
  rcases WriteCall.exists_last_or_absent accepted step with
    ⟨before, call, after, split, last, rfl⟩ | absent
  · obtain ⟨front, record, back, own, made, apart⟩ :=
      WriteCall.exists_record_of_split holds.records split last
    refine ⟨_, call, record, front, back, made, split ▸ List.mem_append_cons_self, rfl, own, ?_⟩
    rw [← (WriteCall.record_eq_ok made).1]
    exact FileImage.entry_eq_entryAt own apart
  · -- Without a call for the step the entry would be unwritten.
    rw [FileImage.entry_eq_unwritten (WriteCall.step_ne_of_records holds.records absent)] at written
    cases written

/-- A changed byte in a chunk is noticed. In a file that a planned run has made, with whatever calls
in whatever order, let any byte of the chunk of a written step be another one. If the byte is not
the tag of the codec and, unless the payload is stored as it is, does not belong to the length of
the payload, the file can still be opened, but the step is reported as damaged. -/
theorem readStep_of_damaged_run (overflow : Overflow) {parameters : RunParameters} {extended : Bool}
    {layout : RunLayout} {path : Path} {population : Population} {globals : GlobalAttributes}
    {created : Timestamp} {format : FileFormat} {policy : CompressionPolicy}
    {disk start final : Disk} {writer finish : Writer} {calls accepted : List WriteCall}
    (planned : Registry.default.plan parameters extended = .ok layout)
    (reliable : disk.IsReliable)
    (made : (create path population layout (layout.fileSchema globals created) format policy).on
      disk = (.ok writer, start))
    (run : writeAll layout calls writer start = (accepted, finish, final))
    (room : (final.content finish.file.id).length < 2 ^ 63) :
    ∃ reader, Reader.ofBytes overflow (final.content finish.file.id) = .ok reader ∧
      ∀ step entry, reader.entry step = .ok entry → entry.written = true →
        ∃ chunk, reader.bytes.region entry.chunkOffset entry.chunkLength "chunk" = .ok chunk ∧
          ∀ place < chunk.length, ∀ value, chunk[place]? ≠ some value →
            ¬Chunk.IsUnguarded chunk place →
            ∃ damaged e,
              Reader.ofBytes overflow ((final.content finish.file.id).set
                (entry.chunkOffset.toNat + place) value) = .ok damaged ∧
              damaged.readStep step = .error e ∧ e.IsDamage := by
  have short : (final.content finish.file.id).length < 2 ^ 64 := Nat.lt_trans room (by decide)
  obtain ⟨-, records, holds⟩ := holds_of_run reliable made run short
  have isPlanned := Registry.isPlanned_of_plan planned
  have decoded := FileSchema.decode_encode (layout.isExact_fileSchema isPlanned globals created)
  have fields := layout.manifest_fileSchema isPlanned.distinct globals created
  refine ⟨_, ofBytes_of_holds overflow isPlanned holds short, fun step entry found written => ?_⟩
  rw [Reader.entry_eq_ok_iff] at found
  obtain ⟨_, call, record, front, back, recorded, mem, rfl, own, rfl⟩ :=
    exists_record_of_written holds found written
  have small := holds.counts call mem
  rw [holds.content] at short ⊢
  refine ⟨record.chunk, FileImage.region_chunk (FileImage.hasChunks_reader _ _ _) own short,
    fun place inside value changed guarded => ?_⟩
  exact FileImage.readStep_of_set overflow holds.file.within short decoded fields own recorded
    small found inside changed guarded

/-- In the small run the first particle of the pair has a mass of one gram. If a byte of it is
another one, the step is reported as damaged. -/
theorem readStep_of_damaged_smallRun :
    ∃ reader entry damaged e,
      Reader.ofBytes .stops (SmallRun.final.content SmallRun.finish.file.id) = .ok reader ∧
      reader.entry 1 = .ok entry ∧
      Reader.ofBytes .stops ((SmallRun.final.content SmallRun.finish.file.id).set
        (entry.chunkOffset.toNat + 71) 0) = .ok damaged ∧
      damaged.readStep 1 = .error e ∧ e.IsDamage := by
  obtain ⟨reader, opened, noticed⟩ := readStep_of_damaged_run .stops SmallRun.plan_eq_ok
    SmallRun.reliable SmallRun.create_on SmallRun.writeAll_eq SmallRun.length_lt
  cases opened.symm.trans (SmallRun.ofBytes_final .stops)
  obtain ⟨chunk, region, changed⟩ := noticed 1 SmallRun.pairEntry rfl rfl
  cases region.symm.trans SmallRun.region_pairEntry
  obtain ⟨damaged, e, failed⟩ := changed 71 (by decide +kernel) 0 (by decide +kernel)
    (by decide +kernel)
  exact ⟨_, _, damaged, e, opened, rfl, failed⟩

end Writer

end RaggedTrajectory
