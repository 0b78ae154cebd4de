import RaggedTrajectory.Proofs.Disk.Writes
import RaggedTrajectory.Proofs.File.Image

/-!
# Appending to a file

An open file represents an image when its header and its end are those of the image and the bytes
of the file are the bytes of the image. A new file represents the image without records, and an
append takes a file that represents an image to one that represents the image with one more record,
as long as the file is shorter than 64 bits can say.

* `TrajectoryFile.represents_create`: a new file represents an image without records.
* `TrajectoryFile.applyAll_appendWrites`: the three writes of an append make the longer image.
* `TrajectoryFile.append_on`: what an append does on a disk that refuses nothing.
* `TrajectoryFile.represents_append`: an append keeps the representation.
-/

namespace RaggedTrajectory

namespace TrajectoryFile

/-- A file that is open on the bytes of an image. -/
structure Represents (file : TrajectoryFile) (image : FileImage) : Prop where
  header : file.header = image.header
  ending : file.ending.toNat = image.bytes.length
  within : image.IsWithinAxis

/-! ## New files -/

/-- The image of a new file. -/
def newImage (schema : FileSchema) (format : FileFormat) (codec : Codec) (stepCount : UInt32) :
    FileImage :=
  ⟨format, codec, stepCount, schema.encode, []⟩

/-- Without records, the table is a row of unwritten entries. -/
theorem tableBytes_newImage (schema : FileSchema) (format : FileFormat) (codec : Codec)
    (stepCount : UInt32) :
    (newImage schema format codec stepCount).tableBytes =
      StepTable.encodeUnwritten stepCount.toNat := by
  have unwritten : (newImage schema format codec stepCount).table =
      List.replicate stepCount.toNat .unwritten := by
    rw [FileImage.table, List.eq_replicate_iff]
    refine ⟨by simp [newImage], fun entry mem => ?_⟩
    obtain ⟨step, -, rfl⟩ := List.mem_map.1 mem
    rfl
  rw [FileImage.tableBytes, unwritten, List.flatMap_replicate]
  rfl

theorem header_newImage (schema : FileSchema) (format : FileFormat) (codec : Codec)
    (stepCount : UInt32) :
    (newImage schema format codec stepCount).header =
      Header.create format codec stepCount (UInt64.ofNat schema.encode.length) := rfl

theorem bytes_newImage (schema : FileSchema) (format : FileFormat) (codec : Codec)
    (stepCount : UInt32) :
    (newImage schema format codec stepCount).bytes =
      prelude (Header.create format codec stepCount (UInt64.ofNat schema.encode.length))
        schema.encode := by
  have noChunks : StepRecord.chunks (newImage schema format codec stepCount).records = [] := rfl
  have count : (Header.create format codec stepCount
    (UInt64.ofNat schema.encode.length)).stepCount = stepCount := rfl
  rw [FileImage.bytes, tableBytes_newImage, header_newImage, noChunks, List.append_nil, prelude,
    count, List.append_assoc]
  rfl

/-- Making a file is putting the bytes of its image in. -/
theorem create_eq (path : Path) (schema : FileSchema) (format : FileFormat) (codec : Codec)
    (stepCount : UInt32) :
    create path schema format codec stepCount = (do
      let id ← Disk.create path
      Disk.write id ⟨0, (newImage schema format codec stepCount).bytes⟩
      Disk.sync
      return ⟨id, path, (newImage schema format codec stepCount).header,
        (newImage schema format codec stepCount).header.dataOffset⟩) := by
  rw [bytes_newImage]
  rfl

/-- The disk after a file was made at a location. -/
def diskAfterCreate (disk : Disk) (location : Location) (image : FileImage) : Disk :=
  ((disk.afterRequest.addFile location []).afterWrite disk.nextId ⟨0, image.bytes⟩).afterRequest

/-- Where nothing is, a new file is made. -/
theorem create_on {disk : Disk} (reliable : disk.IsReliable) {path : Path} {location : Location}
    (vacant : disk.afterRequest.findVacant path = .ok location) (schema : FileSchema)
    (format : FileFormat) (codec : Codec) (stepCount : UInt32) :
    (create path schema format codec stepCount).on disk =
      (.ok ⟨disk.nextId, path, (newImage schema format codec stepCount).header,
        (newImage schema format codec stepCount).header.dataOffset⟩,
        diskAfterCreate disk location (newImage schema format codec stepCount)) := by
  have empty : (disk.afterRequest.addFile location []).IsReliable :=
    Disk.isReliable_afterRequest reliable
  rw [create_eq, Action.on_bind_ok (Disk.create_on reliable vacant),
    Action.on_bind_ok (Disk.write_on empty _ _),
    Action.on_bind_ok (Disk.sync_on (Disk.isReliable_afterWrite empty _ _))]
  rfl

/-- A file that was made, on whatever disk. -/
theorem create_eq_ok {path : Path} {schema : FileSchema} {format : FileFormat} {codec : Codec}
    {stepCount : UInt32} {disk after : Disk} {file : TrajectoryFile}
    (made : (create path schema format codec stepCount).on disk = (.ok file, after)) :
    ∃ location, disk.afterRequest.findVacant path = .ok location ∧
      file = ⟨disk.nextId, path, (newImage schema format codec stepCount).header,
        (newImage schema format codec stepCount).header.dataOffset⟩ ∧
      after = diskAfterCreate disk location (newImage schema format codec stepCount) := by
  rw [create_eq] at made
  -- None of the three requests was refused.
  obtain ⟨id, opened, first, made⟩ := Action.exists_of_on_bind_ok made
  obtain ⟨location, vacant, rfl, rfl⟩ := Disk.create_eq_ok first
  obtain ⟨_, _, second, made⟩ := Action.exists_of_on_bind_ok made
  obtain rfl := Disk.write_eq_ok second
  obtain ⟨_, _, third, made⟩ := Action.exists_of_on_bind_ok made
  obtain rfl := Disk.sync_eq_ok third
  cases made
  exact ⟨location, vacant, rfl, rfl⟩

/-- What a new file holds, on whatever disk. -/
theorem content_diskAfterCreate (disk : Disk) (location : Location) (image : FileImage) :
    (diskAfterCreate disk location image).content disk.nextId = image.bytes := by
  have empty : (disk.afterRequest.addFile location []).content disk.nextId = [] :=
    Disk.content_setContent_self _ _ _
  rw [diskAfterCreate, Disk.content_afterRequest, Disk.content_afterWrite_self, empty,
    Write.applyTo, UInt64.toNat_zero, Bytes.overwrite_zero, List.drop_nil, List.append_nil]

/-- A file whose header and end are those of a new one represents its image, if the bytes of this
are not too many. -/
theorem represents_newImage {schema : FileSchema} {format : FileFormat} {codec : Codec}
    {stepCount : UInt32} {file : TrajectoryFile}
    (header : file.header = (newImage schema format codec stepCount).header)
    (ending : file.ending = (newImage schema format codec stepCount).header.dataOffset)
    (room : (newImage schema format codec stepCount).bytes.length < 2 ^ 64) :
    file.Represents (newImage schema format codec stepCount) where
  header := header
  ending := by
    have noRecords : (newImage schema format codec stepCount).records = [] := rfl
    rw [ending, FileImage.toNat_dataOffset room, FileImage.length_bytes, noRecords,
      StepRecord.chunks_nil, List.length_nil, Nat.add_zero]
  within := fun record mem => by cases mem

/-- A new file holds the bytes of its image, and represents it if these are not too many. -/
theorem represents_create {path : Path} {schema : FileSchema} {format : FileFormat} {codec : Codec}
    {stepCount : UInt32} {disk after : Disk} {file : TrajectoryFile} (reliable : disk.IsReliable)
    (made : (create path schema format codec stepCount).on disk = (.ok file, after)) :
    after.IsReliable ∧
      after.content file.id = (newImage schema format codec stepCount).bytes ∧
      ((newImage schema format codec stepCount).bytes.length < 2 ^ 64 →
        file.Represents (newImage schema format codec stepCount)) := by
  obtain ⟨location, -, rfl, rfl⟩ := create_eq_ok made
  have opened : (disk.afterRequest.addFile location []).IsReliable :=
    Disk.isReliable_afterRequest reliable
  exact ⟨Disk.isReliable_afterRequest (Disk.isReliable_afterWrite opened _ _),
    content_diskAfterCreate disk location _, represents_newImage rfl rfl⟩

end TrajectoryFile

/-! ## Patches to a table -/

namespace FileImage

/-- A patch at the place of an entry changes the front of this entry. -/
theorem overwrite_slot (entries : List StepEntry) {step : Nat} (inside : step < entries.length)
    {part : Bytes} (short : part.length ≤ Header.entrySize) :
    Bytes.overwrite (entries.flatMap StepEntry.encode) (step * Header.entrySize) part =
      (entries.take step).flatMap StepEntry.encode ++
        (part ++ entries[step].encode.drop part.length ++
          (entries.drop (step + 1)).flatMap StepEntry.encode) := by
  have front : ((entries.take step).flatMap StepEntry.encode).length =
      step * Header.entrySize := by
    rw [length_flatMap_encode, List.length_take_of_le (Nat.le_of_lt inside)]
  have split : entries.flatMap StepEntry.encode =
      (entries.take step).flatMap StepEntry.encode ++
        (entries[step].encode ++ (entries.drop (step + 1)).flatMap StepEntry.encode) := by
    rw [← List.flatMap_cons, ← List.drop_eq_getElem_cons inside, ← List.flatMap_append,
      List.take_append_drop]
  -- The patch starts where the entries before the step end.
  rw [split, ← front]
  exact Bytes.overwrite_part _ _ _ (by rw [StepEntry.length_encode]; exact short)

/-- An entry in the place of the one of its step. -/
theorem overwrite_encode (entries : List StepEntry) {step : Nat} (inside : step < entries.length)
    (entry : StepEntry) :
    Bytes.overwrite (entries.flatMap StepEntry.encode) (step * Header.entrySize) entry.encode =
      (entries.set step entry).flatMap StepEntry.encode := by
  have whole : entries[step].encode.drop entry.encode.length = [] := by
    rw [StepEntry.length_encode, ← StepEntry.length_encode entries[step], List.drop_length]
  rw [overwrite_slot entries inside (Nat.le_of_eq entry.length_encode), whole, List.append_nil,
    List.set_eq_take_append_cons_drop, if_pos inside, List.flatMap_append, List.flatMap_cons]

end FileImage

/-! ## One append -/

namespace TrajectoryFile

/-- An open file after an append. -/
def appended (file : TrajectoryFile) (record : StepRecord) : TrajectoryFile :=
  { file with
    header := file.headerAfter record
    ending := file.ending + UInt64.ofNat record.chunk.length }

section Append

variable {file : TrajectoryFile} {image : FileImage} {record : StepRecord}

/-- Bytes that go to the end of a file stand behind its image. -/
theorem applyTo_ending (represents : file.Represents image) (part : Bytes) :
    Write.applyTo ⟨file.ending, part⟩ image.bytes = image.bytes ++ part := by
  rw [Write.applyTo, represents.ending]
  exact Bytes.overwrite_end _ _

theorem entryOf_eq_entryAt (represents : file.Represents image) :
    file.entryOf record = record.entryAt image.bytes.length := by
  rw [← represents.ending]
  simp [entryOf, StepRecord.entryAt]

theorem headerAfter_eq (represents : file.Represents image) :
    file.headerAfter record = (image.append record).header := by
  rw [FileImage.header_append, headerAfter, represents.header]

/-- Bytes at the place of the entry of a step fall into the table. -/
theorem applyTo_entryOffset (represents : file.Represents image)
    (room : image.bytes.length < 2 ^ 64) {step : UInt32} (inside : step < image.stepCount)
    {part : Bytes} (short : part.length ≤ Header.entrySize) (behind : Bytes) :
    Write.applyTo ⟨file.header.entryOffset step, part⟩ (image.bytes ++ behind) =
      image.header.encode ++ (image.block ++
        (image.tableBytes.overwrite (step.toNat * Header.entrySize) part ++
          (StepRecord.chunks image.records ++ behind))) := by
  have within := FileImage.slot_le_length_tableBytes inside short
  rw [Write.applyTo, represents.header,
    FileImage.toNat_entryOffset room (UInt32.le_of_lt inside), FileImage.tableOffset,
    ← Header.length_encode image.header, FileImage.bytes, Nat.add_assoc]
  simp only [List.append_assoc]
  -- Past the header and past the block; then inside the table.
  rw [Bytes.overwrite_append_right, Bytes.overwrite_append_right,
    Bytes.overwrite_append_left _ _ within]

/-- The three writes of an append make the image with one more record. -/
theorem applyAll_appendWrites (represents : file.Represents image)
    (room : image.bytes.length < 2 ^ 64) (inside : record.step < image.stepCount) :
    Write.applyAll (file.appendWrites record) image.bytes = (image.append record).bytes := by
  have slot := FileImage.toNat_lt_length_table inside
  have short : (record.entryAt image.bytes.length).encode.length ≤ Header.entrySize :=
    Nat.le_of_eq (StepEntry.length_encode _)
  simp only [appendWrites, Write.applyAll_cons, Write.applyAll_nil, chunkWrite, entryWrite,
    headerWrite]
  -- First the chunk behind everything, then the entry in the table,
  rw [applyTo_ending represents, entryOf_eq_entryAt represents,
    applyTo_entryOffset represents room inside short, headerAfter_eq represents,
    FileImage.tableBytes, FileImage.overwrite_encode _ slot, ← FileImage.table_append,
    ← FileImage.chunks_append]
  -- and at last the header in the place of the old one, which is as long.
  show Bytes.overwrite _ 0 _ = _
  rw [Bytes.overwrite_zero, Header.length_encode, ← Header.length_encode image.header,
    List.drop_left]
  rfl

/-- An append keeps every byte that was there, except for the counters of the header and the entry
of its step. -/
theorem getElem?_appendWrites (represents : file.Represents image)
    (room : image.bytes.length < 2 ^ 64) (inside : record.step < image.stepCount) {i : Nat}
    (before : i < image.bytes.length) (counters : ¬(52 ≤ i ∧ i < 64))
    (slot : ¬((file.header.entryOffset record.step).toNat ≤ i ∧
      i < (file.header.entryOffset record.step).toNat + Header.entrySize)) :
    (Write.applyAll (file.appendWrites record) image.bytes)[i]? = image.bytes[i]? := by
  by_cases front : i < Header.size
  · -- Within the header, old and new bytes differ by the counters alone.
    have fixed : (image.append record).header.fixedWords = image.header.fixedWords := by
      rw [FileImage.header_append]
      rfl
    have header : i < image.header.encode.length := by
      rw [Header.length_encode]
      exact front
    have longer : i < (image.append record).header.encode.length := by
      rw [Header.length_encode]
      exact front
    rw [applyAll_appendWrites represents room inside, FileImage.bytes, FileImage.bytes,
      List.getElem?_append_left longer, List.getElem?_append_left header,
      Header.getElem?_encode fixed counters]
  · -- Behind it, none of the three writes covers the byte.
    have offset := FileImage.toNat_entryOffset_le room (UInt32.le_of_lt inside)
    rw [← represents.header] at offset
    have size : (file.entryOf record).encode.length = Header.entrySize := StepEntry.length_encode _
    have header : (file.headerAfter record).encode.length = Header.size := Header.length_encode _
    simp only [appendWrites, Write.applyAll_cons, Write.applyAll_nil, headerWrite, entryWrite,
      chunkWrite, applyTo_ending represents]
    simp only [Write.applyTo, UInt64.toNat_zero]
    rw [Bytes.getElem?_overwrite (Nat.zero_le _), Bytes.getElem?_overwrite,
      List.getElem?_append_left before]
    · rw [List.length_append]
      omega
    · rw [size]
      omega
    · rw [header]
      omega

/-- A refused step changes nothing; any other is appended by three writes to its file. -/
theorem append_on {disk : Disk} (reliable : disk.IsReliable) (file : TrajectoryFile)
    (record : StepRecord) :
    (∃ e, file.check record = .error e ∧ file.append record disk = (.error e, file, disk)) ∨
    file.check record = .ok () ∧ ∃ after,
      file.append record disk = (.ok (file.entryOf record), file.appended record, after) ∧
      after.IsReliable ∧
      after.content file.id =
        Write.applyAll (file.appendWrites record) (disk.content file.id) ∧
      ∀ other ≠ file.id, after.content other = disk.content other := by
  unfold append
  cases checked : file.check record with
  | error e => exact .inl ⟨e, rfl, rfl⟩
  | ok =>
    -- Each write leaves a reliable disk for the next one.
    have first := Disk.isReliable_afterWrite reliable file.id (file.chunkWrite record)
    have second := Disk.isReliable_afterWrite first file.id (file.entryWrite record)
    have third := Disk.isReliable_afterWrite second file.id (file.headerWrite record)
    refine .inr ⟨rfl, _, ?_, Disk.isReliable_afterRequest third, ?_, ?_⟩
    · simp only [Action.on_bind_ok (Disk.write_on reliable _ _), Disk.write_on first,
        Action.on_bind_ok (Disk.write_on second _ _), Disk.sync_on third, appended]
    · simp [appendWrites]
    · intro other different
      rw [Disk.content_afterRequest, Disk.content_afterWrite_ne _ _ different,
        Disk.content_afterWrite_ne _ _ different, Disk.content_afterWrite_ne _ _ different]

/-- A step that is not refused is on the time axis of the file. -/
theorem step_lt_of_check (checked : file.check record = .ok ()) :
    record.step < file.header.stepCount := by
  unfold check at checked
  split at checked
  · cases checked
  · next inside => exact UInt32.not_le.1 inside

theorem inside_of_check (represents : file.Represents image)
    (checked : file.check record = .ok ()) :
    record.step < image.stepCount := by
  have count : file.header.stepCount = image.stepCount := by
    rw [represents.header]
    rfl
  exact count ▸ step_lt_of_check checked

/-- The end moves behind the chunk, if the length of the file is a word. -/
theorem ending_appended (ending : file.ending.toNat = image.bytes.length)
    (room : (image.append record).bytes.length < 2 ^ 64) :
    (file.appended record).ending.toNat = (image.append record).bytes.length := by
  rw [FileImage.length_bytes_append] at room ⊢
  have chunk : (UInt64.ofNat record.chunk.length).toNat = record.chunk.length :=
    UInt64.toNat_ofNat_of_lt' (Nat.lt_of_le_of_lt (Nat.le_add_left _ _) room)
  rw [appended, UInt64.toNat_add, ending, chunk]
  exact Nat.mod_eq_of_lt room

/-- The file after an append represents the image with one more record, if its length is a word. -/
theorem represents_append (represents : file.Represents image)
    (room : (image.append record).bytes.length < 2 ^ 64) (inside : record.step < image.stepCount) :
    (file.appended record).Represents (image.append record) where
  header := headerAfter_eq represents
  ending := ending_appended represents.ending room
  within := FileImage.isWithinAxis_append represents.within inside

end Append

end TrajectoryFile

end RaggedTrajectory
