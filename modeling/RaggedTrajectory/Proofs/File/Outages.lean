import RaggedTrajectory.Proofs.File.Torn

/-!
# Appending on any disk

Where appends are refused, now one and then another, a file does not hold the bytes of an image any
more: the counters of its header and the entries of the refused steps may be anything, and behind
the chunks there may be parts of others. But the header stays a header of the same file, and the
chunks of the appends that were granted stay where they are, one behind the other, since no write
of an append goes in front of the end that the open file knows.

* `FileImage.Underlies`: an image and the bytes of a file that may be damaged so.
* `TrajectoryFile.Continues`: an open file on such bytes.
* `TrajectoryFile.continues_append`: an append on any disk, refused or not.
-/

namespace RaggedTrajectory

namespace FileImage

/-- A header with counters of its own, and otherwise that of an image. It counts no step behind the
time axis. -/
structure IsHeader (image : FileImage) (header : Header) : Prop where
  same : header = { image.header with
    recordLength := header.recordLength
    stepsWritten := header.stepsWritten }
  counted : header.stepsWritten ≤ image.stepCount

/-- Header, block and chunks of an image are in their places. The counters of the header, the bytes
of the table and what is behind the chunks do not matter, but for the counter of steps, which is not
above a bound. -/
def Underlies (image : FileImage) (most : UInt32) (bytes : Bytes) : Prop :=
  ∃ (header : Header) (table rest : Bytes), image.IsHeader header ∧ header.stepsWritten ≤ most ∧
    table.length = image.stepCount.toNat * Header.entrySize ∧
    bytes = header.encode ++
      (image.block ++ (table ++ (StepRecord.chunks image.records ++ rest)))

section Headers

variable {image : FileImage} {header : Header}

theorem isHeader_header (within : image.IsWithinAxis) : image.IsHeader image.header :=
  ⟨rfl, stepsWritten_le within⟩

/-- One more append only changes the counters of the image. -/
theorem isHeader_append (record : StepRecord) :
    (image.append record).IsHeader header ↔ image.IsHeader header := by
  have same : { (image.append record).header with
        recordLength := header.recordLength, stepsWritten := header.stepsWritten } =
      { image.header with
        recordLength := header.recordLength, stepsWritten := header.stepsWritten } := by
    rw [header_append]
  exact ⟨fun ⟨own, counted⟩ => ⟨own.trans same, counted⟩,
    fun ⟨own, counted⟩ => ⟨own.trans same.symm, counted⟩⟩

theorem fixedWords_of_isHeader (isHeader : image.IsHeader header) :
    header.fixedWords = image.header.fixedWords := by
  rw [isHeader.same]
  rfl

end Headers

section Underlies

variable {image : FileImage} {most : UInt32} {bytes : Bytes}

theorem underlies_bytes (within : image.IsWithinAxis) :
    image.Underlies image.header.stepsWritten image.bytes :=
  ⟨image.header, image.tableBytes, [], isHeader_header within, UInt32.le_refl _,
    image.length_tableBytes, by rw [List.append_nil]; rfl⟩

/-- The last chunk may be one of those that do not matter. -/
theorem underlies_of_append {record : StepRecord}
    (underlies : (image.append record).Underlies most bytes) : image.Underlies most bytes := by
  obtain ⟨header, table, rest, own, bound, length, rfl⟩ := underlies
  refine ⟨header, table, record.chunk ++ rest, (isHeader_append record).1 own, bound, length, ?_⟩
  rw [chunks_append, List.append_assoc]
  rfl

/-- The image is no longer than the file. -/
theorem length_le_of_underlies (underlies : image.Underlies most bytes) :
    image.bytes.length ≤ bytes.length := by
  obtain ⟨header, table, rest, -, -, length, rfl⟩ := underlies
  simp only [length_bytes, dataOffset, tableOffset, List.length_append, Header.length_encode,
    length]
  omega

/-- Bytes that go to the end of the image may become a chunk. -/
theorem underlies_chunk (underlies : image.Underlies most bytes) {offset : UInt64}
    (ending : offset.toNat = image.bytes.length) (record : StepRecord) :
    (image.append record).Underlies most (Write.applyTo ⟨offset, record.chunk⟩ bytes) := by
  obtain ⟨header, table, rest, own, bound, length, rfl⟩ := underlies
  refine ⟨header, table, rest.drop record.chunk.length, (isHeader_append record).2 own, bound,
    length, ?_⟩
  -- In front of the offset are header, block, table and chunks.
  let front : Bytes :=
    header.encode ++ (image.block ++ (table ++ StepRecord.chunks image.records))
  have whole : image.bytes.length = front.length := by
    simp only [front, length_bytes, dataOffset, tableOffset, List.length_append,
      Header.length_encode, length]
    omega
  have patched := Bytes.overwrite_append_right front rest 0 record.chunk
  rw [Nat.add_zero, ← whole, Bytes.overwrite_zero] at patched
  simp only [front, List.append_assoc] at patched
  rw [Write.applyTo, ending, patched, chunks_append, List.append_assoc]
  rfl

/-- Bytes that go to the place of an entry fall into the table. -/
theorem underlies_entry (underlies : image.Underlies most bytes)
    (room : image.bytes.length < 2 ^ 64) {step : UInt32} (inside : step < image.stepCount)
    {part : Bytes} (short : part.length ≤ Header.entrySize) :
    image.Underlies most (Write.applyTo ⟨image.header.entryOffset step, part⟩ bytes) := by
  obtain ⟨header, table, rest, own, bound, length, rfl⟩ := underlies
  have slot : step.toNat * Header.entrySize + part.length ≤ table.length := by
    rw [length, ← image.length_tableBytes]
    exact slot_le_length_tableBytes inside short
  refine ⟨header, table.overwrite (step.toNat * Header.entrySize) part, rest, own, bound,
    (Bytes.length_overwrite slot).trans length, ?_⟩
  -- Past the header and past the block; then inside the table.
  rw [Write.applyTo, toNat_entryOffset room (UInt32.le_of_lt inside), tableOffset,
    ← Header.length_encode header, Nat.add_assoc, Bytes.overwrite_append_right,
    Bytes.overwrite_append_right, Bytes.overwrite_append_left _ _ slot]

/-- A front of another header may be written, if this one counts no fewer steps. -/
theorem underlies_header (underlies : image.Underlies most bytes) {header : Header}
    (isHeader : image.IsHeader header) (grown : most ≤ header.stepsWritten) (count : Nat) :
    image.Underlies header.stepsWritten (Write.applyTo ⟨0, header.encode.take count⟩ bytes) := by
  obtain ⟨old, table, rest, own, bound, length, rfl⟩ := underlies
  have fixed : header.fixedWords = old.fixedWords :=
    (fixedWords_of_isHeader isHeader).trans (fixedWords_of_isHeader own).symm
  obtain ⟨recordLength, stepsWritten, small, torn⟩ :=
    Header.exists_torn count fixed (UInt32.le_trans bound grown)
  refine ⟨{ old with recordLength, stepsWritten }, table, rest,
    ⟨?_, UInt32.le_trans small isHeader.counted⟩, small, length, ?_⟩
  · rw [own.same]
  · rw [Write.applyTo, UInt64.toNat_zero, Bytes.overwrite_take, torn]
    rw [Header.length_encode, Header.length_encode]

end Underlies

end FileImage

namespace TrajectoryFile

/-- A file that is open on bytes that an image underlies. The counters in memory may be ahead of
those of the image. -/
structure Continues (file : TrajectoryFile) (image : FileImage) (bytes : Bytes) : Prop where
  header : image.IsHeader file.header
  ending : file.ending.toNat = image.bytes.length
  within : image.IsWithinAxis
  underlies : image.Underlies file.header.stepsWritten bytes

theorem continues_of_represents {file : TrajectoryFile} {image : FileImage}
    (represents : file.Represents image) : file.Continues image image.bytes where
  header := represents.header ▸ FileImage.isHeader_header represents.within
  ending := represents.ending
  within := represents.within
  underlies := represents.header ▸ FileImage.underlies_bytes represents.within

theorem represents_of_continues {file : TrajectoryFile} {image : FileImage} {bytes : Bytes}
    (continues : file.Continues image bytes) (header : file.header = image.header) :
    file.Represents image :=
  ⟨header, continues.ending, continues.within⟩

section Append

variable {file : TrajectoryFile} {image : FileImage} {record : StepRecord}

/-- The header after an append of a step on the time axis. -/
theorem isHeader_headerAfter (isHeader : image.IsHeader file.header)
    (inside : record.step < image.stepCount) :
    image.IsHeader (file.headerAfter record) ∧
      file.header.stepsWritten ≤ (file.headerAfter record).stepsWritten := by
  refine ⟨⟨?_, ?_⟩, ?_⟩
  · rw [headerAfter, isHeader.same]
  · show max file.header.stepsWritten (record.step + 1) ≤ image.stepCount
    rw [UInt32.le_iff_toNat_le, StepRecord.toNat_max, StepRecord.toNat_add_one inside]
    exact Nat.max_le.2 ⟨UInt32.le_iff_toNat_le.1 isHeader.counted, UInt32.lt_iff_toNat_lt.1 inside⟩
  · show file.header.stepsWritten ≤ max file.header.stepsWritten (record.step + 1)
    rw [UInt32.le_iff_toNat_le, StepRecord.toNat_max]
    exact Nat.le_max_left _ _

/-- No append makes a file shorter, granted or not. -/
theorem length_le_append (file : TrajectoryFile) (record : StepRecord) (disk : Disk) :
    (disk.content file.id).length ≤ ((file.append record disk).2.2.content file.id).length := by
  cases checked : file.check record with
  | error e =>
    have same := (append_of_check_error checked disk).symm
    exact Nat.le_of_eq (congrArg (fun outcome => (outcome.2.2.content file.id).length) same)
  | ok =>
    have first := (file.chunkWrite record).length_le_applyTo (disk.content file.id)
    rcases append_on_or_stops checked disk with ⟨e, count, after, stopped, left⟩ |
      ⟨e, count, after, stopped, left⟩ | ⟨e, count, after, stopped, left⟩ | ⟨after, done, left⟩
    · rw [stopped, left]
      exact Write.length_le_applyTo _ _
    · rw [stopped, left]
      exact Nat.le_trans first (Write.length_le_applyTo _ _)
    · rw [stopped, left]
      have second := (file.entryWrite record).length_le_applyTo
        ((file.chunkWrite record).applyTo (disk.content file.id))
      exact Nat.le_trans first (Nat.le_trans second (Write.length_le_applyTo _ _))
    · rw [done, left]
      exact Write.length_le_applyAll _ _

/-- An append on any disk leaves a file with the same chunks, or with one more if it is granted, as
long as the length of the file is a word. -/
theorem continues_append {disk : Disk}
    (continues : file.Continues image (disk.content file.id))
    (room : ((file.append record disk).2.2.content file.id).length < 2 ^ 64) :
    (∃ e next after, file.append record disk = (.error e, next, after) ∧
      next.Continues image (after.content file.id)) ∨
    ∃ after, file.append record disk = (.ok (file.entryOf record), file.appended record, after) ∧
      (file.appended record).Continues (image.append record) (after.content file.id) := by
  cases checked : file.check record with
  | error e => exact .inl ⟨e, file, disk, append_of_check_error checked disk, continues⟩
  | ok =>
    have count : file.header.stepCount = image.stepCount := by rw [continues.header.same]; rfl
    have offset : file.header.entryOffset record.step = image.header.entryOffset record.step := by
      rw [continues.header.same]
      rfl
    have inside : record.step < image.stepCount := count ▸ step_lt_of_check checked
    have size : (file.entryOf record).encode.length = Header.entrySize :=
      StepEntry.length_encode _
    obtain ⟨counted, grown⟩ := isHeader_headerAfter continues.header inside
    -- With the first write the chunk is behind the others, whatever comes next.
    have one := FileImage.underlies_chunk continues.underlies continues.ending record
    have long := Nat.lt_of_le_of_lt (file.length_le_append record disk) room
    have fits := Nat.lt_of_le_of_lt (FileImage.length_le_of_underlies continues.underlies) long
    rcases append_on_or_stops checked disk with ⟨e, count, after, stopped, left⟩ |
      ⟨e, count, after, stopped, left⟩ | ⟨e, count, after, stopped, left⟩ | ⟨after, done, left⟩
    · have part := FileImage.underlies_chunk continues.underlies continues.ending
        { record with chunk := record.chunk.take count }
      exact .inl ⟨e, _, _, stopped, { continues with
        underlies := left ▸ FileImage.underlies_of_append part }⟩
    · have short : ((file.entryOf record).encode.take count).length ≤ Header.entrySize := by
        rw [List.length_take, size]
        exact Nat.min_le_right _ _
      have part := FileImage.underlies_entry (FileImage.underlies_of_append one) fits inside short
      rw [← offset] at part
      exact .inl ⟨e, _, _, stopped, { continues with underlies := left ▸ part }⟩
    · have two := FileImage.underlies_entry (FileImage.underlies_of_append one) fits inside
        (Nat.le_of_eq size)
      rw [← offset] at two
      exact .inl ⟨e, _, _, stopped, counted, continues.ending, continues.within,
        left ▸ FileImage.underlies_header two counted grown count⟩
    · rw [done, left, appendWrites, Write.applyAll_cons] at room
      have whole := Nat.lt_of_le_of_lt (FileImage.length_le_of_underlies one)
        (Nat.lt_of_le_of_lt (Write.length_le_applyAll _ _) room)
      have table : file.header.entryOffset record.step =
          (image.append record).header.entryOffset record.step := by
        rw [offset, FileImage.header_append]
        rfl
      have two := FileImage.underlies_entry one whole inside (Nat.le_of_eq size)
      rw [← table] at two
      have three := FileImage.underlies_header two ((FileImage.isHeader_append record).2 counted)
        grown (file.headerAfter record).encode.length
      rw [List.take_length] at three
      refine .inr ⟨after, done, (FileImage.isHeader_append record).2 counted,
        ending_appended continues.ending whole,
        FileImage.isWithinAxis_append continues.within inside, ?_⟩
      rw [left]
      exact three

/-- On a disk that refuses nothing, and on the bytes of an image, an append leaves the bytes of an
image. -/
theorem represents_append_on {disk : Disk} (reliable : disk.IsReliable)
    (represents : file.Represents image) (content : disk.content file.id = image.bytes)
    (room : ((file.append record disk).2.2.content file.id).length < 2 ^ 64) :
    (∃ e, file.append record disk = (.error e, file, disk)) ∨
    ∃ after, file.append record disk = (.ok (file.entryOf record), file.appended record, after) ∧
      (file.appended record).Represents (image.append record) ∧
      after.content file.id = (image.append record).bytes := by
  rcases append_on reliable file record with
    ⟨e, -, refused⟩ | ⟨checked, after, done, -, bytes, -⟩
  · exact .inl ⟨e, refused⟩
  · have inside := inside_of_check represents checked
    have long := Nat.lt_of_le_of_lt (file.length_le_append record disk) room
    rw [content] at long
    rw [content, applyAll_appendWrites represents long inside] at bytes
    rw [done, bytes] at room
    exact .inr ⟨after, done, represents_append represents room inside, bytes⟩

end Append

end TrajectoryFile

end RaggedTrajectory
