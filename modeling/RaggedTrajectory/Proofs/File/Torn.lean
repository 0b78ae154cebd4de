import RaggedTrajectory.Proofs.File.Append

/-!
# Appends that are cut short

When a run is interrupted in the middle of an append, only a front of the bytes that the append was
going to write has reached the file. The cut may fall inside the chunk, the table entry or the
header. In each case the file still is a valid header, the schema block, a table that differs in the
entry of the appended step at most, the old chunks, and something behind them. That the header is
valid rests on the order of its bytes: a counter whose low bytes are new and whose high bytes are
old is no larger than the new one.

* `LittleEndian.decode_torn_le`: a torn counter is no larger than the new one.
* `Header.exists_torn`: a torn header is a header with other counters.
* `TrajectoryFile.resembles_applyCut`: what an append leaves, wherever it is cut.
* `TrajectoryFile.exists_applyCut_of_append`: an append to any disk leaves the file as some cut
  does, whatever is refused.
-/

namespace RaggedTrajectory

/-! ## Torn bytes -/

namespace Bytes

/-- The first `count` bytes of new bytes over old ones. -/
def torn (count : Nat) (new old : Bytes) : Bytes := new.take count ++ old.drop count

@[simp]
theorem torn_self (count : Nat) (bytes : Bytes) : torn count bytes bytes = bytes :=
  List.take_append_drop count bytes

/-- Parts of equal lengths are torn one after the other. -/
theorem torn_append (count : Nat) {new old : Bytes} (more other : Bytes)
    (same : new.length = old.length) :
    torn count (new ++ more) (old ++ other) =
      torn count new old ++ torn (count - old.length) more other := by
  rw [torn, torn, torn, List.take_append, List.drop_append, same]
  by_cases front : count ≤ old.length
  · have none : count - old.length = 0 := by omega
    simp [none]
  · have all : old.drop count = [] := List.drop_eq_nil_of_le (by omega)
    simp [all]

/-- A front of new bytes that is written over old ones. -/
theorem overwrite_take (count : Nat) {new old : Bytes} (rest : Bytes)
    (same : new.length = old.length) :
    (old ++ rest).overwrite 0 (new.take count) = torn count new old ++ rest := by
  have inside : 0 + (new.take count).length ≤ old.length := by
    rw [List.length_take]
    omega
  rw [overwrite_append_left old rest inside, overwrite_zero, torn, List.length_take]
  by_cases front : count ≤ new.length
  · rw [Nat.min_eq_left front]
  · rw [Nat.min_eq_right (by omega), List.drop_eq_nil_of_le (by omega : old.length ≤ new.length),
      List.drop_eq_nil_of_le (by omega : old.length ≤ count)]

theorem length_torn (count : Nat) {new old : Bytes} (same : new.length = old.length) :
    (torn count new old).length = old.length := by
  rw [torn, List.length_append, List.length_take, List.length_drop, same]
  omega

end Bytes

namespace LittleEndian

/-- A word whose low bytes are those of a new value and whose high bytes are those of a smaller old
one is no larger than the new value. -/
theorem decode_torn_le (width count : Nat) {old new : Nat} (grown : old ≤ new) :
    decode (Bytes.torn count (encode width new) (encode width old)) ≤ new := by
  -- The induction is on the width: the lowest byte is new or old, and what is above it is a word
  -- that is torn one byte earlier.
  induction width generalizing count old new with
  | zero => simp [encode, Bytes.torn, decode]
  | succ width ih =>
    cases count with
    | zero =>
      rw [Bytes.torn, List.take_zero, List.drop_zero, List.nil_append, decode_encode_mod]
      exact Nat.le_trans (Nat.mod_le _ _) grown
    | succ count =>
      have high := ih count (Nat.div_le_div_right (c := 256) grown)
      have low : (UInt8.ofNat new).toNat = new % 256 := UInt8.toNat_ofNat'
      rw [Bytes.torn, encode, encode, List.take_succ_cons, List.drop_succ_cons, List.cons_append,
        decode, low]
      rw [Bytes.torn] at high
      omega

/-- Any eight bytes are a word of 64 bits. -/
theorem exists_uint64 {bytes : Bytes} (length : bytes.length = 8) :
    ∃ value : UInt64, encode 8 value.toNat = bytes := by
  have bound := decode_lt bytes
  have whole := encode_decode bytes
  rw [length] at bound whole
  refine ⟨UInt64.ofNat (decode bytes), ?_⟩
  rw [UInt64.toNat_ofNat_of_lt' bound, whole]

/-- A torn counter of 32 bits is a counter that is no larger than the new one. -/
theorem exists_torn_uint32 (count : Nat) {old new : UInt32} (grown : old ≤ new) :
    ∃ value : UInt32, value ≤ new ∧
      encode 4 value.toNat = Bytes.torn count (encode 4 new.toNat) (encode 4 old.toNat) := by
  have small := decode_torn_le 4 count (UInt32.le_iff_toNat_le.1 grown)
  have length : (Bytes.torn count (encode 4 new.toNat) (encode 4 old.toNat)).length = 4 := by
    rw [Bytes.length_torn] <;> simp
  generalize Bytes.torn count (encode 4 new.toNat) (encode 4 old.toNat) = bytes at *
  have whole := encode_decode bytes
  rw [length] at whole
  have word := UInt32.toNat_ofNat_of_lt' (Nat.lt_of_le_of_lt small new.toNat_lt)
  refine ⟨UInt32.ofNat (decode bytes), ?_, ?_⟩
  · rw [UInt32.le_iff_toNat_le, word]
    exact small
  · rw [word, whole]

end LittleEndian

namespace Header

/-- A header that is torn between its old and its new counters is a header with some counters. -/
theorem exists_torn (count : Nat) {old new : Header} (fixed : new.fixedWords = old.fixedWords)
    (grown : old.stepsWritten ≤ new.stepsWritten) :
    ∃ (recordLength : UInt64) (stepsWritten : UInt32), stepsWritten ≤ new.stepsWritten ∧
      Bytes.torn count new.encode old.encode =
        { old with recordLength, stepsWritten }.encode := by
  -- The words in front of the counters are equal, so a cut there leaves the old header. The counter
  -- of records may become anything, that of steps is bounded by the new one.
  have words : (Bytes.torn (count - 52) (LittleEndian.encode 8 new.recordLength.toNat)
      (LittleEndian.encode 8 old.recordLength.toNat)).length = 8 := by
    rw [Bytes.length_torn] <;> simp
  obtain ⟨recordLength, first⟩ := LittleEndian.exists_uint64 words
  obtain ⟨stepsWritten, small, second⟩ :=
    LittleEndian.exists_torn_uint32 (count - 52 - 8) grown
  refine ⟨recordLength, stepsWritten, small, ?_⟩
  have kept : { old with recordLength, stepsWritten }.fixedWords = old.fixedWords := rfl
  rw [encode_eq_append, encode_eq_append, encode_eq_append, fixed, kept,
    Bytes.torn_append _ _ _ rfl, Bytes.torn_self, length_fixedWords,
    Bytes.torn_append _ _ _ (by simp), Bytes.torn_self, counterWords, counterWords, counterWords,
    Bytes.torn_append _ _ _ (by simp), LittleEndian.length_encode, ← first, ← second]

end Header

namespace StepTable

/-- Whatever bytes stand at the place of an entry, they are an entry, and the others are read. -/
theorem exists_decode_slot (before after : List StepEntry) {slot : Bytes}
    (size : slot.length = Header.entrySize) :
    ∃ entry, decode (before.length + (after.length + 1))
      (before.flatMap StepEntry.encode ++ (slot ++ after.flatMap StepEntry.encode)) =
        before ++ entry :: after := by
  -- An entry has no invalid bytes: the reader takes forty of them, whatever they are.
  refine ⟨(StepEntry.readWords (slot ++ after.flatMap StepEntry.encode)).1, ?_⟩
  induction before with
  | nil =>
    have rest := decode_flatMap_encode after []
    rw [List.append_nil] at rest
    rw [List.length_nil, Nat.zero_add, List.flatMap_nil, List.nil_append, decode, ← size,
      List.drop_left, rest, List.nil_append]
  | cons entry before ih =>
    rw [List.length_cons, Nat.add_right_comm, List.flatMap_cons, List.append_assoc, decode,
      StepEntry.readWords_encode, ← StepEntry.length_encode entry, List.drop_left, ih]
    rfl

end StepTable

/-! ## What a cut leaves -/

/-- The bytes of a file of which only the first `budget` bytes of writes were written. -/
def Write.applyCut (budget : Nat) : List Write → Bytes → Bytes
  | [], content => content
  | write :: writes, content =>
    if write.bytes.length ≤ budget then
      applyCut (budget - write.bytes.length) writes (write.applyTo content)
    else Write.applyTo ⟨write.offset, write.bytes.take budget⟩ content

namespace Write

/-- No bytes change nothing, as long as they do not go behind the end. -/
theorem applyTo_nil {offset : UInt64} {content : Bytes} (inside : offset.toNat ≤ content.length) :
    applyTo ⟨offset, []⟩ content = content := by
  have gap : offset.toNat - content.length = 0 := Nat.sub_eq_zero_of_le inside
  simp [applyTo, Bytes.overwrite, gap]

/-- A cut in front of all writes. -/
theorem applyCut_zero {writes : List Write} {content : Bytes}
    (inside : ∀ write ∈ writes, write.offset.toNat ≤ content.length) :
    applyCut 0 writes content = content := by
  induction writes with
  | nil => rfl
  | cons write writes ih =>
    obtain ⟨first, others⟩ := List.forall_mem_cons.1 inside
    rw [applyCut]
    split
    · next none =>
      -- A write without bytes is passed over.
      have empty : write.bytes = [] := List.eq_nil_of_length_eq_zero (Nat.le_zero.1 none)
      have same : write.applyTo content = content := by
        rw [applyTo, empty]
        exact applyTo_nil first
      rw [same, Nat.zero_sub]
      exact ih others
    · rw [List.take_zero]
      exact applyTo_nil first

/-- A cut behind the first write. -/
theorem applyCut_length_add (write : Write) (writes : List Write) (budget : Nat) (content : Bytes) :
    applyCut (write.bytes.length + budget) (write :: writes) content =
      applyCut budget writes (write.applyTo content) := by
  rw [applyCut, if_pos (Nat.le_add_right _ _), Nat.add_sub_cancel_left]

/-- All writes, as a cut behind the last one. -/
theorem exists_applyCut_eq_applyAll (writes : List Write) (content : Bytes) :
    ∃ budget, applyCut budget writes content = applyAll writes content := by
  induction writes generalizing content with
  | nil => exact ⟨0, rfl⟩
  | cons write writes ih =>
    obtain ⟨budget, rest⟩ := ih (write.applyTo content)
    refine ⟨write.bytes.length + budget, ?_⟩
    rw [applyCut_length_add, rest, applyAll_cons]

/-- A front of the first write is what some cut leaves, as long as no later write starts behind the
end. -/
theorem exists_applyCut_of_part (write : Write) {writes : List Write} (count : Nat)
    {content : Bytes}
    (inside : ∀ later ∈ writes, later.offset.toNat ≤ (write.applyTo content).length) :
    ∃ budget, applyCut budget (write :: writes) content =
      applyTo ⟨write.offset, write.bytes.take count⟩ content := by
  by_cases whole : write.bytes.length ≤ count
  · -- The front is all of the write, so the cut falls between this write and the next.
    refine ⟨write.bytes.length, ?_⟩
    have behind := applyCut_length_add write writes 0 content
    rw [Nat.add_zero, applyCut_zero inside] at behind
    rw [behind, List.take_of_length_le whole]
  · exact ⟨count, by rw [applyCut, if_neg whole]⟩

end Write

namespace FileImage

/-- Bytes that differ from those of an image in the counters of the header, in the entry of a step
and behind the end at most. -/
def Resembles (image : FileImage) (step : UInt32) (bytes : Bytes) : Prop :=
  ∃ (recordLength : UInt64) (stepsWritten : UInt32) (table rest : Bytes) (entry : StepEntry),
    stepsWritten ≤ image.stepCount ∧
    table.length = image.stepCount.toNat * Header.entrySize ∧
    StepTable.decode image.stepCount.toNat table = image.table.set step.toNat entry ∧
    bytes = { image.header with recordLength, stepsWritten }.encode ++
      (image.block ++ (table ++ (StepRecord.chunks image.records ++ rest)))

/-- A table in which the entry of a step is torn. -/
theorem exists_decode_torn (image : FileImage) {step : UInt32} (inside : step < image.stepCount)
    {part : Bytes} (short : part.length ≤ Header.entrySize) :
    ∃ entry, StepTable.decode image.stepCount.toNat
      (image.tableBytes.overwrite (step.toNat * Header.entrySize) part) =
        image.table.set step.toNat entry := by
  have slot := toNat_lt_length_table inside
  have size : (part ++ image.table[step.toNat].encode.drop part.length).length =
      Header.entrySize := by
    rw [List.length_append, List.length_drop, StepEntry.length_encode]
    omega
  obtain ⟨entry, read⟩ := StepTable.exists_decode_slot (image.table.take step.toNat)
    (image.table.drop (step.toNat + 1)) size
  refine ⟨entry, ?_⟩
  have count : (image.table.take step.toNat).length +
      ((image.table.drop (step.toNat + 1)).length + 1) = image.stepCount.toNat := by
    rw [length_table] at slot
    rw [List.length_take, List.length_drop, length_table]
    omega
  rw [count] at read
  rw [tableBytes, overwrite_slot _ slot short, read, List.set_eq_take_append_cons_drop,
    if_pos slot]

/-- More bytes behind an image. -/
theorem resembles_append (image : FileImage) {step : UInt32} (inside : step < image.stepCount)
    (rest : Bytes) (within : image.IsWithinAxis) : image.Resembles step (image.bytes ++ rest) := by
  have slot := toNat_lt_length_table inside
  have table := StepTable.decode_flatMap_encode image.table []
  rw [List.append_nil, length_table] at table
  refine ⟨image.header.recordLength, image.header.stepsWritten, image.tableBytes, rest,
    image.table[step.toNat], stepsWritten_le within, image.length_tableBytes, ?_, ?_⟩
  · rw [List.set_getElem_self]
    exact table
  · rw [bytes]
    simp only [List.append_assoc]

end FileImage

namespace TrajectoryFile

variable {file : TrajectoryFile} {image : FileImage} {record : StepRecord}

/-- A table entry of which only a front was written, with the chunk in place. -/
theorem resembles_entry (represents : file.Represents image) (room : image.bytes.length < 2 ^ 64)
    (inside : record.step < image.stepCount) {part : Bytes}
    (short : part.length ≤ Header.entrySize) (rest : Bytes) :
    image.Resembles record.step
      (Write.applyTo ⟨file.header.entryOffset record.step, part⟩ (image.bytes ++ rest)) := by
  obtain ⟨entry, read⟩ := image.exists_decode_torn inside short
  have covered := FileImage.slot_le_length_tableBytes inside short
  refine ⟨image.header.recordLength, image.header.stepsWritten, _, rest, entry,
    FileImage.stepsWritten_le represents.within, ?_, read,
    applyTo_entryOffset represents room inside short rest⟩
  rw [Bytes.length_overwrite covered, FileImage.length_tableBytes]

/-- A header of which only a front was written, with chunk and entry in place. -/
theorem resembles_header (represents : file.Represents image) (room : image.bytes.length < 2 ^ 64)
    (inside : record.step < image.stepCount) (count : Nat) :
    image.Resembles record.step
      (Write.applyTo ⟨0, (file.headerAfter record).encode.take count⟩
        ((file.entryWrite record).applyTo (image.bytes ++ record.chunk))) := by
  have size : (file.entryOf record).encode.length ≤ Header.entrySize :=
    Nat.le_of_eq (StepEntry.length_encode _)
  have fixed : (image.append record).header.fixedWords = image.header.fixedWords := by
    rw [FileImage.header_append]
    rfl
  have small := FileImage.stepsWritten_le (FileImage.isWithinAxis_append represents.within inside)
  have same : (image.append record).header.encode.length = image.header.encode.length := by
    rw [Header.length_encode, Header.length_encode]
  obtain ⟨entry, read⟩ := image.exists_decode_torn inside size
  obtain ⟨recordLength, stepsWritten, bounded, torn⟩ :=
    Header.exists_torn count fixed (image.stepsWritten_le_append record)
  have covered := FileImage.slot_le_length_tableBytes inside size
  refine ⟨recordLength, stepsWritten, _, record.chunk, entry, UInt32.le_trans bounded small, ?_,
    read, ?_⟩
  · exact (Bytes.length_overwrite covered).trans image.length_tableBytes
  · have placed : (file.entryWrite record).applyTo (image.bytes ++ record.chunk) = _ :=
      applyTo_entryOffset represents room inside size record.chunk
    rw [placed, headerAfter_eq represents, ← torn]
    exact Bytes.overwrite_take count _ same

/-- All three writes of an append, in place. -/
theorem resembles_headerWrite (represents : file.Represents image)
    (room : image.bytes.length < 2 ^ 64) (inside : record.step < image.stepCount) :
    image.Resembles record.step ((file.headerWrite record).applyTo
      ((file.entryWrite record).applyTo (image.bytes ++ record.chunk))) := by
  have whole := resembles_header represents room inside Header.size
  rw [← Header.length_encode (file.headerAfter record), List.take_length] at whole
  exact whole

/-- Wherever an append is cut, what it leaves resembles the image before. -/
theorem resembles_applyCut (represents : file.Represents image)
    (room : image.bytes.length < 2 ^ 64) (inside : record.step < image.stepCount) (budget : Nat) :
    image.Resembles record.step
      (Write.applyCut budget (file.appendWrites record) image.bytes) := by
  have size : (file.entryOf record).encode.length = Header.entrySize := StepEntry.length_encode _
  simp only [appendWrites, Write.applyCut]
  -- The cut falls into the chunk, into the entry, into the header, or behind all three.
  by_cases chunk : (file.chunkWrite record).bytes.length ≤ budget
  · rw [if_pos chunk]
    generalize budget - (file.chunkWrite record).bytes.length = budget
    have behind : (file.chunkWrite record).applyTo image.bytes = image.bytes ++ record.chunk :=
      applyTo_ending represents record.chunk
    rw [behind]
    by_cases entry : (file.entryWrite record).bytes.length ≤ budget
    · rw [if_pos entry]
      generalize budget - (file.entryWrite record).bytes.length = budget
      by_cases header : (file.headerWrite record).bytes.length ≤ budget
      · rw [if_pos header]
        exact resembles_headerWrite represents room inside
      · rw [if_neg header]
        exact resembles_header represents room inside budget
    · rw [if_neg entry]
      refine resembles_entry represents room inside ?_ record.chunk
      rw [List.length_take]
      exact Nat.le_trans (Nat.min_le_right _ _) (Nat.le_of_eq size)
  · rw [if_neg chunk]
    have behind := applyTo_ending represents (record.chunk.take budget)
    exact behind ▸ image.resembles_append inside _ represents.within

theorem append_of_check_error {file : TrajectoryFile} {record : StepRecord} {e : Error}
    (refused : file.check record = .error e) (disk : Disk) :
    file.append record disk = (.error e, file, disk) := by
  simp only [append, refused]

/-- An append on any disk, of a step that is not refused: the first of its requests that is not
granted leaves a front of its bytes behind the writes before it. -/
theorem append_on_or_stops {file : TrajectoryFile} {record : StepRecord}
    (checked : file.check record = .ok ()) (disk : Disk) :
    (∃ e count after, file.append record disk = (.error e, file, after) ∧
      after.content file.id =
        Write.applyTo ⟨file.ending, record.chunk.take count⟩ (disk.content file.id)) ∨
    (∃ e count after, file.append record disk = (.error e, file, after) ∧
      after.content file.id = Write.applyTo
        ⟨file.header.entryOffset record.step, (file.entryOf record).encode.take count⟩
        ((file.chunkWrite record).applyTo (disk.content file.id))) ∨
    (∃ e count after, file.append record disk =
        (.error e, { file with header := file.headerAfter record }, after) ∧
      after.content file.id = Write.applyTo ⟨0, (file.headerAfter record).encode.take count⟩
        ((file.entryWrite record).applyTo
          ((file.chunkWrite record).applyTo (disk.content file.id)))) ∨
    ∃ after, file.append record disk = (.ok (file.entryOf record), file.appended record, after) ∧
      after.content file.id =
        Write.applyAll (file.appendWrites record) (disk.content file.id) := by
  unfold append
  rw [checked]
  rcases disk.write_on_or_part file.id (file.chunkWrite record) with
    ⟨first, wrote, one⟩ | ⟨e, count, first, failed, one⟩
  · rw [← one]
    rcases first.write_on_or_part file.id (file.entryWrite record) with
      ⟨second, wroteEntry, two⟩ | ⟨e, count, second, failed, two⟩
    · rw [← two]
      rcases second.write_on_or_part file.id (file.headerWrite record) with
        ⟨third, wroteHeader, three⟩ | ⟨e, count, third, failed, three⟩
      · simp only [Action.on_bind_ok wrote, wroteEntry, Action.on_bind_ok wroteHeader]
        have kept := third.content_sync file.id
        rw [three] at kept
        -- The header is whole, but a sync that is refused is a refusal all the same.
        cases synced : Disk.sync.on third with
        | mk outcome last =>
          rw [synced] at kept
          cases outcome with
          | ok =>
            refine .inr (.inr (.inr ⟨last, rfl, ?_⟩))
            rw [kept, two, one]
            rfl
          | error e =>
            refine .inr (.inr (.inl ⟨e, (file.headerAfter record).encode.length, last, rfl, ?_⟩))
            rw [List.take_length]
            exact kept
      · simp only [Action.on_bind_ok wrote, wroteEntry, Action.on_bind_error failed]
        exact .inr (.inr (.inl ⟨e, count, third, rfl, three⟩))
    · simp only [Action.on_bind_ok wrote, failed]
      exact .inr (.inl ⟨e, count, second, rfl, two⟩)
  · simp only [Action.on_bind_error failed]
    exact .inl ⟨e, count, first, rfl, one⟩

/-- Whatever the disk refuses during an append, what is left is what some cut leaves. -/
theorem exists_applyCut_of_append {disk : Disk} (represents : file.Represents image)
    (room : image.bytes.length < 2 ^ 64) (inside : record.step < image.stepCount)
    (content : disk.content file.id = image.bytes) :
    ∃ budget, (file.append record disk).2.2.content file.id =
      Write.applyCut budget (file.appendWrites record) image.bytes := by
  -- No write of an append starts behind the end of the file, so nothing is filled up where a cut
  -- falls between two of them.
  have placed : ∀ write ∈ file.appendWrites record, write.offset.toNat ≤ image.bytes.length := by
    have entry := FileImage.toNat_entryOffset_le room (UInt32.le_of_lt inside)
    rw [← represents.header] at entry
    simp only [appendWrites, List.forall_mem_cons]
    exact ⟨Nat.le_of_eq represents.ending, entry, Nat.zero_le _, List.forall_mem_nil _⟩
  cases checked : file.check record with
  | error e =>
    refine ⟨0, ?_⟩
    rw [append_of_check_error checked, Write.applyCut_zero placed, content]
  | ok =>
    obtain ⟨-, behindChunk⟩ := List.forall_mem_cons.1 placed
    have first := (file.chunkWrite record).length_le_applyTo image.bytes
    have second := (file.entryWrite record).length_le_applyTo
      ((file.chunkWrite record).applyTo image.bytes)
    rcases append_on_or_stops checked disk with ⟨e, count, after, stopped, left⟩ |
      ⟨e, count, after, stopped, left⟩ | ⟨e, count, after, stopped, left⟩ | ⟨after, done, left⟩
    · obtain ⟨budget, cut⟩ := Write.exists_applyCut_of_part (file.chunkWrite record) count
        fun later mem => Nat.le_trans (behindChunk later mem) first
      refine ⟨budget, ?_⟩
      rw [stopped, left, content]
      exact cut.symm
    · obtain ⟨budget, cut⟩ := Write.exists_applyCut_of_part (file.entryWrite record) count
        fun later mem => Nat.le_trans (behindChunk later (List.mem_cons_of_mem _ mem))
          (Nat.le_trans first second)
      refine ⟨(file.chunkWrite record).bytes.length + budget, ?_⟩
      rw [stopped, left, content, appendWrites, Write.applyCut_length_add]
      exact cut.symm
    · obtain ⟨budget, cut⟩ := Write.exists_applyCut_of_part (file.headerWrite record) count
        (List.forall_mem_nil fun later : Write => later.offset.toNat ≤
          ((file.headerWrite record).applyTo ((file.entryWrite record).applyTo
            ((file.chunkWrite record).applyTo image.bytes))).length)
      refine ⟨(file.chunkWrite record).bytes.length +
        ((file.entryWrite record).bytes.length + budget), ?_⟩
      rw [stopped, left, content, appendWrites, Write.applyCut_length_add,
        Write.applyCut_length_add]
      exact cut.symm
    · obtain ⟨budget, whole⟩ :=
        Write.exists_applyCut_eq_applyAll (file.appendWrites record) image.bytes
      exact ⟨budget, by rw [done, left, content, whole]⟩

end TrajectoryFile

end RaggedTrajectory
