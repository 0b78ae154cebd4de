import RaggedTrajectory.Proofs.Reader.Soundness

/-!
# The parts of an open file

A header says where the parts of a file are, and its words can be anything. In a build without
overflow checks their sums wrap, so the check of the header alone does not bound them. Together with
the checks that the schema block and the table are inside the file it does: as exact numbers the
parts follow each other without a gap, and the chunks start inside the file. So whatever the bytes
of a file are, if it can be opened then the schema was read between the header and the table, the
entries are those of the table in their order, and a step that can be read was read from inside the
file.

* `Header.offsets_of_validate`: the offsets of a header are exact numbers.
* `StepTable.exists_entry_of_inside`: which bytes an entry was read from.
* `Reader.isLaidOut_of_ofBytes`: the parts of an open file.
-/

namespace RaggedTrajectory

open LittleEndian (wordAt)

/-! ## Parts of byte strings -/

namespace Bytes

/-- A part of a part is a part of the whole. -/
theorem slice_slice (bytes : Bytes) (start : Nat) {count place width : Nat}
    (inside : place + width ≤ count) :
    (bytes.slice start count).slice place width = bytes.slice (start + place) width := by
  unfold slice
  rw [List.drop_take, List.drop_drop, List.take_take, Nat.min_eq_left (by omega)]

end Bytes

/-! ## The header -/

namespace Header

/-- A header is read if its words can be read and are those of a valid header. -/
theorem decode_eq_ok_iff {overflow : Overflow} {bytes : Bytes} {header : Header} :
    decode overflow bytes = .ok header ↔
      size ≤ bytes.length ∧ (readWords bytes).1 = .ok header ∧
        header.validate overflow = .ok () := by
  rw [decode]
  split
  · next short => simp [Nat.not_le.2 short]
  · next long =>
    simp only [Error.bind_eq_ok_iff]
    constructor
    · rintro ⟨read, words, ⟨⟩, valid, same⟩
      cases same
      exact ⟨Nat.not_lt.1 long, words, valid⟩
    · rintro ⟨-, words, valid⟩
      exact ⟨header, words, (), valid, rfl⟩

/-- A header that is read in one build is read in every build, if its regions end at a word. -/
theorem decode_of_regionsEnd_lt {overflow : Overflow} {bytes : Bytes} {header : Header}
    (decoded : decode overflow bytes = .ok header) (fits : header.regionsEnd < 2 ^ 64)
    (other : Overflow) : decode other bytes = .ok header := by
  obtain ⟨long, words, valid⟩ := decode_eq_ok_iff.1 decoded
  obtain ⟨magic, version, width, consistent, steps⟩ := validate_eq_ok_iff.1 valid
  obtain ⟨consecutive, -⟩ := hasConsistentOffsets_eq_true_iff.1 consistent
  exact decode_eq_ok_iff.2 ⟨long, words, validate_eq_ok_iff.2 ⟨magic, version, width,
    hasConsistentOffsets_eq_true_iff.2 ⟨consecutive, fun _ => fits⟩, steps⟩⟩

/-- The offsets of a valid header whose regions end at a word, as exact numbers. -/
theorem offsets_of_validate {overflow : Overflow} {header : Header}
    (valid : header.validate overflow = .ok ()) (fits : header.regionsEnd < 2 ^ 64) :
    header.schemaOffset.toNat = size ∧
      header.tableOffset.toNat = size + header.schemaLength.toNat ∧
      header.dataOffset.toNat = header.tableOffset.toNat + header.stepCount.toNat * entrySize := by
  obtain ⟨-, -, -, consistent, -⟩ := validate_eq_ok_iff.1 valid
  obtain ⟨consecutive, -⟩ := hasConsistentOffsets_eq_true_iff.1 consistent
  obtain ⟨schema, table, data⟩ := (hasConsecutiveRegions_iff fits).1 consecutive
  refine ⟨schema, ?_, ?_⟩
  · rw [table, schema]
  · rw [data, table, regionsEnd]

end Header

/-! ## The table -/

namespace StepEntry

/-- The entry whose words stand at their places in a byte string. -/
def ofWords (bytes : Bytes) : StepEntry where
  time := ⟨UInt64.ofNat (wordAt bytes 0 8)⟩
  particleCount := (UInt32.ofNat (wordAt bytes 8 4)).toInt32
  written := wordAt bytes 12 4 ≠ 0
  recordStart := UInt64.ofNat (wordAt bytes 16 8)
  chunkOffset := UInt64.ofNat (wordAt bytes 24 8)
  chunkLength := UInt64.ofNat (wordAt bytes 32 8)

/-- The words of an entry stand one after the other. -/
theorem readWords_eq (bytes : Bytes) : (readWords bytes).1 = ofWords bytes := by
  simp only [readWords, LittleEndian.word, bind, StateT.bind, List.drop_drop]
  rfl

/-- An entry is read from every byte string that is long enough, word by word. -/
theorem decode_eq_ok_iff {bytes : Bytes} {entry : StepEntry} :
    decode bytes = .ok entry ↔ Header.entrySize ≤ bytes.length ∧ entry = ofWords bytes := by
  rw [decode, readWords_eq]
  split
  · next short => simp [Nat.not_le.2 short]
  · next long => simp [Nat.not_lt.1 long, eq_comm]

/-- An entry does not depend on what follows it. -/
theorem ofWords_slice (bytes : Bytes) (start : Nat) :
    ofWords (bytes.slice start Header.entrySize) = ofWords (bytes.drop start) := by
  have word (place width : Nat) (inside : place + width ≤ Header.entrySize) :
      wordAt (bytes.slice start Header.entrySize) place width =
        wordAt (bytes.drop start) place width := by
    rw [wordAt, Bytes.slice_slice bytes start inside, wordAt, Bytes.slice, Bytes.slice,
      List.drop_drop]
  -- The last word ends with the entry.
  simp only [ofWords, word 0 8 (by decide), word 8 4 (by decide), word 12 4 (by decide),
    word 16 8 (by decide), word 24 8 (by decide), word 32 8 (by decide)]

end StepEntry

namespace StepTable

/-- An entry of a table was read from the bytes at its place. -/
theorem getElem?_decode {count step : Nat} (inside : step < count) (bytes : Bytes) :
    (decode count bytes)[step]? = some (.ofWords (bytes.drop (step * Header.entrySize))) := by
  -- The induction goes along the table; an entry is read from what the earlier ones have left.
  induction count generalizing step bytes with
  | zero => exact absurd inside (Nat.not_lt_zero step)
  | succ count ih =>
    rw [decode]
    cases step with
    | zero => rw [List.getElem?_cons_zero, StepEntry.readWords_eq, Nat.zero_mul, List.drop_zero]
    | succ step =>
      rw [List.getElem?_cons_succ, ih (Nat.lt_of_succ_lt_succ inside), List.drop_drop,
        Nat.succ_mul, Nat.add_comm]

/-- In a table inside a byte string each entry is that of its own bytes. -/
theorem exists_entry_of_inside {bytes : Bytes} {start count : Nat}
    (within : start + count * Header.entrySize ≤ bytes.length) {step : Nat}
    (inside : step < count) :
    ∃ entry, (decode count (bytes.slice start (count * Header.entrySize)))[step]? = some entry ∧
      StepEntry.decode (bytes.slice (start + step * Header.entrySize) Header.entrySize) =
        .ok entry := by
  refine ⟨_, getElem?_decode inside _, ?_⟩
  -- The slot of a step is inside the table, and the table is inside the byte string.
  have slot : (step + 1) * Header.entrySize ≤ count * Header.entrySize :=
    Nat.mul_le_mul_right _ inside
  rw [Nat.succ_mul] at slot
  have whole : Header.entrySize ≤
      (bytes.slice (start + step * Header.entrySize) Header.entrySize).length := by
    rw [Bytes.length_slice]
    omega
  rw [StepEntry.decode_eq_ok_iff, ← StepEntry.ofWords_slice, Bytes.slice_slice _ _ slot]
  exact ⟨whole, rfl⟩

end StepTable

/-! ## Open files -/

namespace Reader

/-- The parts of a file that is open. -/
structure IsLaidOut (bytes : Bytes) (reader : Reader) : Prop where
  /-- The header is read, whether sums stop or wrap. -/
  header : ∀ overflow, Header.decode overflow bytes = .ok reader.header
  schemaOffset : reader.header.schemaOffset.toNat = Header.size
  tableOffset : reader.header.tableOffset.toNat =
    Header.size + reader.header.schemaLength.toNat
  dataOffset : reader.header.dataOffset.toNat =
    reader.header.tableOffset.toNat + reader.header.stepCount.toNat * Header.entrySize
  dataInside : reader.header.dataOffset.toNat ≤ bytes.length
  /-- The schema is that of the bytes from the end of the header to the table. -/
  schema : FileSchema.decode (bytes.slice Header.size
    (reader.header.tableOffset.toNat - Header.size)) = .ok reader.schema
  manifest : reader.schema.manifest = .ok reader.manifest
  distinct : reader.manifest.names.Nodup
  length : reader.entries.length = reader.header.stepCount.toNat
  /-- Each entry is that of its own bytes in the table. -/
  entry : ∀ step < reader.header.stepCount.toNat, ∃ entry, reader.entries[step]? = some entry ∧
    StepEntry.decode (bytes.slice
      (reader.header.tableOffset.toNat + step * Header.entrySize) Header.entrySize) = .ok entry
  /-- A written step that is read is read from a chunk between the header and the end. -/
  chunk : ∀ step entry values, reader.readStep step = .ok (entry, values) →
    entry.written = true →
      Header.size ≤ entry.chunkOffset.toNat ∧
      entry.chunkOffset.toNat + entry.chunkLength.toNat ≤ bytes.length ∧
      ∃ header, Chunk.decode reader.manifest
        (bytes.slice entry.chunkOffset.toNat entry.chunkLength.toNat) = .ok (header, values)

/-- A step is read from the region of its entry. -/
theorem exists_chunk_of_readStep {reader : Reader} {step : UInt32} {entry : StepEntry}
    {values : List FieldData} (read : reader.readStep step = .ok (entry, values))
    (written : entry.written = true) :
    Header.size ≤ entry.chunkOffset.toNat ∧
      entry.chunkOffset.toNat + entry.chunkLength.toNat ≤ reader.bytes.length ∧
      ∃ header, Chunk.decode reader.manifest
        (reader.bytes.slice entry.chunkOffset.toNat entry.chunkLength.toNat) =
          .ok (header, values) := by
  obtain ⟨-, own⟩ := readStep_eq_ok_iff.1 read
  obtain ⟨chunk, header, region, decoded, -⟩ := (readEntry_eq_ok_iff written).1 own
  obtain ⟨before, behind, rfl⟩ := Bytes.region_eq_ok_iff.1 region
  exact ⟨behind, before, header, decoded⟩

/-- The parts of a file that can be opened, whatever its bytes are. As exact numbers, its offsets
are those of a header, a schema block and a table that follow each other and end inside the file,
and everything that is read of it is read from these parts or from a chunk behind the header. -/
theorem isLaidOut_of_ofBytes {overflow : Overflow} {bytes : Bytes} {reader : Reader}
    (short : bytes.length < 2 ^ 63) (opened : ofBytes overflow bytes = .ok reader) :
    IsLaidOut bytes reader := by
  obtain ⟨length, distinct⟩ := of_ofBytes opened
  simp only [ofBytes, Error.bind_eq_ok_iff] at opened
  obtain ⟨header, decoded, block, atBlock, schema, described, manifest, named, table, atTable,
    made⟩ := opened
  cases made
  -- That the block was found bounds the words of the header.
  obtain ⟨blockInside, -, rfl⟩ := Bytes.region_eq_ok_iff.1 atBlock
  obtain ⟨tableInside, -, rfl⟩ := Bytes.region_eq_ok_iff.1 atTable
  rw [Header.toNat_tableLength] at tableInside
  have fits := Header.regionsEnd_lt_of_inside short blockInside
  obtain ⟨schemaOffset, tableOffset, dataOffset⟩ :=
    Header.offsets_of_validate (Header.decode_eq_ok_iff.1 decoded).2.2 fits
  rw [schemaOffset] at described
  refine ⟨Header.decode_of_regionsEnd_lt decoded fits, schemaOffset, tableOffset, dataOffset, ?_,
    ?_, named, distinct, length, ?_, ?_⟩
  · show header.dataOffset.toNat ≤ bytes.length
    omega
  · rw [tableOffset, Nat.add_sub_cancel_left]
    exact described
  · intro step inside
    rw [Header.toNat_tableLength]
    exact StepTable.exists_entry_of_inside tableInside inside
  · intro step entry values read written
    exact exists_chunk_of_readStep read written

/-- In the run whose steps fall the chunk of the first step lies behind that of the second. -/
theorem isLaidOut_fallingRun :
    FallingRun.image.bytes.length < 2 ^ 63 ∧
      ofBytes .stops FallingRun.image.bytes = .ok FallingRun.reader ∧
      IsLaidOut FallingRun.image.bytes FallingRun.reader := by
  have short : FallingRun.image.bytes.length < 2 ^ 63 := by decide +kernel
  have opened := FallingRun.ofBytes_image .stops
  exact ⟨short, opened, isLaidOut_of_ofBytes short opened⟩

end Reader

end RaggedTrajectory
