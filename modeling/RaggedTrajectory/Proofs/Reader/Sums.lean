import RaggedTrajectory.Proofs.Reader.Counts
import RaggedTrajectory.Proofs.Reader.Structure

/-!
# Sums of the words of a file

A reader adds up words that it finds in a file: the regions of the header, and the first record of a
step and its number of particles. A sum that is too large for a word stops a build with overflow
checks, and in a build without them it is wrong. So the question is which files have such sums.

The regions of a header can end behind the last word. Then one build stops at the header; the other
may take it for consistent, but no file can be opened with it, since the schema block would end
behind every file. In a file that can be opened the sums of the header are exact. Those of the table
can be too large where a number of particles is negative, and only there once the table is laid end
to end.

* `Header.stops_validate_eq`: where the two builds differ at a header.
* `Reader.checkTiling_eq`: entries without negative numbers are laid end to end in either build.
* `Reader.hasExactSums_of_ofBytes`: the sums over the words of any file.
-/

namespace RaggedTrajectory

/-! ## The regions of a header -/

namespace Header

/-- What is checked of a header before its offsets are looked at. -/
def PassesFirstChecks (header : Header) : Prop :=
  header.magic = expectedMagic ∧ (header.versionMajor = 1 ∧ header.versionMinor = 0) ∧
    header.vectorWidth.toNat = RaggedTrajectory.vectorWidth

instance (header : Header) : Decidable header.PassesFirstChecks :=
  inferInstanceAs (Decidable (_ ∧ _))

/-- The offsets of a header, as exact numbers. -/
structure HasExactOffsets (header : Header) : Prop where
  schema : header.schemaOffset.toNat = size
  table : header.tableOffset.toNat = header.schemaOffset.toNat + header.schemaLength.toNat
  data : header.dataOffset.toNat =
    header.tableOffset.toNat + header.stepCount.toNat * entrySize

/-- A byte string whose header gets as far as its offsets, with regions that end behind the last
word. -/
def HasLargeRegions (bytes : Bytes) : Prop :=
  size ≤ bytes.length ∧ ∃ header, (readWords bytes).1 = .ok header ∧
    header.PassesFirstChecks ∧ 2 ^ 64 ≤ header.regionsEnd

/-- Where sums stop, a header is checked as where they wrap, unless its regions end behind the last
word and its offsets are looked at. -/
theorem stops_validate_eq (header : Header) :
    header.validate .stops =
      if header.PassesFirstChecks ∧ 2 ^ 64 ≤ header.regionsEnd then .error .overflow
      else header.validate .wraps := by
  unfold validate PassesFirstChecks
  by_cases magic : header.magic = expectedMagic
  · by_cases version : header.versionMajor = 1 ∧ header.versionMinor = 0
    · by_cases width : header.vectorWidth.toNat = RaggedTrajectory.vectorWidth
      · by_cases large : 2 ^ 64 ≤ header.regionsEnd
        · simp [magic, version, width, large, hasConsistentOffsets_eq, bind, Except.bind]
        · simp [magic, version, width, large, hasConsistentOffsets_eq]
      · simp [magic, version, width]
    · have other := Decidable.not_and_iff_or_not.1 version
      simp [magic, version, other]
  · simp [magic]

variable {bytes : Bytes}

theorem stops_decode_of_hasLargeRegions (large : HasLargeRegions bytes) :
    decode .stops bytes = .error .overflow := by
  obtain ⟨long, header, words, passes, large⟩ := large
  rw [decode, if_neg (Nat.not_lt.2 long), words, Error.ok_bind, stops_validate_eq,
    if_pos ⟨passes, large⟩]
  rfl

theorem stops_decode_of_not_hasLargeRegions (small : ¬HasLargeRegions bytes) :
    decode .stops bytes = decode .wraps bytes := by
  unfold decode
  split
  · rfl
  next long =>
  cases words : (readWords bytes).1 with
  | error e => rfl
  | ok header =>
    have fits : ¬(header.PassesFirstChecks ∧ 2 ^ 64 ≤ header.regionsEnd) :=
      fun large => small ⟨Nat.not_lt.1 long, header, words, large⟩
    rw [Error.ok_bind, Error.ok_bind, stops_validate_eq, if_neg fits]

/-- A header that is accepted has passed the first checks. -/
theorem regionsEnd_lt_of_decode {header : Header} (decoded : decode .wraps bytes = .ok header)
    (small : ¬HasLargeRegions bytes) : header.regionsEnd < 2 ^ 64 := by
  obtain ⟨long, words, valid⟩ := decode_eq_ok_iff.1 decoded
  obtain ⟨magic, version, width, -⟩ := validate_eq_ok_iff.1 valid
  exact Nat.lt_of_not_le fun large => small ⟨long, header, words, ⟨magic, version, width⟩, large⟩

theorem hasExactOffsets_of_decode {overflow : Overflow} {header : Header}
    (decoded : decode overflow bytes = .ok header) (fits : header.regionsEnd < 2 ^ 64) :
    header.HasExactOffsets := by
  obtain ⟨schema, table, data⟩ := offsets_of_validate (decode_eq_ok_iff.1 decoded).2.2 fits
  exact ⟨schema, by rw [table, schema], data⟩

end Header

/-! ## The sums over a table -/

namespace Reader

/-- Entries without negative numbers of particles are compared in the same way in every build, as
long as their sum is a word. -/
theorem checkTiling_eq {start : UInt64} {entries : List StepEntry}
    (written : ∀ entry ∈ entries, entry.written = true)
    (counted : ∀ entry ∈ entries, 0 ≤ entry.particleCount.toInt)
    (word : start.toNat + sumOf (entries.map StepEntry.recordCount) < 2 ^ 64)
    (overflow other : Overflow) :
    checkTiling overflow start entries = checkTiling other start entries := by
  induction entries generalizing start with
  | nil => rfl
  | cons first entries ih =>
    obtain ⟨firstWritten, others⟩ := List.forall_mem_cons.1 written
    obtain ⟨firstCounted, rest⟩ := List.forall_mem_cons.1 counted
    rw [List.map_cons, sumOf_cons] at word
    rw [checkTiling, checkTiling]
    split
    · rfl
    next begins =>
    rw [Decidable.not_not] at begins
    -- The entry starts where the ones before it end, so its own end is a word too.
    obtain ⟨ends, next⟩ :=
      StepEntry.extent_of_counted firstWritten firstCounted (by rw [begins]; omega)
    rw [StepEntry.recordRange_of_endsAtWord ends, StepEntry.recordRange_of_endsAtWord ends]
    exact ih others rest (by rw [next, begins]; omega)

/-- A table without negative numbers of particles is verified in the same way in every build,
whatever comes of it. -/
theorem verify_eq {reader : Reader}
    (size : reader.entries.length = reader.header.stepCount.toNat)
    (counted : ∀ entry ∈ reader.entries, entry.written = true → 0 ≤ entry.particleCount.toInt)
    (overflow other : Overflow) : reader.verify overflow = reader.verify other := by
  have word : (0 : UInt64).toNat +
      sumOf ((reader.writtenSteps.map Prod.snd).map StepEntry.recordCount) < 2 ^ 64 := by
    rw [UInt64.toNat_zero, Nat.zero_add, map_recordCount_writtenSteps]
    exact sumOf_recordCounts_lt size
  have tiling := checkTiling_eq (fun entry mem => (mem_of_mem_writtenSteps mem).2)
    (fun entry mem =>
      counted entry (mem_of_mem_writtenSteps mem).1 (mem_of_mem_writtenSteps mem).2)
    word overflow other
  rw [verify, verify, tiling]

/-! ## Open files -/

/-- The sums over an open file. -/
structure HasExactSums (bytes : Bytes) (reader : Reader) : Prop where
  /-- The header is read in every build. -/
  header : ∀ overflow, Header.decode overflow bytes = .ok reader.header
  /-- Its offsets were compared as exact numbers. -/
  offsets : reader.header.HasExactOffsets
  /-- A range that ends at a word is exact in every build, and its end is not before its start. -/
  range : ∀ step entry, reader.entry step = .ok entry → entry.EndsAtWord →
    (∀ overflow, reader.stepRange overflow step = .ok entry.extent) ∧
      entry.extent.1 ≤ entry.extent.2 ∧
      (entry.written = true → entry.extent.1 = entry.recordStart ∧
        entry.extent.2.toNat = entry.recordStart.toNat + entry.count.toNat)
  /-- Any other range stops the one build, and ends before its start in the other. -/
  largeRange : ∀ step entry, reader.entry step = .ok entry → ¬entry.EndsAtWord →
    reader.stepRange .stops step = .error .overflow ∧
      reader.stepRange .wraps step = .ok entry.extent ∧ entry.extent.2 < entry.extent.1
  /-- Only a negative number of particles can make a sum over the table too large, whether the file
  is accepted or not. -/
  verify : (∀ entry ∈ reader.entries, entry.written = true → 0 ≤ entry.particleCount.toInt) →
    reader.verify .stops = reader.verify .wraps
  /-- In a file that is accepted all ranges are exact, and on the record axis. -/
  verified : (∀ entry ∈ reader.entries, entry.written = true → 0 ≤ entry.particleCount.toInt) →
    ∀ overflow, reader.verify overflow = .ok () → ∀ step entry, reader.entry step = .ok entry →
      entry.EndsAtWord ∧ entry.extent.2 ≤ reader.header.recordLength

/-- The header of an open file was read from it, and its schema block is inside. -/
theorem header_of_ofBytes {overflow : Overflow} {bytes : Bytes} {reader : Reader}
    (opened : ofBytes overflow bytes = .ok reader) :
    Header.decode overflow bytes = .ok reader.header ∧
      reader.header.schemaOffset.toNat + reader.header.schemaLength.toNat ≤ bytes.length := by
  simp only [ofBytes, Error.bind_eq_ok_iff] at opened
  obtain ⟨header, decoded, block, atBlock, schema, -, manifest, -, table, -, made⟩ := opened
  cases made
  exact ⟨decoded, (Bytes.region_eq_ok_iff.1 atBlock).1⟩

theorem stepRange_of_entry {reader : Reader} {step : UInt32} {entry : StepEntry}
    (found : reader.entry step = .ok entry) (overflow : Overflow) :
    reader.stepRange overflow step = entry.recordRange overflow := by
  rw [stepRange, found]
  rfl

/-- The records of a step of a verified table end before the counter of the header does. -/
theorem endsAtWord_of_covers {reader : Reader} (covers : reader.Covers) {step : UInt32}
    {entry : StepEntry} (found : reader.entry step = .ok entry)
    (counted : entry.written = true → 0 ≤ entry.particleCount.toInt) :
    entry.EndsAtWord ∧ entry.extent.2 ≤ reader.header.recordLength := by
  by_cases written : entry.written = true
  · have bound := recordStart_add_le covers (List.mem_of_getElem? (entry_eq_ok_iff.1 found)) written
    obtain ⟨ends, last⟩ := StepEntry.extent_of_counted written (counted written)
      (Nat.lt_of_le_of_lt bound reader.header.recordLength.toNat_lt)
    refine ⟨ends, ?_⟩
    rw [UInt64.le_iff_toNat_le, last]
    exact bound
  · refine ⟨fun own => absurd own written, ?_⟩
    rw [StepEntry.extent, if_neg written]
    exact UInt64.zero_le

/-- No file can be opened whose regions end behind the last word: one build stops at the header, and
in the other the schema block is not inside the file. -/
theorem ofBytes_of_hasLargeRegions {bytes : Bytes} (short : bytes.length < 2 ^ 63)
    (large : Header.HasLargeRegions bytes) :
    ofBytes .stops bytes = .error .overflow ∧
      ∀ header, Header.decode .wraps bytes = .ok header →
        ofBytes .wraps bytes = .error (.corrupt (.outsideFile "schema block")) := by
  refine ⟨?_, fun header decoded => ?_⟩
  · rw [ofBytes, Header.stops_decode_of_hasLargeRegions large]
    rfl
  · obtain ⟨-, own, words, -, behind⟩ := large
    obtain rfl : own = header :=
      Except.ok.inj (words.symm.trans (Header.decode_eq_ok_iff.1 decoded).2.1)
    -- Were the schema block inside the file, the regions would end at a word.
    have outside : ¬(own.schemaOffset.toNat + own.schemaLength.toNat ≤ bytes.length ∧
        Header.size ≤ own.schemaOffset.toNat) := by
      rintro ⟨block, -⟩
      exact Nat.not_lt.2 behind (Header.regionsEnd_lt_of_inside short block)
    rw [ofBytes, decoded, Error.ok_bind, Bytes.region, if_neg outside]
    rfl

/-- In a file that can be opened, the sums of the header are exact; those of the table are exact if
they end at a word. -/
theorem hasExactSums_of_opened {overflow : Overflow} {bytes : Bytes} {reader : Reader}
    (short : bytes.length < 2 ^ 63) (opened : ofBytes overflow bytes = .ok reader) :
    HasExactSums bytes reader := by
  obtain ⟨size, -⟩ := of_ofBytes opened
  obtain ⟨decoded, block⟩ := header_of_ofBytes opened
  have fits := Header.regionsEnd_lt_of_inside short block
  refine ⟨Header.decode_of_regionsEnd_lt decoded fits,
    Header.hasExactOffsets_of_decode decoded fits, fun step entry found ends => ⟨?_, ?_, ?_⟩,
    fun step entry found large => ⟨?_, ?_, ?_⟩, fun counted => verify_eq size counted _ _, ?_⟩
  · intro overflow
    rw [stepRange_of_entry found, StepEntry.recordRange_of_endsAtWord ends]
  · exact StepEntry.extent_le_iff.2 ends
  · intro written
    exact ⟨by rw [StepEntry.extent_of_written written], StepEntry.toNat_extent_snd written ends⟩
  · rw [stepRange_of_entry found, StepEntry.recordRange_eq, if_pos ⟨rfl, large⟩]
  · rw [stepRange_of_entry found, StepEntry.recordRange_eq, if_neg (fun stops => nomatch stops.1)]
  · exact UInt64.not_le.1 fun ordered => large (StepEntry.extent_le_iff.1 ordered)
  · intro counted overflow accepted step entry found
    exact endsAtWord_of_covers (covers_of_verify size counted accepted) found
      (counted entry (List.mem_of_getElem? (entry_eq_ok_iff.1 found)))

/-- The sums over the words of a file, whatever its bytes are. If the regions of the header end
behind the last word, a build with overflow checks stops there, and in a build without them no file
can be opened even if the header is accepted. Any other header is read in the same way in both, with
exact sums. In a file that can be opened the range of a step is exact if it ends at a word, and so
is all that is done to verify the table, if no number of particles is negative. -/
theorem hasExactSums_of_ofBytes {bytes : Bytes} (short : bytes.length < 2 ^ 63) :
    (Header.HasLargeRegions bytes →
      Header.decode .stops bytes = .error .overflow ∧ ofBytes .stops bytes = .error .overflow ∧
        ∀ header, Header.decode .wraps bytes = .ok header →
          ofBytes .wraps bytes = .error (.corrupt (.outsideFile "schema block"))) ∧
    (¬Header.HasLargeRegions bytes →
      Header.decode .stops bytes = Header.decode .wraps bytes ∧
        ∀ header, Header.decode .wraps bytes = .ok header → header.HasExactOffsets) ∧
    ∀ overflow reader, ofBytes overflow bytes = .ok reader → HasExactSums bytes reader := by
  refine ⟨fun large => ?_, fun small => ⟨?_, fun header decoded => ?_⟩, fun overflow reader => ?_⟩
  · exact ⟨Header.stops_decode_of_hasLargeRegions large, ofBytes_of_hasLargeRegions short large⟩
  · exact Header.stops_decode_of_not_hasLargeRegions small
  · exact Header.hasExactOffsets_of_decode decoded (Header.regionsEnd_lt_of_decode decoded small)
  · exact hasExactSums_of_opened short

/-- Two steps of a file that is accepted. Their ranges end on the record axis. -/
theorem hasExactSums_fallingRun :
    FallingRun.image.bytes.length < 2 ^ 63 ∧
      FallingRun.reader.verify .stops = FallingRun.reader.verify .wraps ∧
      ∀ step entry, FallingRun.reader.entry step = .ok entry →
        entry.EndsAtWord ∧ entry.extent.2 ≤ 3 := by
  have short : FallingRun.image.bytes.length < 2 ^ 63 := by decide +kernel
  have counted : ∀ entry ∈ FallingRun.reader.entries, entry.written = true →
      0 ≤ entry.particleCount.toInt := by decide +kernel
  obtain ⟨-, -, opened⟩ := hasExactSums_of_ofBytes short
  have sums := opened .stops _ (FallingRun.ofBytes_image .stops)
  exact ⟨short, sums.verify counted,
    sums.verified counted .stops (FallingRun.verify_reader .stops)⟩

end Reader

/-! ## Sums that are too large -/

namespace LargeHeader

/-- The header of a file whose schema block would be `2 ^ 64 - 256` bytes long: the table is at the
start of the file, and the chunks start behind its only entry. -/
def header : Header := .create .enhanced .stored 1 18446744073709551360

end LargeHeader

/-- A header whose sums are too large, and a step whose records start at 5 and end before 4: a build
without overflow checks takes the one for consistent and gives the other as it is. -/
theorem Reader.stops_bareRun :
    (Header.decode .wraps LargeHeader.header.encode = .ok LargeHeader.header ∧
      LargeHeader.header.tableOffset = 0 ∧
      Header.decode .stops LargeHeader.header.encode = .error .overflow) ∧
    (∀ overflow, ofBytes overflow (BareRun.image 5 (-1)).bytes = .ok (BareRun.reader 5 (-1))) ∧
      (BareRun.reader 5 (-1)).stepRange .wraps 0 = .ok (5, 4) ∧
      (BareRun.reader 5 (-1)).stepRange .stops 0 = .error .overflow := by
  have valid : LargeHeader.header.validate .wraps = .ok () :=
    Header.validate_eq_ok_iff.2 ⟨rfl, ⟨rfl, rfl⟩, rfl,
      Header.hasConsistentOffsets_eq_true_iff.2 ⟨by decide +kernel, fun stops => nomatch stops⟩,
      by decide⟩
  have decoded := Header.decode_encode valid []
  rw [List.append_nil] at decoded
  have large : Header.HasLargeRegions LargeHeader.header.encode := by
    obtain ⟨long, words, -⟩ := Header.decode_eq_ok_iff.1 decoded
    exact ⟨long, _, words, by decide +kernel, by decide +kernel⟩
  have found : (BareRun.reader 5 (-1)).entry 0 = .ok (BareRun.entry 5 (-1)) := rfl
  have extent : (BareRun.entry 5 (-1)).extent = (5, 4) := by decide +kernel
  have wraps : ¬(BareRun.entry 5 (-1)).EndsAtWord := by decide +kernel
  refine ⟨⟨decoded, by decide +kernel, Header.stops_decode_of_hasLargeRegions large⟩,
    BareRun.ofBytes_image 5 (-1), ?_, ?_⟩
  · rw [stepRange_of_entry found, StepEntry.recordRange_eq, if_neg (fun stops => nomatch stops.1),
      extent]
  · rw [stepRange_of_entry found, StepEntry.recordRange_eq, if_pos ⟨rfl, wraps⟩]

end RaggedTrajectory
