import RaggedTrajectory.Proofs.Chunk.RoundTrip
import RaggedTrajectory.Proofs.Compression.Expansion
import RaggedTrajectory.Proofs.File.Run

/-!
# What a chunk gives back

A chunk that was made of a snapshot gives back, field by field, what the snapshot has for the field:
the value of the array at each place of the column, in the type of the field, and the fill value if
there is no array. Where the chunk ends is known from its header, so it does not matter what follows
it.

Compression can only make a payload longer by half, so no word of the header wraps if the raw
payload has less than 2^63 bytes.

* `Field.getElem?_recorded`: the values of a column, place by place.
* `Chunk.decode_of_encode`: a chunk is read back, whatever follows it.
-/

namespace RaggedTrajectory

namespace Field

/-- The place in its array that a place in the column of a field is taken from. -/
def sourceOf (field : Field) (place : Nat) : Nat :=
  match field.binding with
  | .array _ => place
  | .component _ index => place * vectorWidth + index

/-- The value that a snapshot has for a place in the column of a field. -/
def valueAt? (field : Field) (snapshot : Snapshot) (place : Nat) : Option field.dtype.Element :=
  match snapshot.get? field.binding.arrayName with
  | none => some field.dtype.fill
  | some array =>
    (array.data.values[field.sourceOf place]?).map (DataType.cast array.data.dtype field.dtype)

/-- A column records what the snapshot has for each of its places. -/
theorem getElem?_recorded {field : Field} {snapshot : Snapshot} {column : Bytes}
    (made : field.column snapshot = .ok column) {place : Nat}
    (inside : place < snapshot.count * field.width) :
    (field.recorded snapshot).values[place]? = field.valueAt? snapshot place := by
  unfold Field.column at made
  unfold recorded valueAt? sourceOf
  cases present : snapshot.get? field.binding.arrayName with
  | none => simp [inside]
  | some array =>
    rw [present] at made
    cases binding : field.binding with
    | array name => simp
    | component name index =>
      obtain ⟨scalar, taken, -⟩ := columnOf_eq_ok_of_component binding made
      -- The field is scalar, so its places are the particles.
      rw [width, scalar, FieldShape.width, Nat.mul_one] at inside
      have source : place * vectorWidth + index < array.data.values.size := taken place inside
      simp [inside, source, Array.getD]

end Field

namespace Chunk

/-- Every field of a payload has its column. -/
theorem exists_column_of_payload {snapshot : Snapshot} {fields : List Field} {raw : Bytes}
    (made : payload snapshot fields = .ok raw) {field : Field} (mem : field ∈ fields) :
    ∃ column, field.column snapshot = .ok column := by
  induction fields generalizing raw with
  | nil => cases mem
  | cons first fields ih =>
    obtain ⟨column, columns, own, others, -⟩ := payload_cons made
    rcases List.mem_cons.1 mem with rfl | later
    · exact ⟨column, own⟩
    · exact ih others later

/-- A chunk is read back, whatever follows it: its header, and for every field the values that the
snapshot has for the places of its column. -/
theorem decode_of_encode {manifest : Manifest} {step : UInt32} {recordStart : UInt64}
    {snapshot : Snapshot} {policy : CompressionPolicy} {chunk : Bytes}
    (count : snapshot.count < 2 ^ 64) (fits : snapshot.count * manifest.stride < 2 ^ 63)
    (made : encode manifest step recordStart snapshot policy = .ok chunk) (trailing : Bytes) :
    ∃ header, decode manifest (chunk ++ trailing) =
        .ok (header, manifest.fields.map (·.recorded snapshot)) ∧
      header.step = step ∧ header.recordStart = recordStart ∧
      header.count.toNat = snapshot.count ∧
      header.rawLength.toNat = snapshot.count * manifest.stride ∧
      chunk.length = ChunkHeader.size + header.storedLength.toNat ∧
      ∀ field ∈ manifest.fields,
        (field.recorded snapshot).dtype = field.dtype ∧
        (field.recorded snapshot).length = snapshot.count * field.width ∧
        ∀ place < snapshot.count * field.width,
          (field.recorded snapshot).values[place]? = field.valueAt? snapshot place := by
  obtain ⟨raw, payload, rfl⟩ := exists_payload_of_encode made
  have rawLength : raw.length = snapshot.count * manifest.stride := length_payload payload
  have short : raw.length < 2 ^ 63 := rawLength ▸ fits
  have rawWord : raw.length < 2 ^ 64 := Nat.lt_trans short (by decide)
  have storedWord : (policy.store raw).1.length < 2 ^ 64 := policy.length_store_lt short
  have back := decode_headerOf_append payload step recordStart policy count rawWord storedWord
    trailing
  rw [← List.append_assoc] at back
  refine ⟨_, back, rfl, rfl, UInt64.toNat_ofNat_of_lt' count, ?_, ?_, fun field mem => ?_⟩
  · rw [← rawLength]
    exact UInt64.toNat_ofNat_of_lt' rawWord
  · rw [List.length_append, ChunkHeader.length_encode]
    exact congrArg (ChunkHeader.size + ·) (UInt64.toNat_ofNat_of_lt' storedWord).symm
  · obtain ⟨column, own⟩ := exists_column_of_payload payload mem
    exact ⟨rfl, (Field.column_eq_encode_recorded own).2, fun place inside =>
      Field.getElem?_recorded own inside⟩

/-- Two particles of which only the masses are known: all other columns are filled. -/
theorem decode_of_encode_pair :
    ∃ chunk header, encode standardManifest 1 0 SmallRun.pair (.ofCodec .zstd) = .ok chunk ∧
      decode standardManifest (chunk ++ [1, 2, 3]) =
        .ok (header, standardManifest.fields.map (·.recorded SmallRun.pair)) ∧
      header.count.toNat = 2 ∧ header.rawLength.toNat = 46 := by
  obtain ⟨chunk, made⟩ :
      ∃ chunk, encode standardManifest 1 0 SmallRun.pair (.ofCodec .zstd) = .ok chunk :=
    ⟨_, rfl⟩
  obtain ⟨header, back, -, -, count, rawLength, -, -⟩ :=
    decode_of_encode (by decide) (by decide) made [1, 2, 3]
  exact ⟨chunk, header, made, back, count, rawLength⟩

end Chunk

end RaggedTrajectory
