import RaggedTrajectory.Config
import RaggedTrajectory.Proofs.Chunk.RoundTrip

/-!
# How payloads are stored

Of a configuration a chunk only knows the policy, and of the policy it keeps no more than the codec
it was stored with: that of the policy, for a payload that is long enough and gets shorter by it,
and otherwise none. Without a codec the payload is the values themselves, one behind the other.

* `CompressionPolicy.store_cases`: the two ways to store a payload.
* `Chunk.isStored_of_encode`: the chunk of a snapshot, stored by the policy of a codec.
* `OutputConfig.policy_eq`: the policy of a configuration is that of a codec.
-/

namespace RaggedTrajectory

namespace CompressionPolicy

/-- A payload is stored as it is, or it is long enough and the codec of the policy is used. -/
theorem store_cases (policy : CompressionPolicy) (data : Bytes) :
    policy.store data = (data, .stored) ∨
      policy.threshold ≤ data.length ∧
        policy.store data = (policy.method.compress data, policy.method) := by
  unfold store
  split
  · exact .inl rfl
  · next long =>
      dsimp only
      split
      · exact .inr ⟨Nat.not_lt.1 fun short => long (.inl short), rfl⟩
      · exact .inl rfl

theorem codec_of_store (policy : CompressionPolicy) (data : Bytes) :
    (policy.store data).2 = .stored ∨ (policy.store data).2 = policy.method := by
  rcases policy.store_cases data with same | ⟨-, same⟩
  · exact .inl (congrArg Prod.snd same)
  · exact .inr (congrArg Prod.snd same)

theorem threshold_le_of_store {policy : CompressionPolicy} {data : Bytes}
    (coded : (policy.store data).2 ≠ .stored) : policy.threshold ≤ data.length := by
  rcases policy.store_cases data with same | ⟨long, -⟩
  · exact absurd (congrArg Prod.snd same) coded
  · exact long

/-- Without a codec nothing happens to a payload, even if it is the codec of the policy that is
none. -/
theorem store_of_stored {policy : CompressionPolicy} {data : Bytes}
    (raw : (policy.store data).2 = .stored) : (policy.store data).1 = data := by
  rcases policy.store_cases data with same | ⟨-, same⟩
  · exact congrArg Prod.fst same
  · have method : policy.method = .stored := (congrArg Prod.snd same).symm.trans raw
    rw [same, method]
    rfl

@[simp]
theorem method_ofCodec (codec : Codec) : (ofCodec codec).method = codec := by
  cases codec <;> rfl

end CompressionPolicy

namespace OutputConfig

/-- The codec that the files of a configuration are made with. -/
def fileCodec (config : OutputConfig) : Codec :=
  if config.compress = true ∧ config.format = .enhanced then config.codec else .stored

/-- The policy of a configuration is that of the codec of its files. -/
theorem policy_eq (config : OutputConfig) : config.policy = .ofCodec config.fileCodec := by
  unfold policy fileCodec FileFormat.supportsCompression
  simp only [decide_eq_true_eq]
  split <;> rfl

/-- Without compression, or in the classic format, there is no codec. -/
theorem fileCodec_eq_stored {config : OutputConfig}
    (raw : config.compress = false ∨ config.format = .classic) : config.fileCodec = .stored := by
  refine if_neg ?_
  rintro ⟨compressed, enhanced⟩
  rcases raw with off | classic
  · rw [off] at compressed
    cases compressed
  · rw [classic] at enhanced
    cases enhanced

end OutputConfig

namespace Chunk

/-- The values that a chunk records, field by field and one behind the other. -/
def recordedBytes (manifest : Manifest) (snapshot : Snapshot) : Bytes :=
  (recorded manifest snapshot).flatMap FieldData.encode

/-- The raw payload is the values. -/
theorem payload_eq_recordedBytes {manifest : Manifest} {snapshot : Snapshot} {raw : Bytes}
    (made : payload snapshot manifest.fields = .ok raw) :
    raw = recordedBytes manifest snapshot := by
  obtain ⟨fields⟩ := manifest
  show raw = (fields.map (·.recorded snapshot)).flatMap FieldData.encode
  induction fields generalizing raw with
  | nil =>
    cases made
    rfl
  | cons field fields ih =>
    obtain ⟨column, columns, first, others, rfl⟩ := payload_cons made
    rw [List.map_cons, List.flatMap_cons, (Field.column_eq_encode_recorded first).1, ih others]

/-- How the values of a snapshot are stored in a chunk of a file with a codec. -/
structure IsStored (codec : Codec) (manifest : Manifest) (step : UInt32) (snapshot : Snapshot)
    (chunk : Bytes) (header : ChunkHeader) (stored : Bytes) : Prop where
  /-- The chunk is its header and the stored values. -/
  bytes : chunk = header.encode ++ stored
  step : header.step = step
  count : header.count = UInt64.ofNat snapshot.count
  /-- The codec is that of the file, or there is none. -/
  codec : header.codec = .stored ∨ header.codec = codec
  /-- The values are read back by it. -/
  readable : Codec.decompress stored header.codec (recordedBytes manifest snapshot).length =
    .ok (recordedBytes manifest snapshot)
  rawLength : snapshot.count * manifest.stride < 2 ^ 64 →
    header.rawLength.toNat = snapshot.count * manifest.stride
  /-- With a codec, the raw length has reached the threshold. -/
  threshold : header.codec ≠ .stored → snapshot.count * manifest.stride < 2 ^ 64 →
    (CompressionPolicy.ofCodec header.codec).threshold ≤ header.rawLength.toNat
  /-- Without a codec, the values are stored as they are. -/
  raw : header.codec = .stored → stored = recordedBytes manifest snapshot ∧
    header.storedLength = header.rawLength ∧
    header.rawLength.toNat = snapshot.count * manifest.stride

/-- The chunk that is made of a snapshot by the policy of a codec, if its length is a word. -/
theorem isStored_of_encode {codec : Codec} {manifest : Manifest} {step : UInt32}
    {recordStart : UInt64} {snapshot : Snapshot} {chunk : Bytes}
    (made : encode manifest step recordStart snapshot (.ofCodec codec) = .ok chunk)
    (short : chunk.length < 2 ^ 64) :
    ∃ header stored, IsStored codec manifest step snapshot chunk header stored := by
  obtain ⟨raw, payload, rfl⟩ := exists_payload_of_encode made
  have values := payload_eq_recordedBytes payload
  have length : raw.length = snapshot.count * manifest.stride := length_payload payload
  let policy : CompressionPolicy := .ofCodec codec
  have codecs : (policy.store raw).2 = .stored ∨ (policy.store raw).2 = codec := by
    rw [← CompressionPolicy.method_ofCodec codec]
    exact policy.codec_of_store raw
  have sized (fits : raw.length < 2 ^ 64) :
      (headerOf step recordStart snapshot.count raw policy).rawLength.toNat =
        snapshot.count * manifest.stride :=
    (UInt64.toNat_ofNat_of_lt' fits).trans length
  refine ⟨headerOf step recordStart snapshot.count raw policy, (policy.store raw).1, rfl, rfl, rfl,
    codecs, values ▸ policy.decompress_store raw, length ▸ sized, ?_, ?_⟩
  · intro coded fits
    have own : (policy.store raw).2 = codec := codecs.resolve_left coded
    show (CompressionPolicy.ofCodec (policy.store raw).2).threshold ≤ _
    rw [sized (length ▸ fits), ← length, own]
    exact CompressionPolicy.threshold_le_of_store coded
  · intro none
    have plain : (policy.store raw).1 = raw := CompressionPolicy.store_of_stored none
    rw [List.length_append, plain] at short
    refine ⟨plain.trans values, ?_, sized (Nat.lt_of_le_of_lt (Nat.le_add_left _ _) short)⟩
    show UInt64.ofNat (policy.store raw).1.length = UInt64.ofNat raw.length
    rw [plain]

/-- A chunk that has the values of a snapshot as they are. -/
structure IsRaw (manifest : Manifest) (step : UInt32) (snapshot : Snapshot) (chunk : Bytes)
    (header : ChunkHeader) : Prop where
  bytes : chunk = header.encode ++ recordedBytes manifest snapshot
  step : header.step = step
  count : header.count = UInt64.ofNat snapshot.count
  codec : header.codec = .stored
  storedLength : header.storedLength = header.rawLength
  rawLength : header.rawLength.toNat = snapshot.count * manifest.stride

/-- In a file without a codec every chunk has the values as they are. -/
theorem isRaw_of_isStored {manifest : Manifest} {step : UInt32} {snapshot : Snapshot}
    {chunk : Bytes} {header : ChunkHeader} {stored : Bytes}
    (made : IsStored .stored manifest step snapshot chunk header stored) :
    IsRaw manifest step snapshot chunk header := by
  have codec : header.codec = .stored := made.codec.elim id id
  obtain ⟨values, lengths, rawLength⟩ := made.raw codec
  exact ⟨values ▸ made.bytes, made.step, made.count, codec, lengths, rawLength⟩

end Chunk

end RaggedTrajectory
