import RaggedTrajectory.Compression.Policy

/-!
# How much a codec can add

Data that has no repetitions gets longer when it is compressed, but not by much: what a codec makes
of it is at most half as long again, and a few bytes. A block of sequences is counted sequence by
sequence: each one describes at least the four bytes of its copy, and they pay for its token and its
offset. A frame is counted block by block: all but the last have the greatest size, which pays for
their headers.

* `Lz4.length_compress_le`, `Zstd.length_compress_le`: the bounds of the codecs.
* `CompressionPolicy.length_store_lt`: the length of what is stored is a word, if half a word holds
  the length of the data.
-/

namespace RaggedTrajectory

namespace Compression

theorem commonLength_le (input : Array UInt8) (a b limit : Nat) :
    commonLength input a b limit ≤ limit := by
  induction limit generalizing a b with
  | zero => exact Nat.le_refl 0
  | succ limit ih =>
    rw [commonLength]
    split
    · exact Nat.succ_le_succ (ih (a + 1) (b + 1))
    · exact Nat.zero_le _

theorem commonBefore_le (input : Array UInt8) (a b limit : Nat) :
    commonBefore input a b limit ≤ limit := by
  induction limit generalizing a b with
  | zero => exact Nat.le_refl 0
  | succ limit ih =>
    rw [commonBefore]
    split
    · exact Nat.succ_le_succ (ih (a - 1) (b - 1))
    · exact Nat.zero_le _

theorem length_between_le (input : Array UInt8) (start stop : Nat) :
    (between input start stop).length ≤ stop - start := by
  rw [between, Array.length_toList, Array.size_extract]
  omega

end Compression

open Compression

/-! ## Blocks of sequences -/

namespace Lz4

theorem length_writeLength_le (length : Nat) : (writeLength length).length ≤ length / 15 := by
  unfold writeLength
  split
  · exact Nat.zero_le _
  · rw [writeExtension, List.length_append, List.length_replicate, List.length_singleton]
    omega

/-- A sequence takes at most half as many bytes again as it describes. -/
theorem length_encode_le (s : Sequence) :
    2 * s.encode.length ≤ 3 * (s.literals.length + minMatch + s.extra) := by
  -- The token and the offset are three bytes, and the copy describes at least four.
  have literals := length_writeLength_le s.literals.length
  have copy := length_writeLength_le s.extra
  simp only [Sequence.encode, List.length_cons, List.length_append, LittleEndian.length_encode,
    minMatch]
  omega

theorem length_encodeLiterals_le (literals : Bytes) :
    2 * (encodeLiterals literals).length ≤ 3 * literals.length + 2 := by
  have further := length_writeLength_le literals.length
  rw [encodeLiterals, List.length_cons, List.length_append]
  omega

/-- A search goes forwards and stops before the end. -/
theorem search_le {input : Array UInt8} {last fuel misses place found candidate : Nat}
    {table after : Table}
    (searched : search input last fuel misses place table = (some (found, candidate), after)) :
    place ≤ found ∧ found ≤ last := by
  induction fuel generalizing misses place table with
  | zero => cases searched
  | succ fuel ih =>
    rw [search] at searched
    split at searched
    · cases searched
    · next inside =>
        dsimp only at searched
        split at searched
        · cases searched
          exact ⟨Nat.le_refl _, Nat.not_lt.1 inside⟩
        · obtain ⟨forwards, before⟩ := ih searched
          exact ⟨Nat.le_of_add_right_le forwards, before⟩

/-- What the sequences of an input take is counted against what they describe: the part of the input
from `start` to the place where the last literals start. -/
theorem length_sequences_le {input : Array UInt8} (long : 13 ≤ input.size)
    {fuel start place finish : Nat} {table : Table} {found all : List Sequence}
    (ordered : start ≤ place) (inside : start ≤ input.size)
    (made : sequences input fuel start place table found = (all, finish)) :
    finish ≤ input.size ∧ 2 * (all.flatMap Sequence.encode).length + 3 * start ≤
      2 * (found.flatMap Sequence.encode).length + 3 * finish := by
  have turned : (found.reverse.flatMap Sequence.encode).length =
      (found.flatMap Sequence.encode).length := by
    simp only [List.length_flatMap, List.map_reverse, List.sum_reverse]
  induction fuel generalizing start place table found with
  | zero =>
    cases made
    exact ⟨inside, by omega⟩
  | succ fuel ih =>
    rw [sequences] at made
    split at made
    · cases made
      exact ⟨inside, by omega⟩
    · next place candidate table searched =>
        obtain ⟨forwards, before⟩ := search_le searched
        dsimp only at made
        -- The copy starts between `start` and the place that was found, and ends inside the input.
        have behind_le := commonBefore_le input place candidate (min (place - start) candidate)
        generalize commonBefore input place candidate (min (place - start) candidate) = behind at *
        have ahead_le := commonLength_le input (place - behind + 4) (candidate - behind + 4)
          (input.size - 6 - (place - behind + 4))
        generalize commonLength input (place - behind + 4) (candidate - behind + 4)
          (input.size - 6 - (place - behind + 4)) = ahead at *
        have literals := length_between_le input start (place - behind)
        obtain ⟨within, counted⟩ := ih (Nat.le_refl _) (by omega) made
          (by simp only [List.length_flatMap, List.map_reverse, List.sum_reverse])
        have own := length_encode_le
          ⟨between input start (place - behind), place - behind - (candidate - behind), ahead⟩
        refine ⟨within, ?_⟩
        rw [List.flatMap_cons, List.length_append] at counted
        simp only [minMatch] at own
        omega

theorem length_propose_le (data : Bytes) : 2 * (propose data).length ≤ 3 * data.length + 2 := by
  unfold propose
  dsimp only
  split
  · exact length_encodeLiterals_le data
  · next long =>
      -- Nothing was described before the first sequence.
      generalize made : sequences data.toArray data.toArray.size 0 1 _ [] = result
      obtain ⟨found, start⟩ := result
      obtain ⟨inside, counted⟩ :=
        length_sequences_le (Nat.not_lt.1 long) (Nat.zero_le 1) (Nat.zero_le _) made
      have last := length_between_le data.toArray start data.toArray.size
      have literals := length_encodeLiterals_le (between data.toArray start data.toArray.size)
      rw [List.length_append]
      simp only [List.flatMap_nil, List.length_nil, List.size_toArray] at *
      omega

theorem length_compress_le (data : Bytes) : 2 * (compress data).length ≤ 3 * data.length + 2 := by
  unfold compress
  dsimp only
  split
  · exact length_propose_le data
  · exact length_encodeLiterals_le data

end Lz4

/-! ## Frames -/

namespace Zstd

@[simp]
theorem length_blockHeader (isLast : Bool) (kind size : Nat) :
    (blockHeader isLast kind size).length = 3 := LittleEndian.length_encode _ _

theorem length_frameStart_le (length : Nat) : (frameStart length).length ≤ 9 := by
  have content : (contentHeader length).length ≤ 5 := by
    unfold contentHeader
    repeat' split
    all_goals simp
  rw [frameStart, List.length_append, LittleEndian.length_encode]
  omega

/-- Data that is stored as it is takes the headers of its blocks besides. -/
theorem length_storedBlocks_le (more : Nat) (data : Bytes) :
    2 * (storedBlocks more data).length ≤ 3 * data.length + 6 := by
  induction more generalizing data with
  | zero =>
    rw [storedBlocks, List.length_append, length_blockHeader]
    omega
  | succ more ih =>
    rw [storedBlocks]
    split
    · rw [List.length_append, length_blockHeader]
      omega
    · next long =>
        -- A block of the greatest size pays for its own header.
        have rest := ih (data.drop maxBlock)
        have great : maxBlock = 2 ^ 17 := by decide
        simp only [List.length_append, length_blockHeader, List.length_take, List.length_drop]
          at rest ⊢
        omega

/-- A block that describes a part of the data is shorter than the part. -/
theorem length_lt_of_describedBlock {input : Array UInt8} {start stop : Nat} {past after : Past}
    {block : Bytes} (described : describedBlock input start stop past = (some block, after)) :
    block.length < stop - start := by
  unfold describedBlock at described
  dsimp only at described
  split at described
  · cases described
  · split at described
    · next shorter =>
        cases described
        omega
    · cases described

/-- Whatever form is chosen for a block, it adds no more than its header. -/
theorem length_block_le {input : Array UInt8} {start stop : Nat} {past after : Past}
    {described : Option Bytes}
    (made : describedBlock input start stop past = (described, after)) (isLast : Bool) :
    (match described with
      | some bytes =>
        if 0 < start ∧ bytes.length < 25 ∧ isUniform input start stop then
          blockHeader isLast 1 (stop - start) ++ (input.extract start (start + 1)).toList
        else blockHeader isLast 2 bytes.length ++ bytes
      | none => blockHeader isLast 0 (stop - start) ++ between input start stop).length ≤
      3 + (stop - start) := by
  split
  · have shorter := length_lt_of_describedBlock made
    split
    · rw [List.length_append, length_blockHeader, Array.length_toList, Array.size_extract]
      omega
    · rw [List.length_append, length_blockHeader]
      omega
  · have same := length_between_le input start stop
    rw [List.length_append, length_blockHeader]
    omega

/-- The blocks of the data from `start` on take what they are made from, and their headers. -/
theorem length_blocksFrom_le (input : Array UInt8) (fuel : Nat) {start : Nat} (past : Past)
    (inside : start ≤ input.size) :
    2 * (blocksFrom input fuel start past).flatten.length + 3 * start ≤ 3 * input.size + 6 := by
  induction fuel generalizing start past with
  | zero =>
    rw [blocksFrom, List.flatten_nil, List.length_nil]
    omega
  | succ fuel ih =>
    rw [blocksFrom]
    generalize stop_eq : min input.size (start + maxBlock) = stop
    have great : maxBlock = 2 ^ 17 := by decide
    cases made : describedBlock input start stop past with
    | mk described after =>
      -- For the last block nothing follows; any other has the greatest size.
      have counted : ∀ block : Bytes, block.length ≤ 3 + (stop - start) →
          2 * (if decide (stop = input.size) then [block]
            else block :: blocksFrom input fuel stop after).flatten.length + 3 * start ≤
            3 * input.size + 6 := by
        intro block own
        split
        · rw [List.flatten_singleton]
          omega
        · next more =>
            rw [decide_eq_true_iff] at more
            have rest := ih after (show stop ≤ input.size by omega)
            rw [List.flatten_cons, List.length_append]
            omega
      exact counted _ (length_block_le made _)

theorem length_compress_le (data : Bytes) : 2 * (compress data).length ≤ 3 * data.length + 24 := by
  have header := length_frameStart_le data.length
  unfold compress
  dsimp only
  split
  · have blocks := length_blocksFrom_le data.toArray (data.length + 1)
      (Past.initial data.length) (Nat.zero_le data.toArray.size)
    rw [propose, List.length_append]
    simp only [List.size_toArray] at blocks ⊢
    omega
  · have blocks := length_storedBlocks_le (data.length / maxBlock) data
    rw [storedFrame, List.length_append]
    omega

end Zstd

/-! ## What a policy stores -/

theorem Codec.length_compress_le (data : Bytes) (codec : Codec) :
    2 * (codec.compress data).length ≤ 3 * data.length + 24 := by
  cases codec with
  | stored => rw [compress]; omega
  | lz4 => have bound := Lz4.length_compress_le data; rw [compress]; omega
  | zstd => exact Zstd.length_compress_le data

namespace CompressionPolicy

theorem length_store_le (policy : CompressionPolicy) (data : Bytes) :
    2 * (policy.store data).1.length ≤ 3 * data.length + 24 := by
  unfold store
  split
  · dsimp only
    omega
  · dsimp only
    split
    · exact Codec.length_compress_le data policy.method
    · dsimp only
      omega

/-- The length of what is stored is a word, whatever the policy keeps. -/
theorem length_store_lt (policy : CompressionPolicy) {data : Bytes} (short : data.length < 2 ^ 63) :
    (policy.store data).1.length < 2 ^ 64 := by
  have bound := policy.length_store_le data
  omega

end CompressionPolicy

end RaggedTrajectory
