import RaggedTrajectory.Compression.Zstd.Decoder

/-!
# Frames of stored blocks

The plainest frame for any data keeps it as it is, in blocks of the greatest size.

* `decode_storedFrame`: a frame of stored blocks is read back.
-/

namespace RaggedTrajectory.Zstd

open Compression

/-- The part of a frame's header after the magic number: no window, and the size of the content.
Very large content has a window instead. -/
def contentHeader (length : Nat) : Bytes :=
  if length < 256 then 0x20 :: LittleEndian.encode 1 length
  else if length < 65792 then 0x60 :: LittleEndian.encode 2 (length - 256)
  else if length < 2 ^ 32 then 0xA0 :: LittleEndian.encode 4 length
  else [0x00, 0x58]

/-- The header of a block: whether it is the last one, its type and its size. -/
def blockHeader (isLast : Bool) (kind size : Nat) : Bytes :=
  LittleEndian.encode 3 ((if isLast then 1 else 0) + 2 * kind + 8 * size)

/-- The data in blocks that are stored as they are. -/
def storedBlocks : (more : Nat) → Bytes → Bytes
  | 0, data => blockHeader true 0 data.length ++ data
  | more + 1, data =>
    if data.length ≤ maxBlock then blockHeader true 0 data.length ++ data
    else
      blockHeader false 0 maxBlock ++ (data.take maxBlock ++ storedBlocks more (data.drop maxBlock))

/-- The start of a frame. -/
def frameStart (length : Nat) : Bytes :=
  LittleEndian.encode 4 frameMagic ++ contentHeader length

/-- A frame that stores the data as it is. -/
def storedFrame (data : Bytes) : Bytes :=
  frameStart data.length ++ storedBlocks (data.length / maxBlock) data

theorem split?_encode (width value : Nat) (rest : Bytes) :
    split? width (LittleEndian.encode width value ++ rest) =
      some (LittleEndian.encode width value, rest) := by
  have h := split?_append (LittleEndian.encode width value) rest
  rwa [LittleEndian.length_encode] at h

/-- Reading a stored block that is the last one, or goes before others. -/
theorem decodeBlocks_stored (start capacity limit fuel : Nat) (context : BlockContext)
    (isLast : Bool) (block rest : Bytes) (output : Array UInt8) (hb : block.length ≤ maxBlock)
    (hc : output.size + block.length ≤ capacity) :
    decodeBlocks start capacity limit (fuel + 1) context
        (blockHeader isLast 0 block.length ++ (block ++ rest)) output =
      if isLast then some (pushAll output block, rest)
      else decodeBlocks start capacity limit fuel context rest (pushAll output block) := by
  have hlt : (if isLast then 1 else 0) + 2 * 0 + 8 * block.length < 256 ^ 3 := by
    simp [maxBlock] at hb; cases isLast <;> simp <;> omega
  have hnot : ¬ capacity < output.size + block.length := by omega
  have hkind : ((if isLast then 1 else 0) + 2 * 0 + 8 * block.length) / 2 % 4 = 0 := by
    cases isLast <;> simp <;> omega
  have hsize : ((if isLast then 1 else 0) + 2 * 0 + 8 * block.length) / 8 = block.length := by
    cases isLast <;> simp
    omega
  have hlast : ((if isLast then 1 else 0) + 2 * 0 + 8 * block.length) % 2 =
      if isLast then 1 else 0 := by
    cases isLast <;> simp <;> omega
  rw [decodeBlocks, blockHeader, split?_encode]
  simp only [Option.bind_eq_bind, Option.bind_some, LittleEndian.decode_encode hlt, hkind, hsize,
    split?_append, hlast, hnot, if_false]
  cases isLast <;> simp

theorem decodeBlocks_storedBlocks (start capacity limit : Nat) :
    ∀ (more fuel : Nat) (context : BlockContext) (data : Bytes) (output : Array UInt8),
      more < fuel → data.length ≤ maxBlock * (more + 1) → output.size + data.length ≤ capacity →
      decodeBlocks start capacity limit fuel context (storedBlocks more data) output =
        some (pushAll output data, []) := by
  intro more
  induction more with
  | zero =>
    intro fuel context data output hfuel hdata hcap
    obtain ⟨fuel, rfl⟩ : ∃ n, fuel = n + 1 := ⟨fuel - 1, by omega⟩
    have h := decodeBlocks_stored start capacity limit fuel context true data [] output
      (by omega) hcap
    simpa [storedBlocks] using h
  | succ more ih =>
    intro fuel context data output hfuel hdata hcap
    obtain ⟨fuel, rfl⟩ : ∃ n, fuel = n + 1 := ⟨fuel - 1, by omega⟩
    by_cases hle : data.length ≤ maxBlock
    · have h := decodeBlocks_stored start capacity limit fuel context true data [] output hle hcap
      simpa [storedBlocks, hle] using h
    · have htake : (data.take maxBlock).length = maxBlock := by simp; omega
      have hdrop : (data.drop maxBlock).length = data.length - maxBlock := by simp
      have hsize : (pushAll output (data.take maxBlock)).size = output.size + maxBlock := by
        rw [← Array.length_toList, toList_pushAll, List.length_append, htake, Array.length_toList]
      have h := decodeBlocks_stored start capacity limit fuel context false (data.take maxBlock)
        (storedBlocks more (data.drop maxBlock)) output (by omega) (by omega)
      rw [htake] at h
      rw [storedBlocks, if_neg hle, h]
      have hrest := ih fuel context (data.drop maxBlock) (pushAll output (data.take maxBlock))
        (by omega) (by
          have hmul : maxBlock * (more + 1 + 1) = maxBlock * (more + 1) + maxBlock :=
            Nat.mul_succ _ _
          omega) (by omega)
      have hjoin : pushAll (pushAll output (data.take maxBlock)) (data.drop maxBlock) =
          pushAll output data := by
        apply Array.toList_inj.1
        simp [toList_pushAll]
      simpa [hjoin] using hrest

theorem read?_contentHeader (length : Nat) (rest : Bytes) :
    ∃ window size, FrameHeader.read? (contentHeader length ++ rest) =
      some (⟨window, size, false⟩, rest) ∧ ∀ n ∈ size, n = length := by
  have zero : ∀ input : Bytes, split? 0 input = some ([], input) := fun _ => rfl
  unfold contentHeader
  split
  · have hd : LittleEndian.decode (LittleEndian.encode 1 length) = length :=
      LittleEndian.decode_encode (by omega)
    exact ⟨none, some length, by
      simp [FrameHeader.read?, zero, split?_encode, hd, LittleEndian.decode], by simp⟩
  · split
    · have hd : LittleEndian.decode (LittleEndian.encode 2 (length - 256)) = length - 256 :=
        LittleEndian.decode_encode (by omega)
      have hsum : length - 256 + 256 = length := by omega
      exact ⟨none, some length, by
        simp [FrameHeader.read?, zero, split?_encode, hd, hsum, LittleEndian.decode], by simp⟩
    · split
      · have hd : LittleEndian.decode (LittleEndian.encode 4 length) = length :=
          LittleEndian.decode_encode (by omega)
        exact ⟨none, some length, by
          simp [FrameHeader.read?, zero, split?_encode, hd, LittleEndian.decode], by simp⟩
      · exact ⟨some (windowSize 0x58), none, by
          simp [FrameHeader.read?, zero, split?, LittleEndian.decode], by simp⟩

theorem length_contentHeader (length : Nat) : 2 ≤ (contentHeader length).length := by
  unfold contentHeader
  repeat' split
  all_goals simp

theorem le_length_storedBlocks (more : Nat) (data : Bytes) :
    data.length ≤ (storedBlocks more data).length := by
  induction more generalizing data with
  | zero => simp [storedBlocks]
  | succ more ih =>
    rw [storedBlocks]
    split
    · simp
    · have := ih (data.drop maxBlock)
      simp only [List.length_append, List.length_take, List.length_drop] at this ⊢
      omega

theorem decode_storedFrame (data : Bytes) :
    decode data.length (storedFrame data) = some data := by
  obtain ⟨window, size, hheader, hsize⟩ := read?_contentHeader data.length
    (storedBlocks (data.length / maxBlock) data)
  have hmagic : (LittleEndian.encode 4 frameMagic).length = 4 := LittleEndian.length_encode _ _
  have hlen : 6 ≤ (storedFrame data).length := by
    have := length_contentHeader data.length
    simp only [storedFrame, frameStart, List.length_append]
    omega
  have hslice :
      (LittleEndian.encode 4 frameMagic).slice 0 4 = LittleEndian.encode 4 frameMagic := by
    rw [Bytes.slice, List.drop_zero, List.take_of_length_le (by omega)]
  have hword : LittleEndian.wordAt (storedFrame data) 0 4 = frameMagic := by
    rw [LittleEndian.wordAt, storedFrame, frameStart, List.append_assoc,
      Bytes.slice_append_left _ _ (by omega), hslice]
    exact LittleEndian.decode_encode (by decide)
  have hrest : (storedFrame data).drop 4 =
      contentHeader data.length ++ storedBlocks (data.length / maxBlock) data := by
    rw [storedFrame, frameStart, List.append_assoc, List.drop_append_of_le_length (by omega),
      List.drop_of_length_le (by omega), List.nil_append]
  have hcover : data.length ≤ maxBlock * (data.length / maxBlock + 1) := by
    have := Nat.lt_mul_div_succ data.length (show 0 < maxBlock by decide)
    omega
  have hfuel : data.length / maxBlock <
      (storedBlocks (data.length / maxBlock) data).length + 1 := by
    have := le_length_storedBlocks (data.length / maxBlock) data
    have := Nat.div_le_self data.length maxBlock
    omega
  have hblocks (limit : Nat) := decodeBlocks_storedBlocks 0 data.length limit
    (data.length / maxBlock) ((storedBlocks (data.length / maxBlock) data).length + 1) .initial data
    #[] hfuel hcover (by simp)
  have hpushed : (pushAll #[] data).size = data.length := by
    rw [← Array.length_toList, toList_pushAll]; simp
  have hcontent : size.any (fun n => !decide (n = data.length)) = false := by
    cases size with
    | none => rfl
    | some n => simp [hsize n (by simp)]
  have hframe : decodeFrame data.length ((storedFrame data).drop 4) #[] =
      some (pushAll #[] data, []) := by
    rw [hrest, decodeFrame, hheader]
    simp only [Option.bind_eq_bind, Option.bind_some, List.size_toArray, List.length_nil, hblocks,
      hpushed, Nat.sub_zero]
    simp [hcontent]
  obtain ⟨first, tail, hcons⟩ : ∃ first tail, storedFrame data = first :: tail := by
    cases h : storedFrame data with
    | nil => rw [h] at hlen; simp at hlen
    | cons first tail => exact ⟨first, tail, rfl⟩
  have hfive : ¬ (storedFrame data).length < 5 := by omega
  have hskip : ¬ frameMagic / 16 = 0x184D2A5 := by decide
  rw [decode, hcons, decodeFrames, ← hcons]
  simp only [hfive, if_false, hword, hskip, ne_eq, not_true, hframe]
  obtain ⟨more, hmore⟩ : ∃ n, (storedFrame data).length = n + 1 :=
    ⟨(storedFrame data).length - 1, by omega⟩
  rw [hmore, decodeFrames]
  · simp [toList_pushAll]
  · simp
  · simp

end RaggedTrajectory.Zstd
