import SerialRpc.Proofs.Framing.Decoder
import SerialRpc.Proofs.Framing.Encoder

/-!
# `SerialRpc.Proofs.Framing.RoundTrip`: COBS and frame round trips

`cobs_encode` succeeds exactly when the block fits the capacity, and its output then does
not depend on the buffer: no zero, within `cobs_max_encoded_size`, decoded back by
`cobs_decode`. A frame has `0x00` at its two ends and nowhere else.

* `cobs_round_trip`: from a message to its block and back.
* `cobs_decode_canonical`: from what `cobs_decode` accepts to a message and back. Only the empty
  block and an empty group behind a full one are not what `cobs_encode` writes.
-/

set_option autoImplicit false

namespace SerialRpc

/-- A successful `cobs_encode` left the block. -/
theorem cobsEncode_of_ne_zero {m out : List UInt8} {cap : Nat} (hbuf : cap ≤ out.length)
    (hok : (cobsEncode m out cap).2 ≠ 0) :
    (cobsEncode m out cap).1.take (cobsEncode m out cap).2 = Cobs.encode m := by
  have hfit : (Cobs.encode m).length ≤ cap := by
    by_contra hno
    exact hok (cobsEncode_overflow m out cap (by omega))
  obtain ⟨hsize, htake⟩ := cobsEncode_eq m out cap hbuf hfit
  rw [hsize, htake]

/-- The encoder's bytes are those of the encoding as a function on lists. -/
theorem cobsBytes_eq (m : List UInt8) : cobsBytes m = Cobs.encode m := by
  obtain ⟨hsize, htake⟩ := cobsEncode_eq m (List.replicate (cobsMaxEncodedSize m.length) 0)
    (cobsMaxEncodedSize m.length) (by simp) (Cobs.encode_length_le m)
  rw [cobsBytes, hsize, htake]

/-- A successful `frame_encode` left the frame. -/
theorem frameEncode_of_ne_zero {m out : List UInt8} {cap : Nat} (hbuf : cap ≤ out.length)
    (hok : (frameEncode m out cap).2 ≠ 0) :
    (frameEncode m out cap).1.take (frameEncode m out cap).2 = frameBytes m := by
  have hfit : (frameBody m).length + 2 ≤ cap := by
    by_contra hno
    exact hok (frameEncode_overflow m out cap (by omega))
  obtain ⟨hsize, htake⟩ := frameEncode_eq m out cap hbuf hfit
  rw [hsize, htake, frameBytes_eq]

/-- The round trip of the codec, for every message. `cobs_encode` succeeds whenever the
capacity is `cobs_max_encoded_size`. Whenever it succeeds, the block has no `0x00`, is no
longer than `cobs_max_encoded_size`, and decodes to the message in every buffer that holds
the message. `frame_encode` likewise, and its frame is a zero-free body between two zeros. -/
theorem cobs_round_trip (m : List UInt8) :
    (∀ (out : List UInt8) (cap : Nat), cap ≤ out.length →
      (cobsMaxEncodedSize m.length ≤ cap → (cobsEncode m out cap).2 ≠ 0) ∧
      ((cobsEncode m out cap).2 ≠ 0 →
        let block := (cobsEncode m out cap).1.take (cobsEncode m out cap).2
        0 ∉ block ∧ (cobsEncode m out cap).2 = block.length ∧
        block.length ≤ cobsMaxEncodedSize m.length ∧
        ∀ (dst : List UInt8) (dstCap : Nat), dstCap ≤ dst.length → m.length ≤ dstCap →
          (cobsDecode block dst dstCap).2 = some m.length ∧
          (cobsDecode block dst dstCap).1.take m.length = m)) ∧
    (∀ (out : List UInt8) (cap : Nat), cap ≤ out.length →
      (frameMaxSize m.length ≤ cap → (frameEncode m out cap).2 ≠ 0) ∧
      ((frameEncode m out cap).2 ≠ 0 →
        ∃ body, (frameEncode m out cap).1.take (frameEncode m out cap).2 = 0 :: body ++ [0] ∧
          (frameEncode m out cap).2 = body.length + 2 ∧ 0 ∉ body)) := by
  constructor
  · -- The block.
    intro out cap hbuf
    have hne := List.length_pos_of_ne_nil (Cobs.encode_ne_nil m)
    refine ⟨fun hcap => ?_, fun hok => ?_⟩
    · have hle : (Cobs.encode m).length ≤ cap := le_trans (Cobs.encode_length_le m) hcap
      rw [(cobsEncode_eq m out cap hbuf hle).1]
      omega
    · -- An encoder that succeeds had room for the whole block, and then wrote it.
      have hfit : (Cobs.encode m).length ≤ cap := by
        by_contra hno
        exact hok (cobsEncode_overflow m out cap (by omega))
      have hsize := (cobsEncode_eq m out cap hbuf hfit).1
      simp only [cobsEncode_of_ne_zero hbuf hok]
      exact ⟨Cobs.encode_ne_zero m, hsize, Cobs.encode_length_le m,
        fun dst dstCap hdst hroom => cobsDecode_of_decode (Cobs.decode_encode m) hdst hroom⟩
  · -- The frame: a block of the payload and its CRC, between delimiters.
    intro out cap hbuf
    have hle := frameBody_length_le m
    refine ⟨fun hcap => ?_, fun hok => ⟨frameBody m, ?_, ?_, Cobs.encode_ne_zero _⟩⟩
    · rw [frameMaxSize] at hcap
      rw [(frameEncode_eq m out cap hbuf (by omega)).1]
      omega
    · rw [frameEncode_of_ne_zero hbuf hok, frameBytes_eq]
    · have hfit : (frameBody m).length + 2 ≤ cap := by
        by_contra hno
        exact hok (frameEncode_overflow m out cap (by omega))
      exact (frameEncode_eq m out cap hbuf hfit).1

/-- A message with two zeros, in buffers that are larger than needed. -/
theorem cobs_round_trip_zeros :
    let block := (cobsEncode [0, 7, 0] (List.replicate 8 0xee) 8).1.take 4
    block = [1, 2, 7, 1] ∧
      (cobsDecode block (List.replicate 8 0xee) 8).1.take 3 = [0, 7, 0] := by
  have h := (cobs_round_trip [0, 7, 0]).1 (List.replicate 8 0xee) 8 (by decide)
  have hblock := h.2 (h.1 (by decide))
  have hsize : (cobsEncode [0, 7, 0] (List.replicate 8 0xee) 8).2 = 4 := by decide +kernel
  simp only [hsize] at hblock
  obtain ⟨-, -, -, hdecode⟩ := hblock
  exact ⟨by decide +kernel, (hdecode (List.replicate 8 0xee) 8 (by decide) (by decide)).2⟩

/-- **The decoder accepts canonical blocks only**, but for the empty block and for one redundant
empty group behind a full one. -/
theorem cobs_decode_canonical (block out : List UInt8) (cap n : Nat) (hbuf : cap ≤ out.length)
    (hok : (cobsDecode block out cap).2 = some n) :
    let m := (cobsDecode block out cap).1.take n
    block = cobsBytes m ∨ (block = [] ∧ m = []) ∨
      (block = cobsBytes m ++ [0x01] ∧ Cobs.EndsFull (cobsBytes m)) := by
  intro m
  rw [cobsDecode_eq block out cap hbuf] at hok
  have hm : m = (answer out cap (Cobs.decodePartial block).1 (Cobs.decodePartial block).2).1.take n
      := by
    simp only [m]
    rw [cobsDecode_eq block out cap hbuf]
  simp only [answer, Option.ite_none_right_eq_some, Option.some.injEq] at hok hm
  obtain ⟨⟨hwf, hfit⟩, rfl⟩ := hok
  rw [List.take_of_length_le hfit, Buffer.overwrite_take] at hm
  have hdecode : Cobs.decode block = some m := by
    rw [Cobs.decode, if_pos hwf, hm]
  rw [cobsBytes_eq]
  exact Cobs.eq_encode_of_decode hdecode

/-- A message with a zero at its end. -/
theorem cobs_decode_canonical_zero :
    (cobsDecode [2, 7, 1] [0, 0, 0] 3).2 = some 2 ∧
      ([2, 7, 1] = cobsBytes [7, 0] ∨ ([2, (7 : UInt8), 1] = [] ∧ [(7 : UInt8), 0] = []) ∨
        ([2, 7, 1] = cobsBytes [7, 0] ++ [0x01] ∧ Cobs.EndsFull (cobsBytes [7, 0]))) := by
  have hok : (cobsDecode [2, 7, 1] [0, 0, 0] 3).2 = some 2 := by decide +kernel
  have hm : (cobsDecode [2, 7, 1] [0, 0, 0] 3).1.take 2 = [7, 0] := by decide +kernel
  have h := cobs_decode_canonical [2, 7, 1] [0, 0, 0] 3 2 (by decide) hok
  simp only [hm] at h
  exact ⟨hok, h⟩

end SerialRpc
