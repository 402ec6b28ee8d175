import SerialRpc.Proofs.Framing.Refinement
import SerialRpc.Proofs.Framing.RoundTrip

/-!
# `SerialRpc.Proofs.Framing.Streaming`: any chunks, any capacity

`CobsStreamEncoder` takes a message in several `feed` calls, of which all but the last say that
more follows. What it writes does not depend on the cut: the look-ahead at a chunk's last byte
comes from the flag instead of from the next byte.

* `streaming_one_shot`: every cut writes what `cobs_encode` writes, and a frame is two
  delimiters around `cobs_encode` of the payload and its CRC.
* `encoders_fail_iff`: an encoder fails exactly when its output is longer than the capacity.
  Nothing is written from the capacity on.
-/

set_option autoImplicit false

namespace SerialRpc

namespace CobsStreamEncoder

/-! ### Chunks -/

/-- The chunks of a message, with `more_follows` for all but the last. -/
def feedChunks (e : CobsStreamEncoder) : List (List UInt8) → CobsStreamEncoder
  | [] => e
  | [last] => e.feed last false
  | chunk :: next :: chunks => (e.feed chunk true).feedChunks (next :: chunks)

/-- Chunks are fed as their concatenation. Only the last one needs a byte: it is the one that
says that nothing follows. -/
theorem feedChunks_eq (e : CobsStreamEncoder) (chunks : List (List UInt8)) {last : List UInt8}
    (hlast : last ≠ []) :
    e.feedChunks (chunks ++ [last]) = e.feed (chunks ++ [last]).flatten false := by
  induction chunks generalizing e with
  | nil => simp [feedChunks]
  | cons chunk chunks ih =>
      have hrest : (chunks ++ [last]).flatten ≠ [] := by simp [hlast]
      obtain ⟨next, rest, hnext⟩ : ∃ next rest, chunks ++ [last] = next :: rest :=
        List.exists_cons_of_ne_nil (by simp)
      have hfeed : e.feedChunks (chunk :: chunks ++ [last])
          = (e.feed chunk true).feedChunks (chunks ++ [last]) := by
        rw [List.cons_append, hnext, feedChunks]
      rw [hfeed, ih, feed_append _ _ _ _ hrest, List.cons_append, List.flatten_cons]

/-! ### The memory behind the capacity -/

/-- `put_one_` writes below the capacity. -/
theorem putOne_untouched (e : CobsStreamEncoder) (b : UInt8) (more : Bool) :
    (e.putOne b more).out.drop e.cap = e.out.drop e.cap := by
  -- A byte is written at the cursor, below the capacity.
  have hstore : (e.storeByte b).out.drop e.cap = e.out.drop e.cap ∧
      (e.storeByte b).cap = e.cap := by
    unfold storeByte
    split
    · split
      · exact ⟨rfl, rfl⟩
      · rename_i hroom
        exact ⟨List.drop_set_of_lt (by omega), rfl⟩
    · exact ⟨rfl, rfl⟩
  -- A code byte is written further back.
  have hclose : ∀ e' : CobsStreamEncoder,
      (e'.closeGroup b more).out.drop e'.cap = e'.out.drop e'.cap := by
    intro e'
    unfold closeGroup
    split
    · rfl
    · rename_i hroom
      exact List.drop_set_of_lt (by omega)
  unfold putOne
  dsimp only
  split
  · exact hstore.1
  · split
    · have h := hclose (e.storeByte b)
      rw [hstore.2] at h
      exact h.trans hstore.1
    · exact hstore.1

/-- Feeding keeps the capacity. -/
@[simp] theorem feed_cap (e : CobsStreamEncoder) (m : List UInt8) (more : Bool) :
    (e.feed m more).cap = e.cap := by
  induction m generalizing e with
  | nil => rfl
  | cons b m ih =>
      rw [feed]
      split
      · rfl
      · rw [ih, putOne_cap]

/-- Feeding writes nothing past the capacity. -/
theorem feed_untouched (e : CobsStreamEncoder) (m : List UInt8) (more : Bool) :
    (e.feed m more).out.drop e.cap = e.out.drop e.cap := by
  induction m generalizing e with
  | nil => rfl
  | cons b m ih =>
      rw [feed]
      split
      · rfl
      · have h := ih (e.putOne b (more || !m.isEmpty))
        rw [putOne_cap] at h
        exact h.trans (e.putOne_untouched b _)

/-- Nor does finishing. -/
theorem finish_untouched (e : CobsStreamEncoder) :
    e.finish.1.out.drop e.cap = e.out.drop e.cap := by
  unfold finish
  split
  · rfl
  · split
    · split
      · rfl
      · rename_i hroom
        exact List.drop_set_of_lt (by omega)
    · rfl

end CobsStreamEncoder

open CobsStreamEncoder

/-- A message fed in chunks: the buffer and the length, 0 on overflow. -/
def streamEncode (chunks : List (List UInt8)) (out : List UInt8) (outCap : Nat) :
    List UInt8 × Nat :=
  let e := (CobsStreamEncoder.new out outCap).feedChunks chunks
  if e.ok = false then (e.out, 0)
  else
    let r := e.finish
    (r.1.out, r.2)

/-- However the bytes are cut into chunks, the stream encoder does what the one-shot encoder does.
-/
theorem streamEncode_eq (chunks : List (List UInt8)) {last : List UInt8} (hlast : last ≠ [])
    (out : List UInt8) (cap : Nat) :
    streamEncode (chunks ++ [last]) out cap = cobsEncode (chunks ++ [last]).flatten out cap := by
  rw [streamEncode, feedChunks_eq _ chunks hlast]
  rfl

/-- The one-shot encoder keeps the length of its buffer. -/
theorem cobsEncode_out_length (m out : List UInt8) (cap : Nat) :
    (cobsEncode m out cap).1.length = out.length := by
  unfold cobsEncode
  dsimp only
  split <;> simp [CobsStreamEncoder.new]

/-- `cobs_encode` writes below its capacity. -/
theorem cobsEncode_untouched (m out : List UInt8) (cap : Nat) :
    (cobsEncode m out cap).1.drop cap = out.drop cap := by
  have hfeed := (CobsStreamEncoder.new out cap).feed_untouched m false
  have hfinish := ((CobsStreamEncoder.new out cap).feed m false).finish_untouched
  rw [feed_cap] at hfinish
  unfold cobsEncode
  dsimp only
  split
  · exact hfeed
  · exact hfinish.trans hfeed

/-! ### Frames -/

/-- `frame_encode` is `cobs_encode` of the payload and its CRC, between two delimiters. -/
theorem frameEncode_cobsEncode (payload out : List UInt8) {cap : Nat} (hcap : 2 ≤ cap) :
    frameEncode payload out cap
      = let block := cobsEncode (payload ++ crcBe payload) (out.drop 1) (cap - 2)
        let buf := (out.set 0 0).take 1 ++ block.1
        if block.2 = 0 then (buf, 0) else (buf.set (1 + block.2) 0, block.2 + 2) := by
  have happend := feed_append (CobsStreamEncoder.new (out.drop 1) (cap - 2)) payload
    (crcBe payload) false (by simp [crcBe])
  have hdrop : (out.set 0 0).drop 1 = out.drop 1 := List.drop_set_of_lt (by omega)
  unfold frameEncode cobsEncode
  rw [if_neg (by omega)]
  simp only [hdrop, ← happend]
  generalize (CobsStreamEncoder.new (out.drop 1) (cap - 2)).feed payload true = first
  by_cases hfirst : first.ok = false
  · -- The encoder does nothing any more once it has failed.
    simp [feed_of_not_ok hfirst, hfirst]
  · rw [if_neg hfirst]
    by_cases hboth : (first.feed (crcBe payload) false).ok = false
    · simp [hboth]
    · simp [hboth]

/-- The length `frame_encode` returns. -/
theorem frameEncode_length (payload out : List UInt8) (cap : Nat) :
    (frameEncode payload out cap).2
      = if (cobsEncode (payload ++ crcBe payload) (out.drop 1) (cap - 2)).2 = 0 then 0
        else (cobsEncode (payload ++ crcBe payload) (out.drop 1) (cap - 2)).2 + 2 := by
  by_cases hcap : 2 ≤ cap
  · rw [frameEncode_cobsEncode payload out hcap]
    dsimp only
    split <;> rfl
  · -- Without room for the delimiters there is none for a block either.
    have hnone : (cobsEncode (payload ++ crcBe payload) (out.drop 1) (cap - 2)).2 = 0 :=
      cobsEncode_overflow _ _ _ (by
        have := List.length_pos_of_ne_nil (Cobs.encode_ne_nil (payload ++ crcBe payload))
        omega)
    rw [if_pos hnone, frameEncode, if_pos (by omega)]

/-- `frame_encode` writes below its capacity. -/
theorem frameEncode_untouched (payload out : List UInt8) (cap : Nat) (hbuf : cap ≤ out.length) :
    (frameEncode payload out cap).1.drop cap = out.drop cap := by
  -- A buffer without room for the delimiters gets nothing.
  by_cases hcap : 2 ≤ cap
  case neg =>
    rw [frameEncode, if_pos (by omega)]
  obtain ⟨first, tail, rfl⟩ : ∃ first tail, out = first :: tail :=
    List.exists_cons_of_length_pos (by omega)
  obtain ⟨room, rfl⟩ : ∃ room, cap = room + 2 := ⟨cap - 2, by omega⟩
  rw [frameEncode_cobsEncode payload _ hcap]
  simp only [List.set_cons_zero, List.take_succ_cons, List.take_zero, List.drop_succ_cons,
    List.drop_zero, Nat.add_sub_cancel, List.singleton_append]
  rw [List.length_cons] at hbuf
  -- The block is written behind the first delimiter, with one byte less at the end.
  have hblock := cobsEncode_untouched (payload ++ crcBe payload) tail room
  have hbehind : (cobsEncode (payload ++ crcBe payload) tail room).1.drop (room + 1)
      = tail.drop (room + 1) := by
    rw [← List.drop_drop, hblock, List.drop_drop]
  split
  · -- Nothing was encoded.
    exact hbehind
  · -- The block ends in front of the byte that was held back for the delimiter.
    rename_i hok
    have hfit : (Cobs.encode (payload ++ crcBe payload)).length ≤ room := by
      by_contra hno
      exact hok (cobsEncode_overflow _ _ _ (by omega))
    have hsize := (cobsEncode_eq (payload ++ crcBe payload) tail room (by omega) hfit).1
    rw [List.drop_set_of_lt (by omega), List.drop_succ_cons]
    exact hbehind

/-! ### The two results -/

/-- **Streaming is one-shot encoding.** Every message cut into chunks, of which the last is not
empty, gives what `cobs_encode` gives: the same buffer and the same length, whether it fits or
not. So `frame_encode` is `0x00`, `cobs_encode` of the payload and its big-endian CRC, `0x00`. -/
theorem streaming_one_shot :
    (∀ (chunks : List (List UInt8)) (last out : List UInt8) (cap : Nat), last ≠ [] →
      streamEncode (chunks ++ [last]) out cap = cobsEncode (chunks ++ [last]).flatten out cap) ∧
    (∀ (payload out : List UInt8) (cap : Nat), cap ≤ out.length →
      let body := payload ++ BigEndian.toBytes 2 (crc16Ccitt payload).toNat
      let block := cobsEncode body (out.drop 1) (cap - 2)
      let frame := frameEncode payload out cap
      (frame.2 = 0 ↔ block.2 = 0) ∧
        (frame.2 ≠ 0 → frame.2 = block.2 + 2 ∧
          frame.1.take frame.2 = 0 :: block.1.take block.2 ++ [0])) ∧
    ∀ payload : List UInt8, frameBytes payload
      = 0 :: cobsBytes (payload ++ BigEndian.toBytes 2 (crc16Ccitt payload).toNat) ++ [0] := by
  refine ⟨?_, ?_, ?_⟩
  · -- The stream encoder, chunk by chunk.
    intro chunks last out cap hlast
    exact streamEncode_eq chunks hlast out cap
  · -- `frame_encode`.
    intro payload out cap hbuf body block frame
    have hlength : frame.2 = if block.2 = 0 then 0 else block.2 + 2 := by
      simp only [frame, block, body, ← crcBe_eq]
      exact frameEncode_length payload out cap
    constructor
    · rw [hlength]
      split <;> omega
    · -- A frame was made, so a block was.
      intro hok
      have hblock : block.2 ≠ 0 := by
        intro h0
        rw [hlength, if_pos h0] at hok
        exact hok rfl
      refine ⟨by rw [hlength, if_neg hblock], ?_⟩
      have hfit : cap - 2 ≤ (out.drop 1).length := by
        rw [List.length_drop]
        omega
      rw [frameEncode_of_ne_zero hbuf hok, cobsEncode_of_ne_zero hfit hblock, frameBytes_eq,
        frameBody, crcBe_eq]
  · -- The bytes of a frame.
    intro payload
    rw [frameBytes_eq, frameBody, cobsBytes_eq, crcBe_eq]

/-- A message cut in front of its last byte, and the frame of an empty payload. -/
theorem streaming_one_shot_cut :
    streamEncode [[7, 0], [], [9]] (List.replicate 8 0xee) 8
        = cobsEncode [7, 0, 9] (List.replicate 8 0xee) 8 ∧
      (frameEncode [] (List.replicate 8 0xee) 8).1.take 5 = [0, 3, 0xff, 0xff, 0] := by
  have hchunks := streaming_one_shot.1 [[7, 0], []] [9] (List.replicate 8 0xee) 8 (by decide)
  have hframe := streaming_one_shot.2.1 [] (List.replicate 8 0xee) 8 (by decide)
  have hsize : (frameEncode [] (List.replicate 8 0xee) 8).2 = 5 := by decide +kernel
  simp only [hsize] at hframe
  exact ⟨hchunks, (hframe.2 (by decide)).2.trans (by decide +kernel)⟩

/-- An encoder answers the size of `whole` and has written it, or answers 0 for want of room. It
leaves the memory from the capacity on as it was. -/
def FailsExactly (out : List UInt8) (cap : Nat) (whole : List UInt8)
    (answer : List UInt8 × Nat) : Prop :=
  (answer.2 = 0 ↔ cap < whole.length) ∧
    (answer.2 ≠ 0 → answer.2 = whole.length ∧ answer.1.take answer.2 = whole) ∧
    answer.1.drop cap = out.drop cap ∧ answer.1.length = out.length

/-- **Encoders fail exactly when the output does not fit.** A successful encoder leaves the bytes
of the encoding, whatever the capacity. -/
theorem encoders_fail_iff (m out : List UInt8) (cap : Nat) (hbuf : cap ≤ out.length) :
    FailsExactly out cap (Cobs.encode m) (cobsEncode m out cap) ∧
      FailsExactly out cap (0 :: Cobs.encode (m ++ crcBe m) ++ [0]) (frameEncode m out cap) := by
  constructor
  · have hfail : (cobsEncode m out cap).2 = 0 ↔ cap < (Cobs.encode m).length := by
      refine ⟨?_, cobsEncode_overflow m out cap⟩
      intro h0
      by_contra hfit
      -- A block that fits has its size returned, and no block is empty.
      have hpos := List.length_pos_of_ne_nil (Cobs.encode_ne_nil m)
      have hsize := (cobsEncode_eq m out cap hbuf (by omega)).1
      omega
    refine ⟨hfail, ?_, cobsEncode_untouched m out cap, cobsEncode_out_length m out cap⟩
    intro hok
    rw [Ne, hfail, Nat.not_lt] at hok
    obtain ⟨hsize, htake⟩ := cobsEncode_eq m out cap hbuf hok
    exact ⟨hsize, by rw [← htake, ← hsize]⟩
  · have hfail : (frameEncode m out cap).2 = 0 ↔ cap < (frameBytes m).length := by
      rw [frameBytes_length]
      refine ⟨?_, frameEncode_overflow m out cap⟩
      intro h0
      by_contra hfit
      have hsize := (frameEncode_eq m out cap hbuf (by omega)).1
      omega
    have hwhole : frameBytes m = 0 :: Cobs.encode (m ++ crcBe m) ++ [0] := frameBytes_eq m
    rw [← hwhole]
    refine ⟨hfail, ?_, frameEncode_untouched m out cap hbuf, frameEncode_out_length m out cap⟩
    intro hok
    have hfit := hok
    rw [Ne, hfail, Nat.not_lt, frameBytes_length] at hfit
    refine ⟨?_, frameEncode_of_ne_zero hbuf hok⟩
    rw [frameBytes_length]
    exact (frameEncode_eq m out cap hbuf hfit).1

/-- Exact room for a block, and one byte less. -/
theorem encoders_fail_iff_exact :
    (cobsEncode [7, 0] (List.replicate 4 0xee) 3).2 ≠ 0 ∧
      (cobsEncode [7, 0] (List.replicate 4 0xee) 2).2 = 0 := by
  have hfits := (encoders_fail_iff [7, 0] (List.replicate 4 0xee) 3 (by decide)).1.1
  have hshort := (encoders_fail_iff [7, 0] (List.replicate 4 0xee) 2 (by decide)).1.1
  have hlength : (Cobs.encode [7, 0]).length = 3 := by decide +kernel
  rw [hlength] at hfits hshort
  exact ⟨fun h => absurd (hfits.mp h) (by decide), hshort.mpr (by decide)⟩

end SerialRpc
