import SerialRpc.Proofs.Device.Sending
import SerialRpc.Proofs.Framing.Agreement
import SerialRpc.Proofs.Framing.Splitting
import SerialRpc.Proofs.Host.Sending

/-!
# `SerialRpc.Proofs.Capacity`: the buffers hold every legal message

Each side declares its buffers from one number, `BufSize` on the device and `max_frame` on
the host, and `cobs_max_encoded_size` bounds what the encoder makes of that many bytes. So
`frame_encode` never runs out of room, and the collector of the receiver never overflows on
a frame that starts in TEXT state: `no_message_lost`.
-/

set_option autoImplicit false

namespace SerialRpc

/-! ### Sending -/

namespace Server

variable {sz : ServerSize} {σ : Type}

/-- `send_frame_` sends a legal payload and counts no overflow. -/
theorem sendFrame_fits (s : Server sz σ) {payload : List UInt8}
    (h : payload.length ≤ sz.bufSize) :
    (s.sendFrame payload).sent = s.sent ++ [.frame payload (frameBytes payload)] ∧
      (s.sendFrame payload).responseOverflowErrors = s.responseOverflowErrors := by
  rw [s.sendFrame_eq h]
  exact ⟨rfl, rfl⟩

/-- What `notify` hands to `send_frame_` is a part of the payload buffer. -/
theorem notify_fits (s : Server sz σ) {name : List UInt8} {args : List (List PackOp)}
    (h : (s.notify name args).2 = true) :
    ∃ payload, payload.length ≤ sz.bufSize ∧
      (s.notify name args).1.sent = s.sent ++ [.frame payload (frameBytes payload)] ∧
      (s.notify name args).1.responseOverflowErrors = s.responseOverflowErrors := by
  unfold notify at h ⊢
  split at h
  · cases h
  · rename_i hattached
    rw [if_neg hattached]
    dsimp only at h ⊢
    split at h
    · cases h
    · rename_i hfit
      have hholds := Writer.packAll_holds s.payloadBuf s.payloadBuf.length le_rfl
        (packNotification name args)
      obtain ⟨hdata, hlength⟩ := hholds.data_of_fits (by simpa using hfit)
      rw [s.payloadBuf_length] at hlength
      rw [if_neg hfit]
      exact ⟨_, by rwa [hdata], sendFrame_fits _ (by rwa [hdata])⟩

end Server

namespace RPC

/-- The exception of `write_frame_` when `frame_encode` runs out of room. -/
def frameOverflow : HostError :=
  .protocol ⟨"serial_rpc: frame_encode() overflow (payload too large for max_frame)"⟩

/-- No message of the client ends in the overflow of `write_frame_`. -/
theorem sendPacked_fits {c : RPC} (h : c.Sized) (write : Nat → Int) {pack : Writer → Writer}
    {ops : List PackOp} (hpack : ∀ w, pack w = w.packAll ops) {overflow : ProtocolError}
    (hother : HostError.protocol overflow ≠ frameOverflow) :
    (c.sendPacked write pack overflow).2.2 ≠ some frameOverflow := by
  obtain ⟨txPayload, txFrame, -, -, hsend⟩ := sendPacked_eq h write hpack overflow
  rw [hsend]
  simp only [sendError]
  split
  · split
    · rintro ⟨⟩
    · rintro ⟨⟩
  · intro hsame
    exact hother (Option.some.inj hsame)

end RPC

/-! ### Receiving -/

/-- After any bytes and resets both demultiplexers stand for one splitter. -/
theorem alongside_final (sz : DemuxSize) (past : List DemuxInput) :
    Alongside ((demuxNoTextInputs sz.frameMax).final (.new sz.frameMax) past)
      ((demuxInputs sz).final (.new sz) past) :=
  (demuxNoTextInputs_simulation sz).final
    ⟨.new, DemuxNoText.models_new sz.frameMax, Demux.models_new sz⟩ past

/-- From TEXT state a frame that fits the collector is reported at its last byte, and no
overflow is counted. -/
theorem Demux.Models.delivers {sz : DemuxSize} {d : Demux sz} {s : Splitter} (h : d.Models s)
    (htext : d.state = .text) {payload : List UInt8}
    (hfit : (frameBody payload).length ≤ sz.frameMax) :
    (demux sz).outputs d (frameBytes payload)
        = Splitter.silent ((frameBody payload).length + 1) ++ [some (.frame payload)] ∧
      ((demux sz).final d (frameBytes payload)).overflowErrors = d.overflowErrors := by
  have hblock : s.block = none := by rw [h.block, collected, htext]
  obtain ⟨hfinal, houtputs⟩ :=
    Splitter.frame_from_text sz.frameMax sz.lineMax s payload hblock hfit
  have hmodels := (demux_simulation sz).final h (frameBytes payload)
  rw [hfinal] at hmodels
  refine ⟨?_, hmodels.overflowErrors.symm.trans h.overflowErrors⟩
  rw [(demux_simulation sz).outputs h, houtputs, List.map_id]

/-- The same without lines. -/
theorem DemuxNoText.Models.delivers {frameMax : Nat} {d : DemuxNoText frameMax} {s : Splitter}
    (h : d.Models s) (htext : d.state = .text) {payload : List UInt8}
    (hfit : (frameBody payload).length ≤ frameMax) :
    (demuxNoText frameMax).outputs d (frameBytes payload)
        = Splitter.silent ((frameBody payload).length + 1) ++ [some (.frame payload)] ∧
      ((demuxNoText frameMax).final d (frameBytes payload)).overflowErrors
        = d.overflowErrors := by
  have hblock : s.block = none := by rw [h.block, collected, htext]
  obtain ⟨hfinal, houtputs⟩ := Splitter.frame_from_text frameMax 1 s payload hblock hfit
  have hmodels := (demuxNoText_simulation frameMax 1).final h (frameBytes payload)
  rw [hfinal] at hmodels
  refine ⟨?_, hmodels.overflowErrors.symm.trans h.overflowErrors⟩
  rw [(demuxNoText_simulation frameMax 1).outputs h, houtputs, List.map_append, Splitter.silent,
    List.map_replicate]
  rfl

/-! ### Both ends -/

/-- **No legal message is lost.** For a payload of at most `bufSize` bytes: `frame_encode` has
room in a buffer of `frame_max_size(bufSize)` bytes. So `send_frame_` and `write_frame_`
send it, and what the device and the client hand to them is always such a payload. And a
demultiplexer declared for `bufSize`, with or without lines, reports it from TEXT state
without an overflow. -/
theorem no_message_lost {bufSize : Nat} {payload : List UInt8} (h : payload.length ≤ bufSize) :
    (∀ out : List UInt8, out.length = frameMaxSize bufSize →
      (frameEncode payload out out.length).2 = (frameBytes payload).length ∧
        (frameBytes payload).length ≠ 0 ∧
        (frameEncode payload out out.length).1.take (frameBytes payload).length
          = frameBytes payload) ∧
    (∀ (sz : ServerSize) (σ : Type) (s : Server sz σ), sz.bufSize = bufSize →
      ((s.sendFrame payload).sent = s.sent ++ [.frame payload (frameBytes payload)] ∧
        (s.sendFrame payload).responseOverflowErrors = s.responseOverflowErrors) ∧
      (∀ msgid reply, ∃ response, response.length ≤ bufSize ∧
        (s.sendResponse msgid reply).sent
          = s.sent ++ [.frame response (frameBytes response)]) ∧
      ∀ name args, (s.notify name args).2 = true → ∃ message, message.length ≤ bufSize ∧
        (s.notify name args).1.sent = s.sent ++ [.frame message (frameBytes message)] ∧
        (s.notify name args).1.responseOverflowErrors = s.responseOverflowErrors) ∧
    (∀ (c : RPC) (write : Nat → Int), c.Sized → c.opts.maxFrame = bufSize →
      ((c.writeFrame write payload).2.1 = frameBytes payload ∧
        (c.writeFrame write payload).2.2 ≠ some RPC.frameOverflow) ∧
      (∀ msgid method args,
        (c.sendRequest write msgid method args).2.2 ≠ some RPC.frameOverflow) ∧
      ∀ method args, (c.notifyValues write method args).2.2 ≠ some RPC.frameOverflow) ∧
    (∀ (sz : DemuxSize) (past : List DemuxInput),
      sz.frameMax = cobsMaxEncodedSize (bufSize + 2) →
      let d := (demuxInputs sz).final (.new sz) past
      d.state = .text →
        (demux sz).outputs d (frameBytes payload)
            = Splitter.silent ((frameBody payload).length + 1) ++ [some (.frame payload)] ∧
          ((demux sz).final d (frameBytes payload)).overflowErrors = d.overflowErrors) ∧
    (∀ (frameMax : Nat) (past : List DemuxInput), frameMax = cobsMaxEncodedSize (bufSize + 2) →
      let d := (demuxNoTextInputs frameMax).final (.new frameMax) past
      d.state = .text →
        (demuxNoText frameMax).outputs d (frameBytes payload)
            = Splitter.silent ((frameBody payload).length + 1) ++ [some (.frame payload)] ∧
          ((demuxNoText frameMax).final d (frameBytes payload)).overflowErrors
            = d.overflowErrors) := by
  have hbody := frameBody_length_le_of_le h
  refine ⟨?_, ?_, ?_, ?_, ?_⟩
  · -- `frame_encode`.
    intro out hout
    obtain ⟨hsize, hbytes⟩ := frameEncode_fits h hout
    exact ⟨hsize, by rw [frameBytes_length]; omega, hbytes⟩
  · -- The device: a response never fails, a notification when `notify` says so.
    rintro sz σ s rfl
    refine ⟨s.sendFrame_fits h, ?_, fun name args hsent => s.notify_fits hsent⟩
    intro msgid reply
    obtain ⟨response, hfits, hsent, -⟩ := s.sendResponse_sent msgid reply
    exact ⟨response, hfits, hsent⟩
  · -- The host: what overflows the buffer of the payload has another text.
    rintro c write hsized rfl
    refine ⟨?_, ?_, ?_⟩
    · obtain ⟨txFrame, -, hwrite⟩ := RPC.writeFrame_eq hsized write h
      rw [hwrite]
      refine ⟨rfl, ?_⟩
      dsimp only
      split
      · rintro ⟨⟩
      · rintro ⟨⟩
    · intro msgid method args
      refine RPC.sendPacked_fits hsized write (RPC.packRequest_eq msgid method args) ?_
      intro hsame
      exact absurd (ProtocolError.mk.inj (HostError.protocol.inj hsame)) (by decide)
    · intro method args
      have hfits : (c.sendPacked write (RPC.packNotify method args)
          ⟨"serial_rpc: notification payload exceeds max_frame"⟩).2.2 ≠ some RPC.frameOverflow := by
        refine RPC.sendPacked_fits hsized write (RPC.packNotify_eq method args) ?_
        intro hsame
        exact absurd (ProtocolError.mk.inj (HostError.protocol.inj hsame)) (by decide)
      unfold RPC.notifyValues
      split
      · rename_i hsend
        rwa [hsend] at hfits
      · rintro ⟨⟩
  · -- Both demultiplexers: each is the same splitter with the room that it has.
    intro sz past hsize d htext
    obtain ⟨s, -, hmodels⟩ := alongside_final sz past
    exact hmodels.delivers htext (hsize ▸ hbody)
  · intro frameMax past hsize d htext
    have hpos : 0 < frameMax := by
      rw [hsize, cobsMaxEncodedSize]
      omega
    obtain ⟨s, hmodels, -⟩ := alongside_final ⟨frameMax, 1, hpos, Nat.one_pos⟩ past
    exact hmodels.delivers htext (hsize ▸ hbody)

/-- Buffers for four bytes, and a receiver that was reset within a line. -/
theorem no_message_lost_three :
    let sz : DemuxSize := ⟨cobsMaxEncodedSize (4 + 2), 8, by decide, by decide⟩
    let d := (demuxInputs sz).final (.new sz) [.feed 0x41, .reset]
    let out := List.replicate (frameMaxSize 4) 0
    (frameEncode [1, 2, 3] out out.length).2 = (frameBytes [1, 2, 3]).length ∧
      ((demux sz).outputs d (frameBytes [1, 2, 3])).getLast? = some (some (.frame [1, 2, 3])) ∧
      ((demux sz).final d (frameBytes [1, 2, 3])).overflowErrors = d.overflowErrors := by
  intro sz d out
  obtain ⟨hencode, -, -, hdemux, -⟩ :=
    no_message_lost (show [1, 2, 3].length ≤ 4 by decide)
  obtain ⟨houtputs, hoverflow⟩ := hdemux sz [.feed 0x41, .reset] rfl (by decide)
  refine ⟨(hencode out List.length_replicate).1, ?_, hoverflow⟩
  rw [houtputs]
  exact List.getLast?_concat

end SerialRpc
