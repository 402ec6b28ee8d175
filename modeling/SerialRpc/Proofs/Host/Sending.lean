import SerialRpc.Host.Connection
import SerialRpc.Proofs.Framing.Encoder
import SerialRpc.Proofs.Host.Value

/-!
# `SerialRpc.Proofs.Host.Sending`: what the client writes

A request and a notification are packed into `_tx_payload`, framed into `_tx_frame` and
written in one piece. With buffers of the constructor's sizes (`RPC.Sized`), which no
operation changes, the bytes written are the frame of the payload, and the frame never
overflows: `sendPacked_eq`.
-/

set_option autoImplicit false

namespace SerialRpc

/-- The `pack` calls of a request. -/
def requestOps (msgid : UInt32) (method : List UInt8) (args : List Value) : List PackOp :=
  [.array 4, .int 0, .uint msgid.toUInt64, .str method, .array args.length] ++ Value.opsElems args

/-- The payload of a request. -/
def requestPayload (msgid : UInt32) (method : List UInt8) (args : List Value) : List UInt8 :=
  PackOp.encodings (requestOps msgid method args)

/-- The `pack` calls of a notification. -/
def notifyOps (method : List UInt8) (args : List Value) : List PackOp :=
  [.array 3, .int 2, .str method, .array args.length] ++ Value.opsElems args

/-- The payload of a notification. -/
def notifyPayload (method : List UInt8) (args : List Value) : List UInt8 :=
  PackOp.encodings (notifyOps method args)

namespace RPC

/-- A request is packed operation by operation. -/
theorem packRequest_eq (msgid : UInt32) (method : List UInt8) (args : List Value) (w : Writer) :
    packRequest msgid method args w = w.packAll (requestOps msgid method args) := by
  rw [packRequest, Value.encodeElems_eq, requestOps, Value.packAll_append]
  rfl

/-- So is a notification. -/
theorem packNotify_eq (method : List UInt8) (args : List Value) (w : Writer) :
    packNotify method args w = w.packAll (notifyOps method args) := by
  rw [packNotify, Value.encodeElems_eq, notifyOps, Value.packAll_append]
  rfl

/-- The buffers have the sizes of the constructor. -/
structure Sized (c : RPC) : Prop where
  payload : c.txPayload.length = c.opts.maxFrame
  frame : c.txFrame.length = frameMaxSize c.opts.maxFrame

/-- A new client has its buffers sized by its options. -/
theorem new_sized (opts : Options) : (new opts).Sized :=
  ⟨List.length_replicate, List.length_replicate⟩

/-- What is handed to `write` for a payload. -/
def written (maxFrame : Nat) (payload : List UInt8) : List UInt8 :=
  if payload.length ≤ maxFrame then frameBytes payload else []

/-- The exception of a send, if there is one. -/
def sendError (maxFrame : Nat) (write : Nat → Int) (overflow : ProtocolError)
    (payload : List UInt8) : Option HostError :=
  if payload.length ≤ maxFrame then
    if write (frameBytes payload).length = (frameBytes payload).length then none
    else some (.io "serial_rpc: write() failed or short write")
  else some (.protocol overflow)

/-- `write_frame_` has room for the frame of every payload of `max_frame` bytes. -/
theorem writeFrame_eq {c : RPC} (h : c.Sized) (write : Nat → Int) {payload : List UInt8}
    (hfits : payload.length ≤ c.opts.maxFrame) :
    ∃ txFrame, txFrame.length = frameMaxSize c.opts.maxFrame ∧
      c.writeFrame write payload
        = ({ c with txFrame := txFrame }, frameBytes payload,
            if write (frameBytes payload).length = (frameBytes payload).length then none
            else some (.io "serial_rpc: write() failed or short write")) := by
  obtain ⟨hsize, hbytes⟩ := frameEncode_fits hfits h.frame
  have hlength := frameBytes_length payload
  refine ⟨(frameEncode payload c.txFrame c.txFrame.length).1,
    (frameEncode_out_length _ _ _).trans h.frame, ?_⟩
  simp only [writeFrame, hsize, hbytes]
  rw [if_neg (by omega)]
  by_cases hwrite : write (frameBytes payload).length = (frameBytes payload).length
  · rw [if_pos hwrite, if_neg (by omega)]
  · rw [if_neg hwrite, if_pos (by omega)]

/-- **Sending.** The payload goes out as its frame, or not at all. -/
theorem sendPacked_eq {c : RPC} (h : c.Sized) (write : Nat → Int) {pack : Writer → Writer}
    {ops : List PackOp} (hpack : ∀ w, pack w = w.packAll ops) (overflow : ProtocolError) :
    ∃ txPayload txFrame, txPayload.length = c.opts.maxFrame ∧
      txFrame.length = frameMaxSize c.opts.maxFrame ∧
      c.sendPacked write pack overflow
        = ({ c with txPayload := txPayload, txFrame := txFrame },
            written c.opts.maxFrame (PackOp.encodings ops),
            sendError c.opts.maxFrame write overflow (PackOp.encodings ops)) := by
  have hholds := Writer.packAll_holds c.txPayload c.txPayload.length le_rfl ops
  have hoverflow := hholds.overflow_eq
  have hlength : ((Writer.new c.txPayload c.txPayload.length).packAll ops).buf.length
      = c.opts.maxFrame := (Writer.packAll_buf_length _ ops).trans h.payload
  rw [h.payload] at hoverflow
  unfold sendPacked
  simp only [hpack]
  -- The payload fits the buffer and goes out as a frame, or it does not and nothing is written.
  by_cases hfits : (PackOp.encodings ops).length ≤ c.opts.maxFrame
  · rw [decide_eq_false (by omega), ← h.payload] at hoverflow
    obtain ⟨hdata, -⟩ := hholds.data_of_fits hoverflow
    have hsized : { c with
        txPayload := ((Writer.new c.txPayload c.txPayload.length).packAll ops).buf }.Sized :=
      ⟨hlength, h.frame⟩
    obtain ⟨txFrame, hframe, hwrite⟩ := writeFrame_eq hsized write hfits
    refine ⟨_, txFrame, hlength, hframe, ?_⟩
    simp only [hoverflow, Bool.false_eq_true, if_false, hdata, hwrite, written, sendError,
      if_pos hfits]
  · rw [decide_eq_true (by omega)] at hoverflow
    refine ⟨_, c.txFrame, hlength, h.frame, ?_⟩
    simp only [← h.payload] at hoverflow
    simp only [hoverflow, if_true, written, sendError, if_neg hfits]

end RPC

end SerialRpc
