import SerialRpc.Device.Handler
import SerialRpc.Framing.Demux
import SerialRpc.Proofs.Framing.Encoder
import SerialRpc.Proofs.Msgpack.Writer

/-!
# `SerialRpc.Device.Server`: the device-side dispatcher

The `Server` class of `src/serial_rpc/server.h`, one definition for each member function.
`ServerSize` is its template parameters and the configuration macros. The two buffers carry
their lengths, as the arrays of the source do.

The stream and the clock are environment. `poll` gets the bytes that are there to be read,
and `clock` says what the readings of the clock are, one after the other. `sent` is the
record of what was written, `attachedAt` of whether the device was attached at each of these
writes, and `invoked` of the handlers' runs.
The local buffers of a dispatch start as zeros, and nothing reads a byte before it was
written. Sums of lengths do not leave `size_t`, since the strings are in memory.
-/

set_option autoImplicit false

namespace SerialRpc

/-- `kResponseHeaderMax`. -/
def kResponseHeaderMax : Nat := 8

/-- The template parameters and the configuration of a `Server`. -/
structure ServerSize where
  maxHandlers : Nat
  bufSize : Nat
  /-- With less room `send_response_` copies the header past the end of `_payload_buf`. -/
  header_fits : kResponseHeaderMax ≤ bufSize
  /-- `size_t` of the target, and the bits of its `int`. -/
  sizeT : SizeT
  intBits : Nat
  sixteen_le_int : 16 ≤ intBits
  /-- `SERIAL_RPC_USE_STL`. -/
  useStl : Bool
  /-- `SERIAL_RPC_LOG_BUF_SIZE`. -/
  logBufSize : Nat

/-- `kProtocolVersion`. -/
def kProtocolVersion : Int64 := 1

namespace ServerSize

/-- `kLineMax`. -/
def kLineMax : Nat := 64

/-- `kSigBufSize`. -/
def kSigBufSize : Nat := 48

/-- `kResultScratch`. -/
def kResultScratch (sz : ServerSize) : Nat :=
  if kResponseHeaderMax < sz.bufSize then sz.bufSize - kResponseHeaderMax else 1

/-- `kFrameMax`. -/
def kFrameMax (sz : ServerSize) : Nat := cobsMaxEncodedSize (sz.bufSize + 2)

/-- The `Demux<kFrameMax, kLineMax>` of the server. -/
def demuxSize (sz : ServerSize) : DemuxSize where
  frameMax := sz.kFrameMax
  lineMax := kLineMax
  frameMax_pos := by simp [kFrameMax, cobsMaxEncodedSize]
  lineMax_pos := by decide

end ServerSize

open ServerSize

/-- One write to the stream. -/
inductive Sent where
  /-- `send_frame_` wrote `bytes`, the frame of `payload`. -/
  | frame (payload bytes : List UInt8)
  | text (bytes : List UInt8)
deriving DecidableEq

/-- The bytes of a write. -/
def Sent.bytes : Sent → List UInt8
  | .frame _ bytes => bytes
  | .text bytes => bytes

/-- `Server`. -/
structure Server (sz : ServerSize) (σ : Type) where
  demux : Demux sz.demuxSize
  payloadBuf : List UInt8
  payloadBuf_length : payloadBuf.length = sz.bufSize
  txBuf : List UInt8
  txBuf_length : txBuf.length = frameMaxSize sz.bufSize
  handlers : List (Entry sz.sizeT σ)
  attached : Bool
  attachHasTimeout : Bool
  attachTimeoutMs : UInt32
  lastFrameMs : UInt32
  onText : Option (TextHook σ)
  onAttach : Option (Hook σ)
  onDetach : Option (Hook σ)
  unknownMethodErrors : UInt32
  handlerErrorCount : UInt32
  malformedErrors : UInt32
  responseOverflowErrors : UInt32
  /-- The bytes of the unfinished `log` line, and its level. -/
  logBuf : List UInt8
  logLevel : UInt8
  /-- The state of the sketch. -/
  sketch : σ
  /-- What the readings of the clock are, and how many there were. -/
  clock : Nat → UInt32
  readings : Nat
  sent : List Sent
  /-- What `attached()` was at each write. -/
  attachedAt : List Bool
  invoked : List (Invocation sz.sizeT σ)

/-- `Reply`. -/
structure Reply where
  writer : Writer
  error : Option (List UInt8)
  /-- The length `set_raw_result` was called with. -/
  rawLen : Option Nat

/-- `Reply::result_size`. -/
def Reply.resultSize (reply : Reply) : Nat := reply.rawLen.getD reply.writer.size

/-- `Reply::result_data` and `result_size` together. -/
def Reply.result (reply : Reply) : List UInt8 := reply.writer.buf.take reply.resultSize

namespace Server

variable {sz : ServerSize} {σ : Type}

/-- The constructor. -/
def new (sz : ServerSize) {σ : Type} (sketch : σ) (clock : Nat → UInt32) : Server sz σ where
  demux := Demux.new sz.demuxSize
  payloadBuf := List.replicate sz.bufSize 0
  payloadBuf_length := List.length_replicate
  txBuf := List.replicate (frameMaxSize sz.bufSize) 0
  txBuf_length := List.length_replicate
  handlers := []
  attached := false
  attachHasTimeout := false
  attachTimeoutMs := 0
  lastFrameMs := 0
  onText := none
  onAttach := none
  onDetach := none
  unknownMethodErrors := 0
  handlerErrorCount := 0
  malformedErrors := 0
  responseOverflowErrors := 0
  logBuf := []
  logLevel := 2
  sketch := sketch
  clock := clock
  readings := 0
  sent := []
  attachedAt := []
  invoked := []

/-- `bind` and `bind_raw`, through `add_handler_`. -/
def bind (s : Server sz σ) (entry : Entry sz.sizeT σ) : Server sz σ :=
  if sz.useStl then { s with handlers := addHandlerStl s.handlers entry }
  else
    match addHandlerFixed sz.maxHandlers s.handlers entry with
    | some handlers => { s with handlers := handlers }
    | none => { s with responseOverflowErrors := s.responseOverflowErrors + 1 }

/-- `now_ms_`. -/
def nowMs (s : Server sz σ) : UInt32 × Server sz σ :=
  (s.clock s.readings, { s with readings := s.readings + 1 })

/-! ### Sending -/

/-- `_stream.write` of text. -/
def writeText (s : Server sz σ) (bytes : List UInt8) : Server sz σ :=
  { s with
      sent := s.sent ++ [.text bytes]
      attachedAt := s.attachedAt ++ [s.attached] }

/-- `send_frame_`. -/
def sendFrame (s : Server sz σ) (payload : List UInt8) : Server sz σ :=
  let encoded := frameEncode payload s.txBuf s.txBuf.length
  let s :=
    { s with
        txBuf := encoded.1
        txBuf_length := (frameEncode_out_length payload s.txBuf s.txBuf.length).trans
          s.txBuf_length }
  -- `frame_encode` answers 0 when the frame does not fit into `_tx_buf`.
  if encoded.2 = 0 then { s with responseOverflowErrors := s.responseOverflowErrors + 1 }
  else
    { s with
        sent := s.sent ++ [.frame payload (encoded.1.take encoded.2)]
        attachedAt := s.attachedAt ++ [s.attached] }

/-- The payload of `notify`, with the `pack` calls that `ValuePacker` makes for each argument. -/
def packNotification (name : List UInt8) (args : List (List PackOp)) : List PackOp :=
  [.array 3, .int 2, .str name, .array args.length] ++ args.flatten

/-- `notify`. -/
def notify (s : Server sz σ) (name : List UInt8) (args : List (List PackOp)) : Server sz σ × Bool :=
  if s.attached = false then (s, false)
  else
    let ops := packNotification name args
    let w := (Writer.new s.payloadBuf s.payloadBuf.length).packAll ops
    let s :=
      { s with
          payloadBuf := w.buf
          payloadBuf_length := (Writer.packAll_buf_length _ ops).trans s.payloadBuf_length }
    if w.overflow then ({ s with responseOverflowErrors := s.responseOverflowErrors + 1 }, false)
    else (s.sendFrame w.data, true)

/-! ### Logging -/

/-- `emit_log_line_`. -/
def emitLogLine (s : Server sz σ) (level : UInt8) (line : List UInt8) : Server sz σ :=
  if s.attached then
    (s.notify (SerialRpc.text "log") [[.int level.toUInt64.toInt64], [.str (cstr line)]]).1
  else (s.writeText line).writeText [lf]

/-- `Log::flush_`. -/
def flushLog (s : Server sz σ) : Server sz σ :=
  { s.emitLogLine s.logLevel s.logBuf with logBuf := [] }

/-- `Log::handle_byte_`. -/
def logByte (s : Server sz σ) (b : UInt8) : Server sz σ :=
  if b = cr then s
  else if b = lf then s.flushLog
  else
    -- A full buffer is flushed in front of the byte, with room for the terminator.
    let s := if sz.logBufSize ≤ s.logBuf.length + 1 then s.flushLog else s
    { s with logBuf := s.logBuf ++ [b] }

/-! ### Code of the sketch -/

/-- A script runs, and every call into the server is answered. -/
def run {α : Type} (s : Server sz σ) : Script α → Server sz σ × α
  | .done a => (s, a)
  | .notify name args next =>
      let answer := s.notify name args
      answer.1.run (next answer.2)
  | .log bytes next => (bytes.foldl logByte s).run next
  | .logAt level next => { s with logLevel := level }.run next
  | .attached next => s.run (next s.attached)

/-- A callback that may be empty. -/
def runHook (s : Server sz σ) (hook : Option (Hook σ)) : Server sz σ :=
  match hook with
  | none => s
  | some hook =>
      let (s, sketch) := s.run (hook s.sketch)
      { s with sketch := sketch }

/-- A handler runs on the parameters, and its answer goes into the reply. -/
def invoke (s : Server sz σ) (fn : Handler sz.sizeT σ) (args : Args sz.sizeT) (reply : Reply) :
    Server sz σ × Reply :=
  let (s, answer, sketch) := s.run (fn args s.sketch)
  ({ s with
      sketch := sketch
      invoked := s.invoked ++ [⟨fn, args, answer⟩] },
    { reply with writer := reply.writer.packAll answer.packed, error := answer.error })

/-! ### `rpc.list` -/

/-- `SigBuf::append`: a buffer of `cap` bytes keeps room for the terminator. -/
def sigAppend (cap : Nat) (buf token : List UInt8) : List UInt8 :=
  buf ++ token.take (cap - 1 - buf.length)

/-- What `write_sig` leaves in a `SigBuf`. -/
def signature (entry : Entry sz.sizeT σ) : List UInt8 :=
  entry.writeSig.foldl (sigAppend kSigBufSize) []

/-- `str_header_len_`. -/
def strHeaderLen (len : Nat) : Nat := if len < 32 then 1 else if len < 256 then 2 else 3

/-- `list_entry_size_`. -/
def listEntrySize (nameLen sigLen : Nat) : Nat :=
  1 + strHeaderLen nameLen + nameLen + strHeaderLen sigLen + sigLen

/-- One entry of `rpc.list`. -/
def packListEntry (name sig : List UInt8) : List PackOp := [.array 2, .str name, .str sig]

/-- The loop of `pack_rpc_list_result_`: the buffer, the bytes written and the entries
committed. `none` when not even the first entry fits. -/
def listEntries (scratch : Nat) (raw : List UInt8) (written count : Nat) :
    List (Entry sz.sizeT σ) → Option (List UInt8 × Nat × Nat)
  | [] => some (raw, written, count)
  | entry :: entries =>
      let sig := signature entry
      if scratch < written + listEntrySize entry.name.length sig.length then
        -- The page ends here, unless it would be empty.
        if count = 0 then none else some (raw, written, count)
      else
        let w :=
          (Writer.new (raw.drop written) (scratch - written)).packAll (packListEntry entry.name sig)
        listEntries scratch (raw.take written ++ w.buf) (written + w.size) (count + 1) entries

/-- `start_idx` of `pack_rpc_list_result_`. -/
def startIndex (total start : Nat) : Nat := if start < total % 2 ^ 32 then start else total

/-- `pack_rpc_list_result_`. -/
def packRpcListResult (s : Server sz σ) (reply : Reply) (start : Nat) : Server sz σ × Reply :=
  let total := s.handlers.length
  let startIdx := startIndex total start
  let tooLarge :=
    ({ s with responseOverflowErrors := s.responseOverflowErrors + 1 },
      { reply with error := some (SerialRpc.text "response too large") })
  if total ≤ startIdx then (s, { reply with writer := reply.writer.packAll [.array 0] })
  else if sz.kResultScratch < 3 then tooLarge
  else
    match listEntries sz.kResultScratch reply.writer.buf 3 0 (s.handlers.drop startIdx) with
    | none => tooLarge
    | some (raw, written, count) =>
        -- The three bytes in front are patched to the header of an array16.
        let raw :=
          ((raw.set 0 kArray16).set 1 (UInt8.ofNat (count / 2 ^ 8 % 2 ^ 8))).set 2
            (UInt8.ofNat (count % 2 ^ 8))
        (s, { reply with writer := { reply.writer with buf := raw }, rawLen := some written })

/-! ### Dispatch -/

/-- The optional first parameter of a built-in: `uint32_t v = 0`, read if there is one.
`none` when the read fails. -/
def readOptional (args : Args sz.sizeT) : Option Nat :=
  if 1 ≤ args.size then
    let (r, v) := args.reader.readUnsigned (Reader.maxUnsigned 32) 0
    if r.error then none else some v
  else some 0

/-- `rpc.attach` of `dispatch_builtin_`, once its parameter is read. -/
def attach (s : Server sz σ) (timeoutMs : Nat) (reply : Reply) : Server sz σ × Reply :=
  let s :=
    { s with
        attached := true
        attachHasTimeout := decide (0 < timeoutMs)
        attachTimeoutMs := UInt32.ofNat timeoutMs }
  let (now, s) := s.nowMs
  let s := { s with lastFrameMs := now }.runHook s.onAttach
  -- The handlers are counted after the hook.
  let count := UInt32.ofNat s.handlers.length
  (s, { reply with
          writer := reply.writer.packAll [.array 2, .int kProtocolVersion, .uint count.toUInt64] })

/-- `rpc.detach` of `dispatch_builtin_`. -/
def detach (s : Server sz σ) : Server sz σ :=
  let wasAttached := s.attached
  -- The hook sees a detached device.
  let s := { s with attached := false, attachHasTimeout := false }
  if wasAttached then s.runHook s.onDetach else s

/-- `dispatch_builtin_`. `none` when the method is not built in. -/
def dispatchBuiltin (s : Server sz σ) (method : List UInt8) (args : Args sz.sizeT)
    (reply : Reply) : Option (Server sz σ × Reply) :=
  let badArgs := (s, { reply with error := some (SerialRpc.text "bad args") })
  if method = SerialRpc.text "rpc.ping" then
    some (s, { reply with writer := reply.writer.packAll [.int kProtocolVersion] })
  else if method = SerialRpc.text "rpc.list" then
    match readOptional args with
    | none => some badArgs
    | some start => some (s.packRpcListResult reply start)
  else if method = SerialRpc.text "rpc.attach" then
    match readOptional args with
    | none => some badArgs
    | some timeoutMs => some (s.attach timeoutMs reply)
  else if method = SerialRpc.text "rpc.detach" then some (s.detach, reply)
  else none

/-- `dispatch_user_`. -/
def dispatchUser (s : Server sz σ) (method : List UInt8) (args : Args sz.sizeT) (reply : Reply) :
    Option (Server sz σ × Reply) :=
  (findHandler s.handlers method).map fun entry => s.invoke entry.fn args reply

/-- `if (reply.failed()) ++_handler_error_count;` -/
def countFailure (answer : Server sz σ × Reply) : Server sz σ × Reply :=
  if answer.2.error.isSome then
    ({ answer.1 with handlerErrorCount := answer.1.handlerErrorCount + 1 }, answer.2)
  else answer

/-- `dispatch_`. -/
def dispatch (s : Server sz σ) (method : List UInt8) (args : Args sz.sizeT) (reply : Reply) :
    Server sz σ × Reply :=
  match s.dispatchBuiltin method args reply with
  | some answer => countFailure answer
  | none =>
      match s.dispatchUser method args reply with
      | some answer => countFailure answer
      | none =>
          ({ s with unknownMethodErrors := s.unknownMethodErrors + 1 },
            { reply with error := some (SerialRpc.text "unknown method") })

/-! ### Responses -/

/-- `[1, msgid, error, nil]`. -/
def packError (msgid : UInt32) (error : List UInt8) : List PackOp :=
  [.array 4, .int 1, .uint msgid.toUInt64, .str error, .nil]

/-- `[1, msgid, nil`, the header of a successful response. -/
def packHeader (msgid : UInt32) : List PackOp := [.array 4, .int 1, .uint msgid.toUInt64, .nil]

/-- The error response of `send_response_`: the buffer, the length and whether it
overflowed. -/
def buildError (payloadBuf : List UInt8) (msgid : UInt32) (error : List UInt8) :
    List UInt8 × Nat × Bool :=
  let w := (Writer.new payloadBuf payloadBuf.length).packAll (packError msgid error)
  (w.buf, w.size, w.overflow)

/-- The successful response of `send_response_`: the result is copied behind the header. -/
def buildSuccess (payloadBuf : List UInt8) (msgid : UInt32) (reply : Reply) :
    List UInt8 × Nat × Bool :=
  let hw :=
    (Writer.new (List.replicate kResponseHeaderMax 0) kResponseHeaderMax).packAll (packHeader msgid)
  if hw.overflow || reply.writer.overflow then (payloadBuf, 0, true)
  else
    let buf := Buffer.overwrite payloadBuf hw.data
    let total := hw.size
    let resultLen := reply.resultSize
    -- A handler that packs nothing has the result nil.
    if resultLen = 0 then
      let w := (Writer.new (buf.drop total) (payloadBuf.length - total)).packAll [.nil]
      if w.overflow then (buf.take total ++ w.buf, total, true)
      else (buf.take total ++ w.buf, total + w.size, false)
    else if total + resultLen ≤ payloadBuf.length then
      (buf.take total ++ Buffer.overwrite (buf.drop total) reply.result, total + resultLen, false)
    else (buf, total, true)

/-- The first `if` of `send_response_`. -/
def buildAnswer (payloadBuf : List UInt8) (msgid : UInt32) (reply : Reply) :
    List UInt8 × Nat × Bool :=
  match reply.error with
  | some error => buildError payloadBuf msgid error
  | none => buildSuccess payloadBuf msgid reply

/-- The payload `send_response_` builds over `_payload_buf`: the buffer, the length and
whether it is the last resort. -/
def buildResponse (payloadBuf : List UInt8) (msgid : UInt32) (reply : Reply) :
    List UInt8 × Nat × Bool :=
  let (buf, total, overflowed) := buildAnswer payloadBuf msgid reply
  -- The last resort is an error over what was built so far, and it may be cut off too.
  if overflowed then
    let (buf, total, _) := buildError buf msgid (SerialRpc.text "response too large")
    (buf, total, true)
  else (buf, total, false)

/-- Building a response keeps the length of the buffer. -/
theorem buildError_length (payloadBuf : List UInt8) (msgid : UInt32) (error : List UInt8) :
    (buildError payloadBuf msgid error).1.length = payloadBuf.length :=
  Writer.packAll_buf_length _ _

/-- The buffer keeps its size while the successful response is built in it. -/
theorem buildSuccess_length (payloadBuf : List UInt8) (msgid : UInt32) (reply : Reply)
    (hroom : kResponseHeaderMax ≤ payloadBuf.length) :
    (buildSuccess payloadBuf msgid reply).1.length = payloadBuf.length := by
  have hholds := Writer.packAll_holds (List.replicate kResponseHeaderMax 0) kResponseHeaderMax
    (by simp) (packHeader msgid)
  have hdata : ((Writer.new (List.replicate kResponseHeaderMax 0) kResponseHeaderMax).packAll
      (packHeader msgid)).data.length ≤ payloadBuf.length := by
    rw [hholds.data_eq, List.length_take]
    omega
  have hsize := hholds.size_eq
  unfold buildSuccess
  generalize (Writer.new (List.replicate kResponseHeaderMax 0) kResponseHeaderMax).packAll
    (packHeader msgid) = hw at *
  have hbuf := Buffer.overwrite_length hdata
  have hresult : reply.result.length ≤ reply.resultSize := by
    simp [Reply.result]
  dsimp only
  split
  · rfl
  · split
    · split <;> simp [Writer.packAll_buf_length, Writer.new, hbuf] <;> omega
    · split
      · rename_i hfit
        rw [List.length_append, Buffer.overwrite_length (by simp [hbuf]; omega)]
        simp [hbuf]
        omega
      · exact hbuf

/-- It does for either answer, the result or the error. -/
theorem buildAnswer_length (payloadBuf : List UInt8) (msgid : UInt32) (reply : Reply)
    (hroom : kResponseHeaderMax ≤ payloadBuf.length) :
    (buildAnswer payloadBuf msgid reply).1.length = payloadBuf.length := by
  unfold buildAnswer
  split
  · exact buildError_length payloadBuf msgid _
  · exact buildSuccess_length payloadBuf msgid reply hroom

/-- It does for the response that goes out, also where the first one did not fit. -/
theorem buildResponse_length (payloadBuf : List UInt8) (msgid : UInt32) (reply : Reply)
    (hroom : kResponseHeaderMax ≤ payloadBuf.length) :
    (buildResponse payloadBuf msgid reply).1.length = payloadBuf.length := by
  have hanswer := buildAnswer_length payloadBuf msgid reply hroom
  unfold buildResponse
  dsimp only
  split
  · exact (buildError_length _ _ _).trans hanswer
  · exact hanswer

/-- `send_response_`. -/
def sendResponse (s : Server sz σ) (msgid : UInt32) (reply : Reply) : Server sz σ :=
  let built := buildResponse s.payloadBuf msgid reply
  let s :=
    { s with
        payloadBuf := built.1
        payloadBuf_length :=
          (buildResponse_length s.payloadBuf msgid reply
            (s.payloadBuf_length ▸ sz.header_fits)).trans s.payloadBuf_length
        responseOverflowErrors :=
          if built.2.2 then s.responseOverflowErrors + 1 else s.responseOverflowErrors }
  s.sendFrame (built.1.take built.2.1)

/-! ### Frames -/

/-- `++_malformed_errors`. -/
def malformed (s : Server sz σ) : Server sz σ :=
  { s with malformedErrors := s.malformedErrors + 1 }

/-- The `Reply` over a fresh `result_buf`. -/
def newReply (sz : ServerSize) : Reply where
  writer := Writer.new (List.replicate sz.kResultScratch 0) sz.kResultScratch
  error := none
  rawLen := none

/-- `handle_frame_`. -/
def handleFrame (s : Server sz σ) (payload : List UInt8) : Server sz σ :=
  let (now, s) := s.nowMs
  -- Every frame counts for the attach timeout, whatever is in it.
  let s := { s with lastFrameMs := now }
  let r := Reader.new sz.sizeT payload
  let (r, arrN) := r.readArray 0
  if r.error then s.malformed
  else
    let (r, msgType) := r.readSigned (Reader.maxSigned sz.intBits) 0
    if r.error then s.malformed
    -- A request: `[0, msgid, method, params]`.
    else if msgType = 0 then
      if arrN ≠ 4 then s.malformed
      else
        let (r, msgid) := r.readUnsigned (Reader.maxUnsigned 32) 0
        let (r, method) := r.readStr ⟨0, 0⟩
        let (r, paramsN) := r.readArray 0
        if r.error then s.malformed
        else
          let (s, reply) := s.dispatch (r.bytes method) ⟨r, paramsN⟩ (newReply sz)
          s.sendResponse (UInt32.ofNat msgid) reply
    -- A notification: `[2, method, params]`, and its reply is discarded.
    else if msgType = 2 then
      if arrN ≠ 3 then s.malformed
      else
        let (r, method) := r.readStr ⟨0, 0⟩
        let (r, paramsN) := r.readArray 0
        if r.error then s.malformed
        else (s.dispatch (r.bytes method) ⟨r, paramsN⟩ (newReply sz)).1
    -- A stray response, say.
    else s.malformed

/-! ### The main loop -/

/-- `begin`. -/
def begin (s : Server sz σ) : Server sz σ :=
  { s with
      demux := s.demux.reset
      attached := false
      attachHasTimeout := false }.writeText (SerialRpc.text "#serial_rpc ready v1\n")

/-- `check_attach_timeout_`. -/
def checkAttachTimeout (s : Server sz σ) : Server sz σ :=
  if s.attached && s.attachHasTimeout then
    let (now, s) := s.nowMs
    -- Modulo `2 ^ 32`, so the clock may wrap in between.
    if s.attachTimeoutMs ≤ now - s.lastFrameMs then
      { s with attached := false, attachHasTimeout := false }.runHook s.onDetach
    else s
  else s

/-- What `poll` does on a report of the demultiplexer. The text callback gets a C string. -/
def handleReport (s : Server sz σ) : Option Report → Server sz σ
  | none => s
  | some (.frame payload) => s.handleFrame payload
  | some (.textLine line _) =>
      s.runHook (s.onText.map fun hook => hook (cstr line))

/-- One turn of the loop of `poll`. -/
def pollByte (s : Server sz σ) (b : UInt8) : Server sz σ :=
  let answer := (SerialRpc.demux sz.demuxSize).step s.demux b
  { s with demux := answer.1 }.handleReport answer.2

/-- `poll`, with the bytes that are available to it. -/
def poll (s : Server sz σ) (available : List UInt8) : Server sz σ :=
  (available.foldl pollByte s).checkAttachTimeout

end Server

end SerialRpc
