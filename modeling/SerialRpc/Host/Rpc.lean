import SerialRpc.Host.Reserving
import SerialRpc.Framing.Demux

/-!
# `SerialRpc.Host.Rpc`: the host-side client

The `RPC` class of `extras/host/include/serial_rpc.hpp`. The port and the clock are
environment: what `write` and `read_some` return and what `clock::now()` reads are
arguments, and the bytes handed to `write` are results.

The callbacks are known by a number each, so that a state says which one is installed.
They return normally and do not call back into the object. `dispatched` is the record of
what they were called with, in order, and of the responses taken for a pending call.

`Value::decode_` reserves what a frame announces, and there may be no room for it. `Memory` says
which of these calls succeed. Everything else that is allocated is no longer than what was
received or sent, and that is taken to succeed.

An exception leaves the object as it is at the throw. A function that can throw returns the
state together with the exception, if there is one.
-/

set_option autoImplicit false

namespace SerialRpc

/-- The exceptions that come out of the client, apart from `TypeError`. -/
inductive HostError where
  | protocol (e : ProtocolError)
  | io (what : String)
  | timeout (what : List UInt8)
  | remote (method : List UInt8) (error : Value)
  /-- `std::bad_alloc`, out of a `reserve`. -/
  | badAlloc

/-- `RPC::Stats`. -/
structure Stats where
  calls : UInt64
  notificationsSent : UInt64
  notificationsRecv : UInt64
  logsRecv : UInt64
  textRecv : UInt64
  strayResponses : UInt64
  timeouts : UInt64
  malformedFrames : UInt64
deriving DecidableEq, Repr

/-- One call of a callback, which the first field names, or a response taken. -/
inductive Dispatched where
  | text (callback : Nat) (line : List UInt8)
  | log (callback : Nat) (level : Int) (line : List UInt8)
  | notification (callback : Nat) (args : Value)
  | any (callback : Nat) (method : List UInt8) (args : Value)
  | response (msgid : Nat) (isError : Bool) (value : Value)

/-- `RPC::Options`. -/
structure Options where
  /-- Milliseconds. -/
  timeout : Nat
  maxFrame : Nat

/-- The defaults of `RPC::Options`. -/
def Options.default : Options := ⟨1000, 1024⟩

/-- `HostDemux`. -/
def hostDemuxSize : DemuxSize := ⟨4096, 1024, by decide, by decide⟩

/-- `RPC`. -/
structure RPC where
  opts : Options
  demux : Demux hostDemuxSize
  txPayload : List UInt8
  txFrame : List UInt8
  nextMsgid : UInt32
  pendingMsgid : Option Nat
  pendingResponseReady : Bool
  pendingResponseIsError : Bool
  pendingResponseValue : Value
  attached : Bool
  stats : Stats
  onLog : Option Nat
  onText : Option Nat
  /-- `on()` handlers by method. -/
  handlers : List (List UInt8 × Nat)
  onAny : Option Nat
  /-- The calls of callbacks and the responses taken so far. -/
  dispatched : List Dispatched

/-- `Value::as<int>`, where `int` has 32 bits. `none` is the `TypeError`. -/
def Value.asInt32 : Value → Option Int
  | .int v => if v.toInt < -2147483648 ∨ 2147483647 < v.toInt then none else some v.toInt
  | .uint v => if 2147483647 < v then none else some v.toNat
  | _ => none

/-- `Value::as<std::string>`. -/
def Value.asString : Value → Option (List UInt8)
  | .str s => some s
  | _ => none

namespace RPC

/-- The constructor. The text callback is the one that prints to `stderr`, number 0. -/
def new (opts : Options) : RPC where
  opts := opts
  demux := Demux.new hostDemuxSize
  txPayload := List.replicate opts.maxFrame 0
  txFrame := List.replicate (frameMaxSize opts.maxFrame) 0
  nextMsgid := 1
  pendingMsgid := none
  pendingResponseReady := false
  pendingResponseIsError := false
  pendingResponseValue := .nil
  attached := false
  stats := ⟨0, 0, 0, 0, 0, 0, 0, 0⟩
  onLog := none
  onText := some 0
  handlers := []
  onAny := none
  dispatched := []

/-! ### Incoming frames -/

/-- A callback is called, or a response taken. -/
def record (c : RPC) (call : Dispatched) : RPC := { c with dispatched := c.dispatched ++ [call] }

/-- `++_stats.malformed_frames`. -/
def malformed (c : RPC) : RPC :=
  { c with stats := { c.stats with malformedFrames := c.stats.malformedFrames + 1 } }

/-- `dispatch_log_`. A `TypeError` on the way to the callback is swallowed. -/
def dispatchLog (c : RPC) (args : Value) : RPC :=
  match c.onLog, args with
  | some callback, .array (level :: line :: _) =>
      match level.asInt32, line.asString with
      | some level, some line => c.record (.log callback level line)
      | _, _ => c
  | _, _ => c

/-- `dispatch_notification_`. -/
def dispatchNotification (c : RPC) (method : List UInt8) (args : Value) : RPC :=
  let c :=
    match c.handlers.lookup method with
    | some callback => c.record (.notification callback args)
    | none => c
  match c.onAny with
  | some callback => c.record (.any callback method args)
  | none => c

/-- The response branch of `handle_frame_`, from the error slot on. -/
def handleResponse (c : RPC) (r : Reader .host64) (msgid : Nat) : RPC × Option ProtocolError :=
  let isError := decide (r.type ≠ .nil)
  let errorSlot := if isError then Value.decode r else .ok (.nil, r.readNil)
  match errorSlot with
  | .error e => (c, some e)
  | .ok (errValue, r) =>
      if r.error then (c.malformed, none)
      else
        match Value.decode r with
        | .error e => (c, some e)
        | .ok (result, r) =>
            if r.error then (c.malformed, none)
            else if c.pendingMsgid = some msgid then
              let value := if isError then errValue else result
              ({ c with
                  pendingResponseReady := true
                  pendingResponseIsError := isError
                  pendingResponseValue := value }.record (.response msgid isError value), none)
            else
              ({ c with stats := { c.stats with strayResponses := c.stats.strayResponses + 1 } },
                none)

/-- The notification branch of `handle_frame_`, from the parameters on. -/
def handleNotification (c : RPC) (r : Reader .host64) (method : List UInt8) :
    RPC × Option ProtocolError :=
  match Value.decode r with
  | .error e => (c, some e)
  | .ok (args, r) =>
      if r.error then (c.malformed, none)
      else if method = text "log" then
        let c := { c with stats := { c.stats with logsRecv := c.stats.logsRecv + 1 } }
        (c.dispatchLog args, none)
      else
        let c :=
          { c with stats := { c.stats with notificationsRecv := c.stats.notificationsRecv + 1 } }
        (c.dispatchNotification method args, none)

/-- `handle_frame_`. -/
def handleFrame (c : RPC) (payload : List UInt8) : RPC × Option ProtocolError :=
  let r := Reader.new .host64 payload
  let (r, arrN) := r.readArray 0
  if r.error then (c.malformed, none)
  else
    let (r, type) := r.readSigned (Reader.maxSigned 32) 0
    if r.error then (c.malformed, none)
    else if type = 1 then
      if arrN ≠ 4 then (c.malformed, none)
      else
        let (r, msgid) := r.readUnsigned (Reader.maxUnsigned 32) 0
        if r.error then (c.malformed, none) else c.handleResponse r msgid
    else if type = 2 then
      if arrN ≠ 3 then (c.malformed, none)
      else
        let (r, method) := r.readStr ⟨0, 0⟩
        if r.error then (c.malformed, none) else c.handleNotification r (r.bytes method)
    else (c.malformed, none)

/-! ### Room -/

/-- The `reserve` calls of the response branch of `handle_frame_`, in order. -/
def responseReserved (r : Reader .host64) : List Reservation :=
  let errorSlot := if r.type ≠ .nil then Decoding.decode r else ⟨[], .ok (.nil, r.readNil)⟩
  errorSlot.reserved ++
    match errorSlot.outcome with
    | .error _ => []
    | .ok (_, r) => if r.error then [] else (Decoding.decode r).reserved

/-- The `reserve` calls of `handle_frame_`, in order. -/
def frameReserved (payload : List UInt8) : List Reservation :=
  let r := Reader.new .host64 payload
  let (r, arrN) := r.readArray 0
  if r.error then []
  else
    let (r, type) := r.readSigned (Reader.maxSigned 32) 0
    if r.error then []
    else if type = 1 then
      if arrN ≠ 4 then []
      else
        let (r, _) := r.readUnsigned (Reader.maxUnsigned 32) 0
        if r.error then [] else responseReserved r
    else if type = 2 then
      if arrN ≠ 3 then []
      else
        let (r, _) := r.readStr ⟨0, 0⟩
        if r.error then [] else (Decoding.decode r).reserved
    else []

end RPC

/-- A notification that announces 2 ^ 32 - 1 arguments and ends there. -/
example : RPC.frameReserved [0x93, 0x02, 0xa1, 0x61, 0xdd, 0xff, 0xff, 0xff, 0xff]
    = [⟨4294967295, 0⟩] := by decide +kernel

/-- The memory that an operation finds. -/
inductive Memory where
  /-- Every `reserve` succeeds. -/
  | unlimited
  /-- `grants payload call`: there is room for this `reserve` when the frame is handled. -/
  | limited (grants : List UInt8 → Reservation → Bool)

/-- A `reserve` that the report leads to throws. Only frames hold values. -/
def Memory.starves : Memory → Option Report → Bool
  | .unlimited, _ => false
  | .limited grants, some (.frame payload) =>
      (RPC.frameReserved payload).any fun call => !grants payload call
  | .limited _, _ => false

namespace RPC

/-! ### Pumping -/

/-- What `pump_bytes_` does on a report of the demultiplexer. -/
def handleReport (c : RPC) : Option Report → RPC × Option ProtocolError
  | none => (c, none)
  | some (.frame payload) => c.handleFrame payload
  | some (.textLine line _) =>
      let c := { c with stats := { c.stats with textRecv := c.stats.textRecv + 1 } }
      match c.onText with
      | some callback => (c.record (.text callback line), none)
      | none => (c, none)

/-- One turn of the loop of `pump_bytes_`. A frame changes nothing else before its values are
decoded, so `std::bad_alloc` leaves the new demultiplexer and the rest as it was. -/
def feedByte (c : RPC) (b : UInt8) (memory : Memory := .unlimited) : RPC × Option HostError :=
  let answer := (SerialRpc.demux hostDemuxSize).step c.demux b
  let c := { c with demux := answer.1 }
  if memory.starves answer.2 then (c, some .badAlloc)
  else
    let (c, thrown) := c.handleReport answer.2
    (c, thrown.map .protocol)

/-- The loop of `pump_bytes_`. An exception leaves it, and the bytes behind are gone. -/
def feedBytes (c : RPC) (bytes : List UInt8) (memory : Memory := .unlimited) :
    RPC × Option HostError :=
  match bytes with
  | [] => (c, none)
  | b :: bs =>
      match c.feedByte b memory with
      | (c, some e) => (c, some e)
      | (c, none) => feedBytes c bs memory

/-- `pump_bytes_`, with what `read_some` returned: `none` for a failure, or at most 256
bytes. -/
def pumpBytes (c : RPC) (read : Option (List UInt8)) (memory : Memory := .unlimited) :
    RPC × Option HostError :=
  match read with
  | none => (c, some (.io "serial_rpc: read_some() failed"))
  | some bytes => c.feedBytes bytes memory

/-- Successive reads. The caller goes on after an exception, as `IoWorker::thread_main_`
does. -/
def pumpReads (c : RPC) (reads : List (List UInt8)) : RPC :=
  reads.foldl (fun c bytes => (c.pumpBytes (some bytes)).1) c

/-! ### Sending -/

/-- `write_frame_`, with what `write` returns for a number of bytes. The second result is
what was handed to `write`. -/
def writeFrame (c : RPC) (write : Nat → Int) (payload : List UInt8) :
    RPC × List UInt8 × Option HostError :=
  let encoded := frameEncode payload c.txFrame c.txFrame.length
  let c := { c with txFrame := encoded.1 }
  if encoded.2 = 0 then
    (c, [], some (.protocol
      ⟨"serial_rpc: frame_encode() overflow (payload too large for max_frame)"⟩))
  else
    let bytes := encoded.1.take encoded.2
    if write encoded.2 < 0 ∨ (write encoded.2).toNat ≠ encoded.2 then
      (c, bytes, some (.io "serial_rpc: write() failed or short write"))
    else (c, bytes, none)

/-- A message is packed into `_tx_payload` and written. -/
def sendPacked (c : RPC) (write : Nat → Int) (pack : Writer → Writer) (overflow : ProtocolError) :
    RPC × List UInt8 × Option HostError :=
  let w := pack (Writer.new c.txPayload c.txPayload.length)
  let c := { c with txPayload := w.buf }
  if w.overflow then (c, [], some (.protocol overflow)) else c.writeFrame write w.data

/-- The payload of `send_request_`. -/
def packRequest (msgid : UInt32) (method : List UInt8) (args : List Value) (w : Writer) : Writer :=
  Value.encodeElems args
    ((((w.packArray 4).packInt 0).packUint msgid.toUInt64 |>.packStr method).packArray args.length)

/-- `send_request_`. -/
def sendRequest (c : RPC) (write : Nat → Int) (msgid : UInt32) (method : List UInt8)
    (args : List Value) : RPC × List UInt8 × Option HostError :=
  c.sendPacked write (packRequest msgid method args)
    ⟨"serial_rpc: request payload exceeds max_frame"⟩

/-! ### Calls -/

/-- One turn of the waiting loop of `call_values`: what the clock reads, in milliseconds,
and what the read returns then. -/
structure Attempt where
  now : Nat
  read : Option (List UInt8)

/-- How `call_values` ends. `waiting` says that it has not ended yet. -/
inductive CallOutcome where
  | returned (v : Value)
  | threw (e : HostError)
  | waiting

/-- The waiting loop of `call_values`. `_pending_msgid` is cleared on every way out. -/
def awaitResponse (c : RPC) (method : List UInt8) (deadline : Nat) (attempts : List Attempt)
    (memory : Memory := .unlimited) : RPC × CallOutcome :=
  match attempts with
  | [] => (c, .waiting)
  | attempt :: attempts =>
      if deadline ≤ attempt.now then
        ({ c with
            stats := { c.stats with timeouts := c.stats.timeouts + 1 }
            pendingMsgid := none },
          .threw (.timeout
            (text "serial_rpc: timed out waiting for a response to '" ++ method ++ text "'")))
      else
        match c.pumpBytes attempt.read memory with
        | (c, some e) => ({ c with pendingMsgid := none }, .threw e)
        | (c, none) =>
            if c.pendingResponseReady then
              ({ c with pendingMsgid := none },
                if c.pendingResponseIsError then .threw (.remote method c.pendingResponseValue)
                else .returned c.pendingResponseValue)
            else awaitResponse c method deadline attempts memory

/-- `call_values` up to the waiting loop. -/
def startCall (c : RPC) (write : Nat → Int) (method : List UInt8) (args : List Value) :
    RPC × List UInt8 × Option HostError :=
  let msgid := c.nextMsgid
  let c := { c with nextMsgid := c.nextMsgid + 1 }
  match c.sendRequest write msgid method args with
  | (c, bytes, some e) => (c, bytes, some e)
  | (c, bytes, none) =>
      ({ c with
          pendingMsgid := some msgid.toNat
          pendingResponseReady := false
          stats := { c.stats with calls := c.stats.calls + 1 } }, bytes, none)

/-- `call_values`: the bytes written, the object afterwards and the outcome. `start` is what
the clock reads once the request is out. -/
def callValues (c : RPC) (write : Nat → Int) (method : List UInt8) (args : List Value)
    (start : Nat) (attempts : List Attempt) (memory : Memory := .unlimited) :
    RPC × List UInt8 × CallOutcome :=
  match c.startCall write method args with
  | (c, bytes, some e) => (c, bytes, .threw e)
  | (c, bytes, none) =>
      let (c, outcome) := c.awaitResponse method (start + c.opts.timeout) attempts memory
      (c, bytes, outcome)

end RPC

end SerialRpc
