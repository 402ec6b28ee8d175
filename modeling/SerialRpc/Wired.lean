import SerialRpc.Proofs.Host.Calls
import SerialRpc.Proofs.Device.Wire
import SerialRpc.Proofs.Host.Transport

/-!
# `SerialRpc.Wired`: a client and a device on one line

Two models of the two programs together. In `Wired` the client of `src/extras/host` and the server
of `src/serial_rpc` are joined by the bytes on the line, and each of them reads as many at a time as
it gets. In `Dialogue` they are joined by what the demultiplexers report: whole messages and lines.

`write` takes all of its bytes. When there are which moves is `Wired.Permits`. What `connect` does
before its requests is none of them: the reset of the board over DTR, `flush_input` and the reset of
the demultiplexer. A run is what happens between two of these.
-/

set_option autoImplicit false

namespace SerialRpc

/-- A client and a device, and the bytes on the line between them. -/
structure Wired (sz : ServerSize) (σ : Type) where
  client : RPC
  device : Server sz σ
  /-- The method of the call that waits, or of the last one. -/
  calling : List UInt8
  toDevice : List UInt8
  toClient : List UInt8

/-- A client and a device, and the messages and lines between them. -/
structure Dialogue (sz : ServerSize) (σ : Type) where
  client : RPC
  device : Server sz σ
  calling : List UInt8
  toDevice : List Report
  toClient : List Report
  /-- The line of text that the device has begun. -/
  line : Splitter

/-- What happens. A number is that of the bytes of a read, or that of the reports. -/
inductive Wired.Move (sz : ServerSize) (σ : Type) where
  /-- `notify_values`. -/
  | notify (method : List UInt8) (args : List Value)
  /-- `call_values`, up to its waiting loop. -/
  | call (method : List UInt8) (args : List Value)
  /-- `try_request_`, up to its waiting loop. -/
  | probe (method : List UInt8)
  /-- One turn of the waiting loop, or of `poll`. -/
  | pump (n : Nat)
  /-- `call_values` has its response. -/
  | returns
  /-- `call_values` has seen its deadline. -/
  | expires
  /-- `try_request_` has its response. -/
  | replied
  /-- `try_request_` has seen its deadline. -/
  | givesUp
  /-- The `rpc.attach` of `connect` has returned. -/
  | attached
  /-- `disconnect`. -/
  | disconnect
  /-- The sketch, in its main loop. -/
  | sketch (event : Server.Event sz σ)
  /-- `poll` of the device. -/
  | poll (n : Nat)

variable {sz : ServerSize} {σ : Type}

/-- When a client may make a move. It is one thread: it sends nothing while a call waits, and the
call ends with its response, or when there is none. -/
def Wired.Move.Timely (c : RPC) (calling : List UInt8) : Wired.Move sz σ → Prop
  | .notify _ _ => c.pendingMsgid = none
  | .call _ _ => c.pendingMsgid = none
  | .probe _ => c.pendingMsgid = none
  | .disconnect => c.pendingMsgid = none
  | .returns => c.pendingMsgid.isSome ∧ c.pendingResponseReady = true
  | .expires => c.pendingMsgid.isSome ∧ c.pendingResponseReady = false
  | .replied => c.pendingMsgid.isSome ∧ c.pendingResponseReady = true
  | .givesUp => c.pendingMsgid.isSome ∧ c.pendingResponseReady = false
  | .attached =>
      (c.pendingMsgid.isSome ∧ c.pendingResponseReady = true ∧ c.pendingResponseIsError = false) ∧
        calling = text "rpc.attach"
  | .pump _ => True
  | .sketch event => event.Clean
  | .poll _ => True

/-- What the client sends in a move, if it has room for it. -/
def Wired.Move.payload (c : RPC) : Wired.Move sz σ → Option (List UInt8)
  | .notify method args => some (notifyPayload method args)
  | .call method args => some (requestPayload c.nextMsgid method args)
  | .probe method => some (requestPayload c.nextMsgid method [])
  | .disconnect => if c.attached then some (notifyPayload (text "rpc.detach") []) else none
  | _ => none

/-- The device has room for a payload, if the client has. -/
def ServerSize.Hears (sz : ServerSize) (maxFrame : Nat) (payload : List UInt8) : Prop :=
  payload.length ≤ maxFrame → payload.length ≤ sz.bufSize

/-- The device has room for what the client sends. -/
def Wired.Move.Heard (c : RPC) (move : Wired.Move sz σ) : Prop :=
  ∀ payload ∈ move.payload c, sz.Hears c.opts.maxFrame payload

/-- What the device wrote on the way from `s` to `s'`. -/
def writtenBy (s s' : Server sz σ) : List Sent := s'.sent.drop s.sent.length

namespace Wired

/-- The client has written. -/
def clientSends (x : Wired sz σ) (sent : RPC × List UInt8 × Option HostError) : Wired sz σ :=
  { x with
      client := sent.1
      toDevice := x.toDevice ++ sent.2.1 }

/-- The device has come to `s`. -/
def deviceGoes (x : Wired sz σ) (s : Server sz σ) : Wired sz σ :=
  { x with
      device := s
      toClient := x.toClient ++ (writtenBy x.device s).flatMap Sent.bytes }

/-- One move. -/
def step (x : Wired sz σ) : Move sz σ → Wired sz σ
  | .notify method args => x.clientSends (x.client.notifyValues RPC.writesAll method args)
  | .call method args =>
      { x.clientSends (x.client.startCall RPC.writesAll method args) with calling := method }
  | .probe method =>
      { x.clientSends (x.client.startTry RPC.writesAll method) with calling := method }
  | .pump n =>
      { x with
          client := (x.client.feedBytes (x.toClient.take n)).1
          toClient := x.toClient.drop n }
  | .returns => { x with client := { x.client with pendingMsgid := none } }
  | .expires =>
      { x with client := { x.client with
          stats := { x.client.stats with timeouts := x.client.stats.timeouts + 1 }
          pendingMsgid := none } }
  | .replied =>
      { x with client := { x.client with
          pendingMsgid := none
          pendingResponseReady := false } }
  | .givesUp => { x with client := { x.client with pendingMsgid := none } }
  | .attached => { x with client := { x.client with pendingMsgid := none, attached := true } }
  | .disconnect => x.clientSends (x.client.disconnect RPC.writesAll)
  | .sketch event => x.deviceGoes (x.device.act event)
  | .poll n =>
      { x.deviceGoes (x.device.poll (x.toDevice.take n)) with toDevice := x.toDevice.drop n }

/-- Nothing is in flight yet. -/
def start (client : RPC) (device : Server sz σ) : Wired sz σ := ⟨client, device, [], [], []⟩

def run (x : Wired sz σ) (moves : List (Move sz σ)) : Wired sz σ := moves.foldl step x

/-- The reports that the client is given in a move. -/
def told (x : Wired sz σ) : Move sz σ → List Report
  | .pump n => (demux hostDemuxSize).messages x.client.demux (x.toClient.take n)
  | _ => []

def toldIn (x : Wired sz σ) : List (Move sz σ) → List Report
  | [] => []
  | move :: moves => x.told move ++ (x.step move).toldIn moves

/-- The moves there are. The device drops a frame that it has no room for, and an exception out of
`pump_bytes_` drops bytes, so runs with one of these are not considered. -/
structure Permits (x : Wired sz σ) (move : Move sz σ) : Prop where
  timely : move.Timely x.client x.calling
  heard : move.Heard x.client
  caught : ∀ n, move = .pump n → (x.client.feedBytes (x.toClient.take n)).2 = none

/-- Every move of a run is one there is. -/
def PermitsAll (x : Wired sz σ) : List (Move sz σ) → Prop
  | [] => True
  | move :: moves => x.Permits move ∧ (x.step move).PermitsAll moves

end Wired

/-- The line of text that the device has begun, and what the client is told behind a write: the
message, or the lines that the text ends. -/
def overhear (line : Splitter) : Sent → List Report × Splitter
  | .frame payload _ => ([.frame payload], line)
  | .text bytes =>
      ((splitter hostDemuxSize.frameMax hostDemuxSize.lineMax).messages line bytes,
        (splitter hostDemuxSize.frameMax hostDemuxSize.lineMax).final line bytes)

/-- The same behind several writes. -/
def overhearAll (line : Splitter) : List Sent → List Report × Splitter
  | [] => ([], line)
  | write :: writes =>
      let first := overhear line write
      let rest := overhearAll first.2 writes
      (first.1 ++ rest.1, rest.2)

namespace Dialogue

/-- The client has sent a payload, if it fits. -/
def clientSends (y : Dialogue sz σ) (client : RPC) (payload : List UInt8) : Dialogue sz σ :=
  { y with
      client := client
      toDevice := y.toDevice ++
        (if payload.length ≤ y.client.opts.maxFrame then [.frame payload] else []) }

/-- The device has come to `s`. -/
def deviceGoes (y : Dialogue sz σ) (s : Server sz σ) : Dialogue sz σ :=
  let told := overhearAll y.line (writtenBy y.device s)
  { y with
      device := s
      toClient := y.toClient ++ told.1
      line := told.2 }

/-- One move. -/
def step (y : Dialogue sz σ) : Wired.Move sz σ → Dialogue sz σ
  | .notify method args =>
      y.clientSends (y.client.notifyValues RPC.writesAll method args).1 (notifyPayload method args)
  | .call method args =>
      { y.clientSends (y.client.startCall RPC.writesAll method args).1
          (requestPayload y.client.nextMsgid method args) with calling := method }
  | .probe method =>
      { y.clientSends (y.client.startTry RPC.writesAll method).1
          (requestPayload y.client.nextMsgid method []) with calling := method }
  | .pump n =>
      { y with
          client := y.client.handleReports (y.toClient.take n)
          toClient := y.toClient.drop n }
  | .returns => { y with client := { y.client with pendingMsgid := none } }
  | .expires =>
      { y with client := { y.client with
          stats := { y.client.stats with timeouts := y.client.stats.timeouts + 1 }
          pendingMsgid := none } }
  | .replied =>
      { y with client := { y.client with
          pendingMsgid := none
          pendingResponseReady := false } }
  | .givesUp => { y with client := { y.client with pendingMsgid := none } }
  | .attached => { y with client := { y.client with pendingMsgid := none, attached := true } }
  | .disconnect =>
      if y.client.attached then
        y.clientSends (y.client.disconnect RPC.writesAll).1 (notifyPayload (text "rpc.detach") [])
      else y
  | .sketch event => y.deviceGoes (y.device.act event)
  | .poll n =>
      { y.deviceGoes (y.device.handleReports (y.toDevice.take n)).checkAttachTimeout with
          toDevice := y.toDevice.drop n }

/-- Nothing is in flight yet, but for the line that the device has begun. -/
def start (client : RPC) (device : Server sz σ) (line : Splitter) : Dialogue sz σ :=
  ⟨client, device, [], [], [], line⟩

def run (y : Dialogue sz σ) (moves : List (Wired.Move sz σ)) : Dialogue sz σ := moves.foldl step y

/-- The reports that the client is given in a move. -/
def told (y : Dialogue sz σ) : Wired.Move sz σ → List Report
  | .pump n => y.toClient.take n
  | _ => []

def toldIn (y : Dialogue sz σ) : List (Wired.Move sz σ) → List Report
  | [] => []
  | move :: moves => y.told move ++ (y.step move).toldIn moves

/-- The moves there are. -/
structure Permits (y : Dialogue sz σ) (move : Wired.Move sz σ) : Prop where
  timely : move.Timely y.client y.calling
  heard : move.Heard y.client
  caught : ∀ n, move = .pump n → ∀ report ∈ y.toClient.take n, reportThrows (some report) = false

def PermitsAll (y : Dialogue sz σ) : List (Wired.Move sz σ) → Prop
  | [] => True
  | move :: moves => y.Permits move ∧ (y.step move).PermitsAll moves

end Dialogue

/-- The same move, but for the number. -/
inductive Wired.Move.Alike : Wired.Move sz σ → Wired.Move sz σ → Prop
  | same (move : Wired.Move sz σ) : Alike move move
  | pump (bytes reports : Nat) : Alike (.pump bytes) (.pump reports)
  | poll (bytes reports : Nat) : Alike (.poll bytes) (.poll reports)

end SerialRpc
