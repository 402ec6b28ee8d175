import SerialRpc.Host.Rpc

/-!
# `SerialRpc.Host.Connection`: notifications, polling and the connection

The rest of the `RPC` class: `notify_values`, `poll`, `try_request_`, `connect` and
`disconnect`. As in `Host.Rpc`, the port and the clock are environment. `flush_input` and
`set_dtr` change the port only, so they have no part in the state.

`connect` installs a callback of its own for the time it waits. It gets a number like every
other callback (`temporary`), and hands each line on to the callback that was installed
before (`throughTemporary`).
-/

set_option autoImplicit false

namespace SerialRpc

namespace RPC

/-! ### Notifications -/

/-- The payload of `notify_values`. -/
def packNotify (method : List UInt8) (args : List Value) (w : Writer) : Writer :=
  Value.encodeElems args ((((w.packArray 3).packInt 2).packStr method).packArray args.length)

/-- `notify_values`. -/
def notifyValues (c : RPC) (write : Nat → Int) (method : List UInt8) (args : List Value) :
    RPC × List UInt8 × Option HostError :=
  match c.sendPacked write (packNotify method args)
      ⟨"serial_rpc: notification payload exceeds max_frame"⟩ with
  | (c, bytes, some e) => (c, bytes, some e)
  | (c, bytes, none) =>
      ({ c with stats := { c.stats with notificationsSent := c.stats.notificationsSent + 1 } },
        bytes, none)

/-! ### Polling -/

/-- One turn of the loop of `poll`: what the read returns, and what the clock reads behind
it. -/
structure PollTurn where
  read : Option (List UInt8)
  after : Nat

/-- How `poll` ends. -/
inductive PollOutcome where
  | returned (events : UInt64)
  | threw (e : HostError)
  | waiting

/-- `events_total_`. -/
def eventsTotal (c : RPC) : UInt64 :=
  c.stats.textRecv + c.stats.notificationsRecv + c.stats.logsRecv + c.stats.strayResponses

/-- The loop of `poll`, which started with `before` events. -/
def pollLoop (c : RPC) (before : UInt64) (deadline : Nat) (turns : List PollTurn)
    (memory : Memory := .unlimited) : RPC × PollOutcome :=
  match turns with
  | [] => (c, .waiting)
  | turn :: turns =>
      match c.pumpBytes turn.read memory with
      | (c, some e) => (c, .threw e)
      | (c, none) =>
          if turn.after < deadline then pollLoop c before deadline turns memory
          else (c, .returned (c.eventsTotal - before))

/-- `poll`. -/
def poll (c : RPC) (deadline : Nat) (turns : List PollTurn) (memory : Memory := .unlimited) :
    RPC × PollOutcome :=
  c.pollLoop c.eventsTotal deadline turns memory

/-! ### Probing the device -/

/-- How `try_request_` ends. -/
inductive TryOutcome where
  | replied (v : Value)
  /-- `nullopt`. -/
  | nothing
  | threw (e : HostError)
  | waiting

/-- The waiting loop of `try_request_`. -/
def awaitReply (c : RPC) (method : List UInt8) (deadline : Nat) (attempts : List Attempt)
    (memory : Memory := .unlimited) : RPC × TryOutcome :=
  match attempts with
  | [] => (c, .waiting)
  | attempt :: attempts =>
      if deadline ≤ attempt.now then ({ c with pendingMsgid := none }, .nothing)
      else
        match c.pumpBytes attempt.read memory with
        | (c, some e) => ({ c with pendingMsgid := none }, .threw e)
        | (c, none) =>
            if c.pendingResponseReady then
              ({ c with pendingMsgid := none, pendingResponseReady := false },
                if c.pendingResponseIsError then .threw (.remote method c.pendingResponseValue)
                else .replied c.pendingResponseValue)
            else awaitReply c method deadline attempts memory

/-- `try_request_` up to the waiting loop. It does not count as a call. -/
def startTry (c : RPC) (write : Nat → Int) (method : List UInt8) :
    RPC × List UInt8 × Option HostError :=
  let msgid := c.nextMsgid
  let c := { c with nextMsgid := c.nextMsgid + 1 }
  match c.sendRequest write msgid method [] with
  | (c, bytes, some e) => (c, bytes, some e)
  | (c, bytes, none) =>
      ({ c with pendingMsgid := some msgid.toNat, pendingResponseReady := false }, bytes, none)

/-- `try_request_`. `start` is what the clock reads once the request is out. -/
def tryRequest (c : RPC) (write : Nat → Int) (method : List UInt8) (budget start : Nat)
    (attempts : List Attempt) (memory : Memory := .unlimited) : RPC × List UInt8 × TryOutcome :=
  match c.startTry write method with
  | (c, bytes, some e) => (c, bytes, .threw e)
  | (c, bytes, none) =>
      let (c, outcome) := c.awaitReply method (start + budget) attempts memory
      (c, bytes, outcome)

/-! ### Connecting -/

/-- One turn of the waiting loop of `connect`: what the clock reads, and the environment of
the ping. -/
structure Probe where
  now : Nat
  write : Nat → Int
  start : Nat
  attempts : List Attempt

/-- The environment of a request: what `write` returns, what the clock reads once the
request is out, and the waiting loop. -/
structure Exchange where
  write : Nat → Int
  start : Nat
  attempts : List Attempt

/-- How the waiting loop of `connect` ends. -/
inductive WaitOutcome where
  | alive
  | timedOut
  | threw (e : HostError)
  | waiting

/-- How `connect` ends. -/
inductive ConnectOutcome where
  | connected
  | threw (e : HostError)
  | waiting

/-- `line.find("ready") != npos`. -/
def findsReady (line : List UInt8) : Bool := line.tails.any (text "ready").isPrefixOf

/-- The temporary callback hands a line on to `previous`. -/
def throughTemporary (temporary : Nat) (previous : Option Nat) : Dispatched → List Dispatched
  | .text callback line =>
      if callback = temporary then
        .text temporary line :: (previous.map fun callback => Dispatched.text callback line).toList
      else [.text callback line]
  | call => [call]

/-- The temporary callback got a line that contains `ready`. -/
def sawReady (temporary : Nat) : Dispatched → Bool
  | .text callback line => callback = temporary && findsReady line
  | _ => false

/-- What was dispatched from `before` on went through the temporary callback. -/
def handOn (c : RPC) (temporary : Nat) (previous : Option Nat) (before : Nat) : RPC :=
  { c with dispatched := c.dispatched.take before ++
      (c.dispatched.drop before).flatMap (throughTemporary temporary previous) }

/-- The waiting loop of `connect`. -/
def waitForDevice (c : RPC) (temporary : Nat) (previous : Option Nat) (deadline : Nat)
    (probes : List Probe) (memory : Memory := .unlimited) : RPC × List UInt8 × WaitOutcome :=
  match probes with
  | [] => (c, [], .waiting)
  | probe :: probes =>
      if deadline ≤ probe.now then (c, [], .timedOut)
      else
        let before := c.dispatched.length
        let (c, bytes, outcome) :=
          c.tryRequest probe.write (text "rpc.ping") (min (deadline - probe.now) 250) probe.start
            probe.attempts memory
        let ready := (c.dispatched.drop before).any (sawReady temporary)
        let c := c.handOn temporary previous before
        match outcome with
        | .threw e => (c, bytes, .threw e)
        | .waiting => (c, bytes, .waiting)
        | .replied _ => (c, bytes, .alive)
        | .nothing =>
            if ready then (c, bytes, .alive)
            else
              let (c, later, outcome) :=
                waitForDevice c temporary previous deadline probes memory
              (c, bytes ++ later, outcome)

/-- `connect` once the device is alive: `call("rpc.attach")`. -/
def attach (c : RPC) (exchange : Exchange) (memory : Memory := .unlimited) :
    RPC × List UInt8 × ConnectOutcome :=
  match c.callValues exchange.write (text "rpc.attach") [] exchange.start exchange.attempts
    memory with
  | (c, bytes, .returned _) => ({ c with attached := true }, bytes, .connected)
  | (c, bytes, .threw e) => (c, bytes, .threw e)
  | (c, bytes, .waiting) => (c, bytes, .waiting)

/-- `connect`. An exception out of the waiting loop leaves the temporary callback behind. -/
def connect (c : RPC) (temporary deadline : Nat) (probes : List Probe) (exchange : Exchange)
    (memory : Memory := .unlimited) : RPC × List UInt8 × ConnectOutcome :=
  let previous := c.onText
  let c := { c with demux := c.demux.reset, onText := some temporary }
  match c.waitForDevice temporary previous deadline probes memory with
  | (c, bytes, .threw e) => (c, bytes, .threw e)
  | (c, bytes, .waiting) => (c, bytes, .waiting)
  | (c, bytes, .timedOut) =>
      ({ c with onText := previous }, bytes,
        .threw (.timeout
          (text "serial_rpc: connect() timed out waiting for a 'ready' line or an rpc.ping reply")))
  | (c, bytes, .alive) =>
      let (c, later, outcome) := { c with onText := previous }.attach exchange memory
      (c, bytes ++ later, outcome)

/-- `disconnect`. -/
def disconnect (c : RPC) (write : Nat → Int) : RPC × List UInt8 × Option HostError :=
  if c.attached then
    match c.notifyValues write (text "rpc.detach") [] with
    | (c, bytes, some e) => (c, bytes, some e)
    | (c, bytes, none) => ({ c with attached := false }, bytes, none)
  else (c, [], none)

end RPC

end SerialRpc
