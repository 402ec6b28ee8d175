import SerialRpc.Host.Connection

/-!
# `SerialRpc.Host.Nesting`: calls made from callbacks

The client of `Host.Rpc` with callbacks that use it. While `call_values` waits, a callback can
make a call of its own, and that call reads from the port and calls callbacks in turn. So
`call_values`, `poll` and `pump_bytes_` are cut into moves here, and a stack holds what is
active, innermost first. A callback is any sequence of calls, notifications and polls that ends
with its return or with an exception. It installs no callbacks.

What the clock reads and what the port returns are part of the moves. A `Nesting` also records
the bytes that were read, the bytes that the demultiplexer got, and the calls that ended.
-/

set_option autoImplicit false

namespace SerialRpc

/-- What is left of a value that was moved away: a container or a string is empty. -/
def Value.movedFrom : Value → Value
  | .str _ => .str []
  | .bin _ => .bin []
  | .array _ => .array []
  | .map _ => .map []
  | v => v

/-- An exception that a callback lets out. -/
inductive Escape where
  | typeError
  | host (e : HostError)
  | other

/-- How a call ends: by itself, or with an exception of a callback that passes through. -/
inductive CallEnd where
  | returned (v : Value)
  | threw (e : HostError)
  | passed (e : Escape)

/-- What is active. -/
inductive Activation where
  | call (msgid : Nat) (method : List UInt8) (deadline : Nat)
  | poll (deadline : Nat)
  /-- `pump_bytes_` with the part of its buffer that is still to be fed. -/
  | pump (unfed : List UInt8)
  /-- A callback, and the one that the same frame calls behind it. -/
  | callback (running : Dispatched) (next : List Dispatched)

/-- The client, what is active in it, and the history. -/
structure Nesting where
  client : RPC
  stack : List Activation
  read : List UInt8
  fed : List UInt8
  /-- The calls that ended, by their message ids. -/
  ended : List (Nat × CallEnd)

/-- One move. -/
inductive Move where
  | call (write : Nat → Int) (method : List UInt8) (args : List Value) (start : Nat)
  | notify (write : Nat → Int) (method : List UInt8) (args : List Value)
  | poll (deadline : Nat)
  /-- The clock, and what `read_some` returns. -/
  | read (now : Nat) (bytes : Option (List UInt8))
  | feed
  /-- `pump_bytes_` returns. A `poll` reads the clock then. -/
  | pumped (now : Nat)
  | finish
  | escape (e : Escape)

/-- A call of a callback. -/
def Dispatched.isCallback : Dispatched → Bool
  | .response _ _ _ => false
  | _ => true

/-- `dispatch_log_` swallows a `TypeError`. -/
def swallowed : Dispatched → Escape → Bool
  | .log _ _ _, .typeError => true
  | _, _ => false

namespace Nesting

/-- Nothing is active. -/
def idle (c : RPC) : Nesting := ⟨c, [], [], [], []⟩

/-- The application runs, outside or in a callback. -/
def free (s : Nesting) : Bool :=
  match s.stack with
  | [] => true
  | .callback _ _ :: _ => true
  | _ => false

/-- The call on top ends. `_pending_msgid` is cleared on every way out. -/
def endCall (s : Nesting) (msgid : Nat) (e : CallEnd) (outer : List Activation) : Nesting :=
  { s with
      client := { s.client with pendingMsgid := none }
      stack := outer
      ended := s.ended ++ [(msgid, e)] }

/-- An exception has left `pump_bytes_`, and leaves the call or the `poll` around it. -/
def unwind (s : Nesting) (e : CallEnd) : List Activation → Nesting
  | .call msgid _ _ :: outer => s.endCall msgid e outer
  | .poll _ :: outer => { s with stack := outer }
  | outer => { s with stack := outer }

/-- The callbacks that a byte led to, one behind the other. -/
def enter (calls : List Dispatched) (outer : List Activation) : List Activation :=
  match calls with
  | [] => outer
  | running :: next => .callback running next :: outer

/-- `call_values` up to the waiting loop. -/
def startCall (s : Nesting) (write : Nat → Int) (method : List UInt8) (args : List Value)
    (start : Nat) : Nesting :=
  let msgid := s.client.nextMsgid.toNat
  match s.client.startCall write method args with
  | (c, _, some e) => { s with client := c, ended := s.ended ++ [(msgid, .threw e)] }
  | (c, _, none) =>
      { s with client := c, stack := .call msgid method (start + c.opts.timeout) :: s.stack }

/-- One turn of a waiting loop, up to what `read_some` returns. `poll` has no deadline here. -/
def startRead (s : Nesting) (now : Nat) (bytes : Option (List UInt8)) : Option Nesting :=
  match s.stack, bytes with
  | .call msgid method deadline :: outer, bytes =>
      if deadline ≤ now then
        let stats := { s.client.stats with timeouts := s.client.stats.timeouts + 1 }
        let what := text "serial_rpc: timed out waiting for a response to '" ++ method ++ text "'"
        some ({ s with client := { s.client with stats := stats } }.endCall msgid
          (.threw (.timeout what)) outer)
      else
        match bytes with
        | none => some (s.endCall msgid (.threw (.io "serial_rpc: read_some() failed")) outer)
        | some bytes => some { s with stack := .pump bytes :: s.stack, read := s.read ++ bytes }
  | .poll _ :: outer, none => some { s with stack := outer }
  | .poll _ :: _, some bytes =>
      some { s with stack := .pump bytes :: s.stack, read := s.read ++ bytes }
  | _, _ => none

/-- One turn of the loop of `pump_bytes_`, up to the first callback. -/
def feed (s : Nesting) : Option Nesting :=
  match s.stack with
  | .pump (b :: bs) :: outer =>
      match s.client.feedByte b with
      | (c, some e) =>
          some ({ s with client := c, fed := s.fed ++ [b] }.unwind (.threw e) outer)
      | (c, none) =>
          let calls := c.dispatched.drop s.client.dispatched.length
          some { s with
            client := c
            fed := s.fed ++ [b]
            stack := enter (calls.filter Dispatched.isCallback) (.pump bs :: outer) }
  | _ => none

/-- `pump_bytes_` returns to the loop around it. -/
def pumped (s : Nesting) (now : Nat) : Option Nesting :=
  match s.stack with
  | .pump [] :: .call msgid method deadline :: outer =>
      if s.client.pendingResponseReady then
        let v := s.client.pendingResponseValue
        let e := if s.client.pendingResponseIsError then .threw (.remote method v) else .returned v
        some ({ s with client := { s.client with pendingResponseValue := v.movedFrom } }.endCall
          msgid e outer)
      else some { s with stack := .call msgid method deadline :: outer }
  | .pump [] :: .poll deadline :: outer =>
      some { s with stack := if now < deadline then .poll deadline :: outer else outer }
  | _ => none

/-- A callback returns, and the next one is called if there is one. -/
def finish (s : Nesting) : Option Nesting :=
  match s.stack with
  | .callback _ next :: outer => some { s with stack := enter next outer }
  | _ => none

/-- An exception leaves a callback. -/
def escape (s : Nesting) (e : Escape) : Option Nesting :=
  match s.stack with
  | .callback running next :: .pump unfed :: outer =>
      if swallowed running e then some { s with stack := enter next (.pump unfed :: outer) }
      else some (s.unwind (.passed e) outer)
  | _ => none

/-- One move, if it is one that can come now. -/
def step (s : Nesting) : Move → Option Nesting
  | .call write method args start =>
      if s.free then some (s.startCall write method args start) else none
  | .notify write method args =>
      if s.free then some { s with client := (s.client.notifyValues write method args).1 } else none
  | .poll deadline => if s.free then some { s with stack := .poll deadline :: s.stack } else none
  | .read now bytes => s.startRead now bytes
  | .feed => s.feed
  | .pumped now => s.pumped now
  | .finish => s.finish
  | .escape e => s.escape e

/-- A run. -/
def run (s : Nesting) : List Move → Option Nesting
  | [] => some s
  | move :: moves => (s.step move).bind fun s' => run s' moves

end Nesting

end SerialRpc
