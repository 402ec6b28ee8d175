import SerialRpc.Host.Listing

/-!
# `SerialRpc.Host.IoWorker`: the commands of the REPL

`IoWorker` of `extras/host/tools/rpc_repl/io_worker.hpp` between two openings of the port: the
commands that leave the port open, and the poll between them. The worker holds the `RPC` object
and makes a new one for `SetTimeoutCmd`. Port, clock and memory are environment, as in `Host.Rpc`.

An `Emission` is what goes to the output sink or the method sink, without the wording.
-/

set_option autoImplicit false

namespace SerialRpc

/-- What the worker shows. -/
inductive Emission where
  | call (method : List UInt8) (args : List Value)
  | notify (method : List UInt8) (args : List Value)
  | text (line : List UInt8)
  | result (v : Value)
  /-- An exception that the command caught. -/
  | error (e : HostError)
  /-- `not connected: no open port`. -/
  | notConnected
  | attached
  | attachFailed (what : List UInt8)
  | detached
  /-- The method table, printed. -/
  | table (methods : List MethodInfo)
  | methods (methods : List MethodInfo)
  | listFailed (e : HostError)
  | timeoutSet (value : Nat)
  /-- The same while no port is open: `applies once connected`. -/
  | timeoutNoted (value : Nat)
  | ioError (what : String)
  | protocolError (e : ProtocolError)
  | connected
  | openFailed (what : List UInt8)
  | dtrPulsed
  | touching
  | touchFailed (what : List UInt8)
  | reconnecting

/-- What a command of the worker may let through. -/
inductive Thrown where
  | host (e : HostError)
  /-- `std::system_error` of the port. `what` is its text behind `SerialPort: `. -/
  | system (what : String)

/-- How a command ends. -/
inductive Ended where
  | returned
  | threw (e : Thrown)
  | waiting

instance : (e : Ended) → Decidable (e = .returned)
  | .returned => isTrue rfl
  | .threw _ => isFalse (by rintro ⟨⟩)
  | .waiting => isFalse (by rintro ⟨⟩)

namespace RPC

/-- `send_text`. -/
def sendText (write : Nat → Int) (line : List UInt8) : List UInt8 × Option HostError :=
  let bytes := line ++ [lf]
  if write bytes.length < 0 ∨ (write bytes.length).toNat ≠ bytes.length then
    (bytes, some (.io "serial_rpc: send_text() write failed"))
  else (bytes, none)

/-- The destructor: what it writes. Errors are swallowed. -/
def destroy (c : RPC) (write : Nat → Int) : List UInt8 :=
  if c.attached then (c.disconnect write).2.1 else []

end RPC

/-- `IoWorker`. -/
structure IoWorker where
  /-- `_opts.call_timeout`. -/
  callTimeout : Nat
  attached : Bool
  connected : Bool
  /-- `_port` is there. -/
  port : Bool
  /-- `_rpc`, which comes and goes with it. -/
  rpc : Option RPC
  lastOpenError : List UInt8
  /-- What was handed to the port. -/
  written : List UInt8
  emitted : List Emission

namespace IoWorker

/-- The callbacks of `setup_rpc_callbacks_`, and the temporary one of `connect`. -/
def logCallback : Nat := 1
def textCallback : Nat := 2
def eventCallback : Nat := 3
def temporaryCallback : Nat := 4

/-- `setup_rpc_callbacks_`. -/
def setupRpcCallbacks (c : RPC) : RPC :=
  { c with onLog := some logCallback, onText := some textCallback, onAny := some eventCallback }

/-- A new `RPC` object with its callbacks. The other options have their defaults. -/
def makeRpc (callTimeout : Nat) : RPC :=
  setupRpcCallbacks (.new { Options.default with timeout := callTimeout })

/-- The worker once the port is open. -/
def opened (callTimeout : Nat) : IoWorker where
  callTimeout := callTimeout
  attached := false
  connected := true
  port := true
  rpc := some (makeRpc callTimeout)
  lastOpenError := []
  written := []
  emitted := []

/-- `emit_`. -/
def emit (w : IoWorker) (x : Emission) : IoWorker := { w with emitted := w.emitted ++ [x] }

/-- The `RPC` object after an operation that wrote `bytes`. -/
def used (w : IoWorker) (c : RPC) (bytes : List UInt8) : IoWorker :=
  { w with rpc := some c, written := w.written ++ bytes }

/-- `handle_io_error_`. What the destructor of the `RPC` object writes goes to a broken port. -/
def handleIoError (w : IoWorker) (what : String) : IoWorker :=
  { w.emit (.ioError what) with
    rpc := none, port := false, attached := false, connected := false, lastOpenError := [] }

/-! ### Calls and notifications -/

/-- `execute_call_`. -/
def executeCall (w : IoWorker) (method : List UInt8) (args : List Value) (exchange : RPC.Exchange)
    (memory : Memory := .unlimited) : IoWorker × Ended :=
  match w.rpc with
  | none => (w.emit .notConnected, .returned)
  | some c =>
      let w := w.emit (.call method args)
      match c.callValues exchange.write method args exchange.start exchange.attempts memory with
      | (c, bytes, .returned v) => ((w.used c bytes).emit (.result v), .returned)
      | (c, bytes, .threw (.io what)) =>
          (((w.used c bytes).emit (.error (.io what))).handleIoError what, .returned)
      | (c, bytes, .threw .badAlloc) => (w.used c bytes, .threw (.host .badAlloc))
      | (c, bytes, .threw e) => ((w.used c bytes).emit (.error e), .returned)
      | (c, bytes, .waiting) => (w.used c bytes, .waiting)

/-- The worker after an operation without a result. -/
def sent (w : IoWorker) (c : RPC) (bytes : List UInt8) : Option HostError → IoWorker
  | none => w.used c bytes
  | some (.io what) => ((w.used c bytes).emit (.error (.io what))).handleIoError what
  | some e => (w.used c bytes).emit (.error e)

/-- `execute_notify_`. -/
def executeNotify (w : IoWorker) (method : List UInt8) (args : List Value) (write : Nat → Int) :
    IoWorker × Ended :=
  match w.rpc with
  | none => (w.emit .notConnected, .returned)
  | some c =>
      let (c, bytes, thrown) := c.notifyValues write method args
      ((w.emit (.notify method args)).sent c bytes thrown, .returned)

/-- `execute_send_text_`. -/
def executeSendText (w : IoWorker) (line : List UInt8) (write : Nat → Int) : IoWorker × Ended :=
  match w.rpc with
  | none => (w.emit .notConnected, .returned)
  | some c =>
      let (bytes, thrown) := RPC.sendText write line
      ((w.emit (.text line)).sent c bytes thrown, .returned)

/-! ### Attaching -/

/-- The environment of `attach_`: the failure of `flush_input`, if there is one, the waiting loop
and the `rpc.attach` of `connect`, and the pages of `list`. -/
structure Attaching where
  flush : Option String
  deadline : Nat
  probes : List RPC.Probe
  exchange : RPC.Exchange
  pages : List RPC.Exchange

/-- `refresh_methods_`. -/
def refreshMethods (w : IoWorker) (print : Bool) (pages : List RPC.Exchange)
    (memory : Memory := .unlimited) : IoWorker × Ended :=
  match w.rpc with
  | none => (w, .returned)
  | some c =>
      let (l, outcome) := c.list pages memory
      let w := w.used l.client l.requests.flatten
      match outcome with
      | .returned methods =>
          ((if print then w.emit (.table methods) else w).emit (.methods methods), .returned)
      | .threw e => (w.emit (.listFailed e), .returned)
      | .waiting => (w, .waiting)

/-- `attach_`. -/
def attach (w : IoWorker) (env : Attaching) (memory : Memory := .unlimited) : IoWorker × Ended :=
  match w.rpc, env.flush with
  | none, _ => (w.emit .notConnected, .returned)
  | some c, some what =>
      ({ w with rpc := some { c with demux := c.demux.reset } }, .threw (.system what))
  | some c, none =>
      match c.connect temporaryCallback env.deadline env.probes env.exchange memory with
      | (c, bytes, .connected) =>
          ({ w.used c bytes with attached := true }.emit .attached).refreshMethods false env.pages
            memory
      | (c, bytes, .threw (.timeout what)) =>
          ((w.used c bytes).emit (.attachFailed what), .returned)
      | (c, bytes, .threw (.io what)) => ((w.used c bytes).handleIoError what, .returned)
      | (c, bytes, .threw e) => (w.used c bytes, .threw (.host e))
      | (c, bytes, .waiting) => (w.used c bytes, .waiting)

/-- `execute_detach_`. -/
def executeDetach (w : IoWorker) (write : Nat → Int) : IoWorker × Ended :=
  match w.rpc with
  | none => (w.emit .notConnected, .returned)
  | some c =>
      match c.disconnect write with
      | (c, bytes, none) => ({ w.used c bytes with attached := false }.emit .detached, .returned)
      | (c, bytes, some (.io what)) =>
          (((w.used c bytes).emit (.error (.io what))).handleIoError what, .returned)
      | (c, bytes, some e) => (w.used c bytes, .threw (.host e))

/-- `execute_list_`. -/
def executeList (w : IoWorker) (pages : List RPC.Exchange) (memory : Memory := .unlimited) :
    IoWorker × Ended :=
  match w.rpc with
  | none => (w.emit .notConnected, .returned)
  | some _ => w.refreshMethods true pages memory

/-- The worker with a new `RPC` object on the same port, behind the destructor of the old one. -/
def rebuild (w : IoWorker) (c : RPC) (value : Nat) (write : Nat → Int) : IoWorker :=
  { w.used (makeRpc value) (c.destroy write) with callTimeout := value, attached := false }

/-- `execute_set_timeout_`. -/
def executeSetTimeout (w : IoWorker) (value : Nat) (write : Nat → Int) (env : Attaching)
    (memory : Memory := .unlimited) : IoWorker × Ended :=
  match w.rpc with
  | none => ({ w with callTimeout := value }.emit (.timeoutNoted value), .returned)
  | some c =>
      let rebuilt := (w.rebuild c value write).emit (.timeoutSet value)
      if w.attached then rebuilt.attach env memory else (rebuilt, .returned)

/-- The turn of `thread_main_` that polls. -/
def pollTurn (w : IoWorker) (deadline : Nat) (turns : List RPC.PollTurn)
    (memory : Memory := .unlimited) : IoWorker × Ended :=
  match w.rpc with
  | none => (w, .returned)
  | some c =>
      match c.poll deadline turns memory with
      | (c, .returned _) => (w.used c [], .returned)
      | (c, .threw (.io what)) => ((w.used c []).handleIoError what, .returned)
      | (c, .threw (.protocol e)) => ((w.used c []).emit (.protocolError e), .returned)
      | (c, .threw e) => (w.used c [], .threw (.host e))
      | (c, .waiting) => (w.used c [], .waiting)

/-! ### Runs -/

/-- What the thread of the worker does next, with its environment. The memory is unlimited here. -/
inductive Action where
  | call (method : List UInt8) (args : List Value) (exchange : RPC.Exchange)
  | notify (method : List UInt8) (args : List Value) (write : Nat → Int)
  | sendText (line : List UInt8) (write : Nat → Int)
  | attach (env : Attaching)
  | detach (write : Nat → Int)
  | list (pages : List RPC.Exchange)
  | setTimeout (value : Nat) (write : Nat → Int) (env : Attaching)
  | poll (deadline : Nat) (turns : List RPC.PollTurn)

/-- `execute_`, and the poll of the main loop. -/
def act (w : IoWorker) : Action → IoWorker × Ended
  | .call method args exchange => w.executeCall method args exchange
  | .notify method args write => w.executeNotify method args write
  | .sendText line write => w.executeSendText line write
  | .attach env => w.attach env
  | .detach write => w.executeDetach write
  | .list pages => w.executeList pages
  | .setTimeout value write env => w.executeSetTimeout value write env
  | .poll deadline turns => w.pollTurn deadline turns

end IoWorker

end SerialRpc
