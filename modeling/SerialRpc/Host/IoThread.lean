import SerialRpc.Host.IoWorker
import SerialRpc.Host.Json

/-!
# `SerialRpc.Host.IoThread`: the thread of the REPL's worker

`thread_main_` of `extras/host/tools/rpc_repl/io_worker.hpp` with all commands, and the openings
and closings of the port. What the port does, what the clock reads, what memory there is, and when
a command comes or `_stop` is set is environment. So is whether `_next_open_attempt` has come
(`Pass.due`).

`SerialPort` throws from its constructor, `flush_input` and `set_dtr` only. What it throws is a
`Thrown.system`. The sinks return normally.
-/

set_option autoImplicit false

namespace SerialRpc

/-- `RemoteError::build_message_`. `g17` is what `snprintf` makes of a `double`. -/
def remoteMessage (g17 : UInt64 → List UInt8) (method : List UInt8) : Value → List UInt8
  | .str s => text "serial_rpc: remote error calling '" ++ method ++ text "': " ++ s
  | error =>
      text "serial_rpc: remote error calling '" ++ method ++ text "': " ++ error.appendToString g17

/-- `what()`, a C string. -/
def Thrown.what (g17 : UInt64 → List UInt8) : Thrown → List UInt8
  | .host (.protocol e) => cstr (text e.what)
  | .host (.io what) => cstr (text what)
  | .host (.timeout what) => cstr what
  | .host (.remote method error) => cstr (remoteMessage g17 method error)
  | .host .badAlloc => cstr (text "std::bad_alloc")
  | .system what => cstr (text "SerialPort: " ++ text what)

namespace IoWorker

/-- `_opts.auto_attach`, and what `snprintf` makes of a `double`. -/
structure Settings where
  autoAttach : Bool
  g17 : UInt64 → List UInt8

/-- The worker before the thread starts. -/
def start (callTimeout : Nat) : IoWorker where
  callTimeout := callTimeout
  attached := false
  connected := false
  port := false
  rpc := none
  lastOpenError := []
  written := []
  emitted := []

/-! ### Opening and closing -/

/-- The environment of `try_open_`: the failure of the constructor of `SerialPort`, if there is
one, and what the automatic `attach_` meets. -/
structure Opening where
  failure : Option String
  attaching : Attaching

/-- The `catch` block of `try_open_`. The flags stay as they are. -/
def openFailed (w : IoWorker) (what : List UInt8) : IoWorker :=
  let w := { w with rpc := none, port := false }
  if w.lastOpenError ≠ what then { w with lastOpenError := what }.emit (.openFailed what) else w

/-- `try_open_` up to the automatic `attach_`. -/
def openPort (w : IoWorker) : IoWorker :=
  { w with
    port := true, rpc := some (makeRpc w.callTimeout), connected := true,
    lastOpenError := [] }.emit .connected

/-- `try_open_`. -/
def tryOpen (w : IoWorker) (settings : Settings) (env : Opening)
    (memory : Memory := .unlimited) : IoWorker × Ended :=
  match env.failure with
  | some what => (w.openFailed (Thrown.what settings.g17 (.system what)), .returned)
  | none =>
      if settings.autoAttach then
        match w.openPort.attach env.attaching memory with
        | (w, .threw e) => (w.openFailed (e.what settings.g17), .returned)
        | ended => ended
      else (w.openPort, .returned)

/-- What the writes of a closing return: the one of `disconnect`, and, if that fails, the one of
the destructor. -/
structure Closing where
  write : Nat → Int
  again : Nat → Int

/-- `close_(true)`. Whatever `disconnect` throws is swallowed. -/
def close (w : IoWorker) (env : Closing) : IoWorker :=
  let farewell :=
    match w.rpc with
    | none => []
    | some c => (c.disconnect env.write).2.1 ++ (c.disconnect env.write).1.destroy env.again
  { w with
    rpc := none, port := false, attached := false, connected := false
    written := w.written ++ farewell }

/-! ### The other commands -/

/-- The environment of `execute_reset_`: the failure of `set_dtr` and what `attach_` meets, or
the closing and the failure of the touch. -/
structure Resetting where
  dtr : Option String
  attaching : Attaching
  closing : Closing
  touch : Option String

/-- `execute_reset_`. -/
def executeReset (w : IoWorker) (settings : Settings) (hard : Bool) (env : Resetting)
    (memory : Memory := .unlimited) : IoWorker × Ended :=
  if hard then
    let w := (w.emit .touching).close env.closing
    match env.touch with
    | some what => (w.emit (.touchFailed (Thrown.what settings.g17 (.system what))), .returned)
    | none => (w, .returned)
  else if w.port then
    match env.dtr with
    | some what => (w, .threw (.system what))
    | none =>
        if settings.autoAttach then (w.emit .dtrPulsed).attach env.attaching memory
        else (w.emit .dtrPulsed, .returned)
  else (w.emit .notConnected, .returned)

/-- `execute_reconnect_`. -/
def executeReconnect (w : IoWorker) (env : Closing) : IoWorker × Ended :=
  ((w.close env).emit .reconnecting, .returned)

/-- `Command`, each with its environment. -/
inductive Command where
  | call (method : List UInt8) (args : List Value) (exchange : RPC.Exchange)
  | notify (method : List UInt8) (args : List Value) (write : Nat → Int)
  | sendText (line : List UInt8) (write : Nat → Int)
  | attach (env : Attaching)
  | detach (write : Nat → Int)
  | list (pages : List RPC.Exchange)
  | reset (hard : Bool) (env : Resetting)
  | reconnect (env : Closing)
  | setTimeout (value : Nat) (write : Nat → Int) (env : Attaching)

/-- `execute_`. -/
def execute (w : IoWorker) (settings : Settings) (command : Command)
    (memory : Memory := .unlimited) : IoWorker × Ended :=
  match command with
  | .call method args exchange => w.executeCall method args exchange memory
  | .notify method args write => w.executeNotify method args write
  | .sendText line write => w.executeSendText line write
  | .attach env => w.attach env memory
  | .detach write => w.executeDetach write
  | .list pages => w.executeList pages memory
  | .reset hard env => w.executeReset settings hard env memory
  | .reconnect env => w.executeReconnect env
  | .setTimeout value write env => w.executeSetTimeout value write env memory

/-! ### The main loop -/

/-- A command that is taken from the queue, and the memory that it finds. -/
structure Taken where
  command : Command
  memory : Memory

/-- The environment of one turn of the main loop behind the queue: whether the next attempt to
open the port is due, and what it or the poll meets. -/
structure Pass where
  due : Bool
  opening : Opening
  deadline : Nat
  turns : List RPC.PollTurn
  memory : Memory

/-- One turn of the main loop behind the queue. -/
def pass (w : IoWorker) (settings : Settings) (env : Pass) : IoWorker × Ended :=
  if w.port then w.pollTurn env.deadline env.turns env.memory
  else if env.due then w.tryOpen settings env.opening env.memory
  else (w, .returned)

/-- `drain_queue_`, with the commands that it takes. -/
def drain (w : IoWorker) (settings : Settings) : List Taken → IoWorker × Ended
  | [] => (w, .returned)
  | taken :: commands =>
      match w.execute settings taken.command taken.memory with
      | (w, .returned) => drain w settings commands
      | ended => ended

/-- One whole turn of the main loop. -/
structure Iteration where
  commands : List Taken
  pass : Pass

/-- The body of the main loop. -/
def iterate (w : IoWorker) (settings : Settings) (env : Iteration) : IoWorker × Ended :=
  match w.drain settings env.commands with
  | (w, .returned) => w.pass settings env.pass
  | ended => ended

/-- The main loop, so far. -/
def loop (w : IoWorker) (settings : Settings) : List Iteration → IoWorker × Ended
  | [] => (w, .returned)
  | iteration :: iterations =>
      match w.iterate settings iteration with
      | (w, .returned) => loop w settings iterations
      | ended => ended

/-- `thread_main_` when `_stop` is set: behind some turns of the loop, `last` are the commands
that are still taken. -/
def threadMain (w : IoWorker) (settings : Settings) (iterations : List Iteration)
    (last : List Taken) (closing : Closing) : IoWorker × Ended :=
  match w.loop settings iterations with
  | (w, .returned) =>
      match w.drain settings last with
      | (w, .returned) => (w.close closing, .returned)
      | ended => ended
  | ended => ended

end IoWorker

end SerialRpc
