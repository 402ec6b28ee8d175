import SerialRpc.Msgpack.Reader

/-!
# `SerialRpc.Device.Handler`: what a sketch binds, and the two handler tables

A handler of `src/serial_rpc/server.h` is code of the sketch. It gets the parameters
(`Args`), calls back into the server as often as it likes, and ends with what it packed
into `reply.writer()` and the error it set (`Answer`). `Script` is this code as the server
sees it, one constructor for each call into the server. `σ` is the state of the sketch.
Handlers do not bind handlers and do not call `poll`.

`addHandlerStl` and `addHandlerFixed` are `add_handler_` of the two backends, on the list
of the entries in use. Names are C strings, compared by their bytes.
-/

set_option autoImplicit false

namespace SerialRpc

/-- `Args`: the reader at the first parameter, and the announced number of them. -/
structure Args (w : SizeT) where
  reader : Reader w
  size : Nat

/-- What a handler leaves in its `Reply`. -/
structure Answer where
  /-- The `pack` calls on `writer()`, in order. -/
  packed : List PackOp
  /-- The last `error()`. -/
  error : Option (List UInt8)

/-- Code of the sketch that ends with an `α`. -/
inductive Script (α : Type) where
  | done (a : α)
  /-- `notify(name, args...)`, which answers whether it was sent. An argument is the `pack` calls
  that `ValuePacker` makes for it. -/
  | notify (name : List UInt8) (args : List (List PackOp)) (next : Bool → Script α)
  /-- Bytes written to `log`. -/
  | log (bytes : List UInt8) (next : Script α)
  /-- `log_at(level)`. -/
  | logAt (level : UInt8) (next : Script α)
  /-- `attached()`. -/
  | attached (next : Bool → Script α)

/-- A bound callable. -/
abbrev Handler (w : SizeT) (σ : Type) := Args w → σ → Script (Answer × σ)

/-- `on_attach` and `on_detach` callbacks. -/
abbrev Hook (σ : Type) := σ → Script σ

/-- `on_text` callbacks. -/
abbrev TextHook (σ : Type) := List UInt8 → σ → Script σ

/-- A run of a handler: the parameters it got and the answer it left. -/
structure Invocation (w : SizeT) (σ : Type) where
  handler : Handler w σ
  args : Args w
  answer : Answer

/-- `Server::Entry`. -/
structure Entry (w : SizeT) (σ : Type) where
  name : List UInt8
  fn : Handler w σ
  /-- The tokens `write_sig` appends. -/
  writeSig : List (List UInt8)

variable {w : SizeT} {σ : Type}

/-- The loop at the start of `add_handler_`: the entry of this name is replaced. -/
def replaceEntry (entry : Entry w σ) : List (Entry w σ) → Option (List (Entry w σ))
  | [] => none
  | e :: entries =>
      if e.name = entry.name then
        some ({ e with fn := entry.fn, writeSig := entry.writeSig } :: entries)
      else (replaceEntry entry entries).map (e :: ·)

/-- `add_handler_` of the STL backend. -/
def addHandlerStl (handlers : List (Entry w σ)) (entry : Entry w σ) : List (Entry w σ) :=
  match replaceEntry entry handlers with
  | some handlers => handlers
  | none => handlers ++ [entry]

/-- `add_handler_` of the fixed backend. `none` when the table is full. -/
def addHandlerFixed (maxHandlers : Nat) (handlers : List (Entry w σ)) (entry : Entry w σ) :
    Option (List (Entry w σ)) :=
  match replaceEntry entry handlers with
  | some handlers => some handlers
  | none => if handlers.length < maxHandlers then some (handlers ++ [entry]) else none

/-- The loop of `dispatch_user_`: the first entry of this name. -/
def findHandler (handlers : List (Entry w σ)) (method : List UInt8) : Option (Entry w σ) :=
  handlers.find? fun e => e.name = method

/-- The tokens of `write_raw_signature`. -/
def rawSignature : List (List UInt8) :=
  ["(", "...", ")", "->", "any"].map text

end SerialRpc
