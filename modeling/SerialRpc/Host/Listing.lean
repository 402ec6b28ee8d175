import SerialRpc.Host.Connection

/-!
# `SerialRpc.Host.Listing`: the methods of a device

`parse_rpc_list`, `collect_rpc_list_pages` and `RPC::list` of
`extras/host/include/serial_rpc.hpp`. The loop is generic in what fetches a page, as in the
source, and hands a state through: for `list` that is the client, the environment of the
calls to come, and a record of the requests that were written.
-/

set_option autoImplicit false

namespace SerialRpc

/-- `MethodInfo`. -/
structure MethodInfo where
  name : List UInt8
  signature : List UInt8
deriving DecidableEq, Repr

/-! ### One page -/

/-- One element of an `rpc.list` result: a name, or a name and a signature. A second slot that
is no string is no signature. -/
def parseRpcListItem : Value → Except ProtocolError MethodInfo
  | .str name => .ok ⟨name, []⟩
  | .array (.str name :: .str signature :: _) => .ok ⟨name, signature⟩
  | .array (.str name :: _) => .ok ⟨name, []⟩
  | .array _ =>
      .error ⟨"serial_rpc: rpc.list element is an array but its first element isn't a name string"⟩
  | _ =>
      .error ⟨"serial_rpc: rpc.list element is neither a string nor a [name, signature] array"⟩

/-- `parse_rpc_list`. -/
def parseRpcList : Value → Except ProtocolError (List MethodInfo)
  | .array items => items.mapM parseRpcListItem
  | _ => .error ⟨"serial_rpc: rpc.list did not return an array"⟩

/-! ### All pages -/

/-- `kMaxListPages`. -/
def kMaxListPages : Nat := 256

/-- How `fetch_page` ends. -/
inductive Fetched where
  | page (entries : List MethodInfo)
  | threw (e : HostError)
  | waiting

/-- How the collecting loop ends. -/
inductive ListOutcome where
  | returned (methods : List MethodInfo)
  | threw (e : HostError)
  | waiting

/-- The inner loop: the entries of a page whose names are new, and how many there were. -/
def addPage (out : List MethodInfo) (added : Nat) : List MethodInfo → List MethodInfo × Nat
  | [] => (out, added)
  | mi :: page =>
      if out.any fun e => e.name = mi.name then addPage out added page
      else addPage (out ++ [mi]) (added + 1) page

/-- The outer loop, with `iters` turns left. -/
def collectFrom {σ : Type} (fetchPage : σ → Nat → σ × Fetched) :
    Nat → List MethodInfo → σ → σ × ListOutcome
  | 0, out, s => (s, .returned out)
  | iters + 1, out, s =>
      match fetchPage s out.length with
      | (s, .threw e) => (s, .threw e)
      | (s, .waiting) => (s, .waiting)
      | (s, .page []) => (s, .returned out)
      | (s, .page (mi :: page)) =>
          let (out, added) := addPage out 0 (mi :: page)
          if added = 0 then (s, .returned out) else collectFrom fetchPage iters out s

/-- `collect_rpc_list_pages`. -/
def collectRpcListPages {σ : Type} (fetchPage : σ → Nat → σ × Fetched) (s : σ) :
    σ × ListOutcome :=
  collectFrom fetchPage kMaxListPages [] s

namespace RPC

/-- What `list` works on: the client, the environment of its next calls, and the bytes of the
requests so far. -/
structure Listing where
  client : RPC
  exchanges : List Exchange
  requests : List (List UInt8)

/-- The callback of `list`: `parse_rpc_list(call("rpc.list", start))`. -/
def fetchPage (memory : Memory) (l : Listing) (start : Nat) : Listing × Fetched :=
  match l.exchanges with
  | [] => (l, .waiting)
  | exchange :: exchanges =>
      let (c, bytes, outcome) :=
        l.client.callValues exchange.write (text "rpc.list") [.int (Int64.ofNat start)]
          exchange.start exchange.attempts memory
      (⟨c, exchanges, l.requests ++ [bytes]⟩,
        match outcome with
        | .returned v =>
            match parseRpcList v with
            | .ok page => .page page
            | .error e => .threw (.protocol e)
        | .threw e => .threw e
        | .waiting => .waiting)

/-- `list`. -/
def list (c : RPC) (exchanges : List Exchange) (memory : Memory := .unlimited) :
    Listing × ListOutcome :=
  collectRpcListPages (fetchPage memory) ⟨c, exchanges, []⟩

end RPC

end SerialRpc
