import SerialRpc.Host.Value

/-!
# `SerialRpc.Host.Reserving`: the room that `Value::decode` asks for

`Value::decode_` of `extras/host/include/serial_rpc.hpp` again, with its `reserve` calls. A
`Decoding` is what a decoder does: the calls it makes, also when it throws later, and how
it ends. `Value.decodeNested` is the same function without the record.
-/

set_option autoImplicit false

namespace SerialRpc

/-- The `reserve` calls of a decoder, and its end. -/
structure Decoding (α : Type) where
  reserved : List Reservation
  outcome : Except ProtocolError α

namespace Decoding

variable {α β : Type}

/-- The first decoder, and then the second one on what it gives. -/
def andThen (x : Decoding α) (next : α → Decoding β) : Decoding β :=
  match x.outcome with
  | .ok a => ⟨x.reserved ++ (next a).reserved, (next a).outcome⟩
  | .error e => ⟨x.reserved, .error e⟩

instance : Monad Decoding where
  pure a := ⟨[], .ok a⟩
  bind := andThen

/-- A `throw`. -/
def throws (e : ProtocolError) : Decoding α := ⟨[], .error e⟩

/-- `reserve(n)`, with the reader as it is then. -/
def reserve (n : Nat) (r : Reader .host64) : Decoding Unit := ⟨[⟨n, r.remaining⟩], .ok ()⟩

/-- `check_` after a read, and then what is made of the value read. -/
def checked {γ : Type} (answer : Reader .host64 × γ) (next : γ → Reader .host64 → Decoding β) :
    Decoding β :=
  if answer.1.error then throws Value.malformedInput else next answer.2 answer.1

/-- The loop that decodes `n` elements in a row. -/
def decodeMany (dec : Reader .host64 → Decoding (α × Reader .host64)) :
    Nat → Reader .host64 → Decoding (List α × Reader .host64)
  | 0, r => pure ([], r)
  | n + 1, r => do
      let (v, r) ← dec r
      let (vs, r) ← decodeMany dec n r
      return (v :: vs, r)

/-- One entry of a map. -/
def decodeEntry (dec : Reader .host64 → Decoding (Value × Reader .host64)) (r : Reader .host64) :
    Decoding ((Value × Value) × Reader .host64) := do
  let (k, r) ← dec r
  let (v, r) ← dec r
  return ((k, v), r)

/-- `Value::decode_`, with `levels` more levels of nesting allowed. Only containers make
room for what they announce. -/
def decodeNested (levels : Nat) (r : Reader .host64) : Decoding (Value × Reader .host64) :=
  if r.error then throws Value.readerAlreadyInError
  else
    match levels with
    | 0 => throws Value.nestingExceedsMaxDepth
    | levels + 1 =>
        match r.type with
        | .array =>
            checked (r.readArray 0) fun n r => do
              reserve n r
              let (elems, r) ← decodeMany (decodeNested levels) n r
              return (.array elems, r)
        | .map =>
            checked (r.readMap 0) fun n r => do
              reserve n r
              let (entries, r) ← decodeMany (decodeEntry (decodeNested levels)) n r
              return (.map entries, r)
        | _ => ⟨[], Value.decodeNested (levels + 1) r⟩

/-- `Value::decode`. -/
def decode (r : Reader .host64) : Decoding (Value × Reader .host64) :=
  decodeNested (Value.kMaxDepth + 1) r

end Decoding

end SerialRpc
