import SerialRpc.Msgpack.Reader

/-!
# `SerialRpc.Host.Value`: the host's dynamic MessagePack object

The `Value` class of `extras/host/include/serial_rpc.hpp`: `encode` writes a value with the
`Writer`, `decode` reads one with the `Reader` of a 64-bit host and throws
`ProtocolError`. The memory for what is read is taken to be there: `reserve` does not fail.

The recursion of `decode_` counts its depth up to `kMaxDepth`. Here it counts down the
levels that are left, `kMaxDepth + 1` at the outermost object.
-/

set_option autoImplicit false

namespace SerialRpc

/-- `serial_rpc::Value`. A `double` is its bit pattern, a string its bytes. -/
inductive Value where
  | nil
  | bool (v : Bool)
  | int (v : Int64)
  | uint (v : UInt64)
  | double (bits : UInt64)
  | str (s : List UInt8)
  | bin (bytes : List UInt8)
  | array (elems : List Value)
  | map (entries : List (Value × Value))
deriving Repr, Inhabited

/-- `ProtocolError`, by its `what()`. -/
structure ProtocolError where
  what : String
deriving DecidableEq, Repr

namespace Value

/-- `Value::kMaxDepth`. -/
def kMaxDepth : Nat := 32

/-! ### Encoding -/

mutual

/-- `Value::encode`. -/
def encode : Value → Writer → Writer
  | nil, w => w.packNil
  | bool v, w => w.packBool v
  | int v, w => w.packInt v
  | uint v, w => w.packUint v
  | double bits, w => w.packDouble bits
  | str s, w => w.packStr s
  | bin bytes, w => w.packBin bytes
  | array elems, w => encodeElems elems (w.packArray elems.length)
  | map entries, w => encodeEntries entries (w.packMap entries.length)

/-- `for (const Value &e : v) e.encode(w);` -/
def encodeElems : List Value → Writer → Writer
  | [], w => w
  | e :: elems, w => encodeElems elems (e.encode w)

/-- The loop over the entries of a map, a key and then its value. -/
def encodeEntries : List (Value × Value) → Writer → Writer
  | [], w => w
  | (k, v) :: entries, w => encodeEntries entries (v.encode (k.encode w))

end

/-! ### Decoding -/

def readerAlreadyInError : ProtocolError :=
  ⟨"serial_rpc::Value::decode(): reader is already in an error state"⟩

def nestingExceedsMaxDepth : ProtocolError :=
  ⟨"serial_rpc::Value::decode(): msgpack nesting exceeds kMaxDepth"⟩

def unsupportedType : ProtocolError :=
  ⟨"serial_rpc::Value::decode(): unsupported or invalid msgpack type"⟩

def malformedInput : ProtocolError :=
  ⟨"serial_rpc::Value::decode(): malformed msgpack input"⟩

/-- `check_` after a read, and then what is made of the value read. -/
def checked {α β : Type} (answer : Reader .host64 × α)
    (next : α → Reader .host64 → Except ProtocolError β) : Except ProtocolError β :=
  if answer.1.error then .error malformedInput else next answer.2 answer.1

/-- The loop that decodes `n` elements in a row. -/
def decodeMany {α : Type} (dec : Reader .host64 → Except ProtocolError (α × Reader .host64)) :
    Nat → Reader .host64 → Except ProtocolError (List α × Reader .host64)
  | 0, r => .ok ([], r)
  | n + 1, r => do
      let (v, r) ← dec r
      let (vs, r) ← decodeMany dec n r
      return (v :: vs, r)

/-- One entry of a map. -/
def decodeEntry (dec : Reader .host64 → Except ProtocolError (Value × Reader .host64))
    (r : Reader .host64) : Except ProtocolError ((Value × Value) × Reader .host64) := do
  let (k, r) ← dec r
  let (v, r) ← dec r
  return ((k, v), r)

/-- `Value::decode_`, with `levels` more levels of nesting allowed. -/
def decodeNested (levels : Nat) (r : Reader .host64) :
    Except ProtocolError (Value × Reader .host64) :=
  if r.error then .error readerAlreadyInError
  else
    match levels with
    | 0 => .error nestingExceedsMaxDepth
    | levels + 1 =>
        match r.type with
        | .nil => checked (r.readNil, ()) fun _ r => .ok (nil, r)
        | .boolean => checked (r.readBool false) fun v r => .ok (bool v, r)
        | .int => checked (r.readSigned (Reader.maxSigned 64) 0) fun v r => .ok (int (.ofInt v), r)
        | .uint =>
            checked (r.readUnsigned (Reader.maxUnsigned 64) 0) fun v r => .ok (uint (.ofNat v), r)
        | .float => checked (r.readDouble 0) fun v r => .ok (double v, r)
        | .str => checked (r.readStr ⟨0, 0⟩) fun s r => .ok (str (r.bytes s), r)
        | .bin => checked (r.readBin ⟨0, 0⟩) fun s r => .ok (bin (r.bytes s), r)
        | .array =>
            checked (r.readArray 0) fun n r => do
              let (elems, r) ← decodeMany (decodeNested levels) n r
              return (array elems, r)
        | .map =>
            checked (r.readMap 0) fun n r => do
              let (entries, r) ← decodeMany (decodeEntry (decodeNested levels)) n r
              return (map entries, r)
        | .ext => .error unsupportedType
        | .invalid => .error unsupportedType

/-- `Value::decode`. -/
def decode (r : Reader .host64) : Except ProtocolError (Value × Reader .host64) :=
  decodeNested (kMaxDepth + 1) r

end Value

end SerialRpc
