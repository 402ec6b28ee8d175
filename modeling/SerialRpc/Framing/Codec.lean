import Mathlib.Data.List.Basic

/-!
# `SerialRpc.Framing.Codec`: CRC-16, COBS and frames, as `framing.h` computes them

The stateless half of `src/serial_rpc/framing.h`. Buffers are lists of bytes that the
functions take and return, since the C++ code writes into memory its caller owns.
`size_t` indices are natural numbers: each is bounded by a buffer's length.

* `crc16Ccitt`: the bitwise shift-register loop.
* `CobsStreamEncoder`: the streaming encoder. It reserves the slot of a code byte, fills
  the group behind it, and patches the code in when the group closes.
* `cobsDecode` and `cobsDecodeInPlace`: one loop over two views of memory. The C++
  function allows `in` and `out` to be the same buffer, and `Demux` uses it so.
* `frameEncode`, `decodeAndValidateFrame`: a frame is `00 . COBS(payload . CRC) . 00`.
-/

set_option autoImplicit false

namespace SerialRpc

/-! ### CRC-16/CCITT-FALSE -/

/-- One shift of the CRC register. -/
def crcShift (crc : UInt16) : UInt16 :=
  if crc &&& 0x8000 ≠ 0 then (crc <<< 1) ^^^ 0x1021 else crc <<< 1

/-- One byte enters the register: xor into the top half, then eight shifts. -/
def crcByte (crc : UInt16) (b : UInt8) : UInt16 :=
  Nat.repeat crcShift 8 (crc ^^^ (b.toUInt16 <<< 8))

/-- `crc16_ccitt` with an explicit `init`: passing an earlier result continues it. -/
def crc16CcittFrom (init : UInt16) (data : List UInt8) : UInt16 :=
  data.foldl crcByte init

/-- `crc16_ccitt` with its default `init`. -/
def crc16Ccitt (data : List UInt8) : UInt16 :=
  crc16CcittFrom 0xFFFF data

/-- The check value the source documents. -/
example : crc16Ccitt [0x31, 0x32, 0x33, 0x34, 0x35, 0x36, 0x37, 0x38, 0x39] = 0x29B1 := by
  decide +kernel

/-- The two CRC bytes `frame_encode` streams after a payload, big-endian. -/
def crcBe (payload : List UInt8) : List UInt8 :=
  let crc := crc16Ccitt payload
  [((crc >>> 8) &&& 0xff).toUInt8, (crc &&& 0xff).toUInt8]

/-! ### The streaming encoder -/

/-- `cobs_max_encoded_size`. -/
def cobsMaxEncodedSize (n : Nat) : Nat := n + n / 254 + 1

/-- `detail::CobsStreamEncoder`. -/
structure CobsStreamEncoder where
  /-- The caller's buffer. -/
  out : List UInt8
  cap : Nat
  /-- Next free output index. -/
  encode : Nat
  /-- Index of the pending (not yet written) code byte. -/
  codep : Nat
  /-- Value of the pending code byte. -/
  code : UInt8
  ok : Bool

namespace CobsStreamEncoder

/-- The constructor: slot 0 is reserved for the first code byte. -/
def new (out : List UInt8) (cap : Nat) : CobsStreamEncoder where
  out := out
  cap := cap
  encode := 1
  codep := 0
  code := 1
  ok := true

/-- The first `if` of `put_one_`: a non-zero byte joins the open group. -/
def storeByte (e : CobsStreamEncoder) (byte : UInt8) : CobsStreamEncoder :=
  if byte ≠ 0 then
    if e.cap ≤ e.encode then { e with ok := false }
    else { e with out := e.out.set e.encode byte, encode := e.encode + 1, code := e.code + 1 }
  else e

/-- The second `if` of `put_one_`: the pending code byte is written and the next slot
reserved. A full group at the very end of the message reserves none. -/
def closeGroup (e : CobsStreamEncoder) (byte : UInt8) (moreRemaining : Bool) :
    CobsStreamEncoder :=
  if e.cap ≤ e.codep then { e with ok := false }
  else
    { e with
        out := e.out.set e.codep e.code
        code := 1
        codep := e.encode
        encode := if byte = 0 ∨ moreRemaining then e.encode + 1 else e.encode }

/-- `put_one_`. The `bool` it returns is the `ok` field of the result. -/
def putOne (e : CobsStreamEncoder) (byte : UInt8) (moreRemaining : Bool) :
    CobsStreamEncoder :=
  let stored := e.storeByte byte
  if stored.ok = false then stored
  else if byte = 0 ∨ stored.code = 0xff then stored.closeGroup byte moreRemaining
  else stored

/-- `feed`. The `bool` it returns is the `ok` field of the result. -/
def feed (e : CobsStreamEncoder) (data : List UInt8) (moreFollows : Bool) :
    CobsStreamEncoder :=
  match data with
  | [] => e
  | b :: rest =>
      if e.ok = false then e
      else (e.putOne b (moreFollows || !rest.isEmpty)).feed rest moreFollows

/-- `finish`: flushes the pending code byte and returns the encoded length, or 0. -/
def finish (e : CobsStreamEncoder) : CobsStreamEncoder × Nat :=
  if e.ok = false then (e, 0)
  else if e.codep < e.encode then
    if e.cap ≤ e.codep then ({ e with ok := false }, 0)
    else ({ e with out := e.out.set e.codep e.code }, e.encode)
  else (e, e.encode)

end CobsStreamEncoder

/-- `cobs_encode`: the buffer after the call and the returned length (0 on overflow). -/
def cobsEncode (input out : List UInt8) (outCap : Nat) : List UInt8 × Nat :=
  let e := (CobsStreamEncoder.new out outCap).feed input false
  if e.ok = false then (e.out, 0)
  else
    let r := e.finish
    (r.1.out, r.2)

/-! ### The decoder -/

/-- What `cobs_decode` sees through its `in` and `out` pointers. `μ` is the memory the
writes change. -/
structure DecodeMem (μ : Type) where
  /-- `in[i]`. -/
  read : μ → Nat → UInt8
  /-- `out[i] = b`. -/
  write : μ → Nat → UInt8 → μ

/-- `in` and `out` are different buffers. -/
def DecodeMem.separate (input : List UInt8) : DecodeMem (List UInt8) where
  read _ i := input.getD i 0
  write out i b := out.set i b

/-- `in` and `out` are the same buffer. -/
def DecodeMem.aliased : DecodeMem (List UInt8) where
  read buf i := buf.getD i 0
  write buf i b := buf.set i b

/-- The inner `for` of `cobs_decode`: copies `n` bytes from `readIndex` on. The answer is
the write index, or `none` for `kCobsDecodeError`. -/
def copyRun {μ : Type} (M : DecodeMem μ) (outCap : Nat) :
    (n readIndex writeIndex : Nat) → μ → μ × Option Nat
  | 0, _, writeIndex, mem => (mem, some writeIndex)
  | n + 1, readIndex, writeIndex, mem =>
      let b := M.read mem readIndex
      if b = 0 then (mem, none)
      else if outCap ≤ writeIndex then (mem, none)
      else copyRun M outCap n (readIndex + 1) (writeIndex + 1) (M.write mem writeIndex b)

/-- The `while` of `cobs_decode`, from the given read and write index. -/
def decodeLoop {μ : Type} (M : DecodeMem μ) (len outCap readIndex writeIndex : Nat)
    (mem : μ) : μ × Option Nat :=
  if readIndex < len then
    let code := M.read mem readIndex
    if code = 0 then (mem, none)
    else
      let dataLen := code.toNat - 1
      if len - (readIndex + 1) < dataLen then (mem, none)
      else
        match copyRun M outCap dataLen (readIndex + 1) writeIndex mem with
        | (mem, none) => (mem, none)
        | (mem, some writeIndex) =>
            let readIndex' := readIndex + 1 + dataLen
            if code ≠ 0xff ∧ readIndex' < len then
              if outCap ≤ writeIndex then (mem, none)
              else decodeLoop M len outCap readIndex' (writeIndex + 1) (M.write mem writeIndex 0)
            else decodeLoop M len outCap readIndex' writeIndex mem
  else (mem, some writeIndex)
termination_by len - readIndex

/-- `cobs_decode` into a separate buffer: the buffer after the call and the decoded
length, or `none` for `kCobsDecodeError`. -/
def cobsDecode (input out : List UInt8) (outCap : Nat) : List UInt8 × Option Nat :=
  decodeLoop (.separate input) input.length outCap 0 0 out

/-- `cobs_decode` with `out` aliasing `in`: the first `len` bytes of `buf` are decoded
over themselves. -/
def cobsDecodeInPlace (buf : List UInt8) (len outCap : Nat) : List UInt8 × Option Nat :=
  decodeLoop .aliased len outCap 0 0 buf

/-! ### Frames -/

/-- `frame_max_size`. -/
def frameMaxSize (n : Nat) : Nat := cobsMaxEncodedSize (n + 2) + 2

/-- `frame_encode`: the buffer after the call and the returned length (0 on overflow). The
encoder works on `out + 1` with two bytes of the capacity held back for the delimiters. -/
def frameEncode (payload out : List UInt8) (outCap : Nat) : List UInt8 × Nat :=
  if outCap < 2 then (out, 0)
  else
    let out := out.set 0 0
    let enc := CobsStreamEncoder.new (out.drop 1) (outCap - 2)
    let enc := enc.feed payload true
    if enc.ok = false then (out.take 1 ++ enc.out, 0)
    else
      let enc := enc.feed (crcBe payload) false
      if enc.ok = false then (out.take 1 ++ enc.out, 0)
      else
        let fin := enc.finish
        let out := out.take 1 ++ fin.1.out
        if fin.2 = 0 then (out, 0)
        else (out.set (1 + fin.2) 0, fin.2 + 2)

/-- `detail::FrameOutcome`. -/
inductive FrameOutcome where
  | empty
  | ready
  | cobsError
  | crcError
deriving DecidableEq, Repr

/-- What `decode_and_validate_frame` leaves behind: the buffer, the outcome, `*out_len`. -/
structure FrameValidation where
  buf : List UInt8
  outcome : FrameOutcome
  outLen : Nat

/-- `decode_and_validate_frame` over the first `len` bytes of `buf`, in place. -/
def decodeAndValidateFrame (buf : List UInt8) (len cap : Nat) : FrameValidation :=
  if len = 0 then ⟨buf, .empty, 0⟩
  else
    match cobsDecodeInPlace buf len cap with
    | (buf, none) => ⟨buf, .cobsError, len⟩
    | (buf, some decoded) =>
        if decoded < 2 then ⟨buf, .crcError, decoded⟩
        else
          let payloadLen := decoded - 2
          let received :=
            ((buf.getD payloadLen 0).toUInt16 <<< 8) ||| (buf.getD (payloadLen + 1) 0).toUInt16
          let computed := crc16Ccitt (buf.take payloadLen)
          if computed ≠ received then ⟨buf, .crcError, decoded⟩
          else ⟨buf, .ready, payloadLen⟩

/-- The bytes `cobs_encode` writes for a message, given a buffer of the size its callers use. -/
def cobsBytes (m : List UInt8) : List UInt8 :=
  let cap := cobsMaxEncodedSize m.length
  let r := cobsEncode m (List.replicate cap 0) cap
  r.1.take r.2

/-- The bytes `frame_encode` puts on the wire for a payload, given a buffer of the size its
callers use. -/
def frameBytes (payload : List UInt8) : List UInt8 :=
  let cap := frameMaxSize payload.length
  let r := frameEncode payload (List.replicate cap 0) cap
  r.1.take r.2

end SerialRpc
