import Mathlib.Data.List.Basic

/-!
# `SerialRpc.Msgpack.Writer`: the bounded MessagePack writer

The `Writer` class of `src/serial_rpc/msgpack_lite.h`, one definition for each member
function. The caller's buffer is a field, since every write changes it.

`PackOp` lists the public `pack` functions with their arguments. The ten integer overloads
go through `pack_int_` or `pack_uint_` and are the two constructors `int` and `uint`. A
`float` or `double` is its bit pattern, and `double` is the binary64 branch of the
source's `#if`. The `*_32` headers are compiled out where `size_t` has 16 bits. No length
reaches them there, so the ladder is the same.
-/

set_option autoImplicit false

namespace SerialRpc

/-- The bytes of a string literal. -/
def text (s : String) : List UInt8 := s.toUTF8.toList

/-- What `strlen` and a copy see of a C string. -/
def cstr (s : List UInt8) : List UInt8 := s.takeWhile (· ≠ 0)

/-! ### Format bytes -/

abbrev kPositiveFixintMax : UInt8 := 0x7f
abbrev kFixmapPrefix : UInt8 := 0x80
abbrev kFixarrayPrefix : UInt8 := 0x90
abbrev kFixstrPrefix : UInt8 := 0xa0
abbrev kNil : UInt8 := 0xc0
abbrev kFalse : UInt8 := 0xc2
abbrev kTrue : UInt8 := 0xc3
abbrev kBin8 : UInt8 := 0xc4
abbrev kBin16 : UInt8 := 0xc5
abbrev kBin32 : UInt8 := 0xc6
abbrev kExt8 : UInt8 := 0xc7
abbrev kExt16 : UInt8 := 0xc8
abbrev kExt32 : UInt8 := 0xc9
abbrev kFloat32 : UInt8 := 0xca
abbrev kFloat64 : UInt8 := 0xcb
abbrev kUint8 : UInt8 := 0xcc
abbrev kUint16 : UInt8 := 0xcd
abbrev kUint32 : UInt8 := 0xce
abbrev kUint64 : UInt8 := 0xcf
abbrev kInt8 : UInt8 := 0xd0
abbrev kInt16 : UInt8 := 0xd1
abbrev kInt32 : UInt8 := 0xd2
abbrev kInt64 : UInt8 := 0xd3
abbrev kFixext1 : UInt8 := 0xd4
abbrev kFixext2 : UInt8 := 0xd5
abbrev kFixext4 : UInt8 := 0xd6
abbrev kFixext8 : UInt8 := 0xd7
abbrev kFixext16 : UInt8 := 0xd8
abbrev kStr8 : UInt8 := 0xd9
abbrev kStr16 : UInt8 := 0xda
abbrev kStr32 : UInt8 := 0xdb
abbrev kArray16 : UInt8 := 0xdc
abbrev kArray32 : UInt8 := 0xdd
abbrev kMap16 : UInt8 := 0xde
abbrev kMap32 : UInt8 := 0xdf
abbrev kNegativeFixintMin : UInt8 := 0xe0

/-! ### The writer -/

/-- `msgpack::Writer`. -/
structure Writer where
  /-- The caller's buffer. -/
  buf : List UInt8
  cap : Nat
  /-- Bytes written so far. -/
  size : Nat
  /-- Sticky: some write did not fit. -/
  overflow : Bool
deriving DecidableEq

namespace Writer

/-- The constructor. -/
def new (buf : List UInt8) (cap : Nat) : Writer where
  buf := buf
  cap := cap
  size := 0
  overflow := false

/-- `reset`. -/
def reset (w : Writer) : Writer := { w with size := 0, overflow := false }

/-- `data()` and `size()` together: the bytes written. -/
def data (w : Writer) : List UInt8 := w.buf.take w.size

/-- `put_byte_`. -/
def putByte (w : Writer) (b : UInt8) : Writer :=
  if w.size < w.cap then { w with buf := w.buf.set w.size b, size := w.size + 1 }
  else { w with overflow := true }

/-- `put_bytes_`. -/
def putBytes (w : Writer) (p : List UInt8) : Writer := p.foldl putByte w

/-- `put_u16_`. -/
def putU16 (w : Writer) (v : UInt16) : Writer :=
  (w.putByte ((v >>> 8) &&& 0xff).toUInt8).putByte (v &&& 0xff).toUInt8

/-- `put_u32_`. -/
def putU32 (w : Writer) (v : UInt32) : Writer :=
  (((w.putByte ((v >>> 24) &&& 0xff).toUInt8).putByte ((v >>> 16) &&& 0xff).toUInt8).putByte
    ((v >>> 8) &&& 0xff).toUInt8).putByte (v &&& 0xff).toUInt8

/-- `put_u64_`. -/
def putU64 (w : Writer) (v : UInt64) : Writer :=
  (w.putU32 ((v >>> 32) &&& 0xffffffff).toUInt32).putU32 (v &&& 0xffffffff).toUInt32

/-- `pack_uint_`. -/
def packUint (w : Writer) (v : UInt64) : Writer :=
  if v ≤ kPositiveFixintMax.toUInt64 then w.putByte v.toUInt8
  else if v ≤ 0xff then (w.putByte kUint8).putByte v.toUInt8
  else if v ≤ 0xffff then (w.putByte kUint16).putU16 v.toUInt16
  else if v ≤ 0xffffffff then (w.putByte kUint32).putU32 v.toUInt32
  else (w.putByte kUint64).putU64 v

/-- `pack_int_`. -/
def packInt (w : Writer) (v : Int64) : Writer :=
  if 0 ≤ v then w.packUint v.toUInt64
  else if -32 ≤ v then w.putByte v.toUInt64.toUInt8
  else if -128 ≤ v then (w.putByte kInt8).putByte v.toUInt64.toUInt8
  else if -32768 ≤ v then (w.putByte kInt16).putU16 v.toUInt64.toUInt16
  else if -2147483648 ≤ v then (w.putByte kInt32).putU32 v.toUInt64.toUInt32
  else (w.putByte kInt64).putU64 v.toUInt64

/-- `pack_nil`. -/
def packNil (w : Writer) : Writer := w.putByte kNil

/-- `pack(bool)`. -/
def packBool (w : Writer) (v : Bool) : Writer := w.putByte (if v then kTrue else kFalse)

/-- `pack(float)`. -/
def packFloat (w : Writer) (bits : UInt32) : Writer := (w.putByte kFloat32).putU32 bits

/-- `pack(double)`, where a `double` has 64 bits. -/
def packDouble (w : Writer) (bits : UInt64) : Writer := (w.putByte kFloat64).putU64 bits

/-- `pack_str`. -/
def packStr (w : Writer) (s : List UInt8) : Writer :=
  let len := s.length
  let w :=
    if len < 32 then w.putByte (kFixstrPrefix ||| UInt8.ofNat len)
    else if len < 256 then (w.putByte kStr8).putByte (UInt8.ofNat len)
    else if len < 65536 then (w.putByte kStr16).putU16 (UInt16.ofNat len)
    else (w.putByte kStr32).putU32 (UInt32.ofNat len)
  w.putBytes s

/-- `pack_bin`. -/
def packBin (w : Writer) (bytes : List UInt8) : Writer :=
  let len := bytes.length
  let w :=
    if len < 256 then (w.putByte kBin8).putByte (UInt8.ofNat len)
    else if len < 65536 then (w.putByte kBin16).putU16 (UInt16.ofNat len)
    else (w.putByte kBin32).putU32 (UInt32.ofNat len)
  w.putBytes bytes

/-- `pack_array`. -/
def packArray (w : Writer) (n : Nat) : Writer :=
  if n < 16 then w.putByte (kFixarrayPrefix ||| UInt8.ofNat n)
  else if n < 65536 then (w.putByte kArray16).putU16 (UInt16.ofNat n)
  else (w.putByte kArray32).putU32 (UInt32.ofNat n)

/-- `pack_map`. -/
def packMap (w : Writer) (n : Nat) : Writer :=
  if n < 16 then w.putByte (kFixmapPrefix ||| UInt8.ofNat n)
  else if n < 65536 then (w.putByte kMap16).putU16 (UInt16.ofNat n)
  else (w.putByte kMap32).putU32 (UInt32.ofNat n)

end Writer

/-- A call of one of the public `pack` functions. -/
inductive PackOp where
  | nil
  | bool (v : Bool)
  | int (v : Int64)
  | uint (v : UInt64)
  | float (bits : UInt32)
  | double (bits : UInt64)
  | str (s : List UInt8)
  | bin (bytes : List UInt8)
  | array (n : Nat)
  | map (n : Nat)
deriving DecidableEq

/-- The call. -/
def Writer.pack (w : Writer) : PackOp → Writer
  | .nil => w.packNil
  | .bool v => w.packBool v
  | .int v => w.packInt v
  | .uint v => w.packUint v
  | .float bits => w.packFloat bits
  | .double bits => w.packDouble bits
  | .str s => w.packStr s
  | .bin bytes => w.packBin bytes
  | .array n => w.packArray n
  | .map n => w.packMap n

/-- Several calls, in order. -/
def Writer.packAll (w : Writer) (ops : List PackOp) : Writer := ops.foldl Writer.pack w

/-- What the owner of a writer calls on it. -/
inductive WriterCall where
  | pack (op : PackOp)
  | reset
deriving DecidableEq

/-- The call. -/
def Writer.call (w : Writer) : WriterCall → Writer
  | .pack op => w.pack op
  | .reset => w.reset

/-- Several calls, in order. -/
def Writer.callAll (w : Writer) (calls : List WriterCall) : Writer := calls.foldl Writer.call w

/-- The `pack` calls since the construction or the last `reset`. -/
def packsSinceReset (calls : List WriterCall) : List PackOp :=
  calls.foldl (fun ops call => match call with
    | .pack op => ops ++ [op]
    | .reset => []) []

end SerialRpc
