import SerialRpc.Msgpack.Writer
import Mathlib.Tactic.NormNum

/-!
# `SerialRpc.Msgpack.Reader`: the MessagePack cursor

The `Reader` class of `src/serial_rpc/msgpack_lite.h`, one definition for each member
function. `w` is the `size_t` of the target. It decides which 32-bit lengths `read_*`
refuses, and `skip` computes modulo its range.

A read takes its output parameter and returns it, changed or not (`store`). The private
functions that return `bool` and leave a value behind on success return an `Option`. A
`float` or `double` is its bit pattern. The integer overloads of `read` are `readSigned`
and `readUnsigned` at the maximum of their type.
-/

set_option autoImplicit false

namespace SerialRpc

/-! ### Floating-point conversions -/

/-- `narrow_f64_bits_to_f32_bits`. -/
def narrowF64BitsToF32Bits (bits64 : UInt64) : UInt32 :=
  let sign := ((bits64 >>> 63) &&& 0x1).toUInt32 <<< 31
  let biasedExp64 := ((bits64 >>> 52) &&& 0x7ff).toUInt32
  let mantissa64 := bits64 &&& 0xfffffffffffff
  if biasedExp64 = 0x7ff then
    let mantissa32 : UInt32 := if mantissa64 ≠ 0 then 0x400000 else 0
    sign ||| 0x7f800000 ||| mantissa32
  else if biasedExp64 = 0 then sign
  else
    let exponent : Int := (biasedExp64.toNat : Int) - 1023 + 127
    if 0xff ≤ exponent then sign ||| 0x7f800000
    else if exponent ≤ 0 then sign
    else
      let mantissa32 := (mantissa64 >>> 29).toUInt32
      sign ||| (UInt32.ofNat exponent.toNat <<< 23) ||| mantissa32

/-- `static_cast<double>(float)`. The conversion is exact, and makes a NaN quiet. -/
def doubleOfFloat (bits32 : UInt32) : UInt64 :=
  let sign : UInt64 := (bits32 >>> 31).toUInt64 <<< 63
  let biasedExp32 : UInt64 := ((bits32 >>> 23) &&& 0xff).toUInt64
  let mantissa32 : UInt64 := (bits32 &&& 0x7fffff).toUInt64
  if biasedExp32 = 0xff then
    if mantissa32 = 0 then sign ||| 0x7ff0000000000000
    else sign ||| (0x7ff8000000000000 : UInt64) ||| (mantissa32 <<< 29)
  else if biasedExp32 = 0 then
    if mantissa32 = 0 then sign
    else
      -- A subnormal float is normal as a double: its top bit becomes the implicit one.
      let top : Nat := mantissa32.toNat.log2
      sign ||| UInt64.ofNat (((top + 874) <<< 52) + (mantissa32.toNat - 2 ^ top) * 2 ^ (52 - top))
  else sign ||| ((biasedExp32 + 896) <<< 52) ||| (mantissa32 <<< 29)

/-- An unsigned integer as a binary floating-point number with `mantissa` stored bits,
rounded to nearest, ties to even. A carry out of the mantissa goes into the exponent. -/
def roundMagnitude (mantissa bias mag : Nat) : Nat :=
  if mag = 0 then 0
  else
    let top := mag.log2
    if top ≤ mantissa then ((top + bias) <<< mantissa) + (mag * 2 ^ (mantissa - top) - 2 ^ mantissa)
    else
      let dropped := top - mantissa
      let kept := mag / 2 ^ dropped
      let rest := mag % 2 ^ dropped
      let half := 2 ^ (dropped - 1)
      let rounded := if half < rest ∨ (rest = half ∧ kept % 2 = 1) then kept + 1 else kept
      ((top + bias) <<< mantissa) + (rounded - 2 ^ mantissa)

/-- `static_cast<float>(uint64_t)`. -/
def floatOfMagnitude (mag : UInt64) : UInt32 := UInt32.ofNat (roundMagnitude 23 127 mag.toNat)

/-- `static_cast<double>(uint64_t)`. -/
def doubleOfMagnitude (mag : UInt64) : UInt64 := UInt64.ofNat (roundMagnitude 52 1023 mag.toNat)

/-! ### The reader -/

/-- The `size_t` of a target. C++ promises at least 16 bits. -/
structure SizeT where
  bits : Nat
  sixteen_le : 16 ≤ bits
deriving DecidableEq

namespace SizeT

/-- `size_t` on AVR. -/
def avr : SizeT := ⟨16, by decide⟩

/-- `size_t` on a 32-bit board. -/
def board32 : SizeT := ⟨32, by decide⟩

/-- `size_t` on a 64-bit host. -/
def host64 : SizeT := ⟨64, by decide⟩

/-- `size_t_max_as_u64`. -/
def max (w : SizeT) : Nat := 2 ^ w.bits - 1

/-- A sum as `size_t` holds it. -/
def wrap (w : SizeT) (n : Nat) : Nat := n % 2 ^ w.bits

end SizeT

/-- `msgpack::Reader` on a target with the given `size_t`. -/
structure Reader (w : SizeT) where
  /-- The valid bytes of the source buffer. -/
  buf : List UInt8
  pos : Nat
  error : Bool
deriving DecidableEq

/-- `Reader::Type`. -/
inductive ReaderType where
  | nil
  | boolean
  | int
  | uint
  | float
  | str
  | bin
  | array
  | map
  | ext
  | invalid
deriving DecidableEq, Repr

namespace Reader

variable {w : SizeT}

/-- The constructor. -/
def new (w : SizeT) (buf : List UInt8) : Reader w where
  buf := buf
  pos := 0
  error := false

/-- `remaining`. -/
def remaining (r : Reader w) : Nat := r.buf.length - r.pos

/-- `_buf[i]`. -/
def byteAt (r : Reader w) (i : Nat) : UInt8 := r.buf.getD i 0

/-- `_pos += n`. -/
def advance (r : Reader w) (n : Nat) : Reader w := { r with pos := r.pos + n }

/-- `fail_`. -/
def fail (r : Reader w) (savedPos : Nat) : Reader w := { r with error := true, pos := savedPos }

/-- `get_byte_`. -/
def getByte (r : Reader w) : Reader w × Option UInt8 :=
  if r.remaining = 0 then ({ r with error := true }, none)
  else (r.advance 1, some (r.byteAt r.pos))

/-- `get_bytes_`. -/
def getBytes (r : Reader w) (n : Nat) : Reader w × Option (List UInt8) :=
  if r.remaining < n then ({ r with error := true }, none)
  else (r.advance n, some ((r.buf.drop r.pos).take n))

/-- `get_u16_`. -/
def getU16 (r : Reader w) : Reader w × Option UInt16 :=
  match r.getBytes 2 with
  | (r, none) => (r, none)
  | (r, some b) => (r, some (((b.getD 0 0).toUInt16 <<< 8) ||| (b.getD 1 0).toUInt16))

/-- `get_u32_`. -/
def getU32 (r : Reader w) : Reader w × Option UInt32 :=
  match r.getBytes 4 with
  | (r, none) => (r, none)
  | (r, some b) =>
      (r, some (((b.getD 0 0).toUInt32 <<< 24) ||| ((b.getD 1 0).toUInt32 <<< 16) |||
        ((b.getD 2 0).toUInt32 <<< 8) ||| (b.getD 3 0).toUInt32))

/-- `get_u64_`. -/
def getU64 (r : Reader w) : Reader w × Option UInt64 :=
  match r.getU32 with
  | (r, none) => (r, none)
  | (r, some hi) =>
      match r.getU32 with
      | (r, none) => (r, none)
      | (r, some lo) => (r, some ((hi.toUInt64 <<< 32) ||| lo.toUInt64))

/-- `type`. -/
def type (r : Reader w) : ReaderType :=
  if r.error ∨ r.remaining = 0 then .invalid
  else
    let b := r.byteAt r.pos
    if b ≤ kPositiveFixintMax then .uint
    else if kNegativeFixintMin ≤ b then .int
    else if b &&& 0xf0 = kFixmapPrefix then .map
    else if b &&& 0xf0 = kFixarrayPrefix then .array
    else if b &&& 0xe0 = kFixstrPrefix then .str
    else if b = kNil then .nil
    else if b = kFalse ∨ b = kTrue then .boolean
    else if b = kBin8 ∨ b = kBin16 ∨ b = kBin32 then .bin
    else if b = kExt8 ∨ b = kExt16 ∨ b = kExt32 ∨ b = kFixext1 ∨ b = kFixext2 ∨ b = kFixext4 ∨
        b = kFixext8 ∨ b = kFixext16 then .ext
    else if b = kFloat32 ∨ b = kFloat64 then .float
    else if b = kUint8 ∨ b = kUint16 ∨ b = kUint32 ∨ b = kUint64 then .uint
    else if b = kInt8 ∨ b = kInt16 ∨ b = kInt32 ∨ b = kInt64 then .int
    else if b = kStr8 ∨ b = kStr16 ∨ b = kStr32 then .str
    else if b = kArray16 ∨ b = kArray32 then .array
    else if b = kMap16 ∨ b = kMap32 then .map
    else .invalid

/-- `if (!get(v)) { fail_(saved); return false; }`, and then a value made of `v`. -/
def orFail {α β : Type} (saved : Nat) (answer : Reader w × Option α) (make : α → β) :
    Reader w × Option β :=
  match answer with
  | (r, none) => (r.fail saved, none)
  | (r, some v) => (r, some (make v))

/-- The output parameter after a read: assigned when the read gave a value. -/
def store {α : Type} (out : α) (answer : Reader w × Option α) : Reader w × α :=
  (answer.1, answer.2.getD out)

/-- `read_nil`. -/
def readNil (r : Reader w) : Reader w :=
  let saved := r.pos
  match r.getByte with
  | (r, none) => r.fail saved
  | (r, some b) => if b ≠ kNil then r.fail saved else r

/-- `read(bool&)`. -/
def readBool (r : Reader w) (out : Bool) : Reader w × Bool :=
  let saved := r.pos
  store out <|
    match r.getByte with
    | (r, none) => (r.fail saved, none)
    | (r, some b) =>
        if b = kTrue then (r, some true)
        else if b = kFalse then (r, some false)
        else (r.fail saved, none)

/-- The magnitude and the sign of a value of 8, 16 or 32 bits, sign-extended. -/
def magnitudeOf (sv : Int64) : UInt64 × Bool :=
  let isNegative : Bool := decide (sv < 0)
  (if isNegative then (-sv).toUInt64 else sv.toUInt64, isNegative)

/-- The magnitude and the sign of a value of 64 bits, by unsigned arithmetic. -/
def magnitudeOf64 (sv : Int64) : UInt64 × Bool :=
  let isNegative : Bool := decide (sv < 0)
  (if isNegative then ~~~sv.toUInt64 + 1 else sv.toUInt64, isNegative)

/-- `read_raw_magnitude_`: the magnitude and whether the value is negative. -/
def readRawMagnitude (r : Reader w) : Reader w × Option (UInt64 × Bool) :=
  let saved := r.pos
  match r.getByte with
  | (r, none) => (r.fail saved, none)
  | (r, some b) =>
      if b ≤ kPositiveFixintMax then (r, some (b.toUInt64, false))
      else if kNegativeFixintMin ≤ b then (r, some ((-b.toInt8.toInt64).toUInt64, true))
      else if b = kUint8 then orFail saved r.getByte fun v => (v.toUInt64, false)
      else if b = kUint16 then orFail saved r.getU16 fun v => (v.toUInt64, false)
      else if b = kUint32 then orFail saved r.getU32 fun v => (v.toUInt64, false)
      else if b = kUint64 then orFail saved r.getU64 fun v => (v, false)
      else if b = kInt8 then orFail saved r.getByte fun v => magnitudeOf v.toInt8.toInt64
      else if b = kInt16 then orFail saved r.getU16 fun v => magnitudeOf v.toInt16.toInt64
      else if b = kInt32 then orFail saved r.getU32 fun v => magnitudeOf v.toInt32.toInt64
      else if b = kInt64 then orFail saved r.getU64 fun v => magnitudeOf64 v.toInt64
      else (r.fail saved, none)

/-- The maximum of a signed integer type of `bits` bits. -/
def maxSigned (bits : Nat) : Nat := 2 ^ (bits - 1) - 1

/-- The maximum of an unsigned integer type of `bits` bits. -/
def maxUnsigned (bits : Nat) : Nat := 2 ^ bits - 1

/-- `read_signed_` at the type whose maximum is `maxVal`. -/
def readSigned (r : Reader w) (maxVal : Nat) (out : Int) : Reader w × Int :=
  let saved := r.pos
  store out <|
    match r.readRawMagnitude with
    | (r, none) => (r, none)
    | (r, some (mag, neg)) =>
        if neg = false then
          if maxVal < mag.toNat then (r.fail saved, none) else (r, some mag.toNat)
        else
          let maxNegMag := maxVal + 1
          if maxNegMag < mag.toNat then (r.fail saved, none)
          else if mag.toNat = maxNegMag then (r, some (-(maxVal : Int) - 1))
          else (r, some (-(mag.toNat : Int)))

/-- `read_unsigned_` at the type whose maximum is `maxVal`. -/
def readUnsigned (r : Reader w) (maxVal : Nat) (out : Nat) : Reader w × Nat :=
  let saved := r.pos
  store out <|
    match r.readRawMagnitude with
    | (r, none) => (r, none)
    | (r, some (mag, neg)) =>
        if neg then (r.fail saved, none)
        else if maxVal < mag.toNat then (r.fail saved, none)
        else (r, some mag.toNat)

/-- `read(float&)`. -/
def readFloat (r : Reader w) (out : UInt32) : Reader w × UInt32 :=
  let saved := r.pos
  store out <|
    if r.remaining = 0 then (r.fail saved, none)
    else
      let b := r.byteAt r.pos
      if b = kFloat32 then orFail saved (r.advance 1).getU32 fun bits => bits
      else if b = kFloat64 then
        orFail saved (r.advance 1).getU64 fun bits => narrowF64BitsToF32Bits bits
      else
        match r.readRawMagnitude with
        | (r, none) => (r, none)
        | (r, some (mag, neg)) =>
            (r, some (if neg then floatOfMagnitude mag ^^^ 0x80000000 else floatOfMagnitude mag))

/-- `read(double&)`, where a `double` has 64 bits. -/
def readDouble (r : Reader w) (out : UInt64) : Reader w × UInt64 :=
  let saved := r.pos
  store out <|
    if r.remaining = 0 then (r.fail saved, none)
    else
      let b := r.byteAt r.pos
      if b = kFloat32 then orFail saved (r.advance 1).getU32 fun bits => doubleOfFloat bits
      else if b = kFloat64 then orFail saved (r.advance 1).getU64 fun bits => bits
      else
        match r.readRawMagnitude with
        | (r, none) => (r, none)
        | (r, some (mag, neg)) =>
            (r, some (if neg then doubleOfMagnitude mag ^^^ 0x8000000000000000
              else doubleOfMagnitude mag))

/-- A 32-bit length, refused when `size_t` cannot hold it. -/
def getLen32 (r : Reader w) (saved : Nat) : Reader w × Option Nat :=
  match r.getU32 with
  | (r, none) => (r.fail saved, none)
  | (r, some v) =>
      if w.max < v.toNat then (r.fail saved, none) else (r, some (w.wrap v.toNat))

/-- `read_str_header_`. -/
def readStrHeader (r : Reader w) : Reader w × Option Nat :=
  let saved := r.pos
  match r.getByte with
  | (r, none) => (r.fail saved, none)
  | (r, some b) =>
      if b &&& 0xe0 = kFixstrPrefix then (r, some (b &&& 0x1f).toNat)
      else if b = kStr8 then orFail saved r.getByte fun v => v.toNat
      else if b = kStr16 then orFail saved r.getU16 fun v => v.toNat
      else if b = kStr32 then r.getLen32 saved
      else (r.fail saved, none)

/-- `read_bin_header_`. -/
def readBinHeader (r : Reader w) : Reader w × Option Nat :=
  let saved := r.pos
  match r.getByte with
  | (r, none) => (r.fail saved, none)
  | (r, some b) =>
      if b = kBin8 then orFail saved r.getByte fun v => v.toNat
      else if b = kBin16 then orFail saved r.getU16 fun v => v.toNat
      else if b = kBin32 then r.getLen32 saved
      else (r.fail saved, none)

/-- Where a zero-copy read points: an offset into the source buffer and a length. -/
structure Span where
  ptr : Nat
  len : Nat
deriving DecidableEq, Repr

/-- The bytes a span points to. -/
def bytes (r : Reader w) (s : Span) : List UInt8 := (r.buf.drop s.ptr).take s.len

/-- The body of a zero-copy read behind its header. -/
def readSpan (saved : Nat) (header : Reader w × Option Nat) : Reader w × Option Span :=
  match header with
  | (r, none) => (r, none)
  | (r, some n) =>
      if r.remaining < n then (r.fail saved, none) else (r.advance n, some ⟨r.pos, n⟩)

/-- `read_str(const char*&, size_t&)`. -/
def readStr (r : Reader w) (out : Span) : Reader w × Span :=
  store out (readSpan r.pos r.readStrHeader)

/-- `read_str(char*, size_t)`: `dst` is the memory behind the pointer. -/
def readStrCopy (r : Reader w) (cap : Nat) (dst : List UInt8) : Reader w × List UInt8 :=
  let saved := r.pos
  store dst <|
    match r.readStrHeader with
    | (r, none) => (r, none)
    | (r, some n) =>
        if cap = 0 ∨ cap ≤ n then (r.fail saved, none)
        else if r.remaining < n then (r.fail saved, none)
        else (r.advance n, some ((r.buf.drop r.pos).take n ++ 0 :: dst.drop (n + 1)))

/-- `read_bin`. -/
def readBin (r : Reader w) (out : Span) : Reader w × Span :=
  store out (readSpan r.pos r.readBinHeader)

/-- A count header: `read_array` and `read_map` differ in their format bytes only. -/
def readCount (fix byte16 byte32 : UInt8) (r : Reader w) : Reader w × Option Nat :=
  let saved := r.pos
  match r.getByte with
  | (r, none) => (r.fail saved, none)
  | (r, some b) =>
      if b &&& 0xf0 = fix then (r, some (b &&& 0x0f).toNat)
      else if b = byte16 then orFail saved r.getU16 fun v => v.toNat
      else if b = byte32 then r.getLen32 saved
      else (r.fail saved, none)

/-- `read_array`. -/
def readArray (r : Reader w) (out : Nat) : Reader w × Nat :=
  store out (readCount kFixarrayPrefix kArray16 kArray32 r)

/-- `read_map`. -/
def readMap (r : Reader w) (out : Nat) : Reader w × Nat :=
  store out (readCount kFixmapPrefix kMap16 kMap32 r)

/-! ### `skip` -/

/-- The two bytes at `off`, as `skip` puts them together. -/
def readBeU16At (r : Reader w) (off : Nat) : UInt16 :=
  ((r.byteAt off).toUInt16 <<< 8) ||| (r.byteAt (off + 1)).toUInt16

/-- `read_be_u32_at_`. -/
def readBeU32At (r : Reader w) (off : Nat) : UInt32 :=
  ((r.byteAt off).toUInt32 <<< 24) ||| ((r.byteAt (off + 1)).toUInt32 <<< 16) |||
    ((r.byteAt (off + 2)).toUInt32 <<< 8) ||| (r.byteAt (off + 3)).toUInt32

/-- `skip_fixed_`. -/
def skipFixed (r : Reader w) (n : Nat) : Option (Reader w) :=
  if r.remaining < n then none else some (r.advance n)

/-- A body of `header + n` bytes, where a sum of `size_t` wraps. -/
def skipBody (r : Reader w) (header n : Nat) : Option (Reader w × Nat) :=
  (r.skipFixed (w.wrap (header + n))).map fun r => (r, 0)

/-- A body whose length stands in 32 bits, guarded against the wrap. -/
def skipBody32 (r : Reader w) (header : Nat) : Option (Reader w × Nat) :=
  if r.remaining < 5 then none
  else
    let n := (r.readBeU32At (r.pos + 1)).toNat
    if w.max - header < n then none else r.skipBody header n

/-- One round of the loop of `skip`: the reader behind the object's own bytes and the
objects it adds to the count still owed. `none` is a `fail_`. -/
def skipOne (r : Reader w) : Option (Reader w × Nat) :=
  if r.remaining = 0 then none
  else
    let b := r.byteAt r.pos
    if b ≤ kPositiveFixintMax ∨ kNegativeFixintMin ≤ b then some (r.advance 1, 0)
    else if b &&& 0xf0 = kFixmapPrefix then some (r.advance 1, w.wrap (2 * (b &&& 0x0f).toNat))
    else if b &&& 0xf0 = kFixarrayPrefix then some (r.advance 1, (b &&& 0x0f).toNat)
    else if b &&& 0xe0 = kFixstrPrefix then r.skipBody 1 (b &&& 0x1f).toNat
    else if b = kNil ∨ b = kFalse ∨ b = kTrue then some (r.advance 1, 0)
    else if b = kUint8 ∨ b = kInt8 then r.skipBody 2 0
    else if b = kUint16 ∨ b = kInt16 then r.skipBody 3 0
    else if b = kUint32 ∨ b = kInt32 ∨ b = kFloat32 then r.skipBody 5 0
    else if b = kUint64 ∨ b = kInt64 ∨ b = kFloat64 then r.skipBody 9 0
    else if b = kStr8 ∨ b = kBin8 then
      if r.remaining < 2 then none else r.skipBody 2 (r.byteAt (r.pos + 1)).toNat
    else if b = kStr16 ∨ b = kBin16 then
      if r.remaining < 3 then none else r.skipBody 3 (r.readBeU16At (r.pos + 1)).toNat
    else if b = kStr32 ∨ b = kBin32 then r.skipBody32 5
    else if b = kArray16 then
      if r.remaining < 3 then none
      else some (r.advance 3, (r.readBeU16At (r.pos + 1)).toNat)
    else if b = kArray32 then
      if r.remaining < 5 then none
      else some (r.advance 5, w.wrap (r.readBeU32At (r.pos + 1)).toNat)
    else if b = kMap16 then
      if r.remaining < 3 then none
      else some (r.advance 3, w.wrap (2 * (r.readBeU16At (r.pos + 1)).toNat))
    else if b = kMap32 then
      if r.remaining < 5 then none
      else some (r.advance 5, w.wrap (2 * w.wrap (r.readBeU32At (r.pos + 1)).toNat))
    else if b = kFixext1 then r.skipBody 2 1
    else if b = kFixext2 then r.skipBody 2 2
    else if b = kFixext4 then r.skipBody 2 4
    else if b = kFixext8 then r.skipBody 2 8
    else if b = kFixext16 then r.skipBody 2 16
    else if b = kExt8 then
      if r.remaining < 2 then none else r.skipBody 3 (r.byteAt (r.pos + 1)).toNat
    else if b = kExt16 then
      if r.remaining < 3 then none else r.skipBody 4 (r.readBeU16At (r.pos + 1)).toNat
    else if b = kExt32 then r.skipBody32 6
    else none

/-- A round that keeps the buffer and never goes back, and that goes on when it adds
objects. -/
def Advances (r : Reader w) (round : Option (Reader w × Nat)) : Prop :=
  ∀ r' n, round = some (r', n) → r'.buf = r.buf ∧ r.pos ≤ r'.pos ∧ (n = 0 ∨ r.pos < r'.pos)

/-- A skip that fails advances no further. -/
theorem advances_none (r : Reader w) : r.Advances none := by
  intro r' n h
  simp at h

/-- One that moves the cursor advances. -/
theorem advances_some (r : Reader w) {k : Nat} (n : Nat) (hk : 0 < k) :
    r.Advances (some (r.advance k, n)) := by
  intro r' m h
  simp only [Option.some.injEq, Prod.mk.injEq] at h
  obtain ⟨rfl, -⟩ := h
  exact ⟨rfl, Nat.le_add_right _ _, Or.inr (Nat.lt_add_of_pos_right hk)⟩

/-- Skipping a header and its body does. -/
theorem advances_skipBody (r : Reader w) (header n : Nat) : r.Advances (r.skipBody header n) := by
  intro r' m h
  simp only [skipBody, skipFixed, Option.map_eq_some_iff, Option.ite_none_left_eq_some,
    Option.some.injEq, Prod.mk.injEq] at h
  obtain ⟨_, ⟨-, rfl⟩, rfl, rfl⟩ := h
  exact ⟨rfl, Nat.le_add_right _ _, Or.inl rfl⟩

/-- So does either branch, when both do. -/
theorem advances_ite (r : Reader w) {c : Prop} [Decidable c] {a b : Option (Reader w × Nat)}
    (ha : r.Advances a) (hb : r.Advances b) : r.Advances (if c then a else b) := by
  split
  · exact ha
  · exact hb

/-- Every round advances, whatever the format byte. -/
theorem advances_skipOne (r : Reader w) : r.Advances r.skipOne := by
  unfold skipOne skipBody32
  dsimp only
  repeat' apply advances_ite
  all_goals first
    | exact r.advances_none
    | exact r.advances_some _ (by decide)
    | exact r.advances_skipBody _ _

/-- The count after one object: `n` are added and one is taken off, in `size_t`. -/
def owedAfter (w : SizeT) (owed n : Nat) : Nat :=
  w.wrap (w.wrap (owed + n) + 2 ^ w.bits - 1)

/-- With nothing added, the count goes down. -/
theorem owedAfter_lt {owed : Nat} (h : owed ≠ 0) : owedAfter w owed 0 < owed := by
  have hpos := Nat.two_pow_pos w.bits
  unfold owedAfter SizeT.wrap
  generalize 2 ^ w.bits = m at hpos
  by_cases hlt : owed < m
  · rw [Nat.add_zero, Nat.mod_eq_of_lt hlt]
    have hwrap : owed + m - 1 = (owed - 1) + m := by omega
    rw [hwrap, Nat.add_mod_right, Nat.mod_eq_of_lt (by omega)]
    omega
  · have := Nat.mod_lt ((owed + 0) % m + m - 1) hpos
    omega

/-- The loop of `skip`, with `owed` objects still to be skipped. -/
def skipLoop (saved : Nat) (r : Reader w) (owed : Nat) : Reader w :=
  if _howed : owed = 0 then r
  else
    match _hone : r.skipOne with
    | none => r.fail saved
    | some (r', n) => skipLoop saved r' (owedAfter w owed n)
termination_by (r.remaining, owed)
decreasing_by
  obtain ⟨hbuf, hle, hadd⟩ := r.advances_skipOne _ _ _hone
  have hleft : r.remaining ≠ 0 := by
    intro hzero
    simp [skipOne, hzero] at _hone
  unfold remaining at *
  rw [hbuf]
  by_cases hmove : r.pos < r'.pos
  · exact Prod.Lex.left _ _ (by omega)
  · obtain rfl : n = 0 := by omega
    rw [show r'.pos = r.pos by omega]
    exact Prod.Lex.right _ (owedAfter_lt _howed)

/-- `skip`. -/
def skip (r : Reader w) : Reader w :=
  if r.error then r else skipLoop r.pos r 1

end Reader

/-! ### Room for what is announced -/

/-- A `reserve(n)` of a decoder: the elements it asks room for, and the bytes that are then
undecoded. -/
structure Reservation where
  count : Nat
  left : Nat
deriving DecidableEq, Repr

end SerialRpc
