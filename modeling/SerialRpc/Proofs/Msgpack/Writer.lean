import SerialRpc.Lib.MsgPack
import SerialRpc.Lib.Buffer
import SerialRpc.Msgpack.Writer

/-!
# `SerialRpc.Proofs.Msgpack.Writer`: what the writer leaves in its buffer

Every `pack` function writes a fixed string of bytes, its `encoding`: the smallest header
of an object and its body (`pack_eq`). What becomes of them is the same for all:
`putBytes` keeps as many as fit and sets the flag when some do not (`Writer.Holds`).

`packAll_holds` puts the two together for every sequence of calls on a fresh writer.
-/

set_option autoImplicit false

namespace SerialRpc

open MsgPack BigEndian

/-! ### Encodings -/

namespace PackOp

/-- The header a call writes. -/
def token : PackOp → Token
  | nil => .nil
  | bool v => .bool v
  | int v => .int v.toInt
  | uint v => .int v.toNat
  | float bits => .float32 bits.toNat
  | double bits => .float64 bits.toNat
  | str s => .str s.length
  | bin bytes => .bin bytes.length
  | array n => .array n
  | map n => .map n

/-- The body a call writes behind the header. -/
def body : PackOp → List UInt8
  | str s => s
  | bin bytes => bytes
  | _ => []

/-- The bytes a call writes. -/
def encoding (op : PackOp) : List UInt8 := shortest op.token ++ op.body

/-- The bytes of a sequence of calls. -/
def encodings (ops : List PackOp) : List UInt8 := ops.flatMap encoding

/-- Every call writes something. -/
theorem encoding_pos (op : PackOp) : 0 < op.encoding.length := by
  have hheader : 0 < (shortest op.token).length := shortest_pos (by cases op <;> rintro len ⟨⟩)
  rw [encoding, List.length_append]
  omega

/-- Every operation packs at least one byte. -/
theorem length_le_encodings (ops : List PackOp) : ops.length ≤ (encodings ops).length := by
  induction ops with
  | nil => exact Nat.le_refl 0
  | cons op ops ih =>
      have hop := op.encoding_pos
      rw [encodings, List.flatMap_cons, List.length_append, List.length_cons, ← encodings]
      omega

end PackOp

namespace Writer

variable (w : Writer)

/-- Putting no bytes changes nothing. -/
@[simp] theorem putBytes_nil : w.putBytes [] = w := rfl

/-- A byte is put as a list of one. -/
theorem putByte_eq (b : UInt8) : w.putByte b = w.putBytes [b] := rfl

/-- Two lists are put as one, and an overflow in between is an overflow of the whole. -/
theorem putBytes_putBytes (as bs : List UInt8) :
    (w.putBytes as).putBytes bs = w.putBytes (as ++ bs) := by
  simp [putBytes]

/-- A byte and then a list. -/
theorem putByte_putBytes (b : UInt8) (bs : List UInt8) :
    (w.putByte b).putBytes bs = w.putBytes (b :: bs) := rfl

/-- `put_u16_` puts two bytes, the most significant first. -/
theorem putU16_eq (v : UInt16) : w.putU16 v = w.putBytes (toBytes 2 v.toNat) := by
  rw [← bytes_word16]
  rfl

/-- `put_u32_` puts four of them. -/
theorem putU32_eq (v : UInt32) : w.putU32 v = w.putBytes (toBytes 4 v.toNat) := by
  rw [← bytes_word32]
  rfl

/-- `put_u64_` puts eight of them. -/
theorem putU64_eq (v : UInt64) : w.putU64 v = w.putBytes (toBytes 8 v.toNat) := by
  rw [putU64, putU32_eq, putU32_eq, putBytes_putBytes, bytes_word64]

/-- One byte of a number. -/
theorem toBytes_one (n : Nat) : toBytes 1 n = [UInt8.ofNat n] := by
  simp [toBytes]

/-- A number below the width of its bytes may be cut to the width first. -/
theorem toBytes_mod (k n : Nat) : toBytes k (n % 256 ^ k) = toBytes k n := by
  conv_rhs => rw [← Nat.mod_add_div n (256 ^ k), Nat.mul_comm, toBytes_add_mul]

/-- An unsigned integer is packed in its shortest form. -/
theorem packUint_eq (v : UInt64) : w.packUint v = w.putBytes (shortestNat v.toNat) := by
  -- Each bound of the source is one below a bound on the number.
  have hle : ∀ c : UInt64, v ≤ c ↔ v.toNat < c.toNat + 1 := by
    intro c
    rw [UInt64.le_iff_toNat_le]
    omega
  unfold packUint shortestNat
  simp only [hle]
  have h7f : kPositiveFixintMax.toUInt64.toNat + 1 = 0x80 := by decide
  have hff : (0xff : UInt64).toNat + 1 = 256 := by decide
  have hffff : (0xffff : UInt64).toNat + 1 = 65536 := by decide
  have hffffffff : (0xffffffff : UInt64).toNat + 1 = 4294967296 := by decide
  rw [h7f, hff, hffff, hffffffff]
  have hbyte : v.toUInt8 = UInt8.ofNat v.toNat := rfl
  -- The branches of `pack_uint_`, shortest first.
  split
  · rw [putByte_eq, hbyte]
  · split
    · rw [putByte_eq (w.putByte _), putByte_putBytes, toBytes_one, hbyte]
    · split
      · rw [putU16_eq, putByte_putBytes, UInt64.toNat_toUInt16, show 2 ^ 16 = 256 ^ 2 by norm_num,
          toBytes_mod]
      · split
        · rw [putU32_eq, putByte_putBytes, UInt64.toNat_toUInt32, show 2 ^ 32 = 256 ^ 4 by norm_num,
            toBytes_mod]
        · rw [putU64_eq, putByte_putBytes]

/-- The bits of a negative number. -/
theorem toUInt64_toNat_of_neg {v : Int64} (h : v.toInt < 0) :
    v.toUInt64.toNat = (v.toInt + 256 ^ 8).toNat := by
  have hbits := twosComplement_toUInt64 v
  have hlt := v.toUInt64.toNat_lt
  unfold twosComplement at hbits
  split at hbits <;> omega

/-- The last bytes of a negative number are those of its own width. -/
theorem toBytes_negative {v : Int64} (h : v.toInt < 0) {k : Nat} (hk : k ≤ 8)
    (hlow : -(256 ^ k : Nat) ≤ v.toInt) :
    toBytes k v.toUInt64.toNat = toBytes k (v.toInt + 256 ^ k).toNat := by
  have hcast : ((256 ^ k : Nat) : Int) = 256 ^ k := by push_cast; rfl
  obtain ⟨c, hc⟩ : 256 ^ k ∣ 256 ^ 8 := Nat.pow_dvd_pow 256 hk
  obtain ⟨d, rfl⟩ : ∃ d, c = d + 1 := by
    cases c with
    | zero => simp at hc
    | succ d => exact ⟨d, rfl⟩
  have hall : ((256 : Int) ^ 8) = (256 ^ k : Nat) + (d * 256 ^ k : Nat) := by
    have hnat : 256 ^ 8 = 256 ^ k + d * 256 ^ k := by
      rw [hc]
      ring
    exact_mod_cast hnat
  have hsplit : (v.toInt + 256 ^ 8).toNat = (v.toInt + 256 ^ k).toNat + d * 256 ^ k := by
    rw [hall, ← hcast]
    generalize d * 256 ^ k = rest
    generalize 256 ^ k = m at hlow
    omega
  rw [toUInt64_toNat_of_neg h, hsplit, toBytes_add_mul]

/-- So is a signed one. -/
theorem packInt_eq (v : Int64) : w.packInt v = w.putBytes (shortestInt v.toInt) := by
  have hle : ∀ c : Int64, c ≤ v ↔ c.toInt ≤ v.toInt := fun c => Int64.le_iff_toInt_le
  unfold packInt shortestInt
  simp only [hle]
  have h0 : (0 : Int64).toInt = 0 := by decide
  have h32 : (-32 : Int64).toInt = -32 := by decide
  have h128 : (-128 : Int64).toInt = -128 := by decide
  have h32768 : (-32768 : Int64).toInt = -32768 := by decide
  have h2147483648 : (-2147483648 : Int64).toInt = -2147483648 := by decide
  rw [h0, h32, h128, h32768, h2147483648]
  have hbyte : v.toUInt64.toUInt8 = UInt8.ofNat v.toUInt64.toNat := rfl
  -- A non-negative integer is packed as an unsigned one. Its bits are its value.
  by_cases hpos : 0 ≤ v.toInt
  · rw [if_pos hpos, if_pos hpos, packUint_eq]
    congr 2
    have hbits := twosComplement_toUInt64 v
    have hlt := v.toUInt64.toNat_lt
    unfold twosComplement at hbits
    split at hbits <;> omega
  rw [if_neg hpos, if_neg hpos]
  -- The bounds are those of the widths, so the low bytes are the two's complement of the width.
  split
  · have hlast := toBytes_negative (v := v) (k := 1) (by omega) (by omega) (by omega)
    rw [toBytes_one, toBytes_one] at hlast
    rw [putByte_eq, hbyte, hlast]
    rfl
  · split
    · rw [putByte_eq (w.putByte _), putByte_putBytes, hbyte, ← toBytes_one,
        toBytes_negative (by omega) (by omega) (by omega)]
    · split
      · rw [putU16_eq, putByte_putBytes, UInt64.toNat_toUInt16, show 2 ^ 16 = 256 ^ 2 by norm_num,
          toBytes_mod, toBytes_negative (by omega) (by omega) (by omega)]
      · split
        · rw [putU32_eq, putByte_putBytes, UInt64.toNat_toUInt32, show 2 ^ 32 = 256 ^ 4 by norm_num,
            toBytes_mod, toBytes_negative (by omega) (by omega) (by omega)]
        · have hlow := v.le_toInt
          rw [putU64_eq, putByte_putBytes, toBytes_negative (by omega) (by omega) (by omega)]

/-- Below the width, `static_cast` keeps a length. -/
theorem putU16_ofNat (n : Nat) : w.putU16 (UInt16.ofNat n) = w.putBytes (toBytes 2 n) := by
  rw [putU16_eq, UInt16.toNat_ofNat', show 2 ^ 16 = 256 ^ 2 by norm_num, toBytes_mod]

/-- A length that was cut to 32 bits puts the bytes of the cut. -/
theorem putU32_ofNat (n : Nat) : w.putU32 (UInt32.ofNat n) = w.putBytes (toBytes 4 n) := by
  rw [putU32_eq, UInt32.toNat_ofNat', show 2 ^ 32 = 256 ^ 4 by norm_num, toBytes_mod]

/-- The header of a string: the short form below 32 bytes, else a length field. -/
theorem shortest_str (len : Nat) : shortest (.str len)
    = if len < 32 then [kFixstrPrefix ||| UInt8.ofNat len]
      else shortestBytes kStr8 kStr16 kStr32 len := rfl

/-- A string is packed as its header and its bytes. -/
theorem packStr_eq (s : List UInt8) : w.packStr s = w.putBytes (shortest (.str s.length) ++ s) := by
  rw [← putBytes_putBytes, shortest_str]
  refine congrArg (putBytes · s) ?_
  unfold shortestBytes
  split
  · rfl
  · split
    · rw [toBytes_one]
      rfl
    · split
      · rw [putU16_ofNat, putByte_putBytes]
      · rw [putU32_ofNat, putByte_putBytes]

/-- So is a bin. -/
theorem packBin_eq (bytes : List UInt8) :
    w.packBin bytes = w.putBytes (shortest (.bin bytes.length) ++ bytes) := by
  rw [← putBytes_putBytes,
    show shortest (.bin bytes.length) = shortestBytes kBin8 kBin16 kBin32 bytes.length from rfl]
  refine congrArg (putBytes · bytes) ?_
  unfold shortestBytes
  split
  · rw [toBytes_one]
    rfl
  · split
    · rw [putU16_ofNat, putByte_putBytes]
    · rw [putU32_ofNat, putByte_putBytes]

/-- An array is packed as its header. -/
theorem packArray_eq (n : Nat) : w.packArray n = w.putBytes (shortest (.array n)) := by
  rw [show shortest (.array n) = shortestCount kFixarrayPrefix kArray16 kArray32 n from rfl]
  unfold packArray shortestCount
  split
  · rfl
  · split
    · rw [putU16_ofNat, putByte_putBytes]
    · rw [putU32_ofNat, putByte_putBytes]

/-- So is a map. -/
theorem packMap_eq (n : Nat) : w.packMap n = w.putBytes (shortest (.map n)) := by
  rw [show shortest (.map n) = shortestCount kFixmapPrefix kMap16 kMap32 n from rfl]
  unfold packMap shortestCount
  split
  · rfl
  · split
    · rw [putU16_ofNat, putByte_putBytes]
    · rw [putU32_ofNat, putByte_putBytes]

/-- The encoding of a call that writes no body. -/
theorem encoding_of_body_nil {op : PackOp} (h : op.body = []) :
    op.encoding = shortest op.token := by
  rw [PackOp.encoding, h, List.append_nil]

/-- Every `pack` function writes its encoding. -/
theorem pack_eq (op : PackOp) : w.pack op = w.putBytes op.encoding := by
  -- Every operation is a header, and then the bytes of a string or a bin.
  cases op with
  | nil => rfl
  | bool v => cases v <;> rfl
  | int v =>
      rw [encoding_of_body_nil rfl]
      exact packInt_eq w v
  | uint v =>
      have hnat : shortest (.int v.toNat) = shortestNat v.toNat := by
        show shortestInt v.toNat = shortestNat v.toNat
        rw [shortestInt, if_pos (by omega), Int.toNat_natCast]
      rw [encoding_of_body_nil rfl, PackOp.token, hnat]
      exact packUint_eq w v
  | float bits =>
      rw [encoding_of_body_nil rfl, pack, packFloat, putU32_eq, putByte_putBytes]
      rfl
  | double bits =>
      rw [encoding_of_body_nil rfl, pack, packDouble, putU64_eq, putByte_putBytes]
      rfl
  | str s => exact packStr_eq w s
  | bin bytes => exact packBin_eq w bytes
  | array n =>
      rw [encoding_of_body_nil rfl]
      exact packArray_eq w n
  | map n =>
      rw [encoding_of_body_nil rfl]
      exact packMap_eq w n

/-- A sequence of calls writes the encodings in a row. -/
theorem packAll_eq (ops : List PackOp) : w.packAll ops = w.putBytes (PackOp.encodings ops) := by
  induction ops generalizing w with
  | nil => rfl
  | cons op ops ih =>
      rw [packAll, List.foldl_cons, pack_eq, ← packAll, ih, putBytes_putBytes]
      rfl

/-- No call changes the length of the buffer. -/
theorem packAll_buf_length (ops : List PackOp) : (w.packAll ops).buf.length = w.buf.length := by
  have hbyte (w : Writer) (b : UInt8) : (w.putByte b).buf.length = w.buf.length := by
    unfold putByte
    split <;> simp
  rw [packAll_eq]
  induction PackOp.encodings ops generalizing w with
  | nil => rfl
  | cons b bs ih => rw [← putByte_putBytes, ih, hbyte]

/-- A call without children packs one object. -/
theorem encoding_object {op : PackOp} (hvalid : op.token.Valid)
    (hbody : op.body.length = op.token.bodyBytes) (hchildren : op.token.children = 0) :
    Object op.encoding :=
  Object.of_body (spells_shortest hvalid) hbody hchildren

/-! ### What fits -/

/-- A writer over the memory `base` that was asked to write `bytes`: as many as the
capacity allows stand at the front, the rest of the memory is untouched, and the flag says
whether some were dropped. -/
structure Holds (w : Writer) (base : List UInt8) (cap : Nat) (bytes : List UInt8) : Prop where
  cap_eq : w.cap = cap
  size_eq : w.size = min bytes.length cap
  buf_eq : w.buf = Buffer.overwrite base (bytes.take cap)
  overflow_eq : w.overflow = decide (cap < bytes.length)

/-- A new writer holds nothing. -/
theorem holds_new (base : List UInt8) (cap : Nat) : (Writer.new base cap).Holds base cap [] where
  cap_eq := rfl
  size_eq := by simp [Writer.new]
  buf_eq := by simp [Writer.new]
  overflow_eq := by simp [Writer.new]

/-- One byte. -/
theorem Holds.putByte {w : Writer} {base bytes : List UInt8} {cap : Nat}
    (h : w.Holds base cap bytes) (hcap : cap ≤ base.length) (b : UInt8) :
    (w.putByte b).Holds base cap (bytes ++ [b]) := by
  have hsize := h.size_eq
  have hbuf := h.buf_eq
  unfold Writer.putByte
  rw [h.cap_eq]
  by_cases hroom : w.size < cap
  · rw [if_pos hroom]
    have hshort : bytes.length < cap := by omega
    have hlen : w.size = bytes.length := by omega
    exact {
      cap_eq := rfl
      size_eq := by simp only [List.length_append, List.length_singleton]; omega
      buf_eq := by
        rw [List.take_of_length_le (by omega)] at hbuf
        rw [List.take_of_length_le (by simp; omega)]
        simp only [hbuf, hlen]
        exact Buffer.overwrite_set b (by omega)
      overflow_eq := by
        rw [h.overflow_eq]
        simp only [List.length_append, List.length_singleton, decide_eq_decide]
        omega }
  · -- The byte is dropped, and the size stays. From now on the flag says so.
    rw [if_neg hroom]
    have hfull : cap ≤ bytes.length := by omega
    exact {
      cap_eq := rfl
      size_eq := by simp only [List.length_append, List.length_singleton]; omega
      buf_eq := by rw [List.take_append_of_le_length hfull]; exact hbuf
      overflow_eq := by
        simp only [List.length_append, List.length_singleton]
        exact (decide_eq_true (by omega)).symm }

/-- A string of bytes, one by one. -/
theorem Holds.putBytes {w : Writer} {base bytes : List UInt8} {cap : Nat}
    (h : w.Holds base cap bytes) (hcap : cap ≤ base.length) (more : List UInt8) :
    (w.putBytes more).Holds base cap (bytes ++ more) := by
  induction more generalizing w bytes with
  | nil => simpa using h
  | cons b more ih => simpa [Writer.putBytes] using ih (h.putByte hcap b)

/-- A sequence of calls on a fresh writer. -/
theorem packAll_holds (base : List UInt8) (cap : Nat) (hcap : cap ≤ base.length)
    (ops : List PackOp) :
    ((Writer.new base cap).packAll ops).Holds base cap (PackOp.encodings ops) := by
  have h := (holds_new base cap).putBytes hcap (PackOp.encodings ops)
  rwa [← packAll_eq, List.nil_append] at h

/-- What a writer holds says all about it. -/
theorem Holds.eq {w : Writer} {base bytes : List UInt8} {cap : Nat} (h : w.Holds base cap bytes) :
    w = {
      buf := Buffer.overwrite base (bytes.take cap)
      cap := cap
      size := min bytes.length cap
      overflow := decide (cap < bytes.length) } := by
  cases w
  simpa using ⟨h.buf_eq, h.cap_eq, h.size_eq, h.overflow_eq⟩

/-- Memory behind the buffer is no concern of a writer. -/
theorem packAll_beyond {buf : List UInt8} {cap : Nat} (hcap : cap ≤ buf.length)
    (ops : List PackOp) (beyond : List UInt8) :
    (Writer.new (buf ++ beyond) cap).packAll ops
      = { (Writer.new buf cap).packAll ops with
          buf := ((Writer.new buf cap).packAll ops).buf ++ beyond } := by
  have hlonger : cap ≤ (buf ++ beyond).length := by
    rw [List.length_append]
    omega
  have hfit := (List.length_take_le cap (PackOp.encodings ops)).trans hcap
  rw [(packAll_holds (buf ++ beyond) cap hlonger ops).eq, (packAll_holds buf cap hcap ops).eq,
    Buffer.overwrite_append hfit]

/-- What was written, as `data()` and `size()` show it. -/
theorem Holds.data_eq {w : Writer} {base bytes : List UInt8} {cap : Nat}
    (h : w.Holds base cap bytes) : w.data = bytes.take cap := by
  have htake := Buffer.overwrite_take base (bytes.take cap)
  rw [List.length_take, Nat.min_comm] at htake
  rw [Writer.data, h.buf_eq, h.size_eq, htake]

/-- Without overflow everything was written. -/
theorem Holds.data_of_fits {w : Writer} {base bytes : List UInt8} {cap : Nat}
    (h : w.Holds base cap bytes) (hfit : w.overflow = false) :
    w.data = bytes ∧ bytes.length ≤ cap := by
  have hle : bytes.length ≤ cap := by
    have := h.overflow_eq
    rw [hfit, eq_comm, decide_eq_false_iff_not] at this
    omega
  rw [h.data_eq, List.take_of_length_le hle]
  exact ⟨rfl, hle⟩

/-! ### Resets -/

/-- A `reset` starts over on the memory as it is. -/
theorem Holds.reset {w : Writer} {base bytes : List UInt8} {cap : Nat}
    (h : w.Holds base cap bytes) : w.reset.Holds w.buf cap [] where
  cap_eq := h.cap_eq
  size_eq := by simp [Writer.reset]
  buf_eq := by simp [Writer.reset]
  overflow_eq := by simp [Writer.reset]

/-- Nothing behind the capacity changes. -/
theorem Holds.untouched {w : Writer} {base bytes : List UInt8} {cap : Nat}
    (h : w.Holds base cap bytes) : w.buf.drop cap = base.drop cap := by
  rw [h.buf_eq]
  exact Buffer.overwrite_drop (List.length_take_le cap bytes)

/-- The buffer keeps its length. -/
theorem Holds.buf_length {w : Writer} {base bytes : List UInt8} {cap : Nat}
    (h : w.Holds base cap bytes) (hcap : cap ≤ base.length) : w.buf.length = base.length := by
  rw [h.buf_eq]
  exact Buffer.overwrite_length ((List.length_take_le cap bytes).trans hcap)

/-- The last call comes last. -/
theorem callAll_concat (w : Writer) (calls : List WriterCall) (call : WriterCall) :
    w.callAll (calls ++ [call]) = (w.callAll calls).call call := by
  rw [callAll, List.foldl_append]
  rfl

/-- A pack is one more since the last reset. -/
theorem packsSinceReset_pack (calls : List WriterCall) (op : PackOp) :
    packsSinceReset (calls ++ [.pack op]) = packsSinceReset calls ++ [op] := by
  simp [packsSinceReset]

/-- Behind a reset there is none yet. -/
theorem packsSinceReset_reset (calls : List WriterCall) :
    packsSinceReset (calls ++ [.reset]) = [] := by
  simp [packsSinceReset]

/-- Any calls on a fresh writer: the calls since the last `reset` went over some memory that
agrees with the caller's from the capacity on. Induction on the calls, from the last one. -/
theorem callAll_holds (base : List UInt8) (cap : Nat) (hcap : cap ≤ base.length)
    (calls : List WriterCall) :
    ∃ memory, memory.length = base.length ∧ memory.drop cap = base.drop cap ∧
      ((Writer.new base cap).callAll calls).Holds memory cap
        (PackOp.encodings (packsSinceReset calls)) := by
  induction calls using List.reverseRecOn with
  | nil => exact ⟨base, rfl, rfl, holds_new base cap⟩
  | append_singleton calls call ih =>
      obtain ⟨memory, hlength, hbeyond, hholds⟩ := ih
      have hroom : cap ≤ memory.length := by omega
      rw [callAll_concat]
      cases call with
      | pack op =>
          refine ⟨memory, hlength, hbeyond, ?_⟩
          have hmore := hholds.putBytes hroom op.encoding
          rw [packsSinceReset_pack, PackOp.encodings, List.flatMap_append, List.flatMap_singleton]
          rw [← pack_eq] at hmore
          exact hmore
      | reset =>
          -- The memory the next calls find is what the earlier ones left.
          refine ⟨_, (hholds.buf_length hroom).trans hlength, hholds.untouched.trans hbeyond, ?_⟩
          rw [packsSinceReset_reset]
          exact hholds.reset

/-- **A bounded writer is a prefix of the unbounded one.** Whatever was called, `size()` and the
written bytes are those of the encodings since the construction or the last `reset`, cut at the
capacity. No byte from the capacity on is written, and `overflow()` says whether any encoding
was cut. -/
theorem bounded_prefix (base : List UInt8) (cap : Nat) (hcap : cap ≤ base.length)
    (calls : List WriterCall) :
    let w := (Writer.new base cap).callAll calls
    let total := PackOp.encodings (packsSinceReset calls)
    w.size = min cap total.length ∧ w.data = total.take cap ∧
      w.buf.drop cap = base.drop cap ∧ w.buf.length = base.length ∧
      (w.overflow = true ↔ cap < total.length) := by
  intro w total
  obtain ⟨memory, hlength, hbeyond, hholds⟩ := callAll_holds base cap hcap calls
  have hroom : cap ≤ memory.length := by omega
  refine ⟨?_, hholds.data_eq, hholds.untouched.trans hbeyond,
    (hholds.buf_length hroom).trans hlength, ?_⟩
  · rw [Nat.min_comm]
    exact hholds.size_eq
  · rw [hholds.overflow_eq, decide_eq_true_eq]

/-- A string that is cut in its body, behind a `reset`, in a buffer larger than the capacity. -/
theorem bounded_prefix_cut :
    let w := (Writer.new [0, 0, 0, 9] 3).callAll
      [.pack (.bool true), .reset, .pack (.str [0x61, 0x62, 0x63])]
    3 ≤ [0, 0, 0, (9 : UInt8)].length ∧ w.data = [0xa3, 0x61, 0x62] ∧ w.buf.drop 3 = [9] ∧
      w.overflow = true := by
  obtain ⟨-, hdata, hbeyond, -, hoverflow⟩ := bounded_prefix [0, 0, 0, 9] 3 (by decide)
    [.pack (.bool true), .reset, .pack (.str [0x61, 0x62, 0x63])]
  exact ⟨by decide, hdata.trans (by decide), hbeyond, hoverflow.mpr (by decide)⟩

end Writer

end SerialRpc
