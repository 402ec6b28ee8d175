import SerialRpc.Lib.MsgPack
import SerialRpc.Msgpack.Reader

/-!
# `SerialRpc.Proofs.Msgpack.Reader`: each read is one atomic step of a list parser

A read looks at the bytes from the cursor on (`rest`), and at nothing else. `answerOf` is
the shape all reads have: a parser of these bytes either gives a value and a length, and
the cursor moves by the length, or it gives nothing, and only the error flag changes.

The spec lemmas `readNil_eq`, `readBool_eq`, … give the parser of each read in terms of
`MsgPack.token`. None of them mentions the error flag, since no read looks at it.
-/

set_option autoImplicit false

namespace SerialRpc

open MsgPack

namespace Reader

variable {w : SizeT} {α β : Type}

/-- The bytes from the cursor on. -/
def rest (r : Reader w) : List UInt8 := r.buf.drop r.pos

/-- The error flag set, nothing else changed. -/
def flagged (r : Reader w) : Reader w := { r with error := true }

/-- One atomic read of what `parse` finds at the cursor. -/
def answerOf (r : Reader w) (parse : List UInt8 → Option (α × Nat)) : Reader w × Option α :=
  match parse r.rest with
  | some (x, k) => (r.advance k, some x)
  | none => (r.flagged, none)

/-- Failing where the reader stands only sets the flag. -/
@[simp] theorem flagged_fail (r : Reader w) : r.flagged.fail r.pos = r.flagged := rfl

/-- Failing after an advance goes back to where it began. -/
@[simp] theorem advance_fail (r : Reader w) (k : Nat) : (r.advance k).fail r.pos = r.flagged := rfl

/-- So it does when the flag is set already. -/
@[simp] theorem advance_flagged_fail (r : Reader w) (k : Nat) :
    (r.advance k).flagged.fail r.pos = r.flagged := rfl

/-- Failing at the position of the cursor leaves it there. -/
@[simp] theorem fail_pos (r : Reader w) : r.fail r.pos = r.flagged := rfl

/-- Two advances are one by their sum. -/
@[simp] theorem advance_advance (r : Reader w) (m n : Nat) :
    (r.advance m).advance n = r.advance (m + n) := by
  simp [advance, Nat.add_assoc]

/-- An advance drops bytes of the rest. -/
theorem rest_advance (r : Reader w) (k : Nat) : (r.advance k).rest = r.rest.drop k := by
  simp [rest, advance]

/-- What remains is the length of the rest. -/
theorem remaining_eq (r : Reader w) : r.remaining = r.rest.length := by
  simp [remaining, rest]

/-- A byte behind the cursor is one of the rest. -/
theorem byteAt_add (r : Reader w) (i : Nat) : r.byteAt (r.pos + i) = r.rest.getD i 0 := by
  simp [byteAt, rest, List.getD_eq_getElem?_getD]

/-- The byte at the cursor is the first of the rest. -/
theorem byteAt_pos {r : Reader w} {b : UInt8} {bs : List UInt8} (h : r.rest = b :: bs) :
    r.byteAt r.pos = b := by
  have := r.byteAt_add 0
  rw [h] at this
  exact this

/-! ### Numbers -/

/-- What a read of a big-endian number of `k` bytes answers. A read of eight bytes that
fails may have moved on by four. The callers go back. -/
def Gets (r : Reader w) (k : Nat) (f : Nat → α) (answer : Reader w × Option α) : Prop :=
  (∃ n, number k r.rest = some n ∧ answer = (r.advance k, some (f n))) ∨
    number k r.rest = none ∧ ∃ j, answer = ((r.advance j).flagged, none)

/-- At the end there is no byte, and the flag is set. -/
theorem getByte_nil {r : Reader w} (h : r.rest = []) : r.getByte = (r.flagged, none) := by
  rw [getByte, remaining_eq, h, List.length_nil, if_pos rfl]
  rfl

/-- Else the byte is read and the cursor moves. -/
theorem getByte_cons {r : Reader w} {b : UInt8} {bs : List UInt8} (h : r.rest = b :: bs) :
    r.getByte = (r.advance 1, some b) := by
  rw [getByte, remaining_eq, h, if_neg (by simp), byteAt_pos h]

/-- `get_byte_` gets one byte. -/
theorem getByte_gets (r : Reader w) : r.Gets 1 UInt8.ofNat r.getByte := by
  cases h : r.rest with
  | nil => exact Or.inr ⟨by rw [h]; rfl, 0, getByte_nil h⟩
  | cons b bs =>
      refine Or.inl ⟨b.toNat, ?_, ?_⟩
      · simp [h, number, BigEndian.ofBytes]
      · rw [getByte_cons h, UInt8.ofNat_toNat]

/-- The first `k` bytes of a rest that has so many. -/
theorem getBytes_eq (r : Reader w) (k : Nat) :
    r.getBytes k
      = if k ≤ r.rest.length then (r.advance k, some (r.rest.take k)) else (r.flagged, none) := by
  rw [getBytes, remaining_eq]
  by_cases h : r.rest.length < k
  · rw [if_pos h, if_neg (by omega)]
    rfl
  · rw [if_neg h, if_pos (by omega)]
    rfl

/-- `get_u16_` gets two bytes, the most significant first. -/
theorem getU16_gets (r : Reader w) : r.Gets 2 UInt16.ofNat r.getU16 := by
  rw [Gets, getU16, getBytes_eq, number]
  by_cases h : 2 ≤ r.rest.length
  · simp only [if_pos h]
    -- The two bytes by name, so that the shifts of the source can be compared with `toNat_word16`.
    obtain ⟨b₀, b₁, hbs⟩ := List.length_eq_two.mp (List.length_take_of_le h)
    have hword := BigEndian.toNat_word16 b₀ b₁
    refine Or.inl ⟨_, rfl, ?_⟩
    simp only [hbs, List.getD_cons_zero, List.getD_cons_succ, ← hword, UInt16.ofNat_toNat]
  · simp only [if_neg h]
    exact Or.inr ⟨trivial, 0, rfl⟩

/-- `get_u32_` gets four of them. -/
theorem getU32_gets (r : Reader w) : r.Gets 4 UInt32.ofNat r.getU32 := by
  rw [Gets, getU32, getBytes_eq, number]
  by_cases h : 4 ≤ r.rest.length
  · simp only [if_pos h]
    obtain ⟨b₀, b₁, b₂, b₃, hbs⟩ := List.length_eq_four.mp (List.length_take_of_le h)
    have hword := BigEndian.toNat_word32 b₀ b₁ b₂ b₃
    refine Or.inl ⟨_, rfl, ?_⟩
    simp only [hbs, List.getD_cons_zero, List.getD_cons_succ, ← hword, UInt32.ofNat_toNat]
  · simp only [if_neg h]
    exact Or.inr ⟨trivial, 0, rfl⟩

/-- A number of eight bytes is two of four. -/
theorem number_eight (bs : List UInt8) :
    number 8 bs = (number 4 bs).bind fun hi =>
      (number 4 (bs.drop 4)).map fun lo => hi * 2 ^ 32 + lo := by
  -- With fewer than eight bytes either half is missing, and which one decides the cursor.
  by_cases h : 8 ≤ bs.length
  · have hsplit : bs.take 8 = bs.take 4 ++ (bs.drop 4).take 4 := by
      rw [← List.take_add]
    have hlo : ((bs.drop 4).take 4).length = 4 := by
      simp only [List.length_take, List.length_drop]
      omega
    simp only [number, if_pos h, if_pos (show 4 ≤ bs.length by omega),
      if_pos (show 4 ≤ (bs.drop 4).length by rw [List.length_drop]; omega), hsplit,
      Option.bind_some, Option.map_some, Option.some.injEq]
    rw [BigEndian.ofBytes, List.foldl_append, BigEndian.foldl_acc, hlo]
    rfl
  · by_cases h4 : 4 ≤ bs.length
    · simp only [number, if_neg h, if_pos h4, List.length_drop,
        if_neg (show ¬ 4 ≤ bs.length - 4 by omega), Option.bind_some, Option.map_none]
    · simp only [number, if_neg h, if_neg h4, Option.bind_none]

/-- `get_u64_` gets eight of them. -/
theorem getU64_gets (r : Reader w) : r.Gets 8 UInt64.ofNat r.getU64 := by
  rw [Gets, number_eight, getU64]
  obtain ⟨hi, hhi, hget⟩ | ⟨hnone, j, hget⟩ := r.getU32_gets
  · rw [hget, hhi]
    simp only [Option.bind_some]
    obtain ⟨lo, hlo, hget'⟩ | ⟨hnone, j, hget'⟩ := (r.advance 4).getU32_gets
    · rw [rest_advance] at hlo
      have hhiLt := number_lt hhi
      have hloLt := number_lt hlo
      rw [hget', hlo]
      refine Or.inl ⟨_, rfl, ?_⟩
      simp only [advance_advance, Prod.mk.injEq, Option.some.injEq, true_and]
      apply UInt64.toNat_inj.mp
      rw [BigEndian.toNat_word64, UInt32.toNat_ofNat', UInt32.toNat_ofNat', UInt64.toNat_ofNat',
        Nat.mod_eq_of_lt (by omega : hi < 2 ^ 32), Nat.mod_eq_of_lt (by omega : lo < 2 ^ 32),
        Nat.mod_eq_of_lt (by omega : hi * 2 ^ 32 + lo < 2 ^ 64)]
    · -- The upper half was read and the lower one is missing: the cursor has moved by four.
      rw [rest_advance] at hnone
      rw [hget', hnone]
      exact Or.inr ⟨rfl, 4 + j, by rw [advance_advance]⟩
  · rw [hget, hnone]
    exact Or.inr ⟨rfl, j, rfl⟩

/-- A read with its output parameter: the value and the moved cursor, or the error flag. -/
theorem store_answerOf (r : Reader w) (parse : List UInt8 → Option (α × Nat))
    (out : α) :
    store out (r.answerOf parse)
      = match parse r.rest with
        | some (x, k) => (r.advance k, x)
        | none => (r.flagged, out) := by
  unfold store answerOf
  cases parse r.rest <;> rfl

/-! ### Headers -/

/-- A parser that takes a header `f` accepts. -/
def header (f : Token → Option α) (bs : List UInt8) : Option (α × Nat) :=
  (token bs).bind fun h => (f h.1).map fun x => (x, h.2)

/-- There is no header at the end. -/
theorem header_nil (f : Token → Option α) : header f [] = none := rfl

/-- A header that says all in its format byte. -/
theorem header_value (f : Token → Option α) {b : UInt8} {t : Token} (h : lead b = .value t)
    (bs : List UInt8) : header f (b :: bs) = (f t).map fun x => (x, 1) := by
  rw [header, token_value h, Option.bind_some]

/-- A header with a number. -/
theorem header_sized (f : Token → Option α) {b : UInt8} {family : Family} {width : Nat}
    (h : lead b = .sized family width) (bs : List UInt8) :
    header f (b :: bs)
      = (number width bs).bind fun n => (f (family.token width n)).map fun x => (x, 1 + width) := by
  rw [header, token_sized h]
  cases number width bs <;> rfl

/-- A header is read alike whatever follows it. -/
theorem header_append {f : Token → Option α} {bs : List UInt8} {p : α × Nat}
    (h : header f bs = some p) (more : List UInt8) : header f (bs ++ more) = some p := by
  unfold header at *
  obtain ⟨⟨t, k⟩, htoken, hp⟩ := Option.bind_eq_some_iff.mp h
  rw [token_append htoken]
  exact hp

/-- A header lies within the bytes. -/
theorem header_length {f : Token → Option α} {bs : List UInt8} {p : α × Nat}
    (h : header f bs = some p) : 1 ≤ p.2 ∧ p.2 ≤ bs.length := by
  unfold header at h
  obtain ⟨⟨t, k⟩, htoken, hp⟩ := Option.bind_eq_some_iff.mp h
  obtain ⟨x, -, rfl⟩ := Option.map_eq_some_iff.mp hp
  exact token_length htoken

/-- A parser takes the header that stands at the front. -/
theorem header_of_spells {f : Token → Option α} {t : Token} {x : α} {head : List UInt8}
    (h : Spells t head) (hf : f t = some x) (more : List UInt8) :
    header f (head ++ more) = some (x, head.length) := by
  rw [header, token_append h, Option.bind_some, hf, Option.map_some]

/-- What a parser takes is a header at the front. -/
theorem spells_of_header {f : Token → Option α} {bs : List UInt8} {x : α} {k : Nat}
    (h : header f bs = some (x, k)) : ∃ t, f t = some x ∧ Spells t (bs.take k) := by
  obtain ⟨⟨t, j⟩, htoken, hp⟩ := Option.bind_eq_some_iff.mp h
  obtain ⟨y, hf, hy⟩ := Option.map_eq_some_iff.mp hp
  cases hy
  exact ⟨t, hf, token_take htoken⟩

/-- A header of another kind. -/
theorem header_none (f : Token → Option α) (kind : Kind) (hf : ∀ t, t.kind ≠ kind → f t = none)
    {b : UInt8} (hb : (lead b).kind ≠ some kind) (bs : List UInt8) : header f (b :: bs) = none := by
  rw [header]
  cases h : token (b :: bs) with
  | none => rfl
  | some p =>
      -- The kind of a header is the kind of its format byte.
      have hkind : p.1.kind ≠ kind := by
        rintro rfl
        exact hb (token_kind h)
      rw [Option.bind_some, hf p.1 hkind, Option.map_none]

/-! ### The format bytes -/

/-- The format bytes the reads of each kind look for. No read looks for an extension. -/
def Formats : Kind → UInt8 → Prop
  | .nil, b => b = kNil
  | .bool, b => b = kTrue ∨ b = kFalse
  | .int, b =>
      b ≤ kPositiveFixintMax ∨ kNegativeFixintMin ≤ b ∨ b = kUint8 ∨ b = kUint16 ∨ b = kUint32 ∨
        b = kUint64 ∨ b = kInt8 ∨ b = kInt16 ∨ b = kInt32 ∨ b = kInt64
  | .float, b => b = kFloat32 ∨ b = kFloat64
  | .str, b => b &&& 0xe0 = kFixstrPrefix ∨ b = kStr8 ∨ b = kStr16 ∨ b = kStr32
  | .bin, b => b = kBin8 ∨ b = kBin16 ∨ b = kBin32
  | .array, b => b &&& 0xf0 = kFixarrayPrefix ∨ b = kArray16 ∨ b = kArray32
  | .map, b => b &&& 0xf0 = kFixmapPrefix ∨ b = kMap16 ∨ b = kMap32
  | .ext, _ => True

instance decidableFormats : ∀ (k : Kind) (b : UInt8), Decidable (Formats k b)
  | .nil, b => inferInstanceAs (Decidable (b = kNil))
  | .bool, b => inferInstanceAs (Decidable (b = kTrue ∨ b = kFalse))
  | .int, b => inferInstanceAs (Decidable
      (b ≤ kPositiveFixintMax ∨ kNegativeFixintMin ≤ b ∨ b = kUint8 ∨ b = kUint16 ∨ b = kUint32 ∨
        b = kUint64 ∨ b = kInt8 ∨ b = kInt16 ∨ b = kInt32 ∨ b = kInt64))
  | .float, b => inferInstanceAs (Decidable (b = kFloat32 ∨ b = kFloat64))
  | .str, b => inferInstanceAs (Decidable
      (b &&& 0xe0 = kFixstrPrefix ∨ b = kStr8 ∨ b = kStr16 ∨ b = kStr32))
  | .bin, b => inferInstanceAs (Decidable (b = kBin8 ∨ b = kBin16 ∨ b = kBin32))
  | .array, b => inferInstanceAs (Decidable
      (b &&& 0xf0 = kFixarrayPrefix ∨ b = kArray16 ∨ b = kArray32))
  | .map, b => inferInstanceAs (Decidable (b &&& 0xf0 = kFixmapPrefix ∨ b = kMap16 ∨ b = kMap32))
  | .ext, _ => inferInstanceAs (Decidable True)

/-- A byte of a kind is one the reads of the kind look for. -/
theorem formats_of_kind : ∀ b : UInt8, ∀ k ∈ (lead b).kind, Formats k b :=
  forall_byte (by decide +kernel)

/-- An integer as `read_raw_magnitude_` gives it. -/
def signMagnitude (v : Int) : UInt64 × Bool := (UInt64.ofNat v.natAbs, decide (v < 0))

/-- The two one-byte integers. -/
theorem lead_fixint : ∀ b : UInt8,
    (b ≤ kPositiveFixintMax →
      lead b = .value (.int b.toNat) ∧ (b.toUInt64, false) = signMagnitude b.toNat) ∧
    (kNegativeFixintMin ≤ b →
      lead b = .value (.int (b.toNat - 256)) ∧
        ((-b.toInt8.toInt64).toUInt64, true) = signMagnitude (b.toNat - 256)) :=
  forall_byte (by decide +kernel)

/-- The format bytes that carry a length. -/
theorem lead_fixlength : ∀ b : UInt8,
    (b &&& 0xe0 = kFixstrPrefix →
      lead b = .value (.str (b &&& 0x1f).toNat) ∧ (b &&& 0x1f).toNat < 2 ^ 16) ∧
    (b &&& 0xf0 = kFixarrayPrefix →
      lead b = .value (.array (b &&& 0x0f).toNat) ∧ (b &&& 0x0f).toNat < 2 ^ 16) ∧
    (b &&& 0xf0 = kFixmapPrefix →
      lead b = .value (.map (b &&& 0x0f).toNat) ∧ (b &&& 0x0f).toNat < 2 ^ 16) :=
  forall_byte (by decide +kernel)

/-! ### `type` -/

/-- The type of an object of a kind. Integers are told apart by their format. -/
def typeOfKind : Kind → ReaderType
  | .nil => .nil
  | .bool => .boolean
  | .int => .int
  | .float => .float
  | .str => .str
  | .bin => .bin
  | .array => .array
  | .map => .map
  | .ext => .ext

/-- What `type` says of a format byte. -/
def typeOf (l : Lead) : ReaderType :=
  match l with
  | .value (.int v) => if 0 ≤ v then .uint else .int
  | .sized .uint _ => .uint
  | _ => (l.kind.map typeOfKind).getD .invalid

/-- What `type` says of some bytes. -/
def typeAt : List UInt8 → ReaderType
  | [] => .invalid
  | b :: _ => typeOf (lead b)

/-- The type at the end is invalid. -/
theorem type_nil {r : Reader w} (hrest : r.rest = []) : r.type = .invalid := by
  have hremaining : r.remaining = 0 := by
    rw [remaining_eq, hrest, List.length_nil]
  rw [type, if_pos (Or.inr hremaining)]

/-- The ladder of `type` follows the format table, byte by byte. -/
theorem type_ladder : ∀ b : UInt8, (Reader.new .avr [b]).type = typeOf (lead b) :=
  forall_byte (by decide +kernel)

/-- `type` looks at the format byte at the cursor. -/
theorem type_eq {r : Reader w} (herr : r.error = false) : r.type = typeAt r.rest := by
  cases hrest : r.rest with
  | nil => exact type_nil hrest
  | cons b bs =>
      have hremaining : r.remaining ≠ 0 := by
        rw [remaining_eq, hrest]
        simp
      -- The ladder was evaluated on a reader over this one byte. It looks at nothing else.
      have hladder := type_ladder b
      rw [type, if_neg (by simp [new, remaining])] at hladder
      rw [type, if_neg (by simp [herr, hremaining]), byteAt_pos hrest]
      exact hladder

/-! ### nil and bool -/

/-- `read_nil` takes a nil. -/
def asNil : Token → Option Unit
  | .nil => some ()
  | _ => none

/-- `read(bool&)` takes a bool. -/
def asBool : Token → Option Bool
  | .bool v => some v
  | _ => none

/-- `read_nil` is atomic. It has no output parameter. -/
theorem readNil_eq (r : Reader w) : r.readNil = (r.answerOf (header asNil)).1 := by
  unfold readNil answerOf
  cases hrest : r.rest with
  | nil => simp [getByte_nil hrest, header_nil]
  | cons b bs =>
      simp only [getByte_cons hrest]
      by_cases hb : b = kNil
      · rw [if_neg (not_not.mpr hb), hb,
          header_value asNil (show lead kNil = .value .nil by decide)]
        rfl
      · rw [if_pos hb, header_none asNil .nil (by intro t; cases t <;> simp [asNil, Token.kind])
          fun h => hb (formats_of_kind b _ h)]
        rfl

/-- `read(bool&)` is atomic. -/
theorem readBool_eq (r : Reader w) (out : Bool) :
    r.readBool out = store out (r.answerOf (header asBool)) := by
  refine congrArg (store out) ?_
  unfold answerOf
  cases hrest : r.rest with
  | nil => simp [getByte_nil hrest, header_nil]
  | cons b bs =>
      simp only [getByte_cons hrest]
      by_cases htrue : b = kTrue
      · rw [if_pos htrue, htrue,
          header_value asBool (show lead kTrue = .value (.bool true) by decide)]
        rfl
      by_cases hfalse : b = kFalse
      · rw [if_neg htrue, if_pos hfalse, hfalse,
          header_value asBool (show lead kFalse = .value (.bool false) by decide)]
        rfl
      · rw [if_neg htrue, if_neg hfalse,
          header_none asBool .bool (by intro t; cases t <;> simp [asBool, Token.kind])
            fun h => (formats_of_kind b _ h).elim htrue hfalse]
        rfl

/-! ### Integers -/

/-- An `int8_t` is the two's complement of its byte. -/
theorem toInt_int8 (v : UInt8) : v.toInt8.toInt64.toInt = twosComplement 1 v.toNat := by
  rw [Int8.toInt_toInt64]
  show v.toBitVec.toInt = twosComplement 1 v.toBitVec.toNat
  rw [BitVec.toInt_eq_toNat_cond, twosComplement]
  rfl

/-- An `int16_t` is that of its two bytes. -/
theorem toInt_int16 (v : UInt16) : v.toInt16.toInt64.toInt = twosComplement 2 v.toNat := by
  rw [Int16.toInt_toInt64]
  show v.toBitVec.toInt = twosComplement 2 v.toBitVec.toNat
  rw [BitVec.toInt_eq_toNat_cond, twosComplement]
  rfl

/-- An `int32_t` is that of its four bytes. -/
theorem toInt_int32 (v : UInt32) : v.toInt32.toInt64.toInt = twosComplement 4 v.toNat := by
  rw [Int32.toInt_toInt64]
  show v.toBitVec.toInt = twosComplement 4 v.toBitVec.toNat
  rw [BitVec.toInt_eq_toNat_cond, twosComplement]
  rfl

/-- The magnitude is the absolute value, that of the smallest `int64_t` included. -/
theorem magnitudeOf_eq (sv : Int64) :
    magnitudeOf sv = (UInt64.ofNat sv.toInt.natAbs, decide (sv.toInt < 0)) := by
  have hlt := sv.toUInt64.toNat_lt
  have hneg : (-sv).toUInt64.toNat = (2 ^ 64 - sv.toUInt64.toNat) % 2 ^ 64 := by
    show (-sv.toBitVec).toNat = _
    rw [BitVec.toNat_neg]
    rfl
  -- `int64_t` negation wraps at the smallest value, so both sides are compared as `uint64_t`.
  have hcond := (twosComplement_toUInt64 sv).symm
  unfold twosComplement at hcond
  unfold magnitudeOf
  simp only [Int64.lt_iff_toInt_lt, Int64.toInt_zero, Prod.mk.injEq, and_true]
  apply UInt64.toNat_inj.mp
  rw [UInt64.toNat_ofNat']
  by_cases h : sv.toInt < 0
  · simp only [h, decide_true, if_true, hneg]
    split at hcond <;> omega
  · simp only [h, decide_false, Bool.false_eq_true, if_false]
    split at hcond <;> omega

/-- The unsigned arithmetic of the 64-bit case is the same negation. -/
theorem magnitudeOf64_eq (sv : Int64) : magnitudeOf64 sv = magnitudeOf sv := by
  have hneg : ~~~sv.toUInt64 + 1 = (-sv).toUInt64 := by
    apply UInt64.toBitVec_inj.mp
    show ~~~sv.toBitVec + 1 = -sv.toBitVec
    rw [BitVec.neg_eq_not_add]
    rfl
  unfold magnitudeOf magnitudeOf64
  rw [hneg]

/-- `read_raw_magnitude_` takes an integer of either family. -/
def asMagnitude : Token → Option (UInt64 × Bool)
  | .int v => some (signMagnitude v)
  | _ => none

/-- One case of a `switch` over the format byte: a number is read and converted. -/
theorem answerOf_sized {r : Reader w} {b : UInt8} {bs : List UInt8} (hrest : r.rest = b :: bs)
    (f : Token → Option β) {family : Family} {width : Nat} (hlead : lead b = .sized family width)
    {conv : Nat → α} {answer : Reader w × Option α} (hget : (r.advance 1).Gets width conv answer)
    (make : α → β)
    (hmake : ∀ n < 256 ^ width, f (family.token width n) = some (make (conv n))) :
    orFail r.pos answer make = r.answerOf (header f) := by
  have hbs : (r.advance 1).rest = bs := by
    rw [rest_advance, hrest]
    rfl
  rw [Gets, hbs] at hget
  rw [answerOf, hrest, header_sized f hlead]
  obtain ⟨n, hn, rfl⟩ | ⟨hn, j, rfl⟩ := hget
  · simp [orFail, hn, hmake n (number_lt hn)]
  · simp [orFail, hn]

/-- The default of a `switch`: an object of another kind. -/
theorem answerOf_other {r : Reader w} {b : UInt8} {bs : List UInt8} (hrest : r.rest = b :: bs)
    (f : Token → Option α) (kind : Kind) (hf : ∀ t, t.kind ≠ kind → f t = none)
    (hb : (lead b).kind ≠ some kind) : r.answerOf (header f) = (r.flagged, none) := by
  rw [answerOf, hrest, header_none f kind hf hb]

/-- The unsigned families give their number. -/
theorem asMagnitude_uint {width n : Nat} {v : UInt64} (h : v.toNat = n) :
    asMagnitude (Family.uint.token width n) = some (v, false) := by
  simp [asMagnitude, Family.token, signMagnitude, ← h]

/-- The signed families give the number's two's complement. -/
theorem asMagnitude_int {width n : Nat} {sv : Int64} (h : sv.toInt = twosComplement width n) :
    asMagnitude (Family.int.token width n) = some (magnitudeOf sv) := by
  rw [magnitudeOf_eq, h]
  rfl

/-- `read_raw_magnitude_` is atomic. -/
theorem readRawMagnitude_eq (r : Reader w) :
    r.readRawMagnitude = r.answerOf (header asMagnitude) := by
  unfold readRawMagnitude
  cases hrest : r.rest with
  | nil => simp [getByte_nil hrest, answerOf, hrest, header_nil]
  | cons b bs =>
      simp only [getByte_cons hrest]
      -- The `switch` of the source, one format byte at a time. What is left is no integer.
      by_cases hpos : b ≤ kPositiveFixintMax
      · obtain ⟨hlead, hmag⟩ := (lead_fixint b).1 hpos
        rw [if_pos hpos, answerOf, hrest, header_value asMagnitude hlead, hmag]
        rfl
      rw [if_neg hpos]
      by_cases hneg : kNegativeFixintMin ≤ b
      · obtain ⟨hlead, hmag⟩ := (lead_fixint b).2 hneg
        rw [if_pos hneg, answerOf, hrest, header_value asMagnitude hlead, hmag]
        rfl
      rw [if_neg hneg]
      by_cases hu8 : b = kUint8
      · rw [if_pos hu8]
        refine answerOf_sized hrest asMagnitude (show lead b = .sized .uint 1 by rw [hu8]; decide)
          (getByte_gets _) _ fun n hn => asMagnitude_uint ?_
        rw [UInt8.toNat_toUInt64, UInt8.toNat_ofNat', Nat.mod_eq_of_lt (show n < 2 ^ 8 from hn)]
      rw [if_neg hu8]
      by_cases hu16 : b = kUint16
      · rw [if_pos hu16]
        refine answerOf_sized hrest asMagnitude (show lead b = .sized .uint 2 by rw [hu16]; decide)
          (getU16_gets _) _ fun n hn => asMagnitude_uint ?_
        rw [UInt16.toNat_toUInt64, UInt16.toNat_ofNat', Nat.mod_eq_of_lt (show n < 2 ^ 16 from hn)]
      rw [if_neg hu16]
      by_cases hu32 : b = kUint32
      · rw [if_pos hu32]
        refine answerOf_sized hrest asMagnitude (show lead b = .sized .uint 4 by rw [hu32]; decide)
          (getU32_gets _) _ fun n hn => asMagnitude_uint ?_
        rw [UInt32.toNat_toUInt64, UInt32.toNat_ofNat', Nat.mod_eq_of_lt (show n < 2 ^ 32 from hn)]
      rw [if_neg hu32]
      by_cases hu64 : b = kUint64
      · rw [if_pos hu64]
        refine answerOf_sized hrest asMagnitude (show lead b = .sized .uint 8 by rw [hu64]; decide)
          (getU64_gets _) _ fun n hn => asMagnitude_uint ?_
        rw [UInt64.toNat_ofNat', Nat.mod_eq_of_lt (show n < 2 ^ 64 from hn)]
      rw [if_neg hu64]
      by_cases hi8 : b = kInt8
      · rw [if_pos hi8]
        refine answerOf_sized hrest asMagnitude (show lead b = .sized .int 1 by rw [hi8]; decide)
          (getByte_gets _) _ fun n hn => asMagnitude_int ?_
        rw [toInt_int8, UInt8.toNat_ofNat', Nat.mod_eq_of_lt (show n < 2 ^ 8 from hn)]
      rw [if_neg hi8]
      by_cases hi16 : b = kInt16
      · rw [if_pos hi16]
        refine answerOf_sized hrest asMagnitude (show lead b = .sized .int 2 by rw [hi16]; decide)
          (getU16_gets _) _ fun n hn => asMagnitude_int ?_
        rw [toInt_int16, UInt16.toNat_ofNat', Nat.mod_eq_of_lt (show n < 2 ^ 16 from hn)]
      rw [if_neg hi16]
      by_cases hi32 : b = kInt32
      · rw [if_pos hi32]
        refine answerOf_sized hrest asMagnitude (show lead b = .sized .int 4 by rw [hi32]; decide)
          (getU32_gets _) _ fun n hn => asMagnitude_int ?_
        rw [toInt_int32, UInt32.toNat_ofNat', Nat.mod_eq_of_lt (show n < 2 ^ 32 from hn)]
      rw [if_neg hi32]
      by_cases hi64 : b = kInt64
      · rw [if_pos hi64]
        -- The 64-bit case negates in unsigned arithmetic.
        refine answerOf_sized hrest asMagnitude (show lead b = .sized .int 8 by rw [hi64]; decide)
          (getU64_gets _) _ fun n hn => ?_
        rw [magnitudeOf64_eq]
        refine asMagnitude_int ?_
        rw [← twosComplement_toUInt64,
          show (UInt64.ofNat n).toInt64.toUInt64 = UInt64.ofNat n from rfl,
          UInt64.toNat_ofNat', Nat.mod_eq_of_lt (show n < 2 ^ 64 from hn)]
      rw [if_neg hi64]
      refine (answerOf_other hrest asMagnitude .int
        (by intro t; cases t <;> simp [asMagnitude, Token.kind]) fun hkind => ?_).symm
      have hbyte : Formats .int b := formats_of_kind b _ hkind
      simp only [Formats, hpos, hneg, hu8, hu16, hu32, hu64, hi8, hi16, hi32, hi64, or_self]
        at hbyte

/-- The integers in a range. -/
def asInt (low high : Int) : Token → Option Int
  | .int v => if low ≤ v ∧ v ≤ high then some v else none
  | _ => none

/-- `read` into a signed type is atomic: it takes the integers of the type. -/
theorem readSigned_eq (r : Reader w) (maxVal : Nat) (out : Int) :
    r.readSigned maxVal out
      = store out (r.answerOf (header (asInt (-(maxVal : Int) - 1) maxVal))) := by
  refine congrArg (store out) ?_
  rw [readRawMagnitude_eq]
  unfold answerOf header
  cases htoken : token r.rest with
  | none => rfl
  | some p =>
      obtain ⟨t, k⟩ := p
      cases t with
      | int v =>
          have habs := token_int_natAbs htoken
          have hmag : (UInt64.ofNat v.natAbs).toNat = v.natAbs := by
            rw [UInt64.toNat_ofNat', Nat.mod_eq_of_lt habs]
          -- A negative number may be one larger in magnitude than the maximum.
          simp only [Option.bind_some, asMagnitude, Option.map_some, signMagnitude, asInt, hmag]
          by_cases hneg : v < 0
          · simp only [hneg, decide_true, Bool.true_eq_false, if_false]
            by_cases hrange : maxVal + 1 < v.natAbs
            · rw [if_pos hrange, if_neg (by omega)]
              rfl
            · have hin : -(maxVal : Int) - 1 ≤ v ∧ v ≤ maxVal := by omega
              rw [if_neg hrange, if_pos hin, Option.map_some]
              -- The smallest value is not negated, since its magnitude has no signed counterpart.
              by_cases hmin : v.natAbs = maxVal + 1
              · rw [if_pos hmin, show -(maxVal : Int) - 1 = v by omega]
              · rw [if_neg hmin, show -(v.natAbs : Int) = v by omega]
          · simp only [hneg, decide_false, if_true]
            by_cases hrange : maxVal < v.natAbs
            · rw [if_pos hrange, if_neg (by omega)]
              rfl
            · rw [if_neg hrange, if_pos (by omega)]
              simp only [Option.map_some]
              congr 2
              omega
      | _ => rfl

/-- The natural numbers up to a maximum. -/
def asNat (high : Nat) : Token → Option Nat
  | .int v => if 0 ≤ v ∧ v ≤ high then some v.toNat else none
  | _ => none

/-- `read` into an unsigned type is atomic: it takes the integers of the type. -/
theorem readUnsigned_eq (r : Reader w) (maxVal out : Nat) :
    r.readUnsigned maxVal out = store out (r.answerOf (header (asNat maxVal))) := by
  refine congrArg (store out) ?_
  rw [readRawMagnitude_eq]
  unfold answerOf header
  cases htoken : token r.rest with
  | none => rfl
  | some p =>
      obtain ⟨t, k⟩ := p
      cases t with
      | int v =>
          -- The reader goes through sign and magnitude, which 64 bits always hold.
          have habs := token_int_natAbs htoken
          have hmag : (UInt64.ofNat v.natAbs).toNat = v.natAbs := by
            rw [UInt64.toNat_ofNat', Nat.mod_eq_of_lt habs]
          simp only [Option.bind_some, asMagnitude, Option.map_some, signMagnitude, asNat, hmag]
          by_cases hneg : v < 0
          · simp only [hneg, decide_true, if_true]
            rw [if_neg (by omega)]
            rfl
          · simp only [hneg, decide_false, Bool.false_eq_true, if_false]
            by_cases hrange : maxVal < v.natAbs
            · rw [if_pos hrange, if_neg (by omega)]
              rfl
            · rw [if_neg hrange, if_pos (by omega)]
              simp only [Option.map_some]
              congr 2
              omega
      | _ => rfl

/-! ### Floats -/

/-- `read(float&)` takes a float, narrowed if need be, and converts an integer. -/
def asFloat : Token → Option UInt32
  | .float32 bits => some (UInt32.ofNat bits)
  | .float64 bits => some (narrowF64BitsToF32Bits (UInt64.ofNat bits))
  | .int v =>
      some (if v < 0 then floatOfMagnitude (UInt64.ofNat v.natAbs) ^^^ 0x80000000
        else floatOfMagnitude (UInt64.ofNat v.natAbs))
  | _ => none

/-- `read(double&)` takes a float, widened if need be, and converts an integer. -/
def asDouble : Token → Option UInt64
  | .float32 bits => some (doubleOfFloat (UInt32.ofNat bits))
  | .float64 bits => some (UInt64.ofNat bits)
  | .int v =>
      some (if v < 0 then doubleOfMagnitude (UInt64.ofNat v.natAbs) ^^^ 0x8000000000000000
        else doubleOfMagnitude (UInt64.ofNat v.natAbs))
  | _ => none

/-- The integer branch of the two float reads, where `f` treats floats apart. -/
theorem answerOf_magnitude {r : Reader w} {b : UInt8} {bs : List UInt8} (hrest : r.rest = b :: bs)
    (f : Token → Option α) (make : UInt64 → Bool → α)
    (hint : ∀ v : Int, f (.int v) = some (make (UInt64.ofNat v.natAbs) (decide (v < 0))))
    (hf : ∀ t, t.kind ≠ .int → t.kind ≠ .float → f t = none)
    (hb : (lead b).kind ≠ some .float) :
    (match r.readRawMagnitude with
      | (r', none) => (r', none)
      | (r', some (mag, neg)) => (r', some (make mag neg)))
      = r.answerOf (header f) := by
  rw [readRawMagnitude_eq, answerOf, answerOf, hrest, header, header]
  cases htoken : token (b :: bs) with
  | none => rfl
  | some p =>
      obtain ⟨t, k⟩ := p
      have hkind := token_kind htoken
      simp only [Option.bind_some]
      -- The float formats were tried before, so it is an integer or an error.
      by_cases ht : t.kind = .int
      · cases t with
        | int v => simp [asMagnitude, signMagnitude, hint]
        | _ => simp [Token.kind] at ht
      · rw [hf t ht fun h => hb (by rw [hkind, h])]
        cases t with
        | int v => exact absurd rfl ht
        | _ => rfl

/-- `read(float&)` is atomic. -/
theorem readFloat_eq (r : Reader w) (out : UInt32) :
    r.readFloat out = store out (r.answerOf (header asFloat)) := by
  refine congrArg (store out) ?_
  rw [remaining_eq]
  -- The two formats that carry a float, and the integers, which are converted.
  cases hrest : r.rest with
  | nil => simp [answerOf, hrest, header_nil]
  | cons b bs =>
      rw [if_neg (by simp)]
      simp only [byteAt_pos hrest]
      by_cases h32 : b = kFloat32
      · rw [if_pos h32]
        exact answerOf_sized hrest asFloat (show lead b = .sized .float 4 by rw [h32]; decide)
          (getU32_gets _) _ fun n hn => rfl
      rw [if_neg h32]
      by_cases h64 : b = kFloat64
      · rw [if_pos h64]
        exact answerOf_sized hrest asFloat (show lead b = .sized .float 8 by rw [h64]; decide)
          (getU64_gets _) _ fun n hn => rfl
      rw [if_neg h64]
      exact answerOf_magnitude hrest asFloat
        (fun mag neg => if neg then floatOfMagnitude mag ^^^ 0x80000000 else floatOfMagnitude mag)
        (fun v => by simp [asFloat])
        (by intro t; cases t <;> simp [asFloat, Token.kind])
        fun hkind => (formats_of_kind b _ hkind).elim h32 h64

/-- `read(double&)` is atomic. -/
theorem readDouble_eq (r : Reader w) (out : UInt64) :
    r.readDouble out = store out (r.answerOf (header asDouble)) := by
  refine congrArg (store out) ?_
  rw [remaining_eq]
  -- The same formats, widened.
  cases hrest : r.rest with
  | nil => simp [answerOf, hrest, header_nil]
  | cons b bs =>
      rw [if_neg (by simp)]
      simp only [byteAt_pos hrest]
      by_cases h32 : b = kFloat32
      · rw [if_pos h32]
        exact answerOf_sized hrest asDouble (show lead b = .sized .float 4 by rw [h32]; decide)
          (getU32_gets _) _ fun n hn => rfl
      rw [if_neg h32]
      by_cases h64 : b = kFloat64
      · rw [if_pos h64]
        exact answerOf_sized hrest asDouble (show lead b = .sized .float 8 by rw [h64]; decide)
          (getU64_gets _) _ fun n hn => rfl
      rw [if_neg h64]
      exact answerOf_magnitude hrest asDouble
        (fun mag neg => if neg then doubleOfMagnitude mag ^^^ 0x8000000000000000
          else doubleOfMagnitude mag)
        (fun v => by simp [asDouble])
        (by intro t; cases t <;> simp [asDouble, Token.kind])
        fun hkind => (formats_of_kind b _ hkind).elim h32 h64

/-! ### Strings, binaries, arrays and maps -/

/-- A length that `size_t` can hold. -/
def asLength (w : SizeT) (len : Nat) : Option Nat := if len ≤ w.max then some len else none

/-- `read_str` takes a string. -/
def asStr (w : SizeT) : Token → Option Nat
  | .str len => asLength w len
  | _ => none

/-- `read_bin` takes a binary. -/
def asBin (w : SizeT) : Token → Option Nat
  | .bin len => asLength w len
  | _ => none

/-- `read_array` takes an array header. -/
def asArray (w : SizeT) : Token → Option Nat
  | .array len => asLength w len
  | _ => none

/-- `read_map` takes a map header. -/
def asMap (w : SizeT) : Token → Option Nat
  | .map len => asLength w len
  | _ => none

/-- Sixteen bits always fit. -/
theorem asLength_small (w : SizeT) {len : Nat} (h : len < 2 ^ 16) : asLength w len = some len := by
  have hpow := Nat.pow_le_pow_right (show 0 < 2 by omega) w.sixteen_le
  rw [asLength, if_pos]
  unfold SizeT.max
  omega

/-- A length is one that a `size_t` holds. -/
theorem asLength_eq_some {len n : Nat} :
    asLength w len = some n ↔ len = n ∧ n ≤ w.max := by
  unfold asLength
  split
  · rename_i hfits
    constructor
    · intro h
      cases h
      exact ⟨rfl, hfits⟩
    · rintro ⟨rfl, -⟩
      rfl
  · rename_i hlong
    constructor
    · intro h
      cases h
    · rintro ⟨rfl, hfits⟩
      exact absurd hfits hlong

/-- What is read as a string: a string token of such a length. -/
theorem asStr_eq_some {t : Token} {n : Nat} :
    asStr w t = some n ↔ t = .str n ∧ n ≤ w.max := by
  cases t with
  | str len => simp [asStr, asLength_eq_some]
  | _ => simp [asStr]

/-- What is read as an array: an array token of such a length. -/
theorem asArray_eq_some {t : Token} {n : Nat} :
    asArray w t = some n ↔ t = .array n ∧ n ≤ w.max := by
  cases t with
  | array len => simp [asArray, asLength_eq_some]
  | _ => simp [asArray]

/-- What is read as an integer: an integer token within the bounds. -/
theorem asInt_eq_some {low high : Int} {t : Token} {v : Int} :
    asInt low high t = some v ↔ t = .int v ∧ low ≤ v ∧ v ≤ high := by
  cases t with
  | int u =>
      simp only [asInt, Token.int.injEq]
      constructor
      · intro h
        split at h
        · rename_i hrange
          cases h
          exact ⟨rfl, hrange⟩
        · cases h
      · rintro ⟨rfl, hrange⟩
        rw [if_pos hrange]
  | _ => simp [asInt]

/-- What is read as an unsigned integer: an integer token from 0 to the bound. -/
theorem asNat_eq_some {high : Nat} {t : Token} {n : Nat} :
    asNat high t = some n ↔ t = .int n ∧ n ≤ high := by
  cases t with
  | int u =>
      simp only [asNat, Token.int.injEq]
      constructor
      · intro h
        split at h
        · cases h
          omega
        · cases h
      · rintro ⟨rfl, hrange⟩
        rw [if_pos (by omega)]
        rfl
  | _ => simp [asNat]

/-- Lengths of one and two bytes are always taken. -/
theorem answerOf_len8 {r : Reader w} {b : UInt8} {bs : List UInt8} (hrest : r.rest = b :: bs)
    (f : Token → Option Nat) {family : Family} (hlead : lead b = .sized family 1)
    (hf : ∀ n, f (family.token 1 n) = asLength w n) :
    orFail r.pos (r.advance 1).getByte UInt8.toNat = r.answerOf (header f) := by
  refine answerOf_sized hrest f hlead (getByte_gets _) _ fun n hn => ?_
  rw [UInt8.toNat_ofNat', Nat.mod_eq_of_lt (show n < 2 ^ 8 from hn), hf]
  exact asLength_small w (by omega)

/-- A length of 16 bits is read as the header says. -/
theorem answerOf_len16 {r : Reader w} {b : UInt8} {bs : List UInt8} (hrest : r.rest = b :: bs)
    (f : Token → Option Nat) {family : Family} (hlead : lead b = .sized family 2)
    (hf : ∀ n, f (family.token 2 n) = asLength w n) :
    orFail r.pos (r.advance 1).getU16 UInt16.toNat = r.answerOf (header f) := by
  refine answerOf_sized hrest f hlead (getU16_gets _) _ fun n hn => ?_
  rw [UInt16.toNat_ofNat', Nat.mod_eq_of_lt (show n < 2 ^ 16 from hn), hf]
  exact asLength_small w (by omega)

/-- A 32-bit length is taken when `size_t` can hold it. -/
theorem answerOf_len32 {r : Reader w} {b : UInt8} {bs : List UInt8} (hrest : r.rest = b :: bs)
    (f : Token → Option Nat) {family : Family} (hlead : lead b = .sized family 4)
    (hf : ∀ n, f (family.token 4 n) = asLength w n) :
    (r.advance 1).getLen32 r.pos = r.answerOf (header f) := by
  have hbs : (r.advance 1).rest = bs := by
    rw [rest_advance, hrest]
    rfl
  have hget := getU32_gets (r.advance 1)
  rw [Gets, hbs] at hget
  rw [answerOf, hrest, header_sized f hlead, getLen32]
  obtain ⟨n, hn, hanswer⟩ | ⟨hn, j, hanswer⟩ := hget
  · have hnat : (UInt32.ofNat n).toNat = n := by
      rw [UInt32.toNat_ofNat', Nat.mod_eq_of_lt (show n < 2 ^ 32 from number_lt hn)]
    simp only [hanswer, hn, hnat, Option.bind_some, hf, asLength]
    -- The guard `size_t_max_as_u64`: behind it the cast to `size_t` loses nothing.
    by_cases hmax : n ≤ w.max
    · have hwrap : w.wrap n = n := by
        have hpos := Nat.two_pow_pos w.bits
        unfold SizeT.max at hmax
        exact Nat.mod_eq_of_lt (by omega)
      rw [if_neg (by omega), if_pos hmax, hwrap]
      simp
    · rw [if_pos (by omega), if_neg hmax]
      simp
  · simp [hanswer, hn]

/-- `read_str_header_` is atomic. -/
theorem readStrHeader_eq (r : Reader w) : r.readStrHeader = r.answerOf (header (asStr w)) := by
  unfold readStrHeader
  cases hrest : r.rest with
  | nil => simp [getByte_nil hrest, answerOf, hrest, header_nil]
  | cons b bs =>
      simp only [getByte_cons hrest]
      by_cases hfix : b &&& 0xe0 = kFixstrPrefix
      · obtain ⟨hlead, hsmall⟩ := (lead_fixlength b).1 hfix
        rw [if_pos hfix, answerOf, hrest, header_value (asStr w) hlead, asStr,
          asLength_small w hsmall]
        rfl
      rw [if_neg hfix]
      by_cases h8 : b = kStr8
      · rw [if_pos h8]
        exact answerOf_len8 hrest (asStr w)
          (show lead b = .sized .str 1 by rw [h8]; decide) fun n => rfl
      rw [if_neg h8]
      by_cases h16 : b = kStr16
      · rw [if_pos h16]
        exact answerOf_len16 hrest (asStr w)
          (show lead b = .sized .str 2 by rw [h16]; decide) fun n => rfl
      rw [if_neg h16]
      by_cases h32 : b = kStr32
      · rw [if_pos h32]
        exact answerOf_len32 hrest (asStr w) (show lead b = .sized .str 4 by rw [h32]; decide)
          fun n => rfl
      rw [if_neg h32]
      -- No other byte starts a string.
      refine (answerOf_other hrest (asStr w) .str (by intro t; cases t <;> simp [asStr, Token.kind])
        fun hkind => ?_).symm
      have hbyte : Formats .str b := formats_of_kind b _ hkind
      simp only [Formats, hfix, h8, h16, h32, or_self] at hbyte

/-- `read_bin_header_` is atomic. -/
theorem readBinHeader_eq (r : Reader w) : r.readBinHeader = r.answerOf (header (asBin w)) := by
  unfold readBinHeader
  -- The three formats of a bin, by the size of the length field.
  cases hrest : r.rest with
  | nil => simp [getByte_nil hrest, answerOf, hrest, header_nil]
  | cons b bs =>
      simp only [getByte_cons hrest]
      by_cases h8 : b = kBin8
      · rw [if_pos h8]
        exact answerOf_len8 hrest (asBin w)
          (show lead b = .sized .bin 1 by rw [h8]; decide) fun n => rfl
      rw [if_neg h8]
      by_cases h16 : b = kBin16
      · rw [if_pos h16]
        exact answerOf_len16 hrest (asBin w)
          (show lead b = .sized .bin 2 by rw [h16]; decide) fun n => rfl
      rw [if_neg h16]
      by_cases h32 : b = kBin32
      · rw [if_pos h32]
        exact answerOf_len32 hrest (asBin w) (show lead b = .sized .bin 4 by rw [h32]; decide)
          fun n => rfl
      rw [if_neg h32]
      refine (answerOf_other hrest (asBin w) .bin (by intro t; cases t <;> simp [asBin, Token.kind])
        fun hkind => ?_).symm
      have hbyte : Formats .bin b := formats_of_kind b _ hkind
      simp only [Formats, h8, h16, h32, or_self] at hbyte

/-- A count header is atomic, for the format bytes of a family `f` accepts. -/
theorem readCount_eq (r : Reader w) {fix byte16 byte32 : UInt8} (f : Token → Option Nat)
    (kind : Kind) (family : Family)
    (hfix : ∀ b : UInt8, b &&& 0xf0 = fix →
      ∃ t, lead b = .value t ∧ f t = some (b &&& 0x0f).toNat)
    (h16 : lead byte16 = .sized family 2) (h32 : lead byte32 = .sized family 4)
    (hf : ∀ width n, f (family.token width n) = asLength w n)
    (hother : ∀ t, t.kind ≠ kind → f t = none)
    (hkind : ∀ b : UInt8, (lead b).kind = some kind → b &&& 0xf0 = fix ∨ b = byte16 ∨ b = byte32) :
    readCount fix byte16 byte32 r = r.answerOf (header f) := by
  unfold readCount
  cases hrest : r.rest with
  | nil => simp [getByte_nil hrest, answerOf, hrest, header_nil]
  | cons b bs =>
      simp only [getByte_cons hrest]
      by_cases hbfix : b &&& 0xf0 = fix
      · obtain ⟨t, hlead, ht⟩ := hfix b hbfix
        rw [if_pos hbfix, answerOf, hrest, header_value f hlead, ht]
        rfl
      rw [if_neg hbfix]
      by_cases hb16 : b = byte16
      · rw [if_pos hb16]
        exact answerOf_len16 hrest f (show lead b = .sized family 2 by rw [hb16, h16]) (hf 2)
      rw [if_neg hb16]
      by_cases hb32 : b = byte32
      · rw [if_pos hb32]
        exact answerOf_len32 hrest f (show lead b = .sized family 4 by rw [hb32, h32]) (hf 4)
      rw [if_neg hb32]
      -- The source has compared with every format byte of the kind.
      refine (answerOf_other hrest f kind hother fun h => ?_).symm
      have hbyte := hkind b h
      simp only [hbfix, hb16, hb32, or_self] at hbyte

/-- `read_array` is atomic. -/
theorem readArray_eq (r : Reader w) (out : Nat) :
    r.readArray out = store out (r.answerOf (header (asArray w))) := by
  refine congrArg (store out) (readCount_eq r (asArray w) .array .array (fun b hb => ?_) (by decide)
    (by decide) (fun width n => rfl) (by intro t; cases t <;> simp [asArray, Token.kind])
    fun b hkind => formats_of_kind b _ hkind)
  obtain ⟨hlead, hsmall⟩ := (lead_fixlength b).2.1 hb
  exact ⟨_, hlead, asLength_small w hsmall⟩

/-- `read_map` is atomic. -/
theorem readMap_eq (r : Reader w) (out : Nat) :
    r.readMap out = store out (r.answerOf (header (asMap w))) := by
  refine congrArg (store out) (readCount_eq r (asMap w) .map .map (fun b hb => ?_) (by decide)
    (by decide) (fun width n => rfl) (by intro t; cases t <;> simp [asMap, Token.kind])
    fun b hkind => formats_of_kind b _ hkind)
  obtain ⟨hlead, hsmall⟩ := (lead_fixlength b).2.2 hb
  exact ⟨_, hlead, asLength_small w hsmall⟩

/-- A header whose length `f` accepts, with the whole body behind it: the length of the
header, that of the body, and that of both. -/
def blob (f : Token → Option Nat) (bs : List UInt8) : Option ((Nat × Nat) × Nat) :=
  (header f bs).bind fun h =>
    if h.1 ≤ bs.length - h.2 then some ((h.2, h.1), h.2 + h.1) else none

/-- A body is read alike whatever follows it. -/
theorem blob_append {f : Token → Option Nat} {bs : List UInt8} {p : (Nat × Nat) × Nat}
    (h : blob f bs = some p) (more : List UInt8) : blob f (bs ++ more) = some p := by
  unfold blob at *
  obtain ⟨⟨n, k⟩, hheader, hp⟩ := Option.bind_eq_some_iff.mp h
  obtain ⟨-, hk⟩ := header_length hheader
  rw [header_append hheader, Option.bind_some]
  split at hp
  · rename_i hroom
    simp only at hroom hk
    rw [if_pos (by simp only [List.length_append]; omega)]
    exact hp
  · simp at hp

/-- A header and its body lie within the bytes. -/
theorem blob_length {f : Token → Option Nat} {bs : List UInt8} {p : (Nat × Nat) × Nat}
    (h : blob f bs = some p) : 1 ≤ p.2 ∧ p.2 ≤ bs.length ∧ p.1.1 + p.1.2 = p.2 := by
  unfold blob at h
  obtain ⟨⟨n, k⟩, hheader, hp⟩ := Option.bind_eq_some_iff.mp h
  have hk := header_length hheader
  split at hp
  · rename_i hroom
    cases hp
    simp only at hroom hk
    exact ⟨by simp only; omega, by simp only; omega, rfl⟩
  · simp at hp

/-- A body behind the header that announces it. -/
theorem blob_of_spells {f : Token → Option Nat} {t : Token} {head body : List UInt8}
    (h : Spells t head) (hf : f t = some body.length) (more : List UInt8) :
    blob f (head ++ body ++ more)
      = some ((head.length, body.length), (head ++ body).length) := by
  rw [blob, List.append_assoc, header_of_spells h hf, Option.bind_some]
  simp

/-- What a zero-copy read takes is a header and the body it announces. -/
theorem spells_of_blob {f : Token → Option Nat} {bs : List UInt8} {p : (Nat × Nat) × Nat}
    (h : blob f bs = some p) :
    ∃ t head body more, f t = some body.length ∧ Spells t head ∧ bs = head ++ body ++ more ∧
      p = ((head.length, body.length), (head ++ body).length) := by
  unfold blob at h
  obtain ⟨⟨n, k⟩, hheader, hp⟩ := Option.bind_eq_some_iff.mp h
  obtain ⟨t, hf, hspells⟩ := spells_of_header hheader
  obtain ⟨-, hk⟩ := header_length hheader
  split at hp
  · -- The body is what the header announces, cut out of the bytes behind it.
    rename_i hroom
    have hbody : ((bs.drop k).take n).length = n := by
      rw [List.length_take, List.length_drop]
      exact Nat.min_eq_left hroom
    refine ⟨t, bs.take k, (bs.drop k).take n, (bs.drop k).drop n, by rw [hf, hbody],
      hspells, ?_, ?_⟩
    · rw [List.append_assoc, List.take_append_drop, List.take_append_drop]
    · cases hp
      simp only [List.length_append, hbody, List.length_take, Nat.min_eq_left hk]
  · cases hp

/-- The span of a body, `pos` being where its header starts. -/
def spanAt (pos : Nat) (sizes : Nat × Nat) : Span := ⟨pos + sizes.1, sizes.2⟩

/-- A zero-copy read is atomic. -/
theorem readSpan_eq (r : Reader w) (f : Token → Option Nat) (out : Span) :
    store out (readSpan r.pos (r.answerOf (header f)))
      = ((r.answerOf (blob f)).1,
          ((r.answerOf (blob f)).2.map (spanAt r.pos)).getD out) := by
  unfold answerOf blob
  cases hheader : header f r.rest with
  | none => simp [readSpan, store]
  | some h =>
      obtain ⟨n, k⟩ := h
      have hremaining : (r.advance k).remaining = r.rest.length - k := by
        rw [remaining_eq, rest_advance, List.length_drop]
      simp only [Option.bind_some, readSpan, hremaining]
      -- The header was read. Without room for the body the cursor goes back in front of it.
      by_cases hroom : n ≤ r.rest.length - k
      · rw [if_neg (by omega), if_pos hroom, advance_advance]
        rfl
      · rw [if_pos (by omega), if_neg hroom, advance_fail]
        rfl

/-- `read_str` without a copy is atomic. -/
theorem readStr_eq (r : Reader w) (out : Span) :
    r.readStr out
      = ((r.answerOf (blob (asStr w))).1,
          ((r.answerOf (blob (asStr w))).2.map (spanAt r.pos)).getD out) := by
  rw [readStr, readStrHeader_eq, readSpan_eq]

/-- A string read with its output parameter. -/
theorem readStr_answer (r : Reader w) (out : Span) :
    r.readStr out
      = match blob (asStr w) r.rest with
        | some (sizes, k) => (r.advance k, spanAt r.pos sizes)
        | none => (r.flagged, out) := by
  rw [readStr_eq]
  unfold answerOf
  cases blob (asStr w) r.rest <;> rfl

/-- The bytes of a span that a read of this reader gave. -/
theorem bytes_spanAt (r : Reader w) (k : Nat) (sizes : Nat × Nat) :
    (r.advance k).bytes (spanAt r.pos sizes) = (r.rest.drop sizes.1).take sizes.2 := by
  simp [Reader.bytes, advance, spanAt, Reader.rest, List.drop_drop]

/-- `read_bin` is atomic. -/
theorem readBin_eq (r : Reader w) (out : Span) :
    r.readBin out
      = ((r.answerOf (blob (asBin w))).1,
          ((r.answerOf (blob (asBin w))).2.map (spanAt r.pos)).getD out) := by
  rw [readBin, readBinHeader_eq, readSpan_eq]

/-- A string with its terminator fits `cap` bytes. -/
def blobWithin (f : Token → Option Nat) (cap : Nat) (bs : List UInt8) :
    Option (List UInt8 × Nat) :=
  (blob f bs).bind fun s =>
    if s.1.2 < cap then some ((bs.drop s.1.1).take s.1.2, s.2) else none

/-- A C string written over the front of some memory. -/
def cString (dst s : List UInt8) : List UInt8 := s ++ 0 :: dst.drop (s.length + 1)

/-- `read_str` with a copy is atomic. -/
theorem readStrCopy_eq (r : Reader w) (cap : Nat) (dst : List UInt8) :
    r.readStrCopy cap dst
      = ((r.answerOf (blobWithin (asStr w) cap)).1,
          ((r.answerOf (blobWithin (asStr w) cap)).2.map (cString dst)).getD dst) := by
  rw [readStrCopy, readStrHeader_eq]
  unfold answerOf blobWithin blob
  cases hheader : header (asStr w) r.rest with
  | none => simp [store]
  | some h =>
      obtain ⟨n, k⟩ := h
      have hrest : (r.advance k).buf.drop (r.advance k).pos = r.rest.drop k := rest_advance r k
      have hremaining : (r.advance k).remaining = r.rest.length - k := by
        rw [remaining_eq, rest_advance, List.length_drop]
      simp only [Option.bind_some, hrest, hremaining]
      -- The terminator counts: a string of `cap` bytes has no room for it.
      by_cases hcap : n < cap
      · by_cases hroom : n ≤ r.rest.length - k
        · have hlen : ((r.rest.drop k).take n).length = n := by
            simp only [List.length_take, List.length_drop]
            omega
          rw [if_neg (by omega), if_neg (by omega), if_pos hroom]
          simp [store, hcap, cString, hlen]
        · rw [if_neg (by omega), if_pos (by omega), if_neg hroom]
          simp [store]
      · rw [if_pos (by omega)]
        by_cases hroom : n ≤ r.rest.length - k
        · simp [store, hroom, hcap]
        · simp [store, hroom]

end Reader

end SerialRpc
