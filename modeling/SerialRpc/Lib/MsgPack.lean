import SerialRpc.Lib.BigEndian
import Mathlib.Data.List.Basic

/-!
# `SerialRpc.Lib.MsgPack`: the MessagePack format on lists

An object starts with a format byte. `lead` is the format table: a byte either says all
(`Lead.value`) or names a family whose big-endian number follows (`Lead.sized`). `token`
reads this much, the object's header. What follows a header is counted by
`Token.bodyBytes` (string, binary and extension bytes) and `Token.children` (the objects
of an array or a map).

`Object` is the recursive grammar of complete objects, and `Sequence n` is `n` of them in a
row.

`shortest` writes a header in the smallest form the table has. `token_shortest` is the
round trip, `token_append` says that a header is read alike whatever follows it.
-/

set_option autoImplicit false

namespace MsgPack

/-! ### Headers -/

/-- What the header of an object says. A float is kept as its bit pattern. -/
inductive Token where
  | nil
  | bool (v : Bool)
  | int (v : Int)
  | float32 (bits : Nat)
  | float64 (bits : Nat)
  | str (len : Nat)
  | bin (len : Nat)
  | array (len : Nat)
  | map (len : Nat)
  | ext (len : Nat)
deriving DecidableEq, Repr

/-- A family of formats that keep a number behind the format byte. -/
inductive Family where
  | uint
  | int
  | float
  | str
  | bin
  | array
  | map
  | ext
deriving DecidableEq, Repr

/-- What a format byte says. -/
inductive Lead where
  | value (t : Token)
  | sized (family : Family) (width : Nat)
  | reserved
deriving DecidableEq, Repr

/-- The format table. -/
def lead (b : UInt8) : Lead :=
  if b < 0x80 then .value (.int b.toNat)
  else if b < 0x90 then .value (.map (b.toNat - 0x80))
  else if b < 0xa0 then .value (.array (b.toNat - 0x90))
  else if b < 0xc0 then .value (.str (b.toNat - 0xa0))
  else if b < 0xe0 then
    match b.toNat with
    | 0xc0 => .value .nil
    | 0xc2 => .value (.bool false)
    | 0xc3 => .value (.bool true)
    | 0xc4 => .sized .bin 1
    | 0xc5 => .sized .bin 2
    | 0xc6 => .sized .bin 4
    | 0xc7 => .sized .ext 1
    | 0xc8 => .sized .ext 2
    | 0xc9 => .sized .ext 4
    | 0xca => .sized .float 4
    | 0xcb => .sized .float 8
    | 0xcc => .sized .uint 1
    | 0xcd => .sized .uint 2
    | 0xce => .sized .uint 4
    | 0xcf => .sized .uint 8
    | 0xd0 => .sized .int 1
    | 0xd1 => .sized .int 2
    | 0xd2 => .sized .int 4
    | 0xd3 => .sized .int 8
    | 0xd4 => .value (.ext 1)
    | 0xd5 => .value (.ext 2)
    | 0xd6 => .value (.ext 4)
    | 0xd7 => .value (.ext 8)
    | 0xd8 => .value (.ext 16)
    | 0xd9 => .sized .str 1
    | 0xda => .sized .str 2
    | 0xdb => .sized .str 4
    | 0xdc => .sized .array 2
    | 0xdd => .sized .array 4
    | 0xde => .sized .map 2
    | 0xdf => .sized .map 4
    | _ => .reserved
  else .value (.int (b.toNat - 256))

/-- The number in the first `width` bytes, if there are so many. -/
def number (width : Nat) (bs : List UInt8) : Option Nat :=
  if width ≤ bs.length then some (BigEndian.ofBytes (bs.take width)) else none

/-- The two's complement reading of a number of `width` bytes. -/
def twosComplement (width n : Nat) : Int :=
  if 2 * n < 256 ^ width then n else n - 256 ^ width

/-- What a family makes of its number. -/
def Family.token (family : Family) (width n : Nat) : Token :=
  match family with
  | .uint => .int n
  | .int => .int (twosComplement width n)
  | .float => if width = 4 then .float32 n else .float64 n
  | .str => .str n
  | .bin => .bin n
  | .array => .array n
  | .map => .map n
  | .ext => .ext n

/-- The header at the front of some bytes and its length. -/
def token : List UInt8 → Option (Token × Nat)
  | [] => none
  | b :: bs =>
      match lead b with
      | .value t => some (t, 1)
      | .sized family width => (number width bs).map fun n => (family.token width n, 1 + width)
      | .reserved => none

/-- A header with no number. -/
theorem token_value {b : UInt8} {t : Token} (h : lead b = .value t) (bs : List UInt8) :
    token (b :: bs) = some (t, 1) := by
  simp [token, h]

/-- A header with a number. -/
theorem token_sized {b : UInt8} {family : Family} {width : Nat}
    (h : lead b = .sized family width) (bs : List UInt8) :
    token (b :: bs) = (number width bs).map fun n => (family.token width n, 1 + width) := by
  simp [token, h]

/-- A number is read alike whatever follows it. -/
theorem number_append {width n : Nat} {bs : List UInt8} (h : number width bs = some n)
    (more : List UInt8) : number width (bs ++ more) = some n := by
  unfold number at *
  split at h
  · rename_i hlen
    rw [if_pos (by rw [List.length_append]; omega), List.take_append_of_le_length hlen]
    exact h
  · simp at h

/-- A header is read alike whatever follows it. -/
theorem token_append {bs : List UInt8} {t : Token} {k : Nat} (h : token bs = some (t, k))
    (more : List UInt8) : token (bs ++ more) = some (t, k) := by
  cases bs with
  | nil => simp [token] at h
  | cons b bs =>
      simp only [token, List.cons_append] at h ⊢
      cases hlead : lead b with
      | value v => simpa [hlead] using h
      | reserved => simp [hlead] at h
      | sized family width =>
          simp only [hlead, Option.map_eq_some_iff] at h ⊢
          obtain ⟨n, hn, ht⟩ := h
          exact ⟨n, number_append hn more, ht⟩

/-- The bytes are the header `t`, and nothing else. -/
def Spells (t : Token) (bs : List UInt8) : Prop := token bs = some (t, bs.length)

instance (t : Token) (bs : List UInt8) : Decidable (Spells t bs) :=
  inferInstanceAs (Decidable (token bs = some (t, bs.length)))

/-- A number is in the bytes of its width. -/
theorem number_take {width n : Nat} {bs : List UInt8} (h : number width bs = some n) :
    width ≤ bs.length ∧ number width (bs.take width) = some n := by
  unfold number at *
  split at h
  · rename_i hlen
    refine ⟨hlen, ?_⟩
    rw [if_pos (by simp [hlen]), List.take_take, Nat.min_self]
    exact h
  · cases h

/-- A header is in the bytes of its length. -/
theorem token_take {bs : List UInt8} {t : Token} {k : Nat} (h : token bs = some (t, k)) :
    Spells t (bs.take k) := by
  cases bs with
  | nil => cases h
  | cons b bs =>
      cases hlead : lead b with
      | value v =>
          rw [token_value hlead] at h
          cases h
          exact token_value hlead []
      | sized family width =>
          rw [token_sized hlead] at h
          obtain ⟨n, hnumber, hp⟩ := Option.map_eq_some_iff.mp h
          obtain ⟨hwidth, hnumber⟩ := number_take hnumber
          cases hp
          rw [Nat.add_comm, List.take_succ_cons, Spells, token_sized hlead, hnumber]
          simp [hwidth, Nat.add_comm]
      | reserved =>
          simp [token, hlead] at h

/-- A header is at least its format byte, and lies within the bytes. -/
theorem token_length {bs : List UInt8} {t : Token} {k : Nat} (h : token bs = some (t, k)) :
    1 ≤ k ∧ k ≤ bs.length := by
  cases bs with
  | nil => simp [token] at h
  | cons b bs =>
      simp only [token] at h
      cases hlead : lead b with
      | value v =>
          simp only [hlead, Option.some.injEq, Prod.mk.injEq] at h
          simp only [List.length_cons]
          omega
      | reserved => simp [hlead] at h
      | sized family width =>
          simp only [hlead, Option.map_eq_some_iff, number] at h
          obtain ⟨n, hn, ht⟩ := h
          split at hn
          · simp only [Prod.mk.injEq] at ht
            simp only [List.length_cons]
            omega
          · simp at hn

/-! ### Kinds -/

/-- The nine kinds of objects. -/
inductive Kind where
  | nil
  | bool
  | int
  | float
  | str
  | bin
  | array
  | map
  | ext
deriving DecidableEq, Repr

/-- The kind of a header. -/
def Token.kind : Token → Kind
  | nil => .nil
  | bool _ => .bool
  | int _ => .int
  | float32 _ => .float
  | float64 _ => .float
  | str _ => .str
  | bin _ => .bin
  | array _ => .array
  | map _ => .map
  | ext _ => .ext

/-- The kind of a family. -/
def Family.kind : Family → Kind
  | uint => .int
  | int => .int
  | float => .float
  | str => .str
  | bin => .bin
  | array => .array
  | map => .map
  | ext => .ext

/-- The kind a format byte announces. -/
def Lead.kind : Lead → Option Kind
  | value t => some t.kind
  | sized family _ => some family.kind
  | reserved => none

/-- The format byte alone decides the kind. -/
theorem token_kind {b : UInt8} {bs : List UInt8} {t : Token} {k : Nat}
    (h : token (b :: bs) = some (t, k)) : (lead b).kind = some t.kind := by
  simp only [token] at h
  cases hlead : lead b with
  | value v =>
      simp only [hlead, Option.some.injEq, Prod.mk.injEq] at h
      rw [h.1, Lead.kind]
  | reserved => simp [hlead] at h
  | sized family width =>
      simp only [hlead, Option.map_eq_some_iff, Prod.mk.injEq] at h
      obtain ⟨n, -, rfl, -⟩ := h
      cases family with
      | float =>
          rw [Lead.kind, Family.token]
          split <;> rfl
      | _ => rfl

/-- A property of bytes that holds of all 256. -/
theorem forall_byte {p : UInt8 → Prop} (h : ∀ n < 256, p (UInt8.ofNat n)) (b : UInt8) : p b := by
  have hb := h b.toNat b.toNat_lt
  rwa [UInt8.ofNat_toNat] at hb

/-- The bytes of the number behind a format byte. -/
def Lead.width : Lead → Nat
  | sized _ width => width
  | _ => 0

/-- No header has more than eight bytes behind its first one. -/
theorem lead_width : ∀ b : UInt8, (lead b).width ≤ 8 := forall_byte (by decide +kernel)

/-- The magnitude of an integer that stands in the format byte. -/
def Lead.fixMagnitude : Lead → Nat
  | value (.int v) => v.natAbs
  | _ => 0

/-- What a first byte says by itself is small. -/
theorem lead_fixMagnitude : ∀ b : UInt8, (lead b).fixMagnitude < 256 :=
  forall_byte (by decide +kernel)

/-- A number fits its width. -/
theorem number_lt {width n : Nat} {bs : List UInt8} (h : number width bs = some n) :
    n < 256 ^ width := by
  unfold number at h
  split at h
  · rename_i hlen
    have hlt := BigEndian.ofBytes_lt (bs.take width)
    rw [List.length_take, Nat.min_eq_left hlen] at hlt
    simp only [Option.some.injEq] at h
    omega
  · simp at h

/-- A number read as signed lies in the signed range of its width. -/
theorem twosComplement_range {width n : Nat} (h : n < 256 ^ width) :
    -(256 ^ width : Nat) ≤ 2 * twosComplement width n ∧
      2 * twosComplement width n < (256 ^ width : Nat) := by
  have hcast : ((256 ^ width : Nat) : Int) = 256 ^ width := by push_cast; rfl
  unfold twosComplement
  rw [← hcast]
  generalize 256 ^ width = m at h
  split <;> omega

/-- Reading a number as signed never gives a larger magnitude than its range. -/
theorem twosComplement_natAbs {width n : Nat} (h : n < 256 ^ width) :
    (twosComplement width n).natAbs < 256 ^ width := by
  have hrange := twosComplement_range h
  omega

/-- A 64-bit word read as signed. -/
theorem twosComplement_toUInt64 (v : Int64) : twosComplement 8 v.toUInt64.toNat = v.toInt := by
  show twosComplement 8 v.toBitVec.toNat = v.toBitVec.toInt
  rw [BitVec.toInt_eq_toNat_cond, twosComplement]
  rfl

/-- An integer on the wire has a magnitude of 64 bits. -/
theorem token_int_natAbs {bs : List UInt8} {v : Int} {k : Nat} (h : token bs = some (.int v, k)) :
    v.natAbs < 2 ^ 64 := by
  cases bs with
  | nil => simp [token] at h
  | cons b bs =>
      have hwidth := lead_width b
      -- The number fits a byte in the short forms, and the widths of the others are at most eight
      -- bytes.
      have hfix := lead_fixMagnitude b
      simp only [token] at h
      cases hlead : lead b with
      | value t =>
          simp only [hlead, Option.some.injEq, Prod.mk.injEq] at h
          rw [hlead, h.1, Lead.fixMagnitude] at hfix
          omega
      | reserved => simp [hlead] at h
      | sized family width =>
          simp only [hlead, Option.map_eq_some_iff, Prod.mk.injEq] at h
          obtain ⟨n, hn, htoken, -⟩ := h
          rw [hlead, Lead.width] at hwidth
          have hrange : 256 ^ width ≤ 256 ^ 8 := Nat.pow_le_pow_right (by omega) hwidth
          have hlt := number_lt hn
          -- Only the two integer families make an integer of what they carry.
          cases family with
          | uint =>
              simp only [Family.token, Token.int.injEq] at htoken
              omega
          | int =>
              simp only [Family.token, Token.int.injEq] at htoken
              have habs := twosComplement_natAbs hlt
              rw [htoken] at habs
              omega
          | float =>
              simp only [Family.token] at htoken
              split at htoken <;> simp at htoken
          | _ => simp [Family.token] at htoken

/-- What the table says of the integers: the range of those in the format byte, and the
widths of numbers. -/
def Lead.inTable : Lead → Bool
  | value (.int v) => decide (-32 ≤ v ∧ v < 128)
  | sized _ width => decide (width = 1 ∨ width = 2 ∨ width = 4 ∨ width = 8)
  | _ => true

/-- Every first byte stands in the table of the format. -/
theorem lead_inTable : ∀ b : UInt8, (lead b).inTable = true := forall_byte (by decide +kernel)

/-! ### Objects -/

/-- The bytes that follow a header before any child. An extension has a type byte. -/
def Token.bodyBytes : Token → Nat
  | str len => len
  | bin len => len
  | ext len => len + 1
  | _ => 0

/-- The objects that follow a header. A map of `len` pairs has `2 * len` of them. -/
def Token.children : Token → Nat
  | array len => len
  | map len => 2 * len
  | _ => 0

mutual

/-- A complete object: a header, its body and its children. -/
inductive Object : List UInt8 → Prop where
  | mk {head body tail : List UInt8} (t : Token) (header : token head = some (t, head.length))
      (length : body.length = t.bodyBytes) (children : Sequence t.children tail) :
      Object (head ++ body ++ tail)

/-- So many complete objects in a row. -/
inductive Sequence : Nat → List UInt8 → Prop where
  | nil : Sequence 0 []
  | cons {n : Nat} {bs rest : List UInt8} (first : Object bs) (others : Sequence n rest) :
      Sequence (n + 1) (bs ++ rest)

end

/-- Two sequences of objects are one. -/
theorem Sequence.append {m n : Nat} {as bs : List UInt8} (ha : Sequence m as)
    (hb : Sequence n bs) : Sequence (m + n) (as ++ bs) := by
  induction m generalizing as with
  | zero =>
      cases ha
      simpa using hb
  | succ m ih =>
      obtain ⟨⟩ | ⟨first, others⟩ := ha
      rw [List.append_assoc, Nat.succ_add_eq_add_succ]
      exact .cons first (ih others)

/-- The width of the length in a header that has one. -/
def Lead.lengthWidth : Lead → Nat
  | sized .uint _ => 0
  | sized .int _ => 0
  | sized .float _ => 0
  | sized _ width => width
  | _ => 0

/-- What follows a header that says all. -/
def Lead.fixSize : Lead → Nat
  | value t => t.bodyBytes + t.children
  | _ => 0

/-- A length has four bytes at most, and one in the first byte is small. -/
theorem lead_sizes : ∀ b : UInt8, (lead b).lengthWidth ≤ 4 ∧ (lead b).fixSize < 256 :=
  forall_byte (by decide +kernel)

/-- A header announces less than `2 ^ 33` bytes or objects: a length has 32 bits, and a map
has two objects for each pair. -/
theorem token_sizes {bs : List UInt8} {t : Token} {k : Nat} (h : token bs = some (t, k)) :
    t.bodyBytes < 2 ^ 33 ∧ t.children < 2 ^ 33 := by
  cases bs with
  | nil => cases h
  | cons b bs =>
      obtain ⟨hwidth, hfix⟩ := lead_sizes b
      -- The sizes are those of the lead byte, or those that the length field can say.
      cases hlead : lead b with
      | reserved => simp [token, hlead] at h
      | value t' =>
          rw [token_value hlead] at h
          cases h
          rw [hlead, Lead.fixSize] at hfix
          omega
      | sized family width =>
          rw [token_sized hlead] at h
          obtain ⟨n, hnumber, hp⟩ := Option.map_eq_some_iff.mp h
          cases hp
          rw [hlead] at hwidth
          have hlt := number_lt hnumber
          -- A length field has at most four bytes.
          have hpow (hle : width ≤ 4) : n < 2 ^ 32 :=
            Nat.lt_of_lt_of_le hlt (Nat.pow_le_pow_right (n := 256) (by decide) hle)
          cases family with
          | uint => exact ⟨Nat.two_pow_pos 33, Nat.two_pow_pos 33⟩
          | int => exact ⟨Nat.two_pow_pos 33, Nat.two_pow_pos 33⟩
          | float =>
              simp only [Family.token]
              split <;> exact ⟨Nat.two_pow_pos 33, Nat.two_pow_pos 33⟩
          | str =>
              have := hpow hwidth
              simp only [Family.token, Token.bodyBytes, Token.children]
              omega
          | bin =>
              have := hpow hwidth
              simp only [Family.token, Token.bodyBytes, Token.children]
              omega
          | array =>
              have := hpow hwidth
              simp only [Family.token, Token.bodyBytes, Token.children]
              omega
          | map =>
              have := hpow hwidth
              simp only [Family.token, Token.bodyBytes, Token.children]
              omega
          | ext =>
              have := hpow hwidth
              simp only [Family.token, Token.bodyBytes, Token.children]
              omega

/-- A sequence of one is one object. -/
theorem Sequence.object {bs : List UInt8} (h : Sequence 1 bs) : Object bs := by
  obtain ⟨⟩ | ⟨first, others⟩ := h
  cases others
  rwa [List.append_nil]

/-- One object is a sequence of one. -/
theorem Object.sequence {bs : List UInt8} (h : Object bs) : Sequence 1 bs := by
  simpa using Sequence.cons h .nil

/-- A header on its own, when nothing follows it. -/
theorem Object.of_header {head : List UInt8} {t : Token} (h : token head = some (t, head.length))
    (hbody : t.bodyBytes = 0) (hchildren : t.children = 0) : Object head := by
  have hmk : Object (head ++ [] ++ []) := .mk t h (by simp [hbody])
    (by rw [hchildren]; exact .nil)
  simpa using hmk

/-- A header with its body. -/
theorem Object.of_body {head body : List UInt8} {t : Token}
    (h : token head = some (t, head.length)) (hbody : body.length = t.bodyBytes)
    (hchildren : t.children = 0) : Object (head ++ body) := by
  have hmk : Object (head ++ body ++ []) := .mk t h hbody (by rw [hchildren]; exact .nil)
  simpa using hmk

/-- A header with its children. -/
theorem Object.of_children {head tail : List UInt8} {t : Token}
    (h : token head = some (t, head.length)) (hbody : t.bodyBytes = 0)
    (hchildren : Sequence t.children tail) : Object (head ++ tail) := by
  have hmk : Object (head ++ [] ++ tail) := .mk t h (by simp [hbody]) hchildren
  simpa using hmk

/-- A sequence starts with a header that has its body behind it, and goes on with the
children of this header. -/
theorem Sequence.of_token {n k : Nat} {bs : List UInt8} {t : Token} (h : Sequence (n + 1) bs)
    (htoken : token bs = some (t, k)) :
    k + t.bodyBytes ≤ bs.length ∧ Sequence (t.children + n) (bs.drop (k + t.bodyBytes)) := by
  obtain ⟨⟩ | ⟨first, others⟩ := h
  obtain ⟨t', header, length, children⟩ := first
  rename_i head body tail
  rw [List.append_assoc, List.append_assoc, token_append header] at htoken
  cases htoken
  rw [← length, ← List.length_append, List.append_assoc _ tail, List.drop_left]
  exact ⟨by simp, children.append others⟩

/-- A header without a body, and its children. -/
theorem Sequence.of_spells {n : Nat} {head rest : List UInt8} {t : Token}
    (h : Sequence (n + 1) (head ++ rest)) (hspells : Spells t head) (hbody : t.bodyBytes = 0) :
    Sequence (t.children + n) rest := by
  obtain ⟨-, hchildren⟩ := h.of_token (token_append hspells rest)
  rwa [hbody, Nat.add_zero, List.drop_left] at hchildren

/-! ### The smallest headers -/

/-- A natural number in the smallest unsigned format. -/
def shortestNat (v : Nat) : List UInt8 :=
  if v < 0x80 then [UInt8.ofNat v]
  else if v < 256 then 0xcc :: BigEndian.toBytes 1 v
  else if v < 65536 then 0xcd :: BigEndian.toBytes 2 v
  else if v < 4294967296 then 0xce :: BigEndian.toBytes 4 v
  else 0xcf :: BigEndian.toBytes 8 v

/-- An integer in the smallest format. A negative one goes by its two's complement. -/
def shortestInt (v : Int) : List UInt8 :=
  if 0 ≤ v then shortestNat v.toNat
  else if -32 ≤ v then [UInt8.ofNat (v + 256).toNat]
  else if -128 ≤ v then 0xd0 :: BigEndian.toBytes 1 (v + 256 ^ 1).toNat
  else if -32768 ≤ v then 0xd1 :: BigEndian.toBytes 2 (v + 256 ^ 2).toNat
  else if -2147483648 ≤ v then 0xd2 :: BigEndian.toBytes 4 (v + 256 ^ 4).toNat
  else 0xd3 :: BigEndian.toBytes 8 (v + 256 ^ 8).toNat

/-- A length behind the smallest of three format bytes. -/
def shortestBytes (byte8 byte16 byte32 : UInt8) (len : Nat) : List UInt8 :=
  if len < 256 then byte8 :: BigEndian.toBytes 1 len
  else if len < 65536 then byte16 :: BigEndian.toBytes 2 len
  else byte32 :: BigEndian.toBytes 4 len

/-- A count in the format byte itself, or behind the smallest of two format bytes. -/
def shortestCount (fix byte16 byte32 : UInt8) (len : Nat) : List UInt8 :=
  if len < 16 then [fix ||| UInt8.ofNat len]
  else if len < 65536 then byte16 :: BigEndian.toBytes 2 len
  else byte32 :: BigEndian.toBytes 4 len

/-- A header in its smallest form. An extension has no form of its own here. -/
def shortest : Token → List UInt8
  | .nil => [0xc0]
  | .bool v => [if v then 0xc3 else 0xc2]
  | .int v => shortestInt v
  | .float32 bits => 0xca :: BigEndian.toBytes 4 bits
  | .float64 bits => 0xcb :: BigEndian.toBytes 8 bits
  | .str len => if len < 32 then [0xa0 ||| UInt8.ofNat len] else shortestBytes 0xd9 0xda 0xdb len
  | .bin len => shortestBytes 0xc4 0xc5 0xc6 len
  | .array len => shortestCount 0x90 0xdc 0xdd len
  | .map len => shortestCount 0x80 0xde 0xdf len
  | .ext _ => []

/-- An integer is written in a byte at least. -/
theorem shortestInt_pos (v : Int) : 0 < (shortestInt v).length := by
  unfold shortestInt shortestNat
  repeat' split
  all_goals exact Nat.succ_pos _

/-- So is the header of a bin or of a string. -/
theorem shortestBytes_pos (byte8 byte16 byte32 : UInt8) (len : Nat) :
    0 < (shortestBytes byte8 byte16 byte32 len).length := by
  unfold shortestBytes
  repeat' split
  all_goals exact Nat.succ_pos _

/-- So is that of an array or of a map. -/
theorem shortestCount_pos (fix byte16 byte32 : UInt8) (len : Nat) :
    0 < (shortestCount fix byte16 byte32 len).length := by
  unfold shortestCount
  repeat' split
  all_goals exact Nat.succ_pos _

/-- A header has a format byte. -/
theorem shortest_pos {t : Token} (h : ∀ len, t ≠ .ext len) : 0 < (shortest t).length := by
  cases t with
  | nil => exact Nat.one_pos
  | bool v => exact Nat.one_pos
  | int v => exact shortestInt_pos v
  | float32 bits => exact Nat.succ_pos _
  | float64 bits => exact Nat.succ_pos _
  | str len =>
      rw [shortest]
      split
      · exact Nat.one_pos
      · exact shortestBytes_pos _ _ _ len
  | bin len => exact shortestBytes_pos _ _ _ len
  | array len => exact shortestCount_pos _ _ _ len
  | map len => exact shortestCount_pos _ _ _ len
  | ext len => exact absurd rfl (h len)

/-- The tokens that have a header: numbers and lengths within the widest format. -/
def Token.Valid : Token → Prop
  | nil => True
  | bool _ => True
  | int v => -2 ^ 63 ≤ v ∧ v < 2 ^ 64
  | float32 bits => bits < 2 ^ 32
  | float64 bits => bits < 2 ^ 64
  | str len => len < 2 ^ 32
  | bin len => len < 2 ^ 32
  | array len => len < 2 ^ 32
  | map len => len < 2 ^ 32
  | ext _ => False

/-- A number that fits is read back. -/
theorem number_toBytes {width n : Nat} (h : n < 256 ^ width) (rest : List UInt8) :
    number width (BigEndian.toBytes width n ++ rest) = some n := by
  rw [number, if_pos (by simp), List.take_left' (BigEndian.toBytes_length width n),
    BigEndian.ofBytes_toBytes h]

/-- A header that a family writes is read back. -/
theorem token_family {b : UInt8} {family : Family} {width n : Nat}
    (hlead : lead b = .sized family width) (h : n < 256 ^ width) (rest : List UInt8) :
    token (b :: BigEndian.toBytes width n ++ rest)
      = some (family.token width n, (b :: BigEndian.toBytes width n).length) := by
  rw [List.cons_append, token_sized hlead, number_toBytes h]
  simp [Nat.add_comm]

/-- The two's complement of a negative number that fits. -/
theorem twosComplement_toNat {width : Nat} {v : Int} (hneg : v < 0)
    (hlow : -(256 ^ width : Nat) ≤ 2 * v) :
    twosComplement width (v + 256 ^ width).toNat = v := by
  have hcast : ((256 ^ width : Nat) : Int) = 256 ^ width := by push_cast; rfl
  unfold twosComplement
  rw [← hcast]
  generalize 256 ^ width = m at hlow
  rw [if_neg (by omega)]
  omega

/-- A negative number that fits is read back from its two's complement. -/
theorem token_negative {b : UInt8} {width : Nat} {v : Int} (hlead : lead b = .sized .int width)
    (hneg : v < 0) (hlow : -(256 ^ width : Nat) ≤ 2 * v) (rest : List UInt8) :
    token (b :: BigEndian.toBytes width (v + 256 ^ width).toNat ++ rest)
      = some (.int v, (b :: BigEndian.toBytes width (v + 256 ^ width).toNat).length) := by
  have hfit : (v + 256 ^ width).toNat < 256 ^ width := by
    have hcast : ((256 ^ width : Nat) : Int) = 256 ^ width := by push_cast; rfl
    rw [← hcast]
    generalize 256 ^ width = m at hlow
    omega
  rw [token_family hlead hfit, Family.token, twosComplement_toNat hneg hlow]

/-- A natural number is read back. -/
theorem token_shortestNat {v : Nat} (h : v < 2 ^ 64) (rest : List UInt8) :
    token (shortestNat v ++ rest) = some (.int v, (shortestNat v).length) := by
  unfold shortestNat
  split
  · rename_i hv
    have hbyte : (UInt8.ofNat v).toNat = v := by
      rw [UInt8.toNat_ofNat']
      omega
    have hlead : lead (UInt8.ofNat v) = .value (.int v) := by
      rw [lead, if_pos (UInt8.lt_iff_toNat_lt.mpr (by rw [hbyte]; exact hv)), hbyte]
    exact token_value hlead rest
  · split
    · exact token_family (show lead 0xcc = .sized .uint 1 by decide) (by omega) rest
    · split
      · exact token_family (show lead 0xcd = .sized .uint 2 by decide) (by omega) rest
      · split
        · exact token_family (show lead 0xce = .sized .uint 4 by decide) (by omega) rest
        · exact token_family (show lead 0xcf = .sized .uint 8 by decide) (by omega) rest

/-- So is an integer. -/
theorem token_shortestInt {v : Int} (hlow : -2 ^ 63 ≤ v) (hhigh : v < 2 ^ 64)
    (rest : List UInt8) :
    token (shortestInt v ++ rest) = some (.int v, (shortestInt v).length) := by
  unfold shortestInt
  -- The branches of the writer: a natural number, a byte that is its own lead, or one of four
  -- widths.
  split
  · rename_i hpos
    rw [token_shortestNat (by omega), Int.toNat_of_nonneg hpos]
  · split
    · rename_i hneg hsmall
      have hbyte : (UInt8.ofNat (v + 256).toNat).toNat = (v + 256).toNat := by
        rw [UInt8.toNat_ofNat']
        omega
      have hlead : lead (UInt8.ofNat (v + 256).toNat) = .value (.int v) := by
        -- A negative lead byte is behind the ranges of all the other families.
        have hge : ∀ c : UInt8, c.toNat ≤ 0xe0 → ¬ UInt8.ofNat (v + 256).toNat < c := by
          intro c hc
          rw [UInt8.lt_iff_toNat_lt, hbyte]
          omega
        rw [lead, if_neg (hge _ (by decide)), if_neg (hge _ (by decide)),
          if_neg (hge _ (by decide)), if_neg (hge _ (by decide)), if_neg (hge _ (by decide)),
          hbyte]
        congr 2
        omega
      exact token_value hlead rest
    · split
      · exact token_negative (show lead 0xd0 = .sized .int 1 by decide) (by omega) (by omega) rest
      · split
        · exact token_negative (show lead 0xd1 = .sized .int 2 by decide) (by omega) (by omega)
            rest
        · split
          · exact token_negative (show lead 0xd2 = .sized .int 4 by decide) (by omega)
              (by omega) rest
          · exact token_negative (show lead 0xd3 = .sized .int 8 by decide) (by omega)
              (by omega) rest

/-- A length is read back. -/
theorem token_shortestBytes {family : Family} {byte8 byte16 byte32 : UInt8} {len : Nat}
    (h8 : lead byte8 = .sized family 1) (h16 : lead byte16 = .sized family 2)
    (h32 : lead byte32 = .sized family 4) (t : Token)
    (ht : ∀ width, family.token width len = t) (h : len < 2 ^ 32) (rest : List UInt8) :
    token (shortestBytes byte8 byte16 byte32 len ++ rest)
      = some (t, (shortestBytes byte8 byte16 byte32 len).length) := by
  unfold shortestBytes
  split
  · rw [token_family h8 (by omega), ht]
  · split
    · rw [token_family h16 (by omega), ht]
    · rw [token_family h32 (by omega), ht]

/-- A count is read back. -/
theorem token_shortestCount {family : Family} {fix byte16 byte32 : UInt8} {len : Nat} (t : Token)
    (hfix : len < 16 → lead (fix ||| UInt8.ofNat len) = .value t)
    (h16 : lead byte16 = .sized family 2) (h32 : lead byte32 = .sized family 4)
    (ht : ∀ width, family.token width len = t) (h : len < 2 ^ 32) (rest : List UInt8) :
    token (shortestCount fix byte16 byte32 len ++ rest)
      = some (t, (shortestCount fix byte16 byte32 len).length) := by
  unfold shortestCount
  split
  · rename_i hlen
    exact token_value (hfix hlen) rest
  · split
    · rw [token_family h16 (by omega), ht]
    · rw [token_family h32 (by omega), ht]

/-- The first byte of a short string says its length. -/
theorem lead_fixstr : ∀ len < 32, lead (0xa0 ||| UInt8.ofNat len) = .value (.str len) := by
  decide

/-- That of a short array says its count. -/
theorem lead_fixarray : ∀ len < 16, lead (0x90 ||| UInt8.ofNat len) = .value (.array len) := by
  decide

/-- So does that of a short map. -/
theorem lead_fixmap : ∀ len < 16, lead (0x80 ||| UInt8.ofNat len) = .value (.map len) := by
  decide

/-- The round trip of headers, whatever follows. -/
theorem token_shortest {t : Token} (h : t.Valid) (rest : List UInt8) :
    token (shortest t ++ rest) = some (t, (shortest t).length) := by
  -- Each token is the lead byte that stands for it, or the shortest length field that holds its
  -- length.
  cases t with
  | nil => exact token_value (by decide) rest
  | bool v =>
      cases v
      · exact token_value (by decide) rest
      · exact token_value (by decide) rest
  | int v => exact token_shortestInt h.1 h.2 rest
  | float32 bits =>
      exact token_family (show lead 0xca = .sized .float 4 by decide) h rest
  | float64 bits =>
      exact token_family (show lead 0xcb = .sized .float 8 by decide) h rest
  | str len =>
      rw [shortest]
      split
      · rename_i hlen
        exact token_value (lead_fixstr len hlen) rest
      · exact token_shortestBytes (show lead 0xd9 = .sized .str 1 by decide) (by decide)
          (by decide) (.str len) (fun _ => rfl) h rest
  | bin len =>
      exact token_shortestBytes (show lead 0xc4 = .sized .bin 1 by decide) (by decide)
        (by decide) (.bin len) (fun _ => rfl) h rest
  | array len =>
      exact token_shortestCount (.array len) (lead_fixarray len)
        (show lead 0xdc = .sized .array 2 by decide) (by decide) (fun _ => rfl) h rest
  | map len =>
      exact token_shortestCount (.map len) (lead_fixmap len)
        (show lead 0xde = .sized .map 2 by decide) (by decide) (fun _ => rfl) h rest
  | ext len => exact absurd h id

/-- No header of an integer is smaller than its smallest form. -/
theorem shortestInt_le {v : Int} {bs : List UInt8} (h : Spells (.int v) bs) :
    (shortestInt v).length ≤ bs.length := by
  cases bs with
  | nil => cases h
  | cons b bs =>
      have htable := lead_inTable b
      unfold Spells at h
      cases hlead : lead b with
      | reserved => simp [token, hlead] at h
      | value t =>
          rw [token_value hlead] at h
          have ht : t = .int v := (Prod.mk.inj (Option.some.inj h)).1
          rw [hlead, ht, Lead.inTable, decide_eq_true_eq] at htable
          -- An integer in the format byte is the only one that needs no other byte.
          have hone : (shortestInt v).length = 1 := by
            unfold shortestInt shortestNat
            split
            · rw [if_pos (by omega)]
              rfl
            · rw [if_pos (by omega)]
              rfl
          rw [hone, List.length_cons]
          omega
      | sized family width =>
          rw [token_sized hlead] at h
          rw [hlead, Lead.inTable, decide_eq_true_eq] at htable
          obtain ⟨n, hnumber, hp⟩ := Option.map_eq_some_iff.mp h
          obtain ⟨ht, hlen⟩ := Prod.mk.inj hp
          have hlt := number_lt hnumber
          rw [← hlen]
          cases family with
          | uint =>
              have hv : (n : Int) = v := Token.int.inj ht
              have hnat : v.toNat = n := by omega
              rw [shortestInt, if_pos (by omega), hnat, shortestNat]
              -- The width is one of four, and each holds exactly the numbers of its rung.
              obtain rfl | rfl | rfl | rfl := htable <;>
                (simp only [apply_ite List.length, List.length_cons, BigEndian.toBytes_length,
                  List.length_nil]
                 split_ifs <;> omega)
          | int =>
              have hv : twosComplement width n = v := Token.int.inj ht
              have hrange := twosComplement_range hlt
              rw [hv] at hrange
              unfold shortestInt shortestNat
              obtain rfl | rfl | rfl | rfl := htable <;>
                (simp only [apply_ite List.length, List.length_cons, BigEndian.toBytes_length,
                  List.length_nil]
                 split_ifs <;> omega)
          | float =>
              simp only [Family.token] at ht
              split at ht <;> cases ht
          | _ => cases ht

/-- **The shortest spelling** of a token spells it. -/
theorem spells_shortest {t : Token} (h : t.Valid) : Spells t (shortest t) := by
  have hshortest := token_shortest h []
  rwa [List.append_nil] at hshortest

end MsgPack
