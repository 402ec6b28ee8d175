import SerialRpc.Proofs.Msgpack.Reader
import SerialRpc.Proofs.Msgpack.Writer

/-!
# `SerialRpc.Proofs.Msgpack.Integers`: integers of any format and any type

An integer object is a header that denotes a number `v`, minimal or not: `Spells (.int v)`.

* `readSigned_integer`, `readUnsigned_integer`: a read into an integer type takes such an
  object exactly when `v` is in the range of the type.
* `pack_integer`: the writer's object for `v` is as short as any.

`integer_coercion_exact` has both.
-/

set_option autoImplicit false

namespace SerialRpc

open MsgPack

/-- The range of a signed integer type. -/
def SignedRange (bits : Nat) (v : Int) : Prop := -2 ^ (bits - 1) ≤ v ∧ v < 2 ^ (bits - 1)

/-- The range of an unsigned integer type. -/
def UnsignedRange (bits : Nat) (v : Int) : Prop := 0 ≤ v ∧ v < 2 ^ bits

instance (bits : Nat) (v : Int) : Decidable (SignedRange bits v) :=
  inferInstanceAs (Decidable (_ ∧ _))

instance (bits : Nat) (v : Int) : Decidable (UnsignedRange bits v) :=
  inferInstanceAs (Decidable (_ ∧ _))

namespace Reader

variable {w : SizeT}

/-- The two bounds `read_signed_` compares with are those of the type. -/
theorem asInt_range {bits : Nat} {v : Int} :
    asInt (-(maxSigned bits : Int) - 1) (maxSigned bits) (.int v)
      = if SignedRange bits v then some v else none := by
  have hpos : (0 : Int) < 2 ^ (bits - 1) := by positivity
  have hmax : (maxSigned bits : Int) = 2 ^ (bits - 1) - 1 := by
    rw [maxSigned, Nat.cast_sub Nat.one_le_two_pow]
    push_cast
    rfl
  have hiff : (-(maxSigned bits : Int) - 1 ≤ v ∧ v ≤ maxSigned bits) ↔ SignedRange bits v := by
    rw [hmax, SignedRange]
    omega
  simp only [asInt, hiff]

/-- A token is read as a natural number exactly if it is in the range of the width. -/
theorem asNat_range {bits : Nat} {v : Int} :
    asNat (maxUnsigned bits) (.int v) = if UnsignedRange bits v then some v.toNat else none := by
  have hmax : (maxUnsigned bits : Int) = 2 ^ bits - 1 := by
    rw [maxUnsigned, Nat.cast_sub Nat.one_le_two_pow]
    push_cast
    rfl
  have hiff : (0 ≤ v ∧ v ≤ maxUnsigned bits) ↔ UnsignedRange bits v := by
    rw [hmax, UnsignedRange]
    omega
  simp only [asNat, hiff]

/-- `read` into a signed type, at an integer object. -/
theorem readSigned_integer {r : Reader w} {v : Int} {obj more : List UInt8}
    (hobj : Spells (.int v) obj) (hrest : r.rest = obj ++ more) (bits : Nat) (out : Int) :
    r.readSigned (maxSigned bits) out
      = if SignedRange bits v then (r.advance obj.length, v) else (r.flagged, out) := by
  rw [readSigned_eq, store_answerOf, header, hrest, token_append hobj, Option.bind_some,
    asInt_range]
  by_cases hrange : SignedRange bits v
  · rw [if_pos hrange, if_pos hrange, Option.map_some]
  · rw [if_neg hrange, if_neg hrange, Option.map_none]

/-- `read` into an unsigned type, at an integer object. -/
theorem readUnsigned_integer {r : Reader w} {v : Int} {obj more : List UInt8}
    (hobj : Spells (.int v) obj) (hrest : r.rest = obj ++ more) (bits out : Nat) :
    r.readUnsigned (maxUnsigned bits) out
      = if UnsignedRange bits v then (r.advance obj.length, v.toNat) else (r.flagged, out) := by
  rw [readUnsigned_eq, store_answerOf, header, hrest, token_append hobj, Option.bind_some,
    asNat_range]
  by_cases hrange : UnsignedRange bits v
  · rw [if_pos hrange, if_pos hrange, Option.map_some]
  · rw [if_neg hrange, if_neg hrange, Option.map_none]

end Reader

/-- The number a call of an integer overload of `pack` is given. -/
def PackOp.integer : PackOp → Option Int
  | int v => some v.toInt
  | uint v => some v.toNat
  | _ => none

/-- An operation on an integer packs the shortest form of it. -/
theorem PackOp.encoding_integer {op : PackOp} {v : Int} (h : op.integer = some v) :
    op.encoding = shortestInt v := by
  cases op with
  | int x =>
      cases h
      exact List.append_nil _
  | uint x =>
      cases h
      exact List.append_nil _
  | _ => cases h

/-- Every number of 64 bits, signed or unsigned, has an overload that takes it. -/
theorem PackOp.exists_integer {v : Int} (hlow : -2 ^ 63 ≤ v) (hhigh : v < 2 ^ 64) :
    ∃ op : PackOp, op.integer = some v := by
  by_cases hneg : v < 0
  · refine ⟨.int (.ofInt v), ?_⟩
    rw [integer, Int64.toInt_ofInt_of_le (by simpa using hlow) (by simp; omega)]
  · refine ⟨.uint (.ofNat v.toNat), ?_⟩
    rw [integer, UInt64.toNat_ofNat', Nat.mod_eq_of_lt (by omega)]
    congr 1
    omega

/-- What the writer emits for an integer is an object that denotes it, of the least length. -/
theorem pack_integer {v : Int} (hlow : -2 ^ 63 ≤ v) (hhigh : v < 2 ^ 64) {op : PackOp}
    (hop : op.integer = some v) (base : List UInt8) {cap : Nat} (hcap : cap ≤ base.length)
    (before : List PackOp) (hfit : (PackOp.encodings (before ++ [op])).length ≤ cap) :
    ∃ obj, ((Writer.new base cap).packAll (before ++ [op])).data
        = PackOp.encodings before ++ obj ∧
      Spells (.int v) obj ∧
      ∀ other, Spells (.int v) other → obj.length ≤ other.length := by
  have hholds := Writer.packAll_holds base cap hcap (before ++ [op])
  refine ⟨shortestInt v, ?_, spells_shortest (t := .int v) ⟨hlow, hhigh⟩,
    fun other hother => shortestInt_le hother⟩
  rw [hholds.data_eq, List.take_of_length_le hfit]
  simp [PackOp.encodings, PackOp.encoding_integer hop]

/-- A read into an integer type gives the number of any integer object that the type can
hold, and otherwise only sets the flag. The writer's object for a number is a shortest one. -/
theorem integer_coercion_exact :
    (∀ (w : SizeT) (r : Reader w) (v : Int) (obj more : List UInt8), ∀ bits ∈ [8, 16, 32, 64],
      r.error = false → Spells (.int v) obj → r.rest = obj ++ more →
      (∀ out : Int, r.readSigned (Reader.maxSigned bits) out
        = if SignedRange bits v then (r.advance obj.length, v) else (r.flagged, out)) ∧
      ∀ out : Nat, r.readUnsigned (Reader.maxUnsigned bits) out
        = if UnsignedRange bits v then (r.advance obj.length, v.toNat) else (r.flagged, out)) ∧
    ∀ v : Int, -2 ^ 63 ≤ v → v < 2 ^ 64 →
      (∃ op : PackOp, op.integer = some v) ∧
      ∀ (op : PackOp) (base : List UInt8) (cap : Nat) (before : List PackOp),
        op.integer = some v → cap ≤ base.length →
        (PackOp.encodings (before ++ [op])).length ≤ cap →
        ∃ obj, ((Writer.new base cap).packAll (before ++ [op])).data
            = PackOp.encodings before ++ obj ∧
          Spells (.int v) obj ∧
          ∀ other, Spells (.int v) other → obj.length ≤ other.length := by
  constructor
  · -- Reading: every family has its range, and a number outside it is an error.
    intro w r v obj more bits _ _ hobj hrest
    exact ⟨fun out => Reader.readSigned_integer hobj hrest bits out,
      fun out => Reader.readUnsigned_integer hobj hrest bits out⟩
  · -- Writing: the shortest form, in whatever family the number fits.
    intro v hlow hhigh
    refine ⟨PackOp.exists_integer hlow hhigh, ?_⟩
    intro op base cap before hop hcap hfit
    exact pack_integer hlow hhigh hop base hcap before hfit

/-- A number in a format larger than it needs, and one out of the range of its target. -/
theorem integer_coercion_exact_witness :
    (Reader.new .avr [0xd1, 0xff, 0x80]).readSigned (Reader.maxSigned 8) 0
        = ((Reader.new .avr [0xd1, 0xff, 0x80]).advance 3, -128) ∧
      (Reader.new .avr [0xd1, 0xff, 0x80]).readUnsigned (Reader.maxUnsigned 8) 7
        = ((Reader.new .avr [0xd1, 0xff, 0x80]).flagged, 7) ∧
      ∃ obj, ((Writer.new [0, 0] 2).packAll [.int (-128)]).data = obj ∧
        Spells (.int (-128)) obj ∧
        ∀ other, Spells (.int (-128)) other → obj.length ≤ other.length := by
  have hread := integer_coercion_exact.1 .avr (.new .avr [0xd1, 0xff, 0x80]) (-128)
    [0xd1, 0xff, 0x80] [] 8 (by decide) rfl (by decide) rfl
  have hwrite := (integer_coercion_exact.2 (-128) (by decide) (by decide)).2 (.int (-128)) [0, 0] 2
    [] (by decide) (by decide) (by decide)
  exact ⟨hread.1 0, hread.2 7, hwrite⟩

end SerialRpc
