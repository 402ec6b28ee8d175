import SerialRpc.Host.Value
import SerialRpc.Lib.SortedMap

/-!
# `SerialRpc.Host.Conversions`: values of C++ types

`detail::to_value` and `Value::as<T>` of `extras/host/include/serial_rpc.hpp`, for the types
`T` that both accept: `bool`, the fundamental integer types, `double`, `std::string` and
`Value`, under `std::vector` and string-keyed `std::map` with the default allocators. A
`CppType` is such a type, and `CppValue abi t` are its objects.

How wide an integer type is, and whether `char` and `wchar_t` are signed, is for the `Abi` to
say.
-/

set_option autoImplicit false

namespace SerialRpc

/-! ### Integer types -/

/-- The fundamental integer types. -/
inductive IntType where
  | char | signedChar | unsignedChar | short | unsignedShort | int | unsignedInt
  | long | unsignedLong | longLong | unsignedLongLong | wcharT | char8T | char16T | char32T
deriving DecidableEq, Repr

/-- What a platform makes of the integer types. No type is wider than `int64_t`. -/
structure Abi where
  signed : IntType → Bool
  bits : IntType → Nat
  bits_pos : ∀ t, 0 < bits t
  bits_le : ∀ t, bits t ≤ 64
  /-- `unsigned char` is `uint8_t`. -/
  uint8 : signed .unsignedChar = false ∧ bits .unsignedChar = 8

namespace Abi

/-- `std::numeric_limits<T>::min()`. -/
def min (abi : Abi) (t : IntType) : Int :=
  if abi.signed t then -(2 ^ (abi.bits t - 1) : Nat) else 0

/-- `std::numeric_limits<T>::max()`. -/
def max (abi : Abi) (t : IntType) : Int :=
  if abi.signed t then (2 ^ (abi.bits t - 1) : Nat) - 1 else (2 ^ abi.bits t : Nat) - 1

/-- The range of an integer type has as many values as it has bit patterns. -/
theorem max_eq (abi : Abi) (t : IntType) :
    abi.max t = abi.min t + (2 ^ abi.bits t : Nat) - 1 := by
  have hhalf : 2 ^ abi.bits t = 2 * 2 ^ (abi.bits t - 1) := by
    rw [← Nat.pow_succ', Nat.succ_eq_add_one, Nat.sub_add_cancel (abi.bits_pos t)]
  rw [max, min]
  split
  · omega
  · omega

/-- The objects of an integer type. -/
def IntOf (abi : Abi) (t : IntType) : Type := { i : Int // abi.min t ≤ i ∧ i ≤ abi.max t }

/-- `static_cast<T>`: the result has the same remainder by `2 ^ bits`. -/
def staticCast (abi : Abi) (t : IntType) (i : Int) : abi.IntOf t where
  val := (i - abi.min t) % (2 ^ abi.bits t : Nat) + abi.min t
  property := by
    have hpos : (0 : Int) < (2 ^ abi.bits t : Nat) := Int.natCast_pos.mpr (Nat.two_pow_pos _)
    have hlow := Int.emod_nonneg (i - abi.min t) hpos.ne'
    have hhigh := Int.emod_lt_of_pos (i - abi.min t) hpos
    rw [max_eq]
    omega

/-- A number that fits is kept. -/
theorem staticCast_val {abi : Abi} {t : IntType} (i : abi.IntOf t) :
    abi.staticCast t i.val = i := by
  have hmax := abi.max_eq t
  have hfits := i.property
  refine Subtype.ext ?_
  show (i.val - abi.min t) % (2 ^ abi.bits t : Nat) + abi.min t = i.val
  rw [Int.emod_eq_of_lt (by omega) (by omega)]
  omega

/-- A 64-bit platform, as on Linux. -/
def lp64 : Abi where
  signed
    | .char | .signedChar | .short | .int | .long | .longLong | .wcharT => true
    | _ => false
  bits
    | .char | .signedChar | .unsignedChar | .char8T => 8
    | .short | .unsignedShort | .char16T => 16
    | .int | .unsignedInt | .wcharT | .char32T => 32
    | .long | .unsignedLong | .longLong | .unsignedLongLong => 64
  bits_pos t := by cases t <;> exact Nat.succ_pos _
  bits_le t := by cases t <;> exact Nat.le_of_ble_eq_true rfl
  uint8 := ⟨rfl, rfl⟩

end Abi

/-! ### The types and their objects -/

/-- The types that are built from the leaves. -/
inductive CppType where
  | bool
  | integral (t : IntType)
  | double
  | string
  | value
  | vector (elem : CppType)
  | map (cmp : Compare (List UInt8)) (mapped : CppType)

/-- `std::less<std::string>`, the comparison of a map that names no other. -/
def stringLess : Compare (List UInt8) where
  less a b := decide (a < b)
  asymm h := decide_eq_false (List.lt_asymm (of_decide_eq_true h))
  trans h h' := decide_eq_true (List.lt_trans (of_decide_eq_true h) (of_decide_eq_true h'))

/-- The objects of a type. A `double` is its bit pattern, a string its bytes. -/
def CppValue (abi : Abi) : CppType → Type
  | .bool => Bool
  | .integral t => abi.IntOf t
  | .double => UInt64
  | .string => List UInt8
  | .value => Value
  | .vector elem => List (CppValue abi elem)
  | .map cmp mapped => SortedMap cmp (CppValue abi mapped)

/-! ### To a value -/

/-- `detail::to_value` of an integer. -/
def integralToValue {abi : Abi} (t : IntType) (i : abi.IntOf t) : Value :=
  if abi.signed t then .int (Int64.ofInt i.val) else .uint (UInt64.ofInt i.val)

/-- `detail::to_value`. -/
def toValue {abi : Abi} : (t : CppType) → CppValue abi t → Value
  | .bool, x => .bool x
  | .integral t, x => integralToValue t x
  | .double, x => .double x
  | .string, x => .str x
  | .value, x => x
  | .vector elem, (x : List (CppValue abi elem)) => .array (x.map (toValue elem))
  | .map _ mapped, (x : SortedMap _ (CppValue abi mapped)) =>
      .map (x.entries.map fun kv => (.str kv.1, toValue mapped kv.2))

/-! ### From a value -/

/-- `TypeError`, by what its text is made of. -/
inductive TypeError where
  /-- The text goes on with `value.to_string()` and a closing parenthesis. -/
  | isNot (what : String) (value : Value)
  | doesNotFit (what : String)

namespace Value

/-- The text for an integer that is out of the range of the target. -/
def doesNotFit (v : Int) (target : String) : TypeError :=
  .doesNotFit ("serial_rpc::Value::as<T>(): integer " ++ toString v ++ " does not fit the target "
    ++ target)

/-- `as<bool>`. -/
def asBool : Value → Except TypeError Bool
  | bool v => .ok v
  | v => .error (.isNot "serial_rpc::Value::as<bool>(): value is not a bool (" v)

/-- `as<std::string>`. -/
def asStdString : Value → Except TypeError (List UInt8)
  | str s => .ok s
  | v => .error (.isNot "serial_rpc::Value::as<std::string>(): value is not a string (" v)

/-- `as<Bin>`. -/
def asBin : Value → Except TypeError (List UInt8)
  | bin bytes => .ok bytes
  | v => .error (.isNot "serial_rpc::Value::as<Bin>(): value is not bin (" v)

/-- `as_integral_`. -/
def asIntegral (abi : Abi) (t : IntType) : Value → Except TypeError (abi.IntOf t)
  | int v =>
      if abi.signed t then
        if v.toInt < abi.min t ∨ abi.max t < v.toInt then .error (doesNotFit v.toInt "type")
        else .ok (abi.staticCast t v.toInt)
      else
        if v < 0 ∨ abi.max t < v.toUInt64.toNat then
          .error (doesNotFit v.toInt "unsigned type")
        else .ok (abi.staticCast t v.toInt)
  | uint v =>
      if abi.max t < v.toNat then
        .error (doesNotFit v.toNat (if abi.signed t then "type" else "unsigned type"))
      else .ok (abi.staticCast t v.toNat)
  | v => .error (.isNot "serial_rpc::Value::as<T>(): value is not an integer (" v)

/-- `as_floating_<double>`. -/
def asDouble : Value → Except TypeError UInt64
  | double bits => .ok bits
  | int v =>
      .ok (if v < 0 then doubleOfMagnitude (UInt64.ofNat v.toInt.natAbs) ^^^ 0x8000000000000000
        else doubleOfMagnitude v.toUInt64)
  | uint v => .ok (doubleOfMagnitude v)
  | v => .error (.isNot "serial_rpc::Value::as<T>(): value is not a number (" v)

/-- `as<std::vector<T>>` for an element type without a case of its own. -/
def asArray {α : Type} (asElem : Value → Except TypeError α) : Value → Except TypeError (List α)
  | array elems => elems.mapM asElem
  | v => .error (.isNot "serial_rpc::Value::as<vector<T>>(): value is not an array (" v)

/-- A key is taken with `as<std::string>`. -/
def asEntry {α : Type} (asMapped : Value → Except TypeError α) (kv : Value × Value) :
    Except TypeError (List UInt8 × α) := do
  let k ← kv.1.asStdString
  let v ← asMapped kv.2
  return (k, v)

/-- `as<std::map<std::string, T>>`. -/
def asMap {α : Type} (cmp : Compare (List UInt8)) (asMapped : Value → Except TypeError α) :
    Value → Except TypeError (SortedMap cmp α)
  | map entries =>
      entries.foldlM (fun out kv => (asEntry asMapped kv).map fun e => out.emplace e.1 e.2) .empty
  | v => .error (.isNot "serial_rpc::Value::as<map<string,T>>(): value is not a map (" v)

/-- `as` for a vector: `std::vector<uint8_t>` is `Bin` and comes first. -/
def asVector {abi : Abi} : (elem : CppType) → (Value → Except TypeError (CppValue abi elem)) →
    Value → Except TypeError (List (CppValue abi elem))
  | .integral .unsignedChar, _, v =>
      v.asBin.map fun bytes => bytes.map fun b => abi.staticCast .unsignedChar b.toNat
  | _, asElem, v => asArray asElem v

/-- `Value::as<T>`. -/
def as (abi : Abi) : (t : CppType) → Value → Except TypeError (CppValue abi t)
  | .value, v => .ok v
  | .bool, v => v.asBool
  | .string, v => v.asStdString
  | .integral t, v => v.asIntegral abi t
  | .double, v => v.asDouble
  | .vector elem, v => v.asVector elem (as abi elem)
  | .map cmp mapped, v => v.asMap cmp (as abi mapped)

end Value

end SerialRpc
