import SerialRpc.Host.Value
import SerialRpc.Lib.OrderedMap

/-!
# `SerialRpc.Host.Json`: values as JSON

`value_to_json` and `json_to_value` of `extras/host/tools/rpc_repl/json_value.hpp`, and
`Value::to_string`, which turns a key that is no string into one. A `Json` is the tree that
`nlohmann::ordered_json` keeps in memory: a number has the kind it was built with, and the
members of an object stand in the order of their insertion.

`g17` is what `snprintf` makes of a finite `double` with `%.17g`.
-/

set_option autoImplicit false

namespace SerialRpc

/-- `nlohmann::ordered_json`. A `double` is its bit pattern, a string its bytes. -/
inductive Json where
  | null
  | boolean (v : Bool)
  | numberInteger (v : Int64)
  | numberUnsigned (v : UInt64)
  | numberFloat (bits : UInt64)
  | string (s : List UInt8)
  | array (elems : List Json)
  | object (members : List (List UInt8 × Json))
  | binary (bytes : List UInt8)
  | discarded
deriving Repr, Inhabited

/-! ### Hexadecimal digits -/

/-- `kDigits`. -/
def kDigits : List UInt8 := text "0123456789abcdef"

/-- The digit of a half of a byte. -/
def hexDigit (n : UInt8) : UInt8 := kDigits.getD n.toNat 0

/-- `bin_to_hex`. -/
def binToHex (bin : List UInt8) : List UInt8 :=
  bin.flatMap fun (b : UInt8) => [hexDigit (b >>> 4), hexDigit (b &&& 0x0f)]

/-- `nibble`. `none` for `-1`. -/
def nibble (c : UInt8) : Option UInt8 :=
  if 0x30 ≤ c ∧ c ≤ 0x39 then some (c - 0x30)
  else if 0x61 ≤ c ∧ c ≤ 0x66 then some (c - 0x61 + 10)
  else if 0x41 ≤ c ∧ c ≤ 0x46 then some (c - 0x41 + 10)
  else none

/-- The loop of `hex_to_bin`, two digits a turn. -/
def hexPairs : List UInt8 → Option (List UInt8)
  | hi :: lo :: hex =>
      match nibble hi, nibble lo with
      | some h, some l => (hexPairs hex).map ((h <<< 4 ||| l) :: ·)
      | _, _ => none
  | _ => some []

/-- `hex_to_bin`. -/
def hexToBin (hex : List UInt8) : Option (List UInt8) :=
  if hex.length % 2 ≠ 0 then none else hexPairs hex

/-! ### `Value::to_string` -/

/-- `append_json_escaped`. -/
def appendJsonEscaped (s : List UInt8) : List UInt8 :=
  s.flatMap fun (c : UInt8) =>
    if c = 0x22 then text "\\\""
    else if c = 0x5c then text "\\\\"
    else if c = 0x0a then text "\\n"
    else if c = 0x0d then text "\\r"
    else if c = 0x09 then text "\\t"
    else if c < 0x20 then text "\\u00" ++ [hexDigit (c >>> 4), hexDigit (c &&& 0x0f)]
    else [c]

/-- `format_double`. -/
def formatDouble (g17 : UInt64 → List UInt8) (bits : UInt64) : List UInt8 :=
  let exponent := bits >>> 52 &&& 0x7ff
  let mantissa := bits &&& 0xfffffffffffff
  if exponent = 0x7ff ∧ mantissa ≠ 0 then text "nan"
  else if exponent = 0x7ff then if bits >>> 63 = 0 then text "inf" else text "-inf"
  else g17 bits

namespace Value

mutual

/-- `append_to_string_`: what it appends. -/
def appendToString (g17 : UInt64 → List UInt8) : Value → List UInt8
  | nil => text "nil"
  | bool v => text (if v then "true" else "false")
  | int v => text (Int.repr v.toInt)
  | uint v => text (Nat.repr v.toNat)
  | double bits => formatDouble g17 bits
  | str s => text "\"" ++ appendJsonEscaped s ++ text "\""
  | bin bytes => text "<bin " ++ text (Nat.repr bytes.length) ++ text " bytes>"
  | array elems => text "[" ++ appendElems g17 true elems ++ text "]"
  | map entries => text "\x7b" ++ appendEntries g17 true entries ++ text "\x7d"

/-- The loop over the elements. `first` says that no separator is due. -/
def appendElems (g17 : UInt64 → List UInt8) (first : Bool) : List Value → List UInt8
  | [] => []
  | e :: elems =>
      (if first then [] else text ", ") ++ appendToString g17 e ++ appendElems g17 false elems

/-- The loop over the entries. -/
def appendEntries (g17 : UInt64 → List UInt8) (first : Bool) : List (Value × Value) → List UInt8
  | [] => []
  | (k, v) :: entries =>
      (if first then [] else text ", ") ++ appendToString g17 k ++ text ": " ++
        appendToString g17 v ++ appendEntries g17 false entries

end

/-- The key of an entry in `value_to_json`. -/
def jsonKey (g17 : UInt64 → List UInt8) : Value → List UInt8
  | str s => s
  | k => appendToString g17 k

end Value

/-! ### Both ways -/

/-- The key that marks a blob. -/
def binKey : List UInt8 := text "$bin"

mutual

/-- `value_to_json`. -/
def valueToJson (g17 : UInt64 → List UInt8) : Value → Json
  | .nil => .null
  | .bool v => .boolean v
  | .int v => .numberInteger v
  | .uint v => .numberUnsigned v
  | .double bits => .numberFloat bits
  | .str s => .string s
  | .bin bytes => .object (OrderedMap.assign [] binKey (.string (binToHex bytes)))
  | .array elems => .array (elemsToJson g17 elems)
  | .map entries => .object (entriesToJson g17 [] entries)

/-- The loop over the elements. -/
def elemsToJson (g17 : UInt64 → List UInt8) : List Value → List Json
  | [] => []
  | e :: elems => valueToJson g17 e :: elemsToJson g17 elems

/-- The loop over the entries: `obj[key] = value_to_json(kv.second)`. -/
def entriesToJson (g17 : UInt64 → List UInt8) (obj : List (List UInt8 × Json)) :
    List (Value × Value) → List (List UInt8 × Json)
  | [] => obj
  | (k, v) :: entries =>
      entriesToJson g17 (OrderedMap.assign obj (k.jsonKey g17) (valueToJson g17 v)) entries

end

/-- The blob that an object stands for, with its only key `"$bin"`. -/
def taggedBin (members : List (List UInt8 × Json)) : Option (List UInt8) :=
  match members with
  | [(key, .string hex)] => if key = binKey then hexToBin hex else none
  | _ => none

mutual

/-- `json_to_value`. -/
def jsonToValue : Json → Value
  | .null => .nil
  | .boolean v => .bool v
  | .numberInteger v => .int v
  | .numberUnsigned v => .uint v
  | .numberFloat bits => .double bits
  | .string s => .str s
  | .array elems => .array (elemsToValue elems)
  | .object members =>
      match taggedBin members with
      | some bytes => .bin bytes
      | none => .map (membersToValue members)
  | .binary _ => .nil
  | .discarded => .nil

/-- The loop over the elements. -/
def elemsToValue : List Json → List Value
  | [] => []
  | j :: elems => jsonToValue j :: elemsToValue elems

/-- The loop over the members. -/
def membersToValue : List (List UInt8 × Json) → List (Value × Value)
  | [] => []
  | (key, j) :: members => (.str key, jsonToValue j) :: membersToValue members

end

end SerialRpc
