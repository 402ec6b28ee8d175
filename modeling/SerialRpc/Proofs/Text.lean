import SerialRpc.Msgpack.Writer
import SerialRpc.Lib.Decimal

/-!
# `SerialRpc.Proofs.Text`: the bytes of literals and numbers

`text` goes through the UTF-8 encoding of a `String`. What is built from parts has the bytes of
its parts (`text_append`), and what `std::to_string` makes of an integer is its decimal numeral
(`text_repr`, `text_intRepr`).
-/

set_option autoImplicit false

namespace SerialRpc

/-- The bytes of an array in a list, from the index `i` on. -/
theorem toList_loop (bytes : ByteArray) (i : Nat) (r : List UInt8) :
    ByteArray.toList.loop bytes i r = r.reverse ++ bytes.data.toList.drop i := by
  fun_induction ByteArray.toList.loop bytes i r with
  | case1 i r h ih =>
      have hlt : i < bytes.data.toList.length := h
      have hget : bytes.get! i = bytes.data.toList[i] := by
        show bytes.data[i]! = _
        rw [getElem!_pos bytes.data i h, Array.getElem_toList]
      rw [ih, List.reverse_cons, hget, List.drop_eq_getElem_cons hlt, List.append_assoc]
      rfl
  | case2 i r h =>
      have hle : bytes.data.toList.length ≤ i := Nat.le_of_not_lt h
      rw [List.drop_eq_nil_of_le hle, List.append_nil]

/-- The bytes of a byte array in order. -/
theorem toList_eq (bytes : ByteArray) : bytes.toList = bytes.data.toList := by
  rw [ByteArray.toList, toList_loop, List.reverse_nil, List.nil_append, List.drop_zero]

/-- The text of a string is the encoding of its characters. -/
theorem text_ofList (cs : List Char) :
    text (String.ofList cs) = cs.flatMap String.utf8EncodeChar := by
  rw [text, toList_eq]
  show (String.ofList cs).toByteArray.data.toList = _
  rw [String.toByteArray_ofList, List.utf8Encode, List.toList_data_toByteArray]

/-- One text behind another. -/
theorem text_append (s t : String) : text (s ++ t) = text s ++ text t := by
  rw [← String.ofList_toList (s := s), ← String.ofList_toList (s := t), ← String.ofList_append,
    text_ofList, text_ofList, text_ofList, List.flatMap_append]

/-- What `std::to_string` makes of an unsigned number. -/
theorem text_repr (n : Nat) : text (Nat.repr n) = Decimal.numeral n := by
  have hdigit : ∀ n < 10, String.utf8EncodeChar n.digitChar = [Decimal.digit n] := by
    decide +kernel
  rw [Nat.repr_eq_ofList_toDigits, text_ofList]
  induction n using Decimal.numeral.induct with
  | case1 n h =>
      rw [Nat.toDigits_of_lt_base h, Decimal.numeral_of_lt h, List.flatMap_singleton, hdigit n h]
  | case2 n h ih =>
      have hle := Nat.le_of_not_lt h
      rw [Nat.toDigits_of_base_le (by decide) hle, Decimal.numeral_of_le hle,
        List.flatMap_append, ih, List.flatMap_singleton, hdigit _ (Nat.mod_lt n (by decide))]

/-- What `std::to_string` makes of a signed number. -/
theorem text_intRepr (i : Int) : text (Int.repr i) = Decimal.signed i := by
  cases i with
  | ofNat n => exact text_repr n
  | negSucc n =>
      have hminus : text "-" = [Decimal.minus] := by decide +kernel
      show text ("-" ++ Nat.repr (n + 1)) = _
      rw [text_append, text_repr, hminus]
      rfl

end SerialRpc
