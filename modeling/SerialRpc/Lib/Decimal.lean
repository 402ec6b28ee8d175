import Mathlib.Data.List.Basic

/-!
# `SerialRpc.Lib.Decimal`: decimal numerals

`numeral n` is the text of a number in base ten and `signed i` the one of an integer, as bytes.
`value` reads digits from the left, and `value_numeral` is the round trip. A numeral is not empty
and consists of digits, so that whatever is no digit ends it.
-/

set_option autoImplicit false

namespace Decimal

/-- The digit of a number below ten. -/
def digit (n : Nat) : UInt8 := UInt8.ofNat (0x30 + n)

/-- A digit. -/
def IsDigit (c : UInt8) : Prop := 0x30 ≤ c ∧ c ≤ 0x39

instance (c : UInt8) : Decidable (IsDigit c) := inferInstanceAs (Decidable (_ ∧ _))

/-- The number of a digit. -/
def digitValue (c : UInt8) : Nat := c.toNat - 0x30

/-- The digits of a number, the most significant one first. -/
def numeral (n : Nat) : List UInt8 :=
  if n < 10 then [digit n] else numeral (n / 10) ++ [digit (n % 10)]

/-- The number that some digits stand for, behind others that stand for `acc`. -/
def valueFrom (acc : Nat) (digits : List UInt8) : Nat :=
  digits.foldl (fun acc c => acc * 10 + digitValue c) acc

/-- The number that some digits stand for. -/
def value (digits : List UInt8) : Nat := valueFrom 0 digits

/-- The minus sign. -/
def minus : UInt8 := 0x2d

/-- The text of an integer. -/
def signed : Int → List UInt8
  | .ofNat n => numeral n
  | .negSucc n => minus :: numeral (n + 1)

/-- The digits stand in a row from `0x30` on. -/
theorem digit_toNat {n : Nat} (h : n < 10) : (digit n).toNat = 0x30 + n := by
  rw [digit, UInt8.toNat_ofNat']
  omega

/-- A digit is one. -/
theorem isDigit_digit {n : Nat} (h : n < 10) : IsDigit (digit n) := by
  have hvalue := digit_toNat h
  constructor
  · rw [UInt8.le_iff_toNat_le, hvalue]
    exact Nat.le_add_right _ n
  · rw [UInt8.le_iff_toNat_le, hvalue]
    show 0x30 + n ≤ 0x39
    omega

/-- The value of a digit is what it was made of. -/
theorem digitValue_digit {n : Nat} (h : n < 10) : digitValue (digit n) = n := by
  rw [digitValue, digit_toNat h]
  omega

/-- A number below ten is one digit. -/
theorem numeral_of_lt {n : Nat} (h : n < 10) : numeral n = [digit n] := by
  rw [numeral, if_pos h]

/-- The last digit of a longer numeral is the remainder by ten. -/
theorem numeral_of_le {n : Nat} (h : 10 ≤ n) :
    numeral n = numeral (n / 10) ++ [digit (n % 10)] := by
  rw [numeral, if_neg (Nat.not_lt.mpr h)]

/-- A numeral has a digit at least. -/
theorem numeral_ne_nil (n : Nat) : numeral n ≠ [] := by
  rw [numeral]
  split
  · exact List.cons_ne_nil _ _
  · exact List.append_ne_nil_of_right_ne_nil _ (List.cons_ne_nil _ _)

/-- And nothing but digits. -/
theorem isDigit_of_mem_numeral {n : Nat} : ∀ c ∈ numeral n, IsDigit c := by
  induction n using numeral.induct with
  | case1 n h =>
      rw [numeral_of_lt h]
      intro c hc
      rw [List.mem_singleton.mp hc]
      exact isDigit_digit h
  | case2 n h ih =>
      rw [numeral_of_le (Nat.le_of_not_lt h)]
      intro c hc
      rcases List.mem_append.mp hc with hc | hc
      · exact ih c hc
      · rw [List.mem_singleton.mp hc]
        exact isDigit_digit (Nat.mod_lt n (by decide))

/-- Reading a numeral gives its number back. -/
theorem value_numeral (n : Nat) : value (numeral n) = n := by
  induction n using numeral.induct with
  | case1 n h =>
      rw [numeral_of_lt h, value, valueFrom, List.foldl_cons, List.foldl_nil, digitValue_digit h]
      omega
  | case2 n h ih =>
      have hdigit := digitValue_digit (Nat.mod_lt n (by decide : 10 > 0))
      rw [value, valueFrom] at ih
      rw [numeral_of_le (Nat.le_of_not_lt h), value, valueFrom, List.foldl_append, ih,
        List.foldl_cons, List.foldl_nil, hdigit]
      omega

/-- A number can be read back from its numeral. -/
theorem numeral_injective {m n : Nat} (h : numeral m = numeral n) : m = n := by
  rw [← value_numeral m, h, value_numeral n]

/-- The same with a sign: there is a digit at least. -/
theorem signed_ne_nil (i : Int) : signed i ≠ [] := by
  cases i with
  | ofNat n => exact numeral_ne_nil n
  | negSucc n => exact List.cons_ne_nil _ _

/-- The characters of the text of an integer. -/
theorem mem_signed {i : Int} {c : UInt8} (h : c ∈ signed i) : c = minus ∨ IsDigit c := by
  cases i with
  | ofNat n => exact .inr (isDigit_of_mem_numeral c h)
  | negSucc n =>
      rcases List.mem_cons.mp h with rfl | h
      · exact .inl rfl
      · exact .inr (isDigit_of_mem_numeral c h)

end Decimal
