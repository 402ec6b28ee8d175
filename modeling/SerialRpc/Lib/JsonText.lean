import Mathlib.Data.List.Basic

/-!
# `SerialRpc.Lib.JsonText`: the grammar of JSON texts

The grammar of RFC 8259 over bytes, one nonterminal a `Symbol`. `Derives sym n t` says that `t` is
a text of `sym` in which arrays and objects are nested at most `n` deep. An array or object begins
with its own bracket and ends with it, and the whitespace around a value belongs to what the value
stands in.

A byte from `0x80` on stands for itself within a string, whether or not it is part of valid UTF-8.

`Plain` collects what numbers, literals, whitespace and separators have in common: no quote, no
backslash and no bracket.
-/

set_option autoImplicit false

namespace JsonText

/-! ### Tokens -/

/-- `ws`. -/
def IsWs (t : List UInt8) : Prop := ∀ c ∈ t, c = 0x20 ∨ c = 0x09 ∨ c = 0x0a ∨ c = 0x0d

/-- `DIGIT`s. -/
def IsDigits (t : List UInt8) : Prop := ∀ c ∈ t, 0x30 ≤ c ∧ c ≤ 0x39

/-- `int`: no zero in front of another digit. -/
def IsInt (t : List UInt8) : Prop :=
  t = [0x30] ∨ ∃ d ds, t = d :: ds ∧ 0x31 ≤ d ∧ d ≤ 0x39 ∧ IsDigits ds

/-- An optional `frac`. -/
def IsFrac (t : List UInt8) : Prop := t = [] ∨ ∃ ds, t = 0x2e :: ds ∧ ds ≠ [] ∧ IsDigits ds

/-- An optional `exp`. -/
def IsExp (t : List UInt8) : Prop :=
  t = [] ∨ ∃ e sign ds, t = e :: (sign ++ ds) ∧ (e = 0x65 ∨ e = 0x45) ∧
    (sign = [] ∨ sign = [0x2d] ∨ sign = [0x2b]) ∧ ds ≠ [] ∧ IsDigits ds

/-- `number`. -/
def IsNumber (t : List UInt8) : Prop :=
  ∃ minus int frac exp, t = minus ++ int ++ frac ++ exp ∧ (minus = [] ∨ minus = [0x2d]) ∧
    IsInt int ∧ IsFrac frac ∧ IsExp exp

/-- `false`, `null` and `true`. -/
def IsLiteral (t : List UInt8) : Prop :=
  t = [0x66, 0x61, 0x6c, 0x73, 0x65] ∨ t = [0x6e, 0x75, 0x6c, 0x6c] ∨ t = [0x74, 0x72, 0x75, 0x65]

/-- `HEXDIG`. -/
def IsHex (c : UInt8) : Prop :=
  (0x30 ≤ c ∧ c ≤ 0x39) ∨ (0x61 ≤ c ∧ c ≤ 0x66) ∨ (0x41 ≤ c ∧ c ≤ 0x46)

/-- What stands between the quotes of a string. -/
inductive Chars : List UInt8 → Prop
  | nil : Chars []
  /-- `unescaped`. -/
  | unescaped {c : UInt8} {t : List UInt8} :
      0x20 ≤ c → c ≠ 0x22 → c ≠ 0x5c → Chars t → Chars (c :: t)
  /-- One of the characters that stand for another one behind a backslash. -/
  | escape {e : UInt8} {t : List UInt8} :
      e ∈ [0x22, 0x5c, 0x2f, 0x62, 0x66, 0x6e, 0x72, 0x74] → Chars t → Chars (0x5c :: e :: t)
  /-- A code unit in four hexadecimal digits. -/
  | unicode {a b c d : UInt8} {t : List UInt8} :
      IsHex a → IsHex b → IsHex c → IsHex d → Chars t →
      Chars (0x5c :: 0x75 :: a :: b :: c :: d :: t)

/-- `string`. -/
def IsString (t : List UInt8) : Prop := ∃ cs, Chars cs ∧ t = 0x22 :: (cs ++ [0x22])

/-! ### The grammar -/

/-- The nonterminals. -/
inductive Symbol
  | value
  | array
  | object
  /-- The values of an array, with their commas. -/
  | elements
  /-- The members of an object, with their commas. -/
  | members
deriving DecidableEq

/-- `t` is a text of the symbol, nested at most `n` deep. -/
inductive Derives : Symbol → Nat → List UInt8 → Prop
  | literal {n : Nat} {t : List UInt8} : IsLiteral t → Derives .value n t
  | number {n : Nat} {t : List UInt8} : IsNumber t → Derives .value n t
  | string {n : Nat} {t : List UInt8} : IsString t → Derives .value n t
  | arrayValue {n : Nat} {t : List UInt8} : Derives .array n t → Derives .value n t
  | objectValue {n : Nat} {t : List UInt8} : Derives .object n t → Derives .value n t
  | emptyArray {n : Nat} {ws : List UInt8} :
      IsWs ws → Derives .array (n + 1) (0x5b :: (ws ++ [0x5d]))
  | array {n : Nat} {t : List UInt8} :
      Derives .elements n t → Derives .array (n + 1) (0x5b :: (t ++ [0x5d]))
  | element {n : Nat} {front t back : List UInt8} :
      IsWs front → Derives .value n t → IsWs back → Derives .elements n (front ++ t ++ back)
  | elements {n : Nat} {front t back ts : List UInt8} :
      IsWs front → Derives .value n t → IsWs back → Derives .elements n ts →
      Derives .elements n (front ++ t ++ back ++ 0x2c :: ts)
  | emptyObject {n : Nat} {ws : List UInt8} :
      IsWs ws → Derives .object (n + 1) (0x7b :: (ws ++ [0x7d]))
  | object {n : Nat} {t : List UInt8} :
      Derives .members n t → Derives .object (n + 1) (0x7b :: (t ++ [0x7d]))
  | member {n : Nat} {front key gap mid t back : List UInt8} :
      IsWs front → IsString key → IsWs gap → IsWs mid → Derives .value n t → IsWs back →
      Derives .members n (front ++ key ++ gap ++ 0x3a :: (mid ++ t ++ back))
  | members {n : Nat} {front key gap mid t back ts : List UInt8} :
      IsWs front → IsString key → IsWs gap → IsWs mid → Derives .value n t → IsWs back →
      Derives .members n ts →
      Derives .members n (front ++ key ++ gap ++ 0x3a :: (mid ++ t ++ back ++ 0x2c :: ts))

/-- An array or object, nested at most `n` deep. -/
def IsContainer (n : Nat) (t : List UInt8) : Prop := Derives .array n t ∨ Derives .object n t

/-! ### What is plain -/

/-- A byte that is no quote, no backslash and no bracket. -/
def Plain (c : UInt8) : Prop :=
  c ≠ 0x22 ∧ c ≠ 0x5c ∧ c ≠ 0x5b ∧ c ≠ 0x7b ∧ c ≠ 0x5d ∧ c ≠ 0x7d

instance (c : UInt8) : Decidable (Plain c) := by unfold Plain; infer_instance

/-- Digits are plain: no quotes, no backslashes and no brackets. -/
theorem plain_of_digits {t : List UInt8} (h : IsDigits t) : ∀ c ∈ t, Plain c := by
  intro c hc
  obtain ⟨hlow, hhigh⟩ := h c hc
  refine ⟨?_, ?_, ?_, ?_, ?_, ?_⟩ <;> rintro rfl <;> revert hlow hhigh <;> decide

/-- So is white space. -/
theorem plain_of_ws {t : List UInt8} (h : IsWs t) : ∀ c ∈ t, Plain c := by
  intro c hc
  rcases h c hc with rfl | rfl | rfl | rfl <;> decide

/-- So is the integer part of a number. -/
theorem plain_of_int {t : List UInt8} (h : IsInt t) : ∀ c ∈ t, Plain c := by
  obtain rfl | ⟨d, ds, rfl, hlow, hhigh, hds⟩ := h
  · simp [Plain]
  · -- A first digit is a digit.
    have hd : IsDigits (d :: ds) := by
      intro c hc
      rcases List.mem_cons.mp hc with rfl | hc
      · exact ⟨UInt8.le_trans (by decide) hlow, hhigh⟩
      · exact hds c hc
    exact plain_of_digits hd

/-- So is its fraction. -/
theorem plain_of_frac {t : List UInt8} (h : IsFrac t) : ∀ c ∈ t, Plain c := by
  obtain rfl | ⟨ds, rfl, -, hds⟩ := h
  · simp
  · intro c hc
    rcases List.mem_cons.mp hc with rfl | hc
    · decide
    · exact plain_of_digits hds c hc

/-- So is its exponent. -/
theorem plain_of_exp {t : List UInt8} (h : IsExp t) : ∀ c ∈ t, Plain c := by
  obtain rfl | ⟨e, sign, ds, rfl, he, hsign, -, hds⟩ := h
  · simp
  · have hplain : ∀ c ∈ sign, Plain c := by
      rcases hsign with rfl | rfl | rfl <;> simp [Plain]
    intro c hc
    rcases List.mem_cons.mp hc with rfl | hc
    · rcases he with rfl | rfl <;> decide
    · rcases List.mem_append.mp hc with hc | hc
      · exact hplain c hc
      · exact plain_of_digits hds c hc

/-- So numbers are plain. -/
theorem plain_of_number {t : List UInt8} (h : IsNumber t) : ∀ c ∈ t, Plain c := by
  obtain ⟨minus, int, frac, exp, rfl, hminus, hint, hfrac, hexp⟩ := h
  have hplain : ∀ c ∈ minus, Plain c := by
    rcases hminus with rfl | rfl <;> simp [Plain]
  intro c hc
  simp only [List.mem_append] at hc
  obtain ((hc | hc) | hc) | hc := hc
  · exact hplain c hc
  · exact plain_of_int hint c hc
  · exact plain_of_frac hfrac c hc
  · exact plain_of_exp hexp c hc

/-- So are `true`, `false` and `null`. -/
theorem plain_of_literal {t : List UInt8} (h : IsLiteral t) : ∀ c ∈ t, Plain c := by
  rcases h with rfl | rfl | rfl <;> simp [Plain]

/-- A hexadecimal digit within a string stands for itself. -/
theorem plain_of_hex {c : UInt8} (h : IsHex c) : c ≠ 0x22 ∧ c ≠ 0x5c := by
  constructor <;> rintro rfl <;> revert h <;> unfold IsHex <;> decide

end JsonText
