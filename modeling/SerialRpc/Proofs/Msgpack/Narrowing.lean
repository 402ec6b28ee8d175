import SerialRpc.Lib.BinaryFormat
import SerialRpc.Msgpack.Reader

/-!
# `SerialRpc.Proofs.Msgpack.Narrowing`: a `double` cut down to a `float`

`narrowF64BitsToF32Bits` is the truncation of the binary64 code wherever binary32 is normal, and
zero or infinity outside: `narrow_code`. The rest is what `BinaryFormat` says of truncation.
-/

set_option autoImplicit false

namespace SerialRpc

open BinaryFormat

/-- The format of a `float`. -/
def binary32 : BinaryFormat := ⟨8, 23, by decide⟩

/-- The format of a `double`. -/
def binary64 : BinaryFormat := ⟨11, 52, by decide⟩

/-! ### The bits -/

/-- What stands behind the sign in the result. -/
def narrowMagnitude (bits64 : UInt64) : UInt32 :=
  let biasedExp64 := ((bits64 >>> 52) &&& 0x7ff).toUInt32
  let mantissa64 := bits64 &&& 0xfffffffffffff
  if biasedExp64 = 0x7ff then 0x7f800000 ||| (if mantissa64 ≠ 0 then 0x400000 else 0)
  else if biasedExp64 = 0 then 0
  else
    let exponent : Int := (biasedExp64.toNat : Int) - 1023 + 127
    if 0xff ≤ exponent then 0x7f800000
    else if exponent ≤ 0 then 0
    else UInt32.ofNat exponent.toNat <<< 23 ||| (mantissa64 >>> 29).toUInt32

/-- The sign on top, the magnitude below it. -/
theorem narrow_eq (bits64 : UInt64) :
    narrowF64BitsToF32Bits bits64
      = ((bits64 >>> 63) &&& 0x1).toUInt32 <<< 31 ||| narrowMagnitude bits64 := by
  unfold narrowF64BitsToF32Bits narrowMagnitude
  dsimp only
  split_ifs <;> simp [UInt32.or_assoc]

/-- Bits that do not overlap. -/
theorem or_eq_add {k low : Nat} (h : low < 2 ^ k) (high : Nat) :
    high * 2 ^ k ||| low = high * 2 ^ k + low := by
  have hor := Nat.shiftLeft_add_eq_or_of_lt h high
  rw [Nat.shiftLeft_eq] at hor
  exact hor.symm

/-- The sign bit moves from bit 63 to bit 31. -/
theorem toNat_sign (bits64 : UInt64) :
    (((bits64 >>> 63) &&& 0x1).toUInt32 <<< 31).toNat = bits64.toNat / 2 ^ 63 % 2 * 2 ^ 31 := by
  simp [Nat.shiftRight_eq_div_pow, Nat.shiftLeft_eq]
  omega

/-- The exponent field of a double. -/
theorem toNat_exponent (bits64 : UInt64) :
    ((bits64 >>> 52) &&& 0x7ff).toUInt32.toNat = binary64.code bits64.toNat / 2 ^ 52 := by
  have hmask := Nat.and_two_pow_sub_one_eq_mod (bits64.toNat / 2 ^ 52 % 2 ^ 32) 11
  simp [Nat.shiftRight_eq_div_pow, code, binary64] at hmask ⊢
  omega

/-- The mantissa field of a double. -/
theorem toNat_mantissa (bits64 : UInt64) :
    (bits64 &&& 0xfffffffffffff).toNat = binary64.code bits64.toNat % 2 ^ 52 := by
  have hmask := Nat.and_two_pow_sub_one_eq_mod bits64.toNat 52
  simp [code, binary64] at hmask ⊢
  omega

/-- An exponent and a mantissa side by side. -/
theorem toNat_fields {exponent : Nat} (hexponent : exponent < 2 ^ 8) {mantissa : UInt64}
    (hmantissa : mantissa.toNat < 2 ^ 52) :
    (UInt32.ofNat exponent <<< 23 ||| (mantissa >>> 29).toUInt32).toNat
      = exponent * 2 ^ 23 + mantissa.toNat / 2 ^ 29 := by
  have hlow : mantissa.toNat / 2 ^ 29 < 2 ^ 23 := by omega
  have hor := or_eq_add hlow exponent
  simp [Nat.shiftRight_eq_div_pow, Nat.shiftLeft_eq] at hor ⊢
  rw [← hor]
  congr 1 <;> omega

/-- The code of the result: the truncated one where binary32 is normal. -/
def narrowCode (code : Nat) : Nat :=
  if code < 897 * 2 ^ 52 then 0
  else if 1151 * 2 ^ 52 ≤ code then binary32.infinity
  else truncate binary32 binary64 code

/-- On the codes of numbers the magnitude is narrowed as the arithmetic says. -/
theorem toNat_narrowMagnitude {bits64 : UInt64} (h : binary64.IsNumber bits64.toNat) :
    (narrowMagnitude bits64).toNat = narrowCode (binary64.code bits64.toNat) := by
  have hinfinity : binary64.code bits64.toNat ≤ 2047 * 2 ^ 52 := h
  have hexp := toNat_exponent bits64
  have hmant := toNat_mantissa bits64
  unfold narrowMagnitude narrowCode
  dsimp only
  generalize ((bits64 >>> 52) &&& 0x7ff).toUInt32 = biasedExp64 at hexp ⊢
  generalize bits64 &&& 0xfffffffffffff = mantissa64 at hmant ⊢
  generalize binary64.code bits64.toNat = code at hinfinity hexp hmant ⊢
  have hliteral (k : Nat) (hk : k < 2 ^ 32) :
      biasedExp64 = UInt32.ofNat k ↔ biasedExp64.toNat = k := by
    rw [← UInt32.toNat_inj, UInt32.toNat_ofNat_of_lt' hk]
  have hmax : biasedExp64 = 0x7ff ↔ biasedExp64.toNat = 2047 := hliteral 2047 (by decide)
  have hzero : biasedExp64 = 0 ↔ biasedExp64.toNat = 0 := hliteral 0 (by decide)
  rcases Nat.lt_or_ge code (897 * 2 ^ 52) with hlow | hlow
  · -- Zero, subnormal, or too small.
    have hne : ¬ biasedExp64 = 0x7ff := mt hmax.mp (by omega)
    rw [if_pos hlow, if_neg hne]
    split_ifs
    · rfl
    · omega
    · rfl
    · omega
  have hnonzero : ¬ biasedExp64 = 0 := mt hzero.mp (by omega)
  rw [if_neg (Nat.not_lt.mpr hlow), if_neg hnonzero]
  rcases Nat.lt_or_ge code (1151 * 2 ^ 52) with hhigh | hhigh
  · -- Normal in both formats.
    have hne : ¬ biasedExp64 = 0x7ff := mt hmax.mp (by omega)
    have hexponent : ((biasedExp64.toNat : Int) - 1023 + 127).toNat = code / 2 ^ 52 - 896 := by
      omega
    rw [if_neg (Nat.not_le.mpr hhigh), if_neg hne, if_neg (by omega), if_neg (by omega),
      hexponent, toNat_fields (by omega) (by omega), hmant]
    show (code / 2 ^ 52 - 896) * 2 ^ 23 + code % 2 ^ 52 / 2 ^ 29
      = (code - 896 * 2 ^ 52) / 2 ^ 29
    omega
  · rw [if_pos hhigh]
    split_ifs with hinf hnan
    · -- A number with the exponent of infinity is infinity.
      exfalso
      have hexponent := hmax.mp hinf
      exact hnan (UInt64.toNat_inj.mp (show mantissa64.toNat = 0 by omega))
    · rfl
    · rfl
    · omega
    · -- The exponent is that of infinity, or too large.
      have hexponent := mt hmax.mpr hinf
      omega

/-! ### Codes and signs -/

/-- A sign on top of a code. -/
theorem code_sign_or {sign magnitude : UInt32} {s : Nat} (hs : s < 2)
    (hsign : sign.toNat = s * 2 ^ 31) (hmagnitude : magnitude.toNat < 2 ^ 31) :
    binary32.code (sign ||| magnitude).toNat = magnitude.toNat ∧
      binary32.negative (sign ||| magnitude).toNat = decide (s = 1) := by
  rw [UInt32.toNat_or, hsign, or_eq_add hmagnitude]
  constructor
  · show (s * 2 ^ 31 + magnitude.toNat) % 2 ^ 31 = magnitude.toNat
    omega
  · show decide ((s * 2 ^ 31 + magnitude.toNat) / 2 ^ 31 % 2 = 1) = decide (s = 1)
    congr 2
    omega

/-- No code is narrowed past infinity. -/
theorem narrowCode_le (code : Nat) : narrowCode code ≤ binary32.infinity := by
  unfold narrowCode
  split_ifs with hlow hhigh
  · exact Nat.zero_le _
  · exact Nat.le_refl _
  · show (code - 896 * 2 ^ 52) / 2 ^ 29 ≤ 255 * 2 ^ 23
    omega

/-- Narrowing keeps the order of codes. -/
theorem narrowCode_monotone : Monotone narrowCode := by
  intro a b hab
  by_cases hlow : a < 897 * 2 ^ 52
  · rw [narrowCode, if_pos hlow]
    exact Nat.zero_le _
  · by_cases hhigh : 1151 * 2 ^ 52 ≤ b
    · have hb : narrowCode b = binary32.infinity := by
        rw [narrowCode, if_neg (by omega), if_pos hhigh]
      rw [hb]
      exact narrowCode_le a
    · rw [narrowCode, narrowCode, if_neg hlow, if_neg (by omega), if_neg (by omega),
        if_neg hhigh]
      exact truncate_monotone hab

/-- The narrowed pattern: the same sign, and the truncated code. -/
theorem narrow_code {bits64 : UInt64} (h : binary64.IsNumber bits64.toNat) :
    binary32.code (narrowF64BitsToF32Bits bits64).toNat = narrowCode (binary64.code bits64.toNat) ∧
      binary32.negative (narrowF64BitsToF32Bits bits64).toNat = binary64.negative bits64.toNat := by
  have hmagnitude := toNat_narrowMagnitude h
  have hroom : (narrowMagnitude bits64).toNat < 2 ^ 31 := by
    rw [hmagnitude]
    exact Nat.lt_of_le_of_lt (narrowCode_le _) (by decide)
  have hs : bits64.toNat / 2 ^ 63 % 2 < 2 := Nat.mod_lt _ (by decide)
  rw [narrow_eq, ← hmagnitude]
  exact code_sign_or hs (toNat_sign bits64) hroom

/-- A number narrows to a number, infinity included. -/
theorem narrow_number {bits64 : UInt64} (h : binary64.IsNumber bits64.toNat) :
    binary32.IsNumber (narrowF64BitsToF32Bits bits64).toNat := by
  rw [IsNumber, (narrow_code h).1]
  exact narrowCode_le _

/-- The key of the result follows the key of the argument. -/
theorem narrow_key {a b : UInt64} (ha : binary64.IsNumber a.toNat)
    (hb : binary64.IsNumber b.toNat) (h : binary64.key a.toNat ≤ binary64.key b.toNat) :
    binary32.key (narrowF64BitsToF32Bits a).toNat
      ≤ binary32.key (narrowF64BitsToF32Bits b).toNat := by
  obtain ⟨hcodea, hnega⟩ := narrow_code ha
  obtain ⟨hcodeb, hnegb⟩ := narrow_code hb
  unfold key at h ⊢
  rw [hcodea, hcodeb, hnega, hnegb]
  cases hsa : binary64.negative a.toNat <;> cases hsb : binary64.negative b.toNat <;>
    simp only [hsa, hsb, if_true, Bool.false_eq_true, if_false] at h ⊢
  · exact Int.ofNat_le.mpr (narrowCode_monotone (by omega))
  · -- Only the two zeros compare this way.
    have hzero : binary64.code a.toNat = 0 ∧ binary64.code b.toNat = 0 := by omega
    rw [hzero.1, hzero.2]
    decide
  · omega
  · exact neg_le_neg (Int.ofNat_le.mpr (narrowCode_monotone (by omega)))

/-! ### The range of binary32 -/

/-- `2 ^ -126` by its code. -/
theorem le_magnitude_iff (code : Nat) :
    (2 : ℚ) ^ (-126 : ℤ) ≤ binary64.magnitude code ↔ 897 * 2 ^ 52 ≤ code := by
  have hpower : binary64.magnitude (897 * 2 ^ 52) = 2 ^ (-126 : ℤ) :=
    magnitude_exponent (F := binary64) (show 897 ≠ 0 by decide)
  rw [← hpower]
  exact magnitude_strictMono.le_iff_le

/-- `2 ^ 128` by its code. -/
theorem magnitude_lt_iff (code : Nat) :
    binary64.magnitude code < 2 ^ (128 : ℤ) ↔ code < 1151 * 2 ^ 52 := by
  have hpower : binary64.magnitude (1151 * 2 ^ 52) = 2 ^ (128 : ℤ) :=
    magnitude_exponent (F := binary64) (show 1151 ≠ 0 by decide)
  rw [← hpower]
  exact magnitude_strictMono.lt_iff_lt

/-- In the range of the normal numbers, truncation. -/
theorem narrow_normal {bits64 : UInt64} (hlow : 897 * 2 ^ 52 ≤ binary64.code bits64.toNat)
    (hhigh : binary64.code bits64.toNat < 1151 * 2 ^ 52) :
    binary32.code (narrowF64BitsToF32Bits bits64).toNat
        = truncate binary32 binary64 (binary64.code bits64.toNat) ∧
      binary32.IsNormal (narrowF64BitsToF32Bits bits64).toNat := by
  have hnumber : binary64.IsNumber bits64.toNat :=
    Nat.le_trans hhigh.le (show 1151 * 2 ^ 52 ≤ 2047 * 2 ^ 52 by decide)
  have hcode : binary32.code (narrowF64BitsToF32Bits bits64).toNat
      = truncate binary32 binary64 (binary64.code bits64.toNat) := by
    rw [(narrow_code hnumber).1, narrowCode, if_neg (Nat.not_lt.mpr hlow),
      if_neg (Nat.not_le.mpr hhigh)]
  refine ⟨hcode, ?_⟩
  rw [IsNormal, hcode]
  show 2 ^ 23 ≤ (binary64.code bits64.toNat - 896 * 2 ^ 52) / 2 ^ 29 ∧
    (binary64.code bits64.toNat - 896 * 2 ^ 52) / 2 ^ 29 < 255 * 2 ^ 23
  omega

/-- The magnitudes of the finite patterns are those of the finite codes. -/
theorem exists_pattern_iff (q : ℚ) :
    (∃ bits32 : UInt32, binary32.IsFinite bits32.toNat ∧
        q = binary32.magnitude (binary32.code bits32.toNat)) ↔
      ∃ c, c < binary32.infinity ∧ q = binary32.magnitude c := by
  constructor
  · rintro ⟨bits32, hfinite, rfl⟩
    exact ⟨_, hfinite, rfl⟩
  · rintro ⟨c, hc, rfl⟩
    have hinfinity : c < 255 * 2 ^ 23 := hc
    have htoNat : (UInt32.ofNat c).toNat = c := UInt32.toNat_ofNat_of_lt' (by
      show c < 2 ^ 32
      omega)
    have hcode : binary32.code (UInt32.ofNat c).toNat = c := by
      rw [htoNat]
      show c % 2 ^ 31 = c
      omega
    exact ⟨UInt32.ofNat c, by rw [IsFinite, hcode]; exact hc, by rw [hcode]⟩

/-! ### Widening -/

/-- The three fields of a `double`, shifted to their places. -/
theorem toNat_fields64 {sign exponent mantissa : UInt64} (hsign : sign.toNat < 2)
    (hexponent : exponent.toNat < 2 ^ 11) (hmantissa : mantissa.toNat < 2 ^ 23) :
    (sign <<< 63 ||| exponent <<< 52 ||| mantissa <<< 29).toNat
      = sign.toNat * 2 ^ 63 + (exponent.toNat * 2 ^ 52 + mantissa.toNat * 2 ^ 29) := by
  have hs : (sign <<< 63).toNat = sign.toNat * 2 ^ 63 := by
    simp [Nat.shiftLeft_eq]
    omega
  have he : (exponent <<< 52).toNat = exponent.toNat * 2 ^ 52 := by
    simp [Nat.shiftLeft_eq]
    omega
  have hm : (mantissa <<< 29).toNat = mantissa.toNat * 2 ^ 29 := by
    simp [Nat.shiftLeft_eq]
    omega
  have hmiddle : exponent.toNat * 2 ^ 52 + mantissa.toNat * 2 ^ 29 < 2 ^ 63 := by
    clear hs he hm
    omega
  have hlow : mantissa.toNat * 2 ^ 29 < 2 ^ 52 := by
    clear hs he hm hmiddle
    omega
  rw [UInt64.or_assoc, UInt64.toNat_or, UInt64.toNat_or, hs, he, hm, or_eq_add hlow,
    or_eq_add hmiddle]

/-- A normal float widened: the exponent rebiased, the mantissa shifted. -/
theorem doubleOfFloat_normal {bits32 : UInt32} (h : binary32.IsNormal bits32.toNat) :
    (doubleOfFloat bits32).toNat
      = bits32.toNat / 2 ^ 31 * 2 ^ 63 + ((bits32.toNat / 2 ^ 23 % 2 ^ 8 + 896) * 2 ^ 52
        + bits32.toNat % 2 ^ 23 * 2 ^ 29) := by
  obtain ⟨hlow, hhigh⟩ : 2 ^ 23 ≤ bits32.toNat % 2 ^ 31 ∧ bits32.toNat % 2 ^ 31 < 255 * 2 ^ 23 := h
  -- The fields of the float, as numbers.
  have hexp : ((bits32 >>> 23) &&& 0xff).toUInt64.toNat = bits32.toNat / 2 ^ 23 % 2 ^ 8 := by
    have hmask := Nat.and_two_pow_sub_one_eq_mod (bits32.toNat / 2 ^ 23) 8
    simp [Nat.shiftRight_eq_div_pow] at hmask ⊢
    exact hmask
  have hmant : (bits32 &&& 0x7fffff).toUInt64.toNat = bits32.toNat % 2 ^ 23 := by
    have hmask := Nat.and_two_pow_sub_one_eq_mod bits32.toNat 23
    simp at hmask ⊢
    exact hmask
  have hsign : (bits32 >>> 31).toUInt64.toNat = bits32.toNat / 2 ^ 31 := by
    simp [Nat.shiftRight_eq_div_pow]
  have hroom := bits32.toNat_lt
  unfold doubleOfFloat
  dsimp only
  generalize ((bits32 >>> 23) &&& 0xff).toUInt64 = biasedExp32 at hexp ⊢
  generalize (bits32 &&& 0x7fffff).toUInt64 = mantissa32 at hmant ⊢
  generalize (bits32 >>> 31).toUInt64 = sign at hsign ⊢
  -- The exponent of a normal float is neither of the two special ones.
  have hmax : ¬ biasedExp32 = 0xff := by
    rintro rfl
    have hmax : 255 = bits32.toNat / 2 ^ 23 % 2 ^ 8 := hexp
    omega
  have hzero : ¬ biasedExp32 = 0 := by
    rintro rfl
    have hzero : 0 = bits32.toNat / 2 ^ 23 % 2 ^ 8 := hexp
    omega
  -- So rebiasing it does not wrap.
  have hrebias : (biasedExp32 + 896).toNat = biasedExp32.toNat + 896 := by
    rw [UInt64.toNat_add]
    exact Nat.mod_eq_of_lt (by
      show biasedExp32.toNat + 896 < 2 ^ 64
      omega)
  rw [if_neg hmax, if_neg hzero, toNat_fields64 (by omega) (by omega) (by omega), hrebias, hexp,
    hmant, hsign]

/-- `static_cast<double>` on a normal `float`: the same sign, and the widened code. -/
theorem widened_code {bits32 : UInt32} (h : binary32.IsNormal bits32.toNat) :
    binary64.code (doubleOfFloat bits32).toNat
        = widen binary32 binary64 (binary32.code bits32.toNat) ∧
      binary64.negative (doubleOfFloat bits32).toNat = binary32.negative bits32.toNat := by
  have hroom := bits32.toNat_lt
  rw [doubleOfFloat_normal h]
  constructor
  · show (bits32.toNat / 2 ^ 31 * 2 ^ 63 + ((bits32.toNat / 2 ^ 23 % 2 ^ 8 + 896) * 2 ^ 52
      + bits32.toNat % 2 ^ 23 * 2 ^ 29)) % 2 ^ 63
        = (bits32.toNat % 2 ^ 31 + 896 * 2 ^ 23) * 2 ^ 29
    omega
  · show decide ((bits32.toNat / 2 ^ 31 * 2 ^ 63 + ((bits32.toNat / 2 ^ 23 % 2 ^ 8 + 896) * 2 ^ 52
      + bits32.toNat % 2 ^ 23 * 2 ^ 29)) / 2 ^ 63 % 2 = 1) = decide (bits32.toNat / 2 ^ 31 % 2 = 1)
    congr 2
    omega

/-- Widening keeps the number. -/
theorem widened_number {bits32 : UInt32} (h : binary32.IsNormal bits32.toNat) :
    binary64.number (doubleOfFloat bits32).toNat = binary32.number bits32.toNat := by
  obtain ⟨hcode, hnegative⟩ := widened_code h
  have hmagnitude : binary64.magnitude (widen binary32 binary64 (binary32.code bits32.toNat))
      = binary32.magnitude (binary32.code bits32.toNat) :=
    magnitude_widen (by decide) (by decide) h.1
  rw [number, number, hcode, hnegative, hmagnitude]

/-- A pattern of 32 bits by its sign and its code. -/
theorem pattern_ext {a b : UInt32} (hcode : binary32.code a.toNat = binary32.code b.toNat)
    (hnegative : binary32.negative a.toNat = binary32.negative b.toNat) : a = b := by
  have ha := a.toNat_lt
  have hb := b.toNat_lt
  have hcode' : a.toNat % 2 ^ 31 = b.toNat % 2 ^ 31 := hcode
  have hnegative' : a.toNat / 2 ^ 31 % 2 = 1 ↔ b.toNat / 2 ^ 31 % 2 = 1 :=
    decide_eq_decide.mp hnegative
  refine UInt32.toNat_inj.mp ?_
  omega

/-- So narrowing what was widened gives the same float. -/
theorem narrow_widened {bits32 : UInt32} (h : binary32.IsNormal bits32.toNat) :
    narrowF64BitsToF32Bits (doubleOfFloat bits32) = bits32 := by
  obtain ⟨hcode, hnegative⟩ := widened_code h
  obtain ⟨hlow, hhigh⟩ : 2 ^ 23 ≤ binary32.code bits32.toNat ∧
      binary32.code bits32.toNat < 255 * 2 ^ 23 := h
  have hwiden : binary64.code (doubleOfFloat bits32).toNat
      = (binary32.code bits32.toNat + 896 * 2 ^ 23) * 2 ^ 29 := hcode
  have hlow64 : 897 * 2 ^ 52 ≤ binary64.code (doubleOfFloat bits32).toNat := by omega
  have hnormal := narrow_normal hlow64 (by omega)
  have hnumber : binary64.IsNumber (doubleOfFloat bits32).toNat := by
    show binary64.code (doubleOfFloat bits32).toNat ≤ 2047 * 2 ^ 52
    omega
  refine pattern_ext ?_ ((narrow_code hnumber).2.trans hnegative)
  rw [hnormal.1, hcode]
  exact truncate_widen (by decide) _

/-! ### The conversion -/

/-- Narrowing is exact truncation wherever binary32 is normal, gives back what was widened, and is
monotone over all numbers. Outside, it gives zero or infinity with the sign of its argument. -/
theorem narrowing_truncates :
    (∀ bits64 : UInt64, binary64.IsFinite bits64.toNat →
      (2 : ℚ) ^ (-126 : ℤ) ≤ |binary64.number bits64.toNat| →
      |binary64.number bits64.toNat| < 2 ^ (128 : ℤ) →
      binary32.IsNormal (narrowF64BitsToF32Bits bits64).toNat ∧
      binary32.negative (narrowF64BitsToF32Bits bits64).toNat = binary64.negative bits64.toNat ∧
      IsGreatest {q | q ≤ |binary64.number bits64.toNat| ∧
          ∃ bits32 : UInt32, binary32.IsFinite bits32.toNat ∧ q = |binary32.number bits32.toNat|}
        |binary32.number (narrowF64BitsToF32Bits bits64).toNat|) ∧
    (∀ bits32 : UInt32, binary32.IsNormal bits32.toNat →
      binary64.number (doubleOfFloat bits32).toNat = binary32.number bits32.toNat ∧
      narrowF64BitsToF32Bits (doubleOfFloat bits32) = bits32) ∧
    (∀ a b : UInt64, binary64.IsNumber a.toNat → binary64.IsNumber b.toNat →
      binary64.value a.toNat ≤ binary64.value b.toNat →
      binary32.IsNumber (narrowF64BitsToF32Bits a).toNat ∧
      binary32.IsNumber (narrowF64BitsToF32Bits b).toNat ∧
      binary32.value (narrowF64BitsToF32Bits a).toNat
        ≤ binary32.value (narrowF64BitsToF32Bits b).toNat) ∧
    (∀ bits64 : UInt64, binary64.IsNumber bits64.toNat →
      binary32.negative (narrowF64BitsToF32Bits bits64).toNat = binary64.negative bits64.toNat ∧
      (binary64.IsFinite bits64.toNat → |binary64.number bits64.toNat| < 2 ^ (-126 : ℤ) →
        binary32.code (narrowF64BitsToF32Bits bits64).toNat = 0) ∧
      ((binary64.IsFinite bits64.toNat → 2 ^ (128 : ℤ) ≤ |binary64.number bits64.toNat|) →
        binary32.code (narrowF64BitsToF32Bits bits64).toNat = binary32.infinity)) := by
  refine ⟨?_, ?_, ?_, ?_⟩
  · -- A number in the range of normal floats is truncated to the greatest float below it.
    intro bits64 hfinite hlow hhigh
    rw [abs_number, le_magnitude_iff] at hlow
    rw [abs_number, magnitude_lt_iff] at hhigh
    obtain ⟨hcode, hnormal⟩ := narrow_normal hlow hhigh
    refine ⟨hnormal, (narrow_code hfinite.le).2, ?_⟩
    have hgreatest := isGreatest_truncate (N := binary32) (W := binary64) (by decide) (by decide)
      hlow (hcode ▸ hnormal.2)
    simp only [abs_number, hcode, exists_pattern_iff]
    exact hgreatest
  · -- A float that was widened comes back.
    intro bits32 hnormal
    exact ⟨widened_number hnormal, narrow_widened hnormal⟩
  · -- The order is kept.
    intro a b ha hb hab
    refine ⟨narrow_number ha, narrow_number hb, ?_⟩
    rw [value_le_iff (narrow_number ha) (narrow_number hb)]
    exact narrow_key ha hb ((value_le_iff ha hb).mp hab)
  · -- Outside that range it is zero or infinity.
    intro bits64 hnumber
    obtain ⟨hcode, hnegative⟩ := narrow_code hnumber
    refine ⟨hnegative, ?_, ?_⟩
    · intro _ hsmall
      rw [abs_number, ← not_le, le_magnitude_iff, Nat.not_le] at hsmall
      rw [hcode, narrowCode, if_pos hsmall]
    · intro hlarge
      have hhigh : 1151 * 2 ^ 52 ≤ binary64.code bits64.toNat := by
        by_cases hfinite : binary64.IsFinite bits64.toNat
        · have hmagnitude := hlarge hfinite
          rwa [abs_number, ← not_lt, magnitude_lt_iff, Nat.not_lt] at hmagnitude
        · have hinfinity : ¬ binary64.code bits64.toNat < 2047 * 2 ^ 52 := hfinite
          omega
      rw [hcode, narrowCode, if_neg (by omega), if_pos hhigh]

/-- The `double` next to one third. -/
theorem narrowing_truncates_third :
    narrowF64BitsToF32Bits 0x3fd5555555555555 = 0x3eaaaaaa ∧
      IsGreatest {q | q ≤ |binary64.number (0x3fd5555555555555 : UInt64).toNat| ∧
          ∃ bits32 : UInt32, binary32.IsFinite bits32.toNat ∧ q = |binary32.number bits32.toNat|}
        |binary32.number (narrowF64BitsToF32Bits 0x3fd5555555555555).toNat| := by
  have hfinite : binary64.IsFinite (0x3fd5555555555555 : UInt64).toNat := by
    unfold IsFinite
    decide
  have hlow : (2 : ℚ) ^ (-126 : ℤ) ≤ |binary64.number (0x3fd5555555555555 : UInt64).toNat| := by
    rw [abs_number, le_magnitude_iff]
    decide
  have hhigh : |binary64.number (0x3fd5555555555555 : UInt64).toNat| < 2 ^ (128 : ℤ) := by
    rw [abs_number, magnitude_lt_iff]
    decide
  exact ⟨by decide, (narrowing_truncates.1 _ hfinite hlow hhigh).2.2⟩

end SerialRpc
