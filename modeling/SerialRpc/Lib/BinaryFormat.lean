import Mathlib.Algebra.Order.Field.Power
import Mathlib.Algebra.Order.Ring.Rat
import Mathlib.Data.Int.ConditionallyCompleteOrder
import Mathlib.Order.ConditionallyCompleteLattice.Basic
import Mathlib.Order.WithBot
import Mathlib.Tactic.FieldSimp
import Mathlib.Tactic.Ring

/-!
# `SerialRpc.Lib.BinaryFormat`: binary floating-point formats

The interchange formats of IEEE 754 with any widths. A pattern is a natural number: the sign above
the exponent above the mantissa. Without its sign it is the `code`. The codes count the
representable magnitudes upwards, which `units_succ` says, and so comparing values is comparing
codes.

* `units_strictMono`, `magnitude_strictMono`: a larger code is a larger magnitude.
* `value_le_iff`: values compare as the signed codes, `key`, do.
* `isGreatest_truncate`: dropping low bits of the mantissa and rebiasing gives the largest
  magnitude of the narrow format that does not exceed the wide one.
* `magnitude_widen`, `truncate_widen`: the other way round nothing is lost.
-/

set_option autoImplicit false

/-- The widths of the exponent and of the mantissa. -/
structure BinaryFormat where
  exponentBits : Nat
  mantissaBits : Nat
  exponentBits_pos : 0 < exponentBits

namespace BinaryFormat

variable (F : BinaryFormat)

/-- The exponent of 1. -/
def bias : Nat := 2 ^ (F.exponentBits - 1) - 1

/-- The pattern without its sign. -/
def code (bits : Nat) : Nat := bits % 2 ^ (F.exponentBits + F.mantissaBits)

/-- The sign. -/
def negative (bits : Nat) : Bool := bits / 2 ^ (F.exponentBits + F.mantissaBits) % 2 = 1

/-- The code of infinity. The codes above it are those of NaN. -/
def infinity : Nat := (2 ^ F.exponentBits - 1) * 2 ^ F.mantissaBits

/-- Neither infinity nor NaN. -/
def IsFinite (bits : Nat) : Prop := F.code bits < F.infinity

/-- No NaN. -/
def IsNumber (bits : Nat) : Prop := F.code bits ≤ F.infinity

/-- Finite, and neither zero nor subnormal. -/
def IsNormal (bits : Nat) : Prop := 2 ^ F.mantissaBits ≤ F.code bits ∧ F.code bits < F.infinity

/-- The magnitude of a code, counted in the smallest subnormals. -/
def units (code : Nat) : Nat :=
  let exponent := code / 2 ^ F.mantissaBits
  let mantissa := code % 2 ^ F.mantissaBits
  if exponent = 0 then mantissa else (2 ^ F.mantissaBits + mantissa) * 2 ^ (exponent - 1)

/-- The smallest subnormal. -/
def unit : ℚ := 2 ^ (1 - (F.bias : ℤ) - F.mantissaBits)

/-- The magnitude of a code. -/
def magnitude (code : Nat) : ℚ := F.units code * F.unit

/-- The number that a finite pattern represents. -/
def number (bits : Nat) : ℚ :=
  if F.negative bits then -F.magnitude (F.code bits) else F.magnitude (F.code bits)

/-- The value of a pattern that is no NaN. -/
def value (bits : Nat) : WithBot (WithTop ℚ) :=
  if F.code bits = F.infinity then if F.negative bits then ⊥ else ⊤
  else ((F.number bits : WithTop ℚ) : WithBot (WithTop ℚ))

/-- The code with the sign. -/
def key (bits : Nat) : ℤ := if F.negative bits then -(F.code bits : ℤ) else F.code bits

variable {F}

/-! ### Codes count the magnitudes -/

/-- The units of a code by its fields. -/
theorem units_fields (exponent : Nat) {mantissa : Nat} (h : mantissa < 2 ^ F.mantissaBits) :
    F.units (exponent * 2 ^ F.mantissaBits + mantissa)
      = if exponent = 0 then mantissa
        else (2 ^ F.mantissaBits + mantissa) * 2 ^ (exponent - 1) := by
  have hdiv : (exponent * 2 ^ F.mantissaBits + mantissa) / 2 ^ F.mantissaBits = exponent := by
    rw [Nat.mul_comm, Nat.mul_add_div (Nat.two_pow_pos _), Nat.div_eq_of_lt h, Nat.add_zero]
  have hmod : (exponent * 2 ^ F.mantissaBits + mantissa) % 2 ^ F.mantissaBits = mantissa := by
    rw [Nat.mul_comm, Nat.mul_add_mod, Nat.mod_eq_of_lt h]
  simp only [units, hdiv, hmod]

/-- The next code is one unit in the last place further. -/
theorem units_succ (code : Nat) :
    F.units (code + 1) = F.units code + 2 ^ (code / 2 ^ F.mantissaBits - 1) := by
  obtain ⟨exponent, mantissa, hmantissa, rfl⟩ :
      ∃ exponent mantissa, mantissa < 2 ^ F.mantissaBits ∧
        code = exponent * 2 ^ F.mantissaBits + mantissa :=
    ⟨code / 2 ^ F.mantissaBits, code % 2 ^ F.mantissaBits, Nat.mod_lt _ (Nat.two_pow_pos _),
      (Nat.div_add_mod' code _).symm⟩
  have hdiv : (exponent * 2 ^ F.mantissaBits + mantissa) / 2 ^ F.mantissaBits = exponent := by
    rw [Nat.mul_comm, Nat.mul_add_div (Nat.two_pow_pos _), Nat.div_eq_of_lt hmantissa,
      Nat.add_zero]
  rw [hdiv, units_fields exponent hmantissa]
  by_cases hcarry : mantissa + 1 < 2 ^ F.mantissaBits
  · rw [Nat.add_assoc, units_fields exponent hcarry]
    split
    · rename_i hzero
      rw [hzero]
      rfl
    · ring
  · -- The mantissa is full, and the exponent takes the carry.
    have hfull : mantissa + 1 = 2 ^ F.mantissaBits := by omega
    have hnext : exponent * 2 ^ F.mantissaBits + mantissa + 1
        = (exponent + 1) * 2 ^ F.mantissaBits + 0 := by
      rw [Nat.add_assoc, hfull]
      ring
    rw [hnext, units_fields (exponent + 1) (Nat.two_pow_pos _), if_neg (Nat.succ_ne_zero _),
      ← hfull]
    cases exponent with
    | zero => simp
    | succ e =>
        rw [if_neg (Nat.succ_ne_zero e), Nat.add_sub_cancel, Nat.add_sub_cancel, Nat.pow_succ]
        ring

/-- A greater code has more units. -/
theorem units_strictMono : StrictMono F.units := by
  refine strictMono_nat_of_lt_succ fun code => ?_
  rw [units_succ]
  exact Nat.lt_add_of_pos_right (Nat.two_pow_pos _)

/-- The unit, the smallest magnitude that is not zero, is positive. -/
theorem unit_pos : 0 < F.unit := zpow_pos (by norm_num) _

/-- Magnitudes are ordered as their codes are. -/
theorem magnitude_strictMono : StrictMono F.magnitude := by
  intro a b hab
  have hunits : (F.units a : ℚ) < F.units b := Nat.cast_lt.mpr (units_strictMono hab)
  exact mul_lt_mul_of_pos_right hunits unit_pos

/-- The code of zero. -/
theorem magnitude_zero : F.magnitude 0 = 0 := by
  have hunits : F.units 0 = 0 := by simp [units]
  rw [magnitude, hunits, Nat.cast_zero, zero_mul]

/-- No magnitude is negative. -/
theorem magnitude_nonneg (code : Nat) : 0 ≤ F.magnitude code := by
  rw [← magnitude_zero (F := F)]
  exact magnitude_strictMono.monotone (Nat.zero_le code)

/-- The sign bit decides nothing but the sign. -/
theorem abs_number (bits : Nat) : |F.number bits| = F.magnitude (F.code bits) := by
  unfold number
  split
  · rw [abs_neg, abs_of_nonneg (magnitude_nonneg _)]
  · rw [abs_of_nonneg (magnitude_nonneg _)]

/-- The first code of an exponent is a power of two. -/
theorem magnitude_exponent {exponent : Nat} (h : exponent ≠ 0) :
    F.magnitude (exponent * 2 ^ F.mantissaBits) = 2 ^ ((exponent : ℤ) - F.bias) := by
  have hunits := units_fields (F := F) exponent (Nat.two_pow_pos F.mantissaBits)
  rw [Nat.add_zero, if_neg h, Nat.add_zero] at hunits
  obtain ⟨e, rfl⟩ := Nat.exists_eq_succ_of_ne_zero h
  rw [magnitude, hunits, unit, Nat.succ_eq_add_one, Nat.add_sub_cancel]
  push_cast
  rw [← zpow_natCast, ← zpow_natCast, ← zpow_add₀ (by norm_num), ← zpow_add₀ (by norm_num)]
  congr 1
  ring

/-! ### Values and signed codes -/

/-- The magnitudes, carried on to the negative codes. -/
def signed (F : BinaryFormat) (key : ℤ) : ℚ :=
  if key < 0 then -F.magnitude key.natAbs else F.magnitude key.natAbs

/-- Signed codes are ordered as the numbers they stand for. -/
theorem signed_strictMono : StrictMono F.signed := by
  intro a b hab
  unfold signed
  split <;> split
  · -- Both negative: the larger code is the smaller number.
    have habs : b.natAbs < a.natAbs := by omega
    exact neg_lt_neg (magnitude_strictMono habs)
  · rename_i ha hb
    have hpos : 0 < F.magnitude a.natAbs := by
      rw [← magnitude_zero (F := F)]
      exact magnitude_strictMono (by omega)
    have hnonneg := magnitude_nonneg (F := F) b.natAbs
    exact lt_of_lt_of_le (neg_neg_of_pos hpos) hnonneg
  · omega
  · exact magnitude_strictMono (by omega)

/-- The number that a pattern represents is the one of its key. -/
theorem number_eq (bits : Nat) : F.number bits = F.signed (F.key bits) := by
  unfold number key signed
  by_cases hneg : F.negative bits = true
  · rw [if_pos hneg, if_pos hneg]
    by_cases hzero : F.code bits = 0
    · simp [hzero, magnitude_zero]
    · rw [if_pos (by omega), Int.natAbs_neg, Int.natAbs_natCast]
  · rw [if_neg hneg, if_neg hneg, if_neg (by omega), Int.natAbs_natCast]

/-- There are finite codes below that of infinity. -/
theorem infinity_pos : 0 < F.infinity := by
  have hexponent : 1 < 2 ^ F.exponentBits := Nat.one_lt_two_pow F.exponentBits_pos.ne'
  exact Nat.mul_pos (by omega) (Nat.two_pow_pos _)

/-- The values, in the order of the signed codes. -/
def extended (F : BinaryFormat) (key : ℤ) : WithBot (WithTop ℚ) :=
  if key = F.infinity then ⊤ else if key = -F.infinity then ⊥
  else ((F.signed key : WithTop ℚ) : WithBot (WithTop ℚ))

/-- Between the infinities the order of the codes is that of the extended numbers. -/
theorem extended_strictMono :
    StrictMonoOn F.extended (Set.Icc (-F.infinity : ℤ) F.infinity) := by
  intro a ha b hb hab
  have ha' : a ≠ F.infinity := (lt_of_lt_of_le hab hb.2).ne
  have hb' : b ≠ -F.infinity := (lt_of_le_of_lt ha.1 hab).ne'
  have hfinite (q : ℚ) : ((q : WithTop ℚ) : WithBot (WithTop ℚ)) < ⊤ :=
    WithBot.coe_lt_coe.mpr (WithTop.coe_lt_top q)
  unfold extended
  rw [if_neg ha', if_neg hb']
  split <;> split
  · exact bot_lt_top
  · exact WithBot.bot_lt_coe _
  · exact hfinite _
  · exact WithBot.coe_lt_coe.mpr (WithTop.coe_lt_coe.mpr (signed_strictMono hab))

/-- The value of a pattern is the one of its key. -/
theorem value_eq (bits : Nat) : F.value bits = F.extended (F.key bits) := by
  have hpos := infinity_pos (F := F)
  have hkey : F.key bits = if F.negative bits then -(F.code bits : ℤ) else F.code bits := rfl
  unfold value extended
  by_cases hcode : F.code bits = F.infinity
  · rw [if_pos hcode]
    cases hneg : F.negative bits with
    | true =>
        rw [hneg, if_pos rfl, hcode] at hkey
        rw [if_pos rfl, if_neg (by omega), if_pos hkey]
    | false =>
        rw [hneg, if_neg Bool.false_ne_true, hcode] at hkey
        rw [if_neg Bool.false_ne_true, if_pos hkey]
  · have hfinite : F.key bits ≠ F.infinity ∧ F.key bits ≠ -F.infinity := by
      rw [hkey]
      split <;> omega
    rw [if_neg hcode, if_neg hfinite.1, if_neg hfinite.2, number_eq]

/-- The key of a number lies between those of the infinities. -/
theorem key_mem {bits : Nat} (h : F.IsNumber bits) :
    F.key bits ∈ Set.Icc (-F.infinity : ℤ) F.infinity := by
  have hcode : F.code bits ≤ F.infinity := h
  unfold key
  split <;> constructor <;> omega

/-- Values compare as the keys do. -/
theorem value_le_iff {a b : Nat} (ha : F.IsNumber a) (hb : F.IsNumber b) :
    F.value a ≤ F.value b ↔ F.key a ≤ F.key b := by
  rw [value_eq, value_eq]
  exact extended_strictMono.le_iff_le (key_mem ha) (key_mem hb)

/-! ### Truncation -/

variable {N W : BinaryFormat}

/-- A code of the wide format `W` in the narrow format `N`, for the magnitudes that are normal
there: the low bits of the mantissa dropped and the exponent rebiased. -/
def truncate (N W : BinaryFormat) (code : Nat) : Nat :=
  (code - (W.bias - N.bias) * 2 ^ W.mantissaBits) / 2 ^ (W.mantissaBits - N.mantissaBits)

/-- Truncating to the narrower format keeps the order. -/
theorem truncate_monotone : Monotone (truncate N W) := by
  intro a b hab
  exact Nat.div_le_div_right (Nat.sub_le_sub_right hab _)

/-- The two units. -/
theorem unit_eq (hbias : N.bias ≤ W.bias) (hmantissa : N.mantissaBits ≤ W.mantissaBits) :
    N.unit = 2 ^ ((W.bias - N.bias) + (W.mantissaBits - N.mantissaBits)) * W.unit := by
  have hcast : (((W.bias - N.bias) + (W.mantissaBits - N.mantissaBits) : Nat) : ℤ)
      = (W.bias - N.bias) + (W.mantissaBits - N.mantissaBits) := by
    push_cast [Nat.cast_sub hbias, Nat.cast_sub hmantissa]
    rfl
  rw [unit, unit, ← zpow_natCast, ← zpow_add₀ (by norm_num), hcast]
  congr 1
  ring

/-- A code of an exponent that is normal in both formats, by its fields. -/
theorem truncate_fields (hmantissa : N.mantissaBits ≤ W.mantissaBits) (exponent mantissa : Nat) :
    truncate N W ((W.bias - N.bias + exponent) * 2 ^ W.mantissaBits + mantissa)
      = exponent * 2 ^ N.mantissaBits + mantissa / 2 ^ (W.mantissaBits - N.mantissaBits) := by
  have hsplit : 2 ^ W.mantissaBits
      = 2 ^ (W.mantissaBits - N.mantissaBits) * 2 ^ N.mantissaBits := by
    rw [← Nat.pow_add, Nat.sub_add_cancel hmantissa]
  have hsub : (W.bias - N.bias + exponent) * 2 ^ W.mantissaBits + mantissa
      - (W.bias - N.bias) * 2 ^ W.mantissaBits = exponent * 2 ^ W.mantissaBits + mantissa := by
    rw [Nat.add_mul]
    omega
  have hfactor : exponent * 2 ^ W.mantissaBits
      = 2 ^ (W.mantissaBits - N.mantissaBits) * (exponent * 2 ^ N.mantissaBits) := by
    rw [hsplit]
    ring
  rw [truncate, hsub, hfactor, Nat.mul_add_div (Nat.two_pow_pos _)]

/-- In the units of the wide format, its code lies between the truncated one and the next. -/
theorem truncate_units (hmantissa : N.mantissaBits ≤ W.mantissaBits) {exponent mantissa : Nat}
    (hexponent : exponent ≠ 0) (hlow : mantissa < 2 ^ W.mantissaBits) :
    let code := (W.bias - N.bias + exponent) * 2 ^ W.mantissaBits + mantissa
    let scale := 2 ^ ((W.bias - N.bias) + (W.mantissaBits - N.mantissaBits))
    N.units (truncate N W code) * scale ≤ W.units code ∧
      W.units code < N.units (truncate N W code + 1) * scale := by
  intro code scale
  obtain ⟨e, rfl⟩ := Nat.exists_eq_succ_of_ne_zero hexponent
  have hsplit : 2 ^ W.mantissaBits
      = 2 ^ N.mantissaBits * 2 ^ (W.mantissaBits - N.mantissaBits) := by
    rw [← Nat.pow_add, Nat.add_sub_cancel' hmantissa]
  -- `kept` is what is left of the mantissa, and `ulp` its last place in the wide format.
  obtain ⟨kept, hkept⟩ : ∃ kept, kept = mantissa / 2 ^ (W.mantissaBits - N.mantissaBits) :=
    ⟨_, rfl⟩
  have hroom : kept < 2 ^ N.mantissaBits := by
    rw [hkept, Nat.div_lt_iff_lt_mul (Nat.two_pow_pos _), ← hsplit]
    exact hlow
  have hwide : W.units code = (2 ^ W.mantissaBits + mantissa) * 2 ^ (W.bias - N.bias + e) := by
    have hne : W.bias - N.bias + (e + 1) ≠ 0 := by omega
    rw [show code = (W.bias - N.bias + (e + 1)) * 2 ^ W.mantissaBits + mantissa from rfl,
      units_fields _ hlow, if_neg hne]
    rfl
  have hcode : truncate N W code = (e + 1) * 2 ^ N.mantissaBits + kept := by
    rw [hkept]
    exact truncate_fields hmantissa (e + 1) mantissa
  have hnarrow : N.units (truncate N W code) = (2 ^ N.mantissaBits + kept) * 2 ^ e := by
    rw [hcode, units_fields _ hroom, if_neg (Nat.succ_ne_zero e), Nat.add_sub_cancel]
  have hnext : N.units (truncate N W code + 1) = (2 ^ N.mantissaBits + kept + 1) * 2 ^ e := by
    have hdiv : truncate N W code / 2 ^ N.mantissaBits = e + 1 := by
      rw [hcode, Nat.mul_comm, Nat.mul_add_div (Nat.two_pow_pos _), Nat.div_eq_of_lt hroom,
        Nat.add_zero]
    rw [units_succ, hnarrow, hdiv, Nat.add_sub_cancel]
    ring
  have hscale (x : Nat) : x * 2 ^ e * scale
      = x * 2 ^ (W.mantissaBits - N.mantissaBits) * 2 ^ (W.bias - N.bias + e) := by
    rw [show scale = 2 ^ ((W.bias - N.bias) + (W.mantissaBits - N.mantissaBits)) from rfl,
      Nat.pow_add, Nat.pow_add]
    ring
  have hdivmod := Nat.div_add_mod mantissa (2 ^ (W.mantissaBits - N.mantissaBits))
  have hmod := Nat.mod_lt mantissa (Nat.two_pow_pos (W.mantissaBits - N.mantissaBits))
  rw [← hkept] at hdivmod
  rw [hwide, hnarrow, hnext, hscale, hscale]
  constructor
  · refine Nat.mul_le_mul_right _ ?_
    rw [Nat.add_mul, ← hsplit, Nat.mul_comm kept]
    omega
  · refine Nat.mul_lt_mul_of_pos_right ?_ (Nat.two_pow_pos _)
    rw [Nat.add_mul, Nat.add_mul, ← hsplit, Nat.mul_comm kept]
    omega

/-- The wide magnitude lies between the truncated one and the next. -/
theorem truncate_bounds (hbias : N.bias ≤ W.bias) (hmantissa : N.mantissaBits ≤ W.mantissaBits)
    {code : Nat} (hcode : (W.bias - N.bias + 1) * 2 ^ W.mantissaBits ≤ code) :
    N.magnitude (truncate N W code) ≤ W.magnitude code ∧
      W.magnitude code < N.magnitude (truncate N W code + 1) := by
  have hexponent : W.bias - N.bias + 1 ≤ code / 2 ^ W.mantissaBits :=
    (Nat.le_div_iff_mul_le (Nat.two_pow_pos _)).mpr hcode
  obtain ⟨k, hk⟩ := Nat.exists_eq_add_of_le hexponent
  have hfields : code
      = (W.bias - N.bias + (k + 1)) * 2 ^ W.mantissaBits + code % 2 ^ W.mantissaBits := by
    have hadd : W.bias - N.bias + (k + 1) = W.bias - N.bias + 1 + k := by omega
    rw [hadd, ← hk, Nat.div_add_mod']
  have hunits := truncate_units (N := N) hmantissa (Nat.succ_ne_zero k)
    (Nat.mod_lt code (Nat.two_pow_pos W.mantissaBits))
  rw [Nat.succ_eq_add_one, ← hfields] at hunits
  obtain ⟨hle, hlt⟩ := hunits
  have hpos := unit_pos (F := W)
  rw [magnitude, magnitude, magnitude, unit_eq hbias hmantissa, ← mul_assoc, ← mul_assoc]
  constructor
  · exact mul_le_mul_of_nonneg_right (by exact_mod_cast hle) hpos.le
  · exact mul_lt_mul_of_pos_right (by exact_mod_cast hlt) hpos

/-- The truncated code has the largest magnitude of a narrow code that does not exceed the wide
one. -/
theorem isGreatest_truncate (hbias : N.bias ≤ W.bias)
    (hmantissa : N.mantissaBits ≤ W.mantissaBits) {code : Nat}
    (hcode : (W.bias - N.bias + 1) * 2 ^ W.mantissaBits ≤ code)
    (hfinite : truncate N W code < N.infinity) :
    IsGreatest {q | q ≤ W.magnitude code ∧ ∃ c, c < N.infinity ∧ q = N.magnitude c}
      (N.magnitude (truncate N W code)) := by
  obtain ⟨hle, hlt⟩ := truncate_bounds hbias hmantissa hcode
  refine ⟨⟨hle, _, hfinite, rfl⟩, ?_⟩
  rintro q ⟨hq, c, -, rfl⟩
  have hc : c < truncate N W code + 1 := magnitude_strictMono.lt_iff_lt.mp (lt_of_le_of_lt hq hlt)
  exact magnitude_strictMono.monotone (Nat.le_of_lt_succ hc)

/-! ### Widening -/

/-- A normal code of the narrow format `N` in the wide format `W`. -/
def widen (N W : BinaryFormat) (code : Nat) : Nat :=
  (code + (W.bias - N.bias) * 2 ^ N.mantissaBits) * 2 ^ (W.mantissaBits - N.mantissaBits)

/-- Truncation gives back what was widened. -/
theorem truncate_widen (hmantissa : N.mantissaBits ≤ W.mantissaBits) (code : Nat) :
    truncate N W (widen N W code) = code := by
  have hsplit : 2 ^ W.mantissaBits
      = 2 ^ N.mantissaBits * 2 ^ (W.mantissaBits - N.mantissaBits) := by
    rw [← Nat.pow_add, Nat.add_sub_cancel' hmantissa]
  rw [truncate, widen, hsplit, ← Nat.mul_assoc, ← Nat.sub_mul, Nat.add_sub_cancel,
    Nat.mul_div_cancel _ (Nat.two_pow_pos _)]

/-- Widening keeps the magnitude of a code that is not subnormal. -/
theorem magnitude_widen (hbias : N.bias ≤ W.bias) (hmantissa : N.mantissaBits ≤ W.mantissaBits)
    {code : Nat} (hcode : 2 ^ N.mantissaBits ≤ code) :
    W.magnitude (widen N W code) = N.magnitude code := by
  have hsplit : 2 ^ W.mantissaBits
      = 2 ^ N.mantissaBits * 2 ^ (W.mantissaBits - N.mantissaBits) := by
    rw [← Nat.pow_add, Nat.add_sub_cancel' hmantissa]
  -- A normal code has an exponent of at least one, and a mantissa below it.
  obtain ⟨e, mantissa, hlow, rfl⟩ : ∃ e mantissa, mantissa < 2 ^ N.mantissaBits ∧
      code = (e + 1) * 2 ^ N.mantissaBits + mantissa := by
    have hexponent : 1 ≤ code / 2 ^ N.mantissaBits :=
      (Nat.le_div_iff_mul_le (Nat.two_pow_pos _)).mpr (by rwa [Nat.one_mul])
    refine ⟨code / 2 ^ N.mantissaBits - 1, code % 2 ^ N.mantissaBits,
      Nat.mod_lt _ (Nat.two_pow_pos _), ?_⟩
    rw [Nat.sub_add_cancel hexponent, Nat.div_add_mod']
  -- The widened mantissa fits the wider field, so the code of the wide format splits the same way.
  have hwide : mantissa * 2 ^ (W.mantissaBits - N.mantissaBits) < 2 ^ W.mantissaBits := by
    rw [hsplit]
    exact Nat.mul_lt_mul_of_pos_right hlow (Nat.two_pow_pos _)
  have hfields : widen N W ((e + 1) * 2 ^ N.mantissaBits + mantissa)
      = (W.bias - N.bias + e + 1) * 2 ^ W.mantissaBits
        + mantissa * 2 ^ (W.mantissaBits - N.mantissaBits) := by
    rw [widen, hsplit]
    ring
  -- In units of the wide format the number is a power of two larger, which the two biases make up
  -- for.
  have hunits : W.units (widen N W ((e + 1) * 2 ^ N.mantissaBits + mantissa))
      = N.units ((e + 1) * 2 ^ N.mantissaBits + mantissa)
        * 2 ^ ((W.bias - N.bias) + (W.mantissaBits - N.mantissaBits)) := by
    rw [hfields, units_fields _ hwide, units_fields _ hlow, if_neg (Nat.succ_ne_zero _),
      if_neg (Nat.succ_ne_zero _), Nat.add_sub_cancel, Nat.add_sub_cancel, hsplit, Nat.pow_add,
      Nat.pow_add]
    ring
  rw [magnitude, magnitude, hunits, unit_eq hbias hmantissa]
  push_cast
  ring

end BinaryFormat
