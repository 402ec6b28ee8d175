import Mathlib.Algebra.Field.ZMod
import Mathlib.Algebra.Polynomial.FieldDivision
import Mathlib.Data.ZMod.Basic
import Mathlib.Tactic.Ring
import SerialRpc.Lib.BigEndian

/-!
# `SerialRpc.Lib.BitPoly`: bit strings as polynomials over the field of two elements

A bit string is the polynomial whose coefficients are its bits, the first bit at the
highest power (`ofBits`). Exclusive or is addition, appending is a shift and an addition.

The bits of a number and of a list of bytes come most significant bit first (`bitsOf`,
`bits`), so that a word shifted left is the string with zeros behind it.

What a cyclic code with generator `g` cannot miss:

* `not_dvd_of_odd`: an odd number of set bits, when `1` is a root of `g`.
* `not_dvd_of_burst`: set bits within `g.natDegree` consecutive positions, when `g` has a
  constant term.
-/

set_option autoImplicit false

namespace BitPoly

open Polynomial

/-! ### Bit strings -/

/-- A bit as a coefficient. -/
def ofBit (b : Bool) : ZMod 2 := if b then 1 else 0

/-- The polynomial of a bit string. -/
noncomputable def ofBits : List Bool → (ZMod 2)[X]
  | [] => 0
  | b :: bs => C (ofBit b) * X ^ bs.length + ofBits bs

/-- No bits are the polynomial zero. -/
@[simp] theorem ofBits_nil : ofBits [] = 0 := rfl

/-- The first bit is the leading coefficient. -/
theorem ofBits_cons (b : Bool) (bs : List Bool) :
    ofBits (b :: bs) = C (ofBit b) * X ^ bs.length + ofBits bs := rfl

/-- Adding coefficients of `ZMod 2` is exclusive or. -/
theorem ofBit_xor (a b : Bool) : ofBit (a ^^ b) = ofBit a + ofBit b := by
  cases a <;> cases b <;> decide

/-- The front of a list is shifted by the length of its back. -/
theorem ofBits_append (as bs : List Bool) :
    ofBits (as ++ bs) = ofBits as * X ^ bs.length + ofBits bs := by
  induction as with
  | nil => simp
  | cons a as ih =>
      rw [List.cons_append, ofBits_cons, ofBits_cons, ih, List.length_append, pow_add]
      ring

/-- Exclusive or is addition. -/
theorem ofBits_xor {as bs : List Bool} (h : as.length = bs.length) :
    ofBits (as.zipWith xor bs) = ofBits as + ofBits bs := by
  induction as generalizing bs with
  | nil =>
      cases bs with
      | nil => simp
      | cons b bs => cases h
  | cons a as ih =>
      cases bs with
      | nil => cases h
      | cons b bs =>
          have hlen : as.length = bs.length := Nat.succ.inj h
          rw [List.zipWith_cons_cons, ofBits_cons, ofBits_cons, ofBits_cons, ih hlen,
            List.length_zipWith, hlen, Nat.min_self, ofBit_xor, C_add]
          ring

/-- Bits that are all off are the polynomial zero. -/
theorem ofBits_false {bs : List Bool} (h : ∀ b ∈ bs, b = false) : ofBits bs = 0 := by
  induction bs with
  | nil => rfl
  | cons b bs ih =>
      obtain ⟨hb, hbs⟩ := List.forall_mem_cons.mp h
      rw [ofBits_cons, ih hbs, hb]
      simp [ofBit]

/-- So are `n` of them. -/
theorem ofBits_replicate_false (n : Nat) : ofBits (List.replicate n false) = 0 :=
  ofBits_false fun _ hb => List.eq_of_mem_replicate hb

/-- The degree is below the number of the bits. -/
theorem degree_ofBits_lt (bs : List Bool) : (ofBits bs).degree < bs.length := by
  induction bs with
  | nil => simp
  | cons b bs ih =>
      rw [ofBits_cons, List.length_cons]
      refine (degree_add_le _ _).trans_lt (max_lt ?_ ?_)
      · exact (degree_C_mul_X_pow_le _ _).trans_lt (by exact_mod_cast Nat.lt_succ_self _)
      · exact ih.trans (by exact_mod_cast Nat.lt_succ_self _)

/-- The first bit is the coefficient of the highest power, which the others do not reach. -/
theorem coeff_ofBits_cons (b : Bool) (bs : List Bool) :
    (ofBits (b :: bs)).coeff bs.length = ofBit b := by
  rw [ofBits_cons, coeff_add, coeff_C_mul, coeff_X_pow_self,
    coeff_eq_zero_of_degree_lt (degree_ofBits_lt bs), mul_one, add_zero]

/-- Only bits that are all off are the polynomial zero. -/
theorem ofBits_eq_zero {bs : List Bool} (h : ofBits bs = 0) : ∀ b ∈ bs, b = false := by
  induction bs with
  | nil =>
      intro b hb
      cases hb
  | cons b bs ih =>
      have hb : b = false := by
        have hcoeff := coeff_ofBits_cons b bs
        rw [h, coeff_zero] at hcoeff
        cases b with
        | false => rfl
        | true => exact absurd hcoeff.symm (by decide)
      rw [ofBits_cons, hb] at h
      exact List.forall_mem_cons.mpr ⟨hb, ih (by simpa [ofBit] using h)⟩

/-- The value at one is the parity of the bits. -/
theorem eval_one_ofBits (bs : List Bool) : (ofBits bs).eval 1 = (bs.count true : ZMod 2) := by
  induction bs with
  | nil => simp
  | cons b bs ih =>
      rw [ofBits_cons, eval_add, ih, List.count_cons]
      cases b <;> simp [ofBit, add_comm]

/-! ### What a generator cannot divide -/

/-- An odd number of set bits. -/
theorem not_dvd_of_odd {g : (ZMod 2)[X]} (hroot : g.eval 1 = 0) {bs : List Bool}
    (hodd : Odd (bs.count true)) : ¬ g ∣ ofBits bs := by
  rintro ⟨q, hq⟩
  have heval := eval_one_ofBits bs
  rw [hq, eval_mul, hroot, zero_mul] at heval
  rw [← ZMod.natCast_eq_one_iff_odd, ← heval] at hodd
  exact zero_ne_one hodd

/-- A short string that is not all zeros. -/
theorem not_dvd_of_length_le {g : (ZMod 2)[X]} {bs : List Bool} (hlen : bs.length ≤ g.natDegree)
    (hset : true ∈ bs) : ¬ g ∣ ofBits bs := by
  intro hdvd
  by_cases hg : g = 0
  · rw [hg, natDegree_zero] at hlen
    rw [List.length_eq_zero_iff.mp (Nat.le_zero.mp hlen)] at hset
    cases hset
  · have hzero := eq_zero_of_dvd_of_degree_lt hdvd (by
      rw [degree_eq_natDegree hg]
      exact (degree_ofBits_lt bs).trans_le (by exact_mod_cast hlen))
    cases ofBits_eq_zero hzero true hset

/-- A generator with a constant term does not see zeros behind a string. -/
theorem dvd_of_dvd_mul_X_pow {g p : (ZMod 2)[X]} (hconst : g.coeff 0 ≠ 0) {n : Nat}
    (h : g ∣ p * X ^ n) : g ∣ p := by
  have hirreducible : Irreducible (X : (ZMod 2)[X]) := irreducible_X
  have hcoprime : IsCoprime X g :=
    hirreducible.coprime_iff_not_dvd.mpr fun hdvd => hconst (X_dvd_iff.mp hdvd)
  exact hcoprime.symm.pow_right.dvd_of_dvd_mul_right h

/-- The set bits lie within `n` consecutive positions. -/
def Burst (n : Nat) (bs : List Bool) : Prop :=
  ∃ k, ∀ i, bs[i]? = some true → k ≤ i ∧ i < k + n

/-- A burst is a window with zeros around it. -/
theorem Burst.window {n : Nat} {bs : List Bool} (h : Burst n bs) :
    ∃ window m, window.length ≤ n ∧ (true ∈ bs → true ∈ window) ∧
      ofBits bs = ofBits window * X ^ m := by
  obtain ⟨k, hk⟩ := h
  have hsplit : bs = bs.take k ++ ((bs.drop k).take n ++ (bs.drop k).drop n) := by
    rw [List.take_append_drop, List.take_append_drop]
  -- A set bit in front of the window or behind it would be outside of the burst.
  have hfront : ∀ b ∈ bs.take k, b = false := by
    intro b hb
    obtain ⟨i, hi, rfl⟩ := List.mem_iff_getElem.mp hb
    rw [List.length_take] at hi
    by_contra hset
    rw [List.getElem_take] at hset
    have hat : bs[i]? = some true := by
      rw [List.getElem?_eq_getElem (by omega), Bool.eq_true_of_not_eq_false hset]
    have := hk i hat
    omega
  have hback : ∀ b ∈ (bs.drop k).drop n, b = false := by
    intro b hb
    obtain ⟨i, hi, rfl⟩ := List.mem_iff_getElem.mp hb
    rw [List.length_drop, List.length_drop] at hi
    by_contra hset
    rw [List.getElem_drop, List.getElem_drop] at hset
    have hat : bs[k + (n + i)]? = some true := by
      rw [List.getElem?_eq_getElem (by omega), Bool.eq_true_of_not_eq_false hset]
    have := hk (k + (n + i)) hat
    omega
  refine ⟨(bs.drop k).take n, ((bs.drop k).drop n).length, List.length_take_le n _, ?_, ?_⟩
  · intro hset
    rw [hsplit, List.mem_append, List.mem_append] at hset
    rcases hset with hset | hset | hset
    · cases hfront true hset
    · exact hset
    · cases hback true hset
  · conv_lhs => rw [hsplit]
    rw [ofBits_append, ofBits_append, ofBits_false hfront, ofBits_false hback]
    ring

/-- A burst no longer than the generator's degree. -/
theorem not_dvd_of_burst {g : (ZMod 2)[X]} (hconst : g.coeff 0 ≠ 0) {bs : List Bool}
    (hburst : Burst g.natDegree bs) (hset : true ∈ bs) : ¬ g ∣ ofBits bs := by
  obtain ⟨window, m, hlen, hmem, hbits⟩ := hburst.window
  intro hdvd
  rw [hbits] at hdvd
  exact not_dvd_of_length_le hlen (hmem hset) (dvd_of_dvd_mul_X_pow hconst hdvd)

/-! ### Numbers and bytes -/

/-- The low `w` bits of a number, most significant bit first. -/
def bitsOf : Nat → Nat → List Bool
  | 0, _ => []
  | w + 1, n => n.testBit w :: bitsOf w n

/-- `w` bits are taken. -/
@[simp] theorem bitsOf_length (w n : Nat) : (bitsOf w n).length = w := by
  induction w with
  | zero => rfl
  | succ w ih => rw [bitsOf, List.length_cons, ih]

/-- Exclusive or of numbers, bit by bit. -/
theorem bitsOf_xor (w a b : Nat) :
    bitsOf w (a ^^^ b) = (bitsOf w a).zipWith xor (bitsOf w b) := by
  induction w with
  | zero => rfl
  | succ w ih => rw [bitsOf, bitsOf, bitsOf, List.zipWith_cons_cons, Nat.testBit_xor, ih]

/-- The bits above `v` do not matter. -/
theorem bitsOf_mod {w v : Nat} (h : w ≤ v) (n : Nat) : bitsOf w (n % 2 ^ v) = bitsOf w n := by
  induction w with
  | zero => rfl
  | succ w ih =>
      rw [bitsOf, bitsOf, ih (by omega), Nat.testBit_mod_two_pow, decide_eq_true (by omega),
        Bool.true_and]

/-- The upper bits, then the lower ones. -/
theorem bitsOf_add (v w n : Nat) : bitsOf (v + w) n = bitsOf v (n >>> w) ++ bitsOf w n := by
  induction v with
  | zero => simp [bitsOf]
  | succ v ih =>
      rw [show v + 1 + w = v + w + 1 by omega, bitsOf, ih, bitsOf, Nat.testBit_shiftRight,
        Nat.add_comm w v, List.cons_append]

/-- A number shifted left has zeros behind its bits. -/
theorem bitsOf_shiftLeft (v w n : Nat) :
    bitsOf (v + w) (n <<< w) = bitsOf v n ++ List.replicate w false := by
  have hzeros : ∀ u, u ≤ w → bitsOf u (n <<< w) = List.replicate u false := by
    intro u hu
    induction u with
    | zero => rfl
    | succ u ih =>
        rw [bitsOf, ih (by omega), List.replicate_succ, Nat.testBit_shiftLeft,
          decide_eq_false (by omega), Bool.false_and]
  rw [bitsOf_add, Nat.shiftLeft_shiftRight, hzeros w (Nat.le_refl w)]

/-- The bits of a list of bytes. -/
def bits (bytes : List UInt8) : List Bool := bytes.flatMap fun b => bitsOf 8 b.toNat

/-- No bytes have no bits. -/
@[simp] theorem bits_nil : bits [] = [] := rfl

/-- The bits of the first byte come first. -/
theorem bits_cons (b : UInt8) (bytes : List UInt8) :
    bits (b :: bytes) = bitsOf 8 b.toNat ++ bits bytes :=
  rfl

/-- The bits of two stretches of bytes, one behind the other. -/
theorem bits_append (as bs : List UInt8) : bits (as ++ bs) = bits as ++ bits bs :=
  List.flatMap_append

/-- Eight bits a byte. -/
@[simp] theorem bits_length (bytes : List UInt8) : (bits bytes).length = 8 * bytes.length := by
  induction bytes with
  | nil => rfl
  | cons b bytes ih =>
      rw [bits_cons, List.length_append, ih, bitsOf_length, List.length_cons]
      omega

/-- Exclusive or of bytes is that of their bits. -/
theorem bits_xor {as bs : List UInt8} (h : as.length = bs.length) :
    bits (as.zipWith (· ^^^ ·) bs) = (bits as).zipWith xor (bits bs) := by
  induction as generalizing bs with
  | nil => rfl
  | cons a as ih =>
      cases bs with
      | nil => cases h
      | cons b bs =>
          rw [List.zipWith_cons_cons, bits_cons, bits_cons, bits_cons, UInt8.toNat_xor, bitsOf_xor,
            ih (Nat.succ.inj h), List.zipWith_append (by simp)]

/-- The bytes of a number, most significant byte first, have its bits. -/
theorem bits_toBytes (n v : Nat) : bits (BigEndian.toBytes n v) = bitsOf (8 * n) v := by
  induction n with
  | zero => rfl
  | succ n ih =>
      have hpow : (256 : Nat) ^ n = 2 ^ (8 * n) := (pow_mul 2 8 n).symm
      rw [BigEndian.toBytes, bits_cons, ih, Nat.mul_succ, Nat.add_comm (8 * n) 8, bitsOf_add,
        UInt8.toNat_ofNat', bitsOf_mod (Nat.le_refl 8), hpow, Nat.shiftRight_eq_div_pow]

end BitPoly
