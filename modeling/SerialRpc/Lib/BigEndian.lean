import Mathlib.Data.List.Basic
import Mathlib.Tactic.NormNum
import Mathlib.Tactic.Positivity
import Mathlib.Tactic.Ring

/-!
# `SerialRpc.Lib.BigEndian`: natural numbers as big-endian bytes

`toBytes n v` is `v` in `n` bytes, most significant first, and `ofBytes` reads such a list
back. `ofBytes_toBytes` and `toBytes_ofBytes` are the two round trips.

The last section connects them to code on fixed-width words: shifting and masking a word
apart gives `toBytes`, and shifting bytes together gives `ofBytes`.
-/

set_option autoImplicit false

namespace BigEndian

/-- The number a list of bytes denotes, most significant byte first. -/
def ofBytes (bs : List UInt8) : Nat := bs.foldl (fun acc b => acc * 256 + b.toNat) 0

/-- The last `n` bytes of `v`, most significant first. -/
def toBytes : Nat → Nat → List UInt8
  | 0, _ => []
  | n + 1, v => UInt8.ofNat (v / 256 ^ n) :: toBytes n v

/-- A number is written in as many bytes as was asked for. -/
@[simp] theorem toBytes_length (n v : Nat) : (toBytes n v).length = n := by
  induction n with
  | zero => rfl
  | succ n ih => simp [toBytes, ih]

/-- The fold over the bytes, from any number on. -/
theorem foldl_acc (bs : List UInt8) (acc : Nat) :
    bs.foldl (fun acc b => acc * 256 + b.toNat) acc = acc * 256 ^ bs.length + ofBytes bs := by
  induction bs generalizing acc with
  | nil => simp [ofBytes]
  | cons b bs ih =>
      have hrest := ih (0 * 256 + b.toNat)
      rw [ofBytes, List.foldl_cons, List.foldl_cons, ih, hrest, List.length_cons, Nat.pow_succ]
      ring

/-- The first byte is the most significant one. -/
theorem ofBytes_cons (b : UInt8) (bs : List UInt8) :
    ofBytes (b :: bs) = b.toNat * 256 ^ bs.length + ofBytes bs := by
  rw [ofBytes, List.foldl_cons, foldl_acc]
  ring

/-- `n` bytes spell a number below `256 ^ n`. -/
theorem ofBytes_lt (bs : List UInt8) : ofBytes bs < 256 ^ bs.length := by
  induction bs with
  | nil => simp [ofBytes]
  | cons b bs ih =>
      have hb := b.toNat_lt
      rw [ofBytes_cons, List.length_cons, Nat.pow_succ]
      have hmul : b.toNat * 256 ^ bs.length ≤ 255 * 256 ^ bs.length :=
        Nat.mul_le_mul_right _ (by omega)
      omega

/-- Reading back what was written, up to the width. -/
theorem ofBytes_toBytes_mod (n v : Nat) : ofBytes (toBytes n v) = v % 256 ^ n := by
  induction n with
  | zero => simp [toBytes, ofBytes, Nat.mod_one]
  | succ n ih =>
      rw [toBytes, ofBytes_cons, ih, toBytes_length, UInt8.toNat_ofNat',
        Nat.pow_succ 256 n, Nat.mod_mul]
      ring

/-- Reading back a number that fits the width. -/
theorem ofBytes_toBytes {n v : Nat} (h : v < 256 ^ n) : ofBytes (toBytes n v) = v := by
  rw [ofBytes_toBytes_mod, Nat.mod_eq_of_lt h]

/-- Only the last `n` bytes of the number matter. -/
theorem toBytes_add_mul (n v k : Nat) : toBytes n (v + k * 256 ^ n) = toBytes n v := by
  induction n generalizing k with
  | zero => rfl
  | succ n ih =>
      have hsplit : k * 256 ^ (n + 1) = (k * 256) * 256 ^ n := by ring
      rw [toBytes, toBytes, hsplit, ih, Nat.add_mul_div_right _ _ (by positivity)]
      congr 1
      apply UInt8.toNat_inj.mp
      simp

/-- Writing back what was read. -/
theorem toBytes_ofBytes (bs : List UInt8) : toBytes bs.length (ofBytes bs) = bs := by
  induction bs with
  | nil => rfl
  | cons b bs ih =>
      have hlt := ofBytes_lt bs
      rw [List.length_cons, toBytes, ofBytes_cons, Nat.add_comm (b.toNat * _),
        toBytes_add_mul, ih, Nat.add_mul_div_right _ _ (by positivity),
        Nat.div_eq_of_lt hlt]
      simp

/-! ### Words -/

/-- Two disjoint bit ranges: `or` is addition. -/
theorem shiftLeft_or {a b i : Nat} (h : b < 2 ^ i) : (a <<< i) ||| b = a * 2 ^ i + b := by
  rw [← Nat.shiftLeft_add_eq_or_of_lt h, Nat.shiftLeft_eq]

/-- A 16-bit word from its bytes. -/
theorem toNat_word16 (b₀ b₁ : UInt8) :
    ((b₀.toUInt16 <<< 8) ||| b₁.toUInt16).toNat = ofBytes [b₀, b₁] := by
  have h₀ := b₀.toNat_lt
  have h₁ := b₁.toNat_lt
  have hshift : (b₀.toUInt16 <<< 8).toNat = b₀.toNat <<< 8 := by
    rw [UInt16.toNat_shiftLeft]
    simp [Nat.shiftLeft_eq]
    omega
  rw [UInt16.toNat_or, hshift, UInt8.toNat_toUInt16, shiftLeft_or (by omega)]
  simp [ofBytes]

/-- A 32-bit word from its bytes. -/
theorem toNat_word32 (b₀ b₁ b₂ b₃ : UInt8) :
    ((b₀.toUInt32 <<< 24) ||| (b₁.toUInt32 <<< 16) ||| (b₂.toUInt32 <<< 8)
      ||| b₃.toUInt32).toNat = ofBytes [b₀, b₁, b₂, b₃] := by
  have h₀ := b₀.toNat_lt
  have h₁ := b₁.toNat_lt
  have h₂ := b₂.toNat_lt
  have h₃ := b₃.toNat_lt
  have hshift (b : UInt8) (k : Nat) (hk : k ≤ 24) (hb : b.toNat < 2 ^ 8) :
      (b.toUInt32 <<< UInt32.ofNat k).toNat = b.toNat <<< k := by
    have hlt : b.toNat * 2 ^ k < 2 ^ 32 := by
      calc b.toNat * 2 ^ k < 2 ^ 8 * 2 ^ k := Nat.mul_lt_mul_of_pos_right hb (by positivity)
        _ ≤ 2 ^ 8 * 2 ^ 24 := Nat.mul_le_mul_left _ (Nat.pow_le_pow_right (by omega) hk)
        _ = 2 ^ 32 := by norm_num
    rw [UInt32.toNat_shiftLeft, UInt8.toNat_toUInt32, UInt32.toNat_ofNat',
      Nat.mod_eq_of_lt (by omega : k < 2 ^ 32), Nat.mod_eq_of_lt (by omega : k < 32),
      Nat.shiftLeft_eq, Nat.mod_eq_of_lt hlt]
  rw [UInt32.toNat_or, UInt32.toNat_or, UInt32.toNat_or, UInt8.toNat_toUInt32,
    show (24 : UInt32) = UInt32.ofNat 24 from rfl, show (16 : UInt32) = UInt32.ofNat 16 from rfl,
    show (8 : UInt32) = UInt32.ofNat 8 from rfl, hshift b₀ 24 (by omega) h₀,
    hshift b₁ 16 (by omega) h₁, hshift b₂ 8 (by omega) h₂]
  -- Pull the common shift out of the higher bytes, one byte at a time.
  rw [show b₀.toNat <<< 24 = (b₀.toNat <<< 8) <<< 16 by rw [← Nat.shiftLeft_add],
    ← Nat.shiftLeft_or_distrib, shiftLeft_or (a := b₀.toNat) (i := 8) (by omega),
    show ∀ x, x <<< 16 = (x <<< 8) <<< 8 from fun x => by rw [← Nat.shiftLeft_add],
    ← Nat.shiftLeft_or_distrib, shiftLeft_or (i := 8) (by omega), shiftLeft_or (by omega)]
  simp [ofBytes]

/-- A 64-bit word from its halves. -/
theorem toNat_word64 (hi lo : UInt32) :
    ((hi.toUInt64 <<< 32) ||| lo.toUInt64).toNat = hi.toNat * 2 ^ 32 + lo.toNat := by
  have hhi := hi.toNat_lt
  have hshift : (hi.toUInt64 <<< 32).toNat = hi.toNat <<< 32 := by
    rw [UInt64.toNat_shiftLeft]
    simp [Nat.shiftLeft_eq]
    omega
  rw [UInt64.toNat_or, hshift, UInt32.toNat_toUInt64, shiftLeft_or lo.toNat_lt]

/-- The bytes of a 16-bit word. -/
theorem bytes_word16 (v : UInt16) :
    [((v >>> 8) &&& 0xff).toUInt8, (v &&& 0xff).toUInt8] = toBytes 2 v.toNat := by
  have hmask (x : Nat) : x &&& 255 = x % 2 ^ 8 := Nat.and_two_pow_sub_one_eq_mod x 8
  simp [toBytes, ← UInt8.toNat_inj, Nat.shiftRight_eq_div_pow, hmask]

/-- The bytes of a 32-bit word. -/
theorem bytes_word32 (v : UInt32) :
    [((v >>> 24) &&& 0xff).toUInt8, ((v >>> 16) &&& 0xff).toUInt8,
      ((v >>> 8) &&& 0xff).toUInt8, (v &&& 0xff).toUInt8] = toBytes 4 v.toNat := by
  have hmask (x : Nat) : x &&& 255 = x % 2 ^ 8 := Nat.and_two_pow_sub_one_eq_mod x 8
  simp [toBytes, ← UInt8.toNat_inj, Nat.shiftRight_eq_div_pow, hmask]

/-- The bytes of a 64-bit word are those of its halves. -/
theorem bytes_word64 (v : UInt64) :
    toBytes 4 ((v >>> 32) &&& 0xffffffff).toUInt32.toNat
        ++ toBytes 4 (v &&& 0xffffffff).toUInt32.toNat
      = toBytes 8 v.toNat := by
  have hmask (x : Nat) : x &&& 4294967295 = x % 2 ^ 32 := Nat.and_two_pow_sub_one_eq_mod x 32
  simp [toBytes, ← UInt8.toNat_inj, Nat.shiftRight_eq_div_pow, hmask]
  omega

end BigEndian
