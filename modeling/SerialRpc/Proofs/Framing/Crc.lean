import Mathlib.RingTheory.AdjoinRoot
import SerialRpc.Lib.BitPoly
import SerialRpc.Proofs.Framing.Refinement
import SerialRpc.Proofs.Framing.RoundTrip
import SerialRpc.Proofs.Framing.Splitting

/-!
# `SerialRpc.Proofs.Framing.Crc`: what the CRC detects

`residue` reads the register of `crc16_ccitt` as a polynomial modulo the generator. A shift
is a multiplication by `X` (`residue_crcShift`), so a run over a message adds the message's
polynomial, shifted (`residue_crc16CcittFrom`). It follows that all messages of one length
have the same residue once their CRC is behind them (`residue_codeword`), and that the
difference of two of them is a multiple of the generator.

* `crc_detects`: `decode_and_validate_frame` rejects a damaged message when the damage is an
  odd number of bits or lies within 16 consecutive ones.

Bits are counted as the register takes them in, most significant bit first.
-/

set_option autoImplicit false

namespace SerialRpc

open BitPoly Buffer Polynomial

/-! ### The register -/

/-- The polynomial of `0x1021` with its leading term. -/
noncomputable def generator : (ZMod 2)[X] := ofBits (bitsOf 17 0x11021)

/-- The polynomial that the constant 0x1021 stands for. -/
theorem generator_eq : generator = X ^ 16 + X ^ 12 + X ^ 5 + 1 := by
  simp [generator, bitsOf, ofBits, ofBit, Nat.testBit, Nat.shiftRight_eq_div_pow]
  ring

/-- Its degree is the width of the register. -/
theorem generator_natDegree : generator.natDegree = 16 := by
  rw [generator_eq]
  compute_degree!

/-- The register, as a polynomial modulo the generator. -/
noncomputable def residue (crc : UInt16) : AdjoinRoot generator :=
  AdjoinRoot.mk generator (ofBits (bitsOf 16 crc.toNat))

/-- What the bits of a message are modulo the generator. -/
noncomputable def messageResidue (message : List UInt8) : AdjoinRoot generator :=
  AdjoinRoot.mk generator (ofBits (bits message))

/-- Twice anything is nothing, over two elements. -/
theorem add_self_residue (x : AdjoinRoot generator) : x + x = 0 := by
  obtain ⟨p, rfl⟩ := AdjoinRoot.mk_surjective x
  rw [← map_add, CharTwo.add_self_eq_zero, map_zero]

/-- Residues add up as the registers do. -/
theorem residue_xor (a b : UInt16) : residue (a ^^^ b) = residue a + residue b := by
  rw [residue, UInt16.toNat_xor, bitsOf_xor, ofBits_xor (by simp), map_add]
  rfl

/-- The bit that a shift loses. -/
theorem top_bit (crc : UInt16) : crc &&& 0x8000 ≠ 0 ↔ crc.toNat.testBit 15 = true := by
  have hand : (crc &&& 0x8000).toNat = if crc.toNat.testBit 15 then 2 ^ 15 else 0 := by
    rw [UInt16.toNat_and, show (0x8000 : UInt16).toNat = 2 ^ 15 from rfl]
    apply Nat.eq_of_testBit_eq
    intro i
    rw [Nat.testBit_and, apply_ite (Nat.testBit · i), Nat.testBit_two_pow, Nat.zero_testBit]
    by_cases hi : 15 = i
    · rw [← hi]
      cases crc.toNat.testBit 15 <;> rfl
    · rw [decide_eq_false hi, Bool.and_false, ite_self]
  rw [ne_eq, ← UInt16.toNat_inj, hand]
  cases crc.toNat.testBit 15 <;> decide

/-- The leading term of the generator is worth the rest of it. -/
theorem residue_poly : residue 0x1021 = AdjoinRoot.root generator ^ 16 := by
  have hsplit : generator = X ^ 16 + ofBits (bitsOf 16 0x1021) := by
    rw [generator, bitsOf, ofBits_cons, ← bitsOf_mod (Nat.le_refl 16) 0x11021]
    simp [ofBit, Nat.testBit]
  have hsum : AdjoinRoot.root generator ^ 16 + residue 0x1021 = 0 := by
    have hzero : AdjoinRoot.mk generator (X ^ 16 + ofBits (bitsOf 16 0x1021)) = 0 := by
      rw [← hsplit]
      exact AdjoinRoot.mk_self
    rwa [map_add, map_pow, AdjoinRoot.mk_X] at hzero
  calc residue 0x1021
      = AdjoinRoot.root generator ^ 16 + (AdjoinRoot.root generator ^ 16 + residue 0x1021) := by
        rw [← add_assoc, add_self_residue, zero_add]
    _ = AdjoinRoot.root generator ^ 16 := by rw [hsum, add_zero]

/-- A shift multiplies by `X`. -/
theorem residue_crcShift (crc : UInt16) :
    residue (crcShift crc) = AdjoinRoot.root generator * residue crc := by
  -- The shift loses the top bit, which is added back as the generator where it was set.
  have hshifted : residue (crc <<< 1)
      = AdjoinRoot.root generator * AdjoinRoot.mk generator (ofBits (bitsOf 15 crc.toNat)) := by
    have htoNat : (crc <<< 1).toNat = crc.toNat <<< 1 % 2 ^ 16 := UInt16.toNat_shiftLeft crc 1
    rw [residue, htoNat, bitsOf_mod (Nat.le_refl 16), bitsOf_shiftLeft 15 1, ofBits_append,
      ofBits_replicate_false, List.length_replicate, add_zero, pow_one, map_mul, AdjoinRoot.mk_X,
      mul_comm]
  have hwhole : residue crc
      = AdjoinRoot.mk generator (C (ofBit (crc.toNat.testBit 15)) * X ^ 15)
        + AdjoinRoot.mk generator (ofBits (bitsOf 15 crc.toNat)) := by
    rw [residue, bitsOf, ofBits_cons, bitsOf_length, map_add]
  rw [crcShift, hwhole]
  -- The top bit decides whether the polynomial is added.
  by_cases htop : crc &&& 0x8000 ≠ 0
  · rw [if_pos htop, residue_xor, hshifted, residue_poly, (top_bit crc).mp htop]
    simp only [ofBit, if_true, C_1, one_mul, map_pow, AdjoinRoot.mk_X]
    ring
  · have hclear : crc.toNat.testBit 15 = false := by
      rw [top_bit] at htop
      exact Bool.eq_false_of_not_eq_true htop
    rw [if_neg htop, hshifted, hclear]
    simp [ofBit]

/-- Shifting the register `n` times multiplies its residue by `X` to the power `n`. -/
theorem residue_repeat (n : Nat) (crc : UInt16) :
    residue (Nat.repeat crcShift n crc) = AdjoinRoot.root generator ^ n * residue crc := by
  induction n with
  | zero => simp [Nat.repeat]
  | succ n ih =>
      rw [Nat.repeat, residue_crcShift, ih, pow_succ]
      ring

/-- One byte: the register moves up by eight places, and the byte comes in above it. -/
theorem residue_crcByte (crc : UInt16) (b : UInt8) :
    residue (crcByte crc b)
      = AdjoinRoot.root generator ^ 8 * residue crc
        + AdjoinRoot.root generator ^ 16 * messageResidue [b] := by
  have htop : residue (b.toUInt16 <<< 8)
      = AdjoinRoot.root generator ^ 8 * messageResidue [b] := by
    have htoNat : (b.toUInt16 <<< 8).toNat = b.toNat <<< 8 % 2 ^ 16 :=
      UInt16.toNat_shiftLeft b.toUInt16 8
    rw [residue, htoNat, bitsOf_mod (Nat.le_refl 16), bitsOf_shiftLeft 8 8, ofBits_append,
      ofBits_replicate_false, List.length_replicate, add_zero, map_mul, map_pow, AdjoinRoot.mk_X,
      messageResidue, bits_cons, bits_nil, List.append_nil, mul_comm]
  rw [crcByte, residue_repeat, residue_xor, htop]
  ring

/-- The register after a message. -/
theorem residue_crc16CcittFrom (init : UInt16) (data : List UInt8) :
    residue (crc16CcittFrom init data)
      = AdjoinRoot.root generator ^ (8 * data.length) * residue init
        + AdjoinRoot.root generator ^ 16 * messageResidue data := by
  induction data generalizing init with
  | nil => simp [crc16CcittFrom, messageResidue]
  | cons b data ih =>
      have hmessage : messageResidue (b :: data)
          = messageResidue [b] * AdjoinRoot.root generator ^ (8 * data.length)
            + messageResidue data := by
        rw [messageResidue, messageResidue, messageResidue, bits_cons, ofBits_append, bits_length,
          map_add, map_mul, map_pow, AdjoinRoot.mk_X, bits_cons, bits_nil, List.append_nil]
      have hstep : crc16CcittFrom init (b :: data) = crc16CcittFrom (crcByte init b) data := rfl
      rw [hstep, ih, residue_crcByte, hmessage, List.length_cons]
      ring

/-! ### Codewords -/

/-- The two bytes of the CRC, most significant first, are its sixteen bits in order. -/
theorem bits_crcBe (payload : List UInt8) :
    bits (crcBe payload) = bitsOf 16 (crc16Ccitt payload).toNat := by
  rw [crcBe_eq, bits_toBytes]

/-- With its CRC behind it, a message has a residue that depends on its length only. -/
theorem residue_codeword (payload : List UInt8) :
    messageResidue (payload ++ crcBe payload)
      = AdjoinRoot.root generator ^ (8 * payload.length) * residue 0xFFFF := by
  -- The CRC bytes are the residue of the message, shifted past their own place.
  have hcrc : AdjoinRoot.mk generator (ofBits (bits (crcBe payload)))
      = AdjoinRoot.root generator ^ (8 * payload.length) * residue 0xFFFF
        + AdjoinRoot.root generator ^ 16 * messageResidue payload := by
    rw [bits_crcBe]
    exact residue_crc16CcittFrom 0xFFFF payload
  have hsplit : messageResidue (payload ++ crcBe payload)
      = messageResidue payload * AdjoinRoot.root generator ^ 16
        + AdjoinRoot.mk generator (ofBits (bits (crcBe payload))) := by
    rw [messageResidue, bits_append, ofBits_append, bits_length, crcBe_length, map_add, map_mul,
      map_pow, AdjoinRoot.mk_X]
    rfl
  rw [hsplit, hcrc]
  -- The two residues of the message cancel.
  calc messageResidue payload * AdjoinRoot.root generator ^ 16
        + (AdjoinRoot.root generator ^ (8 * payload.length) * residue 0xFFFF
          + AdjoinRoot.root generator ^ 16 * messageResidue payload)
      = AdjoinRoot.root generator ^ (8 * payload.length) * residue 0xFFFF
        + (AdjoinRoot.root generator ^ 16 * messageResidue payload
          + AdjoinRoot.root generator ^ 16 * messageResidue payload) := by ring
    _ = _ := by rw [add_self_residue, add_zero]

/-- A payload followed by its CRC, with the bits of `e` flipped. -/
def damaged (payload e : List UInt8) : List UInt8 :=
  (payload ++ crcBe payload).zipWith (· ^^^ ·) e

/-- Damage keeps the length. -/
theorem damaged_length {payload e : List UInt8} (h : e.length = payload.length + 2) :
    (damaged payload e).length = payload.length + 2 := by
  rw [damaged, List.length_zipWith, List.length_append, crcBe_length, h, Nat.min_self]

/-- What the check lets through is a multiple of the generator. -/
theorem dvd_of_undetected {payload e other : List UInt8} (hlen : e.length = payload.length + 2)
    (h : checkCrc (damaged payload e) = some other) : generator ∣ ofBits (bits e) := by
  have hother : damaged payload e = other ++ crcBe other := (checkCrc_eq_some_iff _ _).mp h
  have hsame : other.length = payload.length := by
    have hdamaged := damaged_length hlen
    rw [hother, List.length_append, crcBe_length] at hdamaged
    omega
  have hsum : messageResidue (damaged payload e)
      = messageResidue (payload ++ crcBe payload) + AdjoinRoot.mk generator (ofBits (bits e)) := by
    have hboth : (payload ++ crcBe payload).length = e.length := by
      rw [List.length_append, crcBe_length, hlen]
    rw [messageResidue, damaged, bits_xor hboth,
      ofBits_xor (by rw [bits_length, bits_length, hboth]), map_add]
    rfl
  -- Both messages are codewords of one length, so the difference has residue zero.
  rw [hother, residue_codeword, residue_codeword, hsame] at hsum
  exact AdjoinRoot.mk_eq_zero.mp (left_eq_add.mp hsum)

/-- A damage that no multiple of the generator is. -/
def Detectable (e : List UInt8) : Prop :=
  true ∈ bits e ∧ (Burst 16 (bits e) ∨ Odd ((bits e).count true))

/-- A detectable error fails the check. -/
theorem checkCrc_damaged {payload e : List UInt8} (hlen : e.length = payload.length + 2)
    (hdetectable : Detectable e) : checkCrc (damaged payload e) = none := by
  cases h : checkCrc (damaged payload e) with
  | none => rfl
  | some other =>
      have hdvd := dvd_of_undetected hlen h
      obtain ⟨hset, hburst | hodd⟩ := hdetectable
      · have hconst : generator.coeff 0 ≠ 0 := by
          rw [generator_eq]
          simp
        rw [← generator_natDegree] at hburst
        exact absurd hdvd (not_dvd_of_burst hconst hburst hset)
      · have hroot : generator.eval 1 = 0 := by
          rw [generator_eq]
          simp only [eval_add, eval_pow, eval_X, eval_one]
          decide
        exact absurd hdvd (not_dvd_of_odd hroot hodd)

/-! ### The validation -/

/-- A block that decodes, with room for what it decodes to, and fails the check. -/
theorem decodeAndValidateFrame_crcError {buf decoded : List UInt8} {len cap : Nat} (hpos : 0 < len)
    (hlen : len ≤ buf.length) (hcap : cap ≤ buf.length)
    (hdecode : Cobs.decode (buf.take len) = some decoded) (hroom : decoded.length ≤ cap)
    (hcheck : checkCrc decoded = none) :
    (decodeAndValidateFrame buf len cap).outcome = .crcError := by
  rw [checkCrc_eq decoded (buf.drop decoded.length),
    show decoded ++ buf.drop decoded.length = overwrite buf decoded from rfl] at hcheck
  rw [decodeAndValidateFrame, if_neg (by omega),
    cobsDecodeInPlace_of_decode hdecode hlen hcap hroom]
  dsimp only
  by_cases hshort : decoded.length < 2
  · rw [if_pos hshort]
  · rw [if_neg hshort] at hcheck ⊢
    split
    · rfl
    · rename_i hcrc
      rw [if_neg hcrc] at hcheck
      cases hcheck

/-- **What the CRC detects.** An odd number of flipped bits, or flipped bits within 16
consecutive ones, in a payload and its CRC: the COBS encoding of the result is rejected with
`crc_error`, whatever stands behind it in the buffer. -/
theorem crc_detects (payload e : List UInt8) (hlen : e.length = payload.length + 2)
    (hdetectable : Detectable e) {out : List UInt8} {outCap : Nat} (hout : outCap ≤ out.length)
    (hencoded : (cobsEncode (damaged payload e) out outCap).2 ≠ 0) (rest : List UInt8) {cap : Nat}
    (hroom : payload.length + 2 ≤ cap) :
    let block := (cobsEncode (damaged payload e) out outCap).1.take
      (cobsEncode (damaged payload e) out outCap).2
    cap ≤ (block ++ rest).length →
      (decodeAndValidateFrame (block ++ rest) block.length cap).outcome = .crcError := by
  intro block hcap
  have hblock : block = Cobs.encode (damaged payload e) := cobsEncode_of_ne_zero hout hencoded
  have hpos : 0 < block.length := by
    rw [hblock]
    exact List.length_pos_of_ne_nil (Cobs.encode_ne_nil _)
  have hdecode : Cobs.decode ((block ++ rest).take block.length) = some (damaged payload e) := by
    rw [List.take_left, hblock]
    exact Cobs.decode_encode _
  exact decodeAndValidateFrame_crcError hpos (by simp) hcap hdecode
    (by rwa [damaged_length hlen]) (checkCrc_damaged hlen hdetectable)

/-- The last bit of the CRC of `2a` is flipped. -/
theorem crc_detects_last_bit :
    (decodeAndValidateFrame [0x04, 0x2a, 0x64, 0xd9, 0x00] 4 5).outcome = .crcError := by
  have hdetectable : Detectable [0x00, 0x00, 0x01] := ⟨by decide, .inr (by decide)⟩
  have hencoded : cobsEncode (damaged [0x2a] [0x00, 0x00, 0x01]) (List.replicate 8 0) 8
      = ([0x04, 0x2a, 0x64, 0xd9, 0, 0, 0, 0], 4) := by
    decide +kernel
  have h := crc_detects [0x2a] [0x00, 0x00, 0x01] rfl hdetectable
    (show 8 ≤ (List.replicate 8 (0 : UInt8)).length by decide) (by rw [hencoded]; decide) [0x00]
    (show [(0x2a : UInt8)].length + 2 ≤ 5 by decide)
  rw [hencoded] at h
  exact h (by decide)

end SerialRpc
