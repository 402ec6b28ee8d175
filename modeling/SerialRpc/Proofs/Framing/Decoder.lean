import SerialRpc.Framing.Codec
import SerialRpc.Lib.Buffer
import SerialRpc.Lib.Cobs
import Mathlib.Data.List.TakeWhile

/-!
# `SerialRpc.Proofs.Framing.Decoder`: the decoder's loops, separate and in place

`cobs_decode` only ever writes at the next output index, and that index stays behind the
read cursor. So the memory during the loop is the old memory with the bytes produced so
far written over its front (`overwrite`), and every byte still to be read is the original
one, even when `out` is `in`. `decodeLoop_eq` carries this through the two loops for any
memory that satisfies it (`DecodeMem.Faithful`).

* `cobsDecode_eq`: into a separate buffer, for every capacity.
* `cobsDecodeInPlace_eq`: in place, what the buffer holds afterwards, on malformed input
  as well.
-/

set_option autoImplicit false

namespace SerialRpc

open Buffer

/-- A memory the decoder can work in: it writes into a list, and whatever has been written
over the front of `base`, it still reads `input` from there on. -/
structure DecodeMem.Faithful (M : DecodeMem (List UInt8)) (input base : List UInt8) : Prop where
  write : ∀ mem i b, M.write mem i b = mem.set i b
  read : ∀ acc i, acc.length ≤ i → i < input.length →
    M.read (overwrite base acc) i = input.getD i 0

/-- Two different buffers never disturb each other. -/
theorem DecodeMem.faithful_separate (input out : List UInt8) :
    (DecodeMem.separate input).Faithful input out where
  write _ _ _ := rfl
  read _ _ _ _ := rfl

/-- One buffer for both: the overwritten part lies before the read cursor. -/
theorem DecodeMem.faithful_aliased (buf : List UInt8) (len : Nat) :
    DecodeMem.aliased.Faithful (buf.take len) buf where
  write _ _ _ := rfl
  read acc i hacc hi := by
    have hlt : i < len := by
      rw [List.length_take] at hi
      omega
    show (overwrite buf acc).getD i 0 = _
    simp [List.getD_eq_getElem?_getD, overwrite_getElem? hacc, hlt]

/-- What a decoder answers that has produced `bytes` out of a block: the memory, cut at the
capacity, and the length if nothing went wrong. -/
def answer (base : List UInt8) (cap : Nat) (bytes : List UInt8) (wellFormed : Bool) :
    List UInt8 × Option Nat :=
  (overwrite base (bytes.take cap),
    if wellFormed = true ∧ bytes.length ≤ cap then some bytes.length else none)

/-- Within the capacity nothing is cut. -/
theorem answer_of_le {base bytes : List UInt8} {cap : Nat} (h : bytes.length ≤ cap)
    (wellFormed : Bool) :
    answer base cap bytes wellFormed
      = (overwrite base bytes, if wellFormed then some bytes.length else none) := by
  simp [answer, List.take_of_length_le h, h]

/-- With the capacity used up, one more byte is an error. -/
theorem answer_of_full {base front back : List UInt8} {cap : Nat} (h : cap ≤ front.length)
    (hback : back ≠ []) (wellFormed : Bool) :
    answer base cap (front ++ back) wellFormed = (overwrite base (front.take cap), none) := by
  have hpos := List.length_pos_of_ne_nil hback
  have hover : ¬ (front ++ back).length ≤ cap := by
    rw [List.length_append]
    omega
  simp only [answer, hover, and_false, if_false, List.take_append_of_le_length h]

section
variable {M : DecodeMem (List UInt8)} {input base : List UInt8} {cap : Nat}

/-- Reading at the cursor gives the original byte. -/
theorem DecodeMem.Faithful.read_eq (hM : M.Faithful input base) {acc : List UInt8} {r : Nat}
    (hacc : acc.length ≤ r) (hr : r < input.length) :
    M.read (overwrite base acc) r = input[r] := by
  rw [hM.read acc r hacc hr, List.getD_eq_getElem?_getD, List.getElem?_eq_getElem hr]
  rfl

/-- Writing at the output index appends to the bytes produced. -/
theorem DecodeMem.Faithful.write_eq (hM : M.Faithful input base) {acc : List UInt8} (b : UInt8)
    (h : acc.length < base.length) :
    M.write (overwrite base acc) acc.length b = overwrite base (acc ++ [b]) := by
  rw [hM.write, overwrite_set b h]

/-- The inner loop copies up to the first zero or up to the capacity. Induction on the
number of bytes, with the bytes produced as the accumulator. -/
theorem copyRun_eq (hM : M.Faithful input base) (hcap : cap ≤ base.length) (n : Nat) :
    ∀ (r : Nat) (acc : List UInt8), acc.length ≤ r → r + n ≤ input.length → acc.length ≤ cap →
      copyRun M cap n r acc.length (overwrite base acc) =
        answer base cap (acc ++ ((input.drop r).take n).takeWhile (· ≠ 0))
          (0 ∉ (input.drop r).take n) := by
  -- By induction on the bytes of the group that are left.
  induction n with
  | zero =>
      intro r acc _ _ hroom
      simp [copyRun, answer_of_le hroom]
  | succ n ih =>
      intro r acc hacc hr hroom
      have hlt : r < input.length := by omega
      rw [copyRun, hM.read_eq hacc hlt, List.drop_eq_getElem_cons hlt, List.take_succ_cons]
      -- A zero in a group is an error.
      by_cases hb : input[r] = 0
      · rw [if_pos hb, hb, List.takeWhile_cons_of_neg (by simp), List.append_nil,
          answer_of_le hroom]
        simp
      · rw [if_neg hb, List.takeWhile_cons_of_pos (by simpa using hb)]
        -- A byte that is not zero is copied, if the output has room.
        by_cases hfull : cap ≤ acc.length
        · rw [if_pos hfull, answer_of_full hfull (by simp), List.take_of_length_le hroom]
        · have hnext := ih (r + 1) (acc ++ [input[r]]) (by simp; omega) (by omega)
            (by simp; omega)
          rw [List.length_append, List.length_singleton] at hnext
          rw [if_neg hfull, hM.write_eq _ (by omega), hnext]
          simp [Ne.symm hb]

/-- The outer loop from a read index `r`, with `acc` produced so far: it goes on exactly as
`Cobs.decodePartial` does on the rest of the input, up to the capacity. -/
theorem decodeLoop_eq (hM : M.Faithful input base) (hcap : cap ≤ base.length) (bound : Nat) :
    ∀ (r : Nat) (acc : List UInt8), input.length - r ≤ bound → acc.length ≤ r →
      acc.length ≤ cap →
      decodeLoop M input.length cap r acc.length (overwrite base acc) =
        answer base cap (acc ++ (Cobs.decodePartial (input.drop r)).1)
          (Cobs.decodePartial (input.drop r)).2 := by
  induction bound with
  | zero =>
      intro r acc hbound _ hroom
      have hend : ¬ r < input.length := by omega
      rw [decodeLoop, if_neg hend, List.drop_of_length_le (by omega)]
      simp [Cobs.decodePartial, answer_of_le hroom]
  | succ bound ih =>
      intro r acc hbound hacc hroom
      by_cases hlt : r < input.length
      case neg =>
        rw [decodeLoop, if_neg hlt, List.drop_of_length_le (by omega)]
        simp [Cobs.decodePartial, answer_of_le hroom]
      rw [decodeLoop, if_pos hlt, hM.read_eq hacc hlt, List.drop_eq_getElem_cons hlt]
      generalize input[r] = code
      rw [Cobs.decodePartial]
      simp only [List.length_drop]
      by_cases hcode : code = 0
      · simp [hcode, answer_of_le hroom]
      by_cases hshort : input.length - (r + 1) < code.toNat - 1
      · simp [hcode, hshort, answer_of_le hroom]
      simp only [hcode, hshort, if_false]
      rw [copyRun_eq hM hcap _ (r + 1) acc (by omega) (by omega) hroom]
      generalize code.toNat - 1 = n at hshort ⊢
      have hrunLen : ((input.drop (r + 1)).take n).length = n := by simp; omega
      by_cases hzero : 0 ∈ (input.drop (r + 1)).take n
      · -- An embedded zero: the inner loop has already given up.
        simp [hzero, answer]
      have hrun : ((input.drop (r + 1)).take n).takeWhile (· ≠ 0)
          = (input.drop (r + 1)).take n := by
        refine List.takeWhile_eq_self_iff.mpr fun b hb => ?_
        simpa using fun h : b = 0 => hzero (h ▸ hb)
      rw [hrun, if_neg hzero]
      generalize (input.drop (r + 1)).take n = run at hrunLen hzero ⊢
      simp only [List.drop_drop]
      generalize htail : input.drop (r + 1 + n) = tail
      have hprod : (acc ++ run).length = acc.length + n := by simp [hrunLen]
      have hwf : decide (0 ∉ run) = true := by simpa using hzero
      by_cases hover : (acc ++ run).length ≤ cap
      case neg =>
        -- The capacity ran out inside the run.
        have hsplit : acc ++ (run ++ Cobs.separator code tail ++ (Cobs.decodePartial tail).1)
            = (acc ++ run) ++ (Cobs.separator code tail ++ (Cobs.decodePartial tail).1) := by simp
        have hlen : ¬ ((acc ++ run)
            ++ (Cobs.separator code tail ++ (Cobs.decodePartial tail).1)).length ≤ cap := by
          rw [List.length_append]
          omega
        rw [hsplit]
        simp only [answer, hover, hlen, and_false, if_false]
        exact congrArg (fun kept => (overwrite base kept, none))
          (List.take_append_of_le_length (by omega)).symm
      rw [answer_of_le hover, hwf]
      simp only [if_true]
      have hiff : (code ≠ 0xff ∧ r + 1 + n < input.length) ↔ (code ≠ 0xff ∧ tail ≠ []) := by
        simp only [← htail, ne_eq, List.drop_eq_nil_iff]
        exact and_congr_right fun _ => by omega
      by_cases hsep : code ≠ 0xff ∧ tail ≠ []
      · rw [if_pos (hiff.mpr hsep), show Cobs.separator code tail = [0] from if_pos hsep]
        by_cases hfull : cap ≤ (acc ++ run).length
        · -- No room for the zero between two groups.
          have hsplit : acc ++ (run ++ [0] ++ (Cobs.decodePartial tail).1)
              = (acc ++ run) ++ ([0] ++ (Cobs.decodePartial tail).1) := by simp
          rw [if_pos hfull, hsplit, answer_of_full hfull (by simp), List.take_of_length_le hover]
        · have hnext := ih (r + 1 + n) (acc ++ run ++ [0]) (by omega) (by
            simp only [List.length_append, List.length_singleton] at hprod ⊢
            omega) (by
            simp only [List.length_append, List.length_singleton] at hfull ⊢
            omega)
          rw [List.length_append, List.length_singleton, htail] at hnext
          rw [if_neg hfull, hM.write_eq _ (by omega), hnext]
          simp
      · have hnext := ih (r + 1 + n) (acc ++ run) (by omega) (by omega) hover
        rw [htail] at hnext
        rw [if_neg fun h => hsep (hiff.mp h), show Cobs.separator code tail = [] from if_neg hsep,
          hnext]
        simp

end

/-! ### `cobs_decode` -/

/-- `cobs_decode` into a separate buffer, for every capacity within it. -/
theorem cobsDecode_eq (input out : List UInt8) (cap : Nat) (hcap : cap ≤ out.length) :
    cobsDecode input out cap
      = answer out cap (Cobs.decodePartial input).1 (Cobs.decodePartial input).2 := by
  have h := decodeLoop_eq (DecodeMem.faithful_separate input out) hcap input.length 0 []
    (by omega) (by simp) (by simp)
  simpa [cobsDecode] using h

/-- `cobs_decode` over itself, for every capacity within the buffer. -/
theorem cobsDecodeInPlace_answer (buf : List UInt8) (len cap : Nat) (hlen : len ≤ buf.length)
    (hcap : cap ≤ buf.length) :
    cobsDecodeInPlace buf len cap
      = answer buf cap (Cobs.decodePartial (buf.take len)).1
          (Cobs.decodePartial (buf.take len)).2 := by
  have hinput : (buf.take len).length = len := by
    rw [List.length_take, Nat.min_eq_left hlen]
  have h := decodeLoop_eq (DecodeMem.faithful_aliased buf len) hcap len 0 []
    (by omega) (by simp) (by simp)
  simpa [hinput, cobsDecodeInPlace] using h

/-- `cobs_decode` over itself: the block's bytes are replaced by what was decoded, the rest
of the buffer stays, and the capacity never runs out. -/
theorem cobsDecodeInPlace_eq (buf : List UInt8) (len cap : Nat) (hlen : len ≤ cap)
    (hcap : cap ≤ buf.length) :
    cobsDecodeInPlace buf len cap =
      (overwrite buf (Cobs.decodePartial (buf.take len)).1,
        (Cobs.decode (buf.take len)).map List.length) := by
  have hfit : (Cobs.decodePartial (buf.take len)).1.length ≤ cap := by
    have hle := Cobs.decodePartial_length_le (buf.take len)
    rw [List.length_take] at hle
    omega
  rw [cobsDecodeInPlace_answer buf len cap (hlen.trans hcap) hcap, answer_of_le hfit, Cobs.decode]
  cases (Cobs.decodePartial (buf.take len)).2 <;> rfl

/-- `cobs_decode` over itself, of a well-formed block, needs room for the message only. -/
theorem cobsDecodeInPlace_of_decode {buf m : List UInt8} {len cap : Nat}
    (h : Cobs.decode (buf.take len) = some m) (hlen : len ≤ buf.length) (hcap : cap ≤ buf.length)
    (hroom : m.length ≤ cap) :
    cobsDecodeInPlace buf len cap = (overwrite buf m, some m.length) := by
  simp only [Cobs.decode, Option.ite_none_right_eq_some, Option.some.injEq] at h
  rw [cobsDecodeInPlace_answer buf len cap hlen hcap, h.1, h.2, answer_of_le hroom, if_pos rfl]

/-- With room for the message, `cobs_decode` of a well-formed block returns it. -/
theorem cobsDecode_of_decode {input out m : List UInt8} {cap : Nat}
    (h : Cobs.decode input = some m) (hcap : cap ≤ out.length) (hroom : m.length ≤ cap) :
    (cobsDecode input out cap).2 = some m.length ∧
      (cobsDecode input out cap).1.take m.length = m := by
  simp only [Cobs.decode, Option.ite_none_right_eq_some, Option.some.injEq] at h
  rw [cobsDecode_eq input out cap hcap, h.1, h.2, answer_of_le hroom]
  simp

end SerialRpc
