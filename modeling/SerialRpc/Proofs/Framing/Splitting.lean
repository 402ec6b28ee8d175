import SerialRpc.Framing.Splitter
import SerialRpc.Proofs.Framing.Decoder
import SerialRpc.Proofs.Framing.Encoder

/-!
# `SerialRpc.Proofs.Framing.Splitting`: how the splitter reads a frame

`verdict_ready_iff` says which blocks are accepted: those whose COBS decoding is a payload
followed by its CRC. `frameBody` is one of them.

The run lemmas follow a frame through the splitter. `collect_run` collects a zero-free
block that fits. `frame_from_text` reads a frame between frames: the report comes at the
last byte and the state is the old one. `frame_from_open` does it right after a delimiter.
-/

set_option autoImplicit false

namespace SerialRpc

/-! ### Which blocks are accepted -/

/-- `cobs_decode` of `block` returns `m`, in every buffer that holds it. -/
def DecodesTo (block m : List UInt8) : Prop :=
  ∀ (out : List UInt8) (cap : Nat), cap ≤ out.length → m.length ≤ cap →
    (cobsDecode block out cap).2 = some m.length ∧ (cobsDecode block out cap).1.take m.length = m

/-- `DecodesTo` is COBS decoding on lists. -/
theorem decodesTo_iff (block m : List UInt8) : DecodesTo block m ↔ Cobs.decode block = some m := by
  constructor
  · intro h
    -- A buffer that has room for whatever is decoded.
    have hroom := Cobs.decodePartial_length_le block
    obtain ⟨hlen, htake⟩ := h (List.replicate (max block.length m.length) 0)
      (max block.length m.length) (by simp) (by omega)
    rw [cobsDecode_eq _ _ _ (by simp), answer_of_le (by omega)] at hlen htake
    simp only [Option.ite_none_right_eq_some, Option.some.injEq] at hlen
    rw [← hlen.2, Buffer.overwrite_take] at htake
    simp [Cobs.decode, hlen.1, htake]
  · intro h out cap hcap hroom
    exact cobsDecode_of_decode h hcap hroom

/-- The CRC check accepts exactly a payload followed by its CRC. -/
theorem checkCrc_eq_some_iff (decoded payload : List UInt8) :
    checkCrc decoded = some payload ↔ decoded = payload ++ crcBe payload := by
  unfold checkCrc
  constructor
  · intro h
    simp only [Option.ite_none_right_eq_some, Option.some.injEq] at h
    obtain ⟨⟨-, hcrc⟩, hpayload⟩ := h
    rw [hpayload] at hcrc
    rw [← hcrc, ← hpayload, List.take_append_drop]
  · rintro rfl
    simp

/-- A block is accepted when it decodes to a payload followed by its CRC. -/
theorem verdict_ready_iff (block payload : List UInt8) :
    verdict block = .ready payload ↔ Cobs.decode block = some (payload ++ crcBe payload) := by
  unfold verdict
  by_cases hempty : block = []
  · have hne : payload ++ crcBe payload ≠ [] := by simp [crcBe]
    simp [hempty, Cobs.decode, Cobs.decodePartial, Ne.symm hne]
  rw [if_neg hempty]
  cases Cobs.decode block with
  | none => simp
  | some decoded =>
      simp only [Option.some.injEq, ← checkCrc_eq_some_iff]
      cases checkCrc decoded <;> simp

/-- The body of a frame is accepted. -/
theorem verdict_frameBody (payload : List UInt8) :
    verdict (frameBody payload) = .ready payload :=
  (verdict_ready_iff _ _).mpr (Cobs.decode_encode _)

/-- No byte of a frame's body is a delimiter. -/
theorem frameBody_ne_zero (payload : List UInt8) : 0 ∉ frameBody payload :=
  Cobs.encode_ne_zero _

namespace Splitter

variable (frameMax lineMax : Nat)

/-! ### Runs through a frame -/

/-- Nothing was reported for `n` bytes. -/
abbrev silent (n : Nat) : List (Option Report) := List.replicate n none

/-- A zero-free block that fits is collected without a report. -/
theorem collect_run (s : Splitter) (block bytes : List UInt8) (hblock : s.block = some block)
    (hbytes : 0 ∉ bytes) (hroom : block.length + bytes.length ≤ frameMax) :
    (splitter frameMax lineMax).final s bytes = { s with block := some (block ++ bytes) } ∧
      (splitter frameMax lineMax).outputs s bytes = silent bytes.length := by
  induction bytes generalizing s block with
  | nil => simp [← hblock]
  | cons b bytes ih =>
      have hb : b ≠ 0 := by
        rintro rfl
        exact hbytes List.mem_cons_self
      have hstep : (splitter frameMax lineMax).step s b
          = ({ s with block := some (block ++ [b]) }, none) := by
        simp only [List.length_cons] at hroom
        simp only [splitter, step, hblock, collect]
        rw [if_pos hb, if_neg (by omega)]
      obtain ⟨hfinal, houtputs⟩ := ih { s with block := some (block ++ [b]) } (block ++ [b]) rfl
        (fun h => hbytes (List.mem_cons_of_mem _ h)) (by simp at hroom ⊢; omega)
      rw [Mealy.final_cons, Mealy.outputs_cons, hstep, hfinal, houtputs]
      simp [silent, List.replicate_succ]

/-- The delimiter behind a block. -/
theorem step_zero (s : Splitter) (block : List UInt8) (hblock : s.block = some block) :
    (splitter frameMax lineMax).step s 0 = s.terminate block := by
  simp [splitter, step, hblock, collect]

/-- The delimiter between frames opens a block. -/
theorem step_open (s : Splitter) (htext : s.block = none) :
    (splitter frameMax lineMax).step s 0 = ({ s with block := some [] }, none) := by
  simp [splitter, step, htext, text]

/-- Right behind a delimiter, the body and the closing delimiter of a frame report its
payload. -/
theorem frame_from_open (s : Splitter) (payload : List UInt8) (hopen : s.block = some [])
    (hfit : (frameBody payload).length ≤ frameMax) :
    (splitter frameMax lineMax).final s (frameBody payload ++ [0]) = { s with block := none } ∧
      (splitter frameMax lineMax).outputs s (frameBody payload ++ [0])
        = silent (frameBody payload).length ++ [some (.frame payload)] := by
  obtain ⟨hfinal, houtputs⟩ := collect_run frameMax lineMax s [] (frameBody payload) hopen
    (frameBody_ne_zero payload) (by simpa using hfit)
  rw [Mealy.final_append, Mealy.outputs_concat, hfinal, houtputs, Mealy.final_cons,
    step_zero _ _ _ _ rfl]
  simp [terminate, verdict_frameBody]

/-- Between frames, a frame reports its payload at its last byte and leaves the state as it
was. -/
theorem frame_from_text (s : Splitter) (payload : List UInt8) (htext : s.block = none)
    (hfit : (frameBody payload).length ≤ frameMax) :
    (splitter frameMax lineMax).final s (frameBytes payload) = s ∧
      (splitter frameMax lineMax).outputs s (frameBytes payload)
        = silent ((frameBody payload).length + 1) ++ [some (.frame payload)] := by
  obtain ⟨hfinal, houtputs⟩ := frame_from_open frameMax lineMax
    { s with block := some [] } payload rfl hfit
  rw [frameBytes_eq, List.cons_append, Mealy.final_cons, Mealy.outputs_cons,
    step_open frameMax lineMax s htext, hfinal, houtputs]
  constructor
  · rw [← htext]
  · simp [silent, List.replicate_succ]

end Splitter

end SerialRpc
