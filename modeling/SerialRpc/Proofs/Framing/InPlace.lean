import Mathlib.Logic.Function.Iterate
import SerialRpc.Proofs.Framing.Decoder

/-!
# `SerialRpc.Proofs.Framing.InPlace`: decoding a block over itself

`cobs_decode` may be called with `out` equal to `in`, and `Demux` decodes every frame so. Its
write index stays behind the byte it is about to read, so it never reads what it wrote.

`DecodeMoment` is `cobs_decode` between two of its steps, each of which reads or writes one byte at
most. `reaches_decodeLoop` says that the steps end with what the two loops compute.

* `Behind`: the write index is behind the cursor, and from the cursor on nothing has changed.
  Every step keeps it (`Behind.next`).
* `in_place_decoding`: decoding in place gives the result and the bytes of decoding into another
  buffer, and at every moment the bytes from the cursor on are the original ones.
-/

set_option autoImplicit false

namespace SerialRpc

variable {μ : Type}

/-! ### The steps of the decoder -/

/-- Where `cobs_decode` stands. -/
inductive DecodePoint where
  /-- At the condition of the `while`. -/
  | group
  /-- In the `for`, with so many bytes of the group left to copy. -/
  | copy (code : UInt8) (left : Nat)
  /-- Behind the `for`, in front of the implicit zero. -/
  | separator (code : UInt8)
  | returned (result : Option Nat)
deriving DecidableEq

/-- A moment of `cobs_decode`. -/
structure DecodeMoment (μ : Type) where
  point : DecodePoint
  /-- The next byte to be read: `read_index`, and `read_index + i` in the `for`. -/
  cursor : Nat
  writeIndex : Nat
  mem : μ

namespace DecodeMoment

/-- The first moment. -/
def start (mem : μ) : DecodeMoment μ := ⟨.group, 0, 0, mem⟩

/-- The next moment. Nothing happens any more once the function has returned. -/
def next (M : DecodeMem μ) (len outCap : Nat) (d : DecodeMoment μ) : DecodeMoment μ :=
  match d.point with
  | .group =>
      if d.cursor < len then
        let code := M.read d.mem d.cursor
        if code = 0 then { d with point := .returned none }
        else if len - (d.cursor + 1) < code.toNat - 1 then { d with point := .returned none }
        else { d with point := .copy code (code.toNat - 1), cursor := d.cursor + 1 }
      else { d with point := .returned (some d.writeIndex) }
  | .copy code 0 => { d with point := .separator code }
  | .copy code (left + 1) =>
      let b := M.read d.mem d.cursor
      if b = 0 then { d with point := .returned none }
      else if outCap ≤ d.writeIndex then { d with point := .returned none }
      else
        { point := .copy code left
          cursor := d.cursor + 1
          writeIndex := d.writeIndex + 1
          mem := M.write d.mem d.writeIndex b }
  | .separator code =>
      if code ≠ 0xff ∧ d.cursor < len then
        if outCap ≤ d.writeIndex then { d with point := .returned none }
        else
          { d with
              point := .group
              writeIndex := d.writeIndex + 1
              mem := M.write d.mem d.writeIndex 0 }
      else { d with point := .group }
  | .returned _ => d

/-- Some steps lead from one moment to another. -/
def Reaches (M : DecodeMem μ) (len outCap : Nat) (d d' : DecodeMoment μ) : Prop :=
  ∃ k, (next M len outCap)^[k] d = d'

section
variable {M : DecodeMem μ} {len outCap : Nat} {d d' d'' : DecodeMoment μ}

/-- No step at all leads back to the same moment. -/
theorem Reaches.refl (d : DecodeMoment μ) : Reaches M len outCap d d := ⟨0, rfl⟩

/-- The steps of two runs make one. -/
theorem Reaches.trans (h : Reaches M len outCap d d') (h' : Reaches M len outCap d' d'') :
    Reaches M len outCap d d'' := by
  obtain ⟨k, rfl⟩ := h
  obtain ⟨k', rfl⟩ := h'
  exact ⟨k' + k, Function.iterate_add_apply _ k' k d⟩

/-- One step. -/
theorem reaches_next (h : d.next M len outCap = d') : Reaches M len outCap d d' := ⟨1, h⟩

end

/-- The steps of the `for` end as the loop does. -/
theorem reaches_copyRun (M : DecodeMem μ) (len outCap : Nat) (code : UInt8) (n : Nat) :
    ∀ (r w : Nat) (mem : μ),
      (∀ mem' w', copyRun M outCap n r w mem = (mem', some w') →
        Reaches M len outCap ⟨.copy code n, r, w, mem⟩ ⟨.separator code, r + n, w', mem'⟩) ∧
      ∀ mem', copyRun M outCap n r w mem = (mem', none) →
        ∃ r' w', Reaches M len outCap ⟨.copy code n, r, w, mem⟩ ⟨.returned none, r', w', mem'⟩ := by
  induction n with
  | zero =>
      intro r w mem
      constructor
      · intro mem' w' h
        cases h
        exact reaches_next rfl
      · intro mem' h
        cases h
  | succ n ih =>
      intro r w mem
      rw [copyRun]
      by_cases hb : M.read mem r = 0
      · rw [if_pos hb]
        constructor
        · intro mem' w' h
          cases h
        · intro mem' h
          cases h
          exact ⟨r, w, reaches_next (by simp only [next, hb, if_true])⟩
      by_cases hfull : outCap ≤ w
      · rw [if_neg hb, if_pos hfull]
        constructor
        · intro mem' w' h
          cases h
        · intro mem' h
          cases h
          exact ⟨r, w, reaches_next (by simp only [next, hb, hfull, if_true, if_false])⟩
      rw [if_neg hb, if_neg hfull]
      have hone : Reaches M len outCap ⟨.copy code (n + 1), r, w, mem⟩
          ⟨.copy code n, r + 1, w + 1, M.write mem w (M.read mem r)⟩ :=
        reaches_next (by simp only [next, hb, hfull, if_false])
      -- One byte is copied, and the others are left to the hypothesis.
      obtain ⟨hdone, hfailed⟩ := ih (r + 1) (w + 1) (M.write mem w (M.read mem r))
      constructor
      · intro mem' w' h
        have hrest := hdone mem' w' h
        rw [show r + 1 + n = r + (n + 1) by omega] at hrest
        exact hone.trans hrest
      · intro mem' h
        obtain ⟨r', w', hrest⟩ := hfailed mem' h
        exact ⟨r', w', hone.trans hrest⟩

/-- The steps of `cobs_decode` end as the two loops do. Induction on what is left to read. -/
theorem reaches_decodeLoop (M : DecodeMem μ) (len outCap bound : Nat) :
    ∀ (r w : Nat) (mem : μ), len - r ≤ bound →
      ∃ r' w', Reaches M len outCap ⟨.group, r, w, mem⟩
        ⟨.returned (decodeLoop M len outCap r w mem).2, r', w',
          (decodeLoop M len outCap r w mem).1⟩ := by
  induction bound with
  | zero =>
      intro r w mem hbound
      have hend : ¬ r < len := by omega
      rw [decodeLoop, if_neg hend]
      exact ⟨r, w, reaches_next (by simp only [next, hend, if_false])⟩
  | succ bound ih =>
      intro r w mem hbound
      by_cases hlt : r < len
      case neg =>
        rw [decodeLoop, if_neg hlt]
        exact ⟨r, w, reaches_next (by simp only [next, hlt, if_false])⟩
      rw [decodeLoop, if_pos hlt]
      dsimp only
      -- The two checks of the code byte end the function at once.
      by_cases hcode : M.read mem r = 0
      · rw [if_pos hcode]
        exact ⟨r, w, reaches_next (by simp only [next, hlt, hcode, if_true])⟩
      by_cases hshort : len - (r + 1) < (M.read mem r).toNat - 1
      · rw [if_neg hcode, if_pos hshort]
        exact ⟨r, w, reaches_next (by simp only [next, hlt, hcode, hshort, if_true, if_false])⟩
      rw [if_neg hcode, if_neg hshort]
      have hopen : Reaches M len outCap ⟨.group, r, w, mem⟩
          ⟨.copy (M.read mem r) ((M.read mem r).toNat - 1), r + 1, w, mem⟩ :=
        reaches_next (by simp only [next, hlt, hcode, hshort, if_true, if_false])
      obtain ⟨hdone, hfailed⟩ := reaches_copyRun M len outCap (M.read mem r)
        ((M.read mem r).toNat - 1) (r + 1) w mem
      -- From here on the code byte is a local variable of the source.
      generalize M.read mem r = code at *
      cases hcopy : copyRun M outCap (code.toNat - 1) (r + 1) w mem with
      | mk mem' result =>
      cases result with
      | none =>
          obtain ⟨r', w', hrest⟩ := hfailed mem' hcopy
          exact ⟨r', w', hopen.trans hrest⟩
      | some w' =>
          have hcopied := hopen.trans (hdone mem' w' hcopy)
          dsimp only
          -- Behind the group there is an implicit zero, or the next group follows at once.
          by_cases hsep : code ≠ 0xff ∧ r + 1 + (code.toNat - 1) < len
          · rw [if_pos hsep]
            by_cases hfull : outCap ≤ w'
            · rw [if_pos hfull]
              refine ⟨r + 1 + (code.toNat - 1), w', hcopied.trans (reaches_next ?_)⟩
              simp only [next, hsep, hfull, if_true, and_self, ne_eq, not_false_eq_true]
            · rw [if_neg hfull]
              obtain ⟨r'', w'', hrest⟩ := ih (r + 1 + (code.toNat - 1)) (w' + 1)
                (M.write mem' w' 0) (by omega)
              refine ⟨r'', w'', (hcopied.trans (reaches_next ?_)).trans hrest⟩
              simp only [next, hsep, hfull, if_true, if_false, and_self, ne_eq,
                not_false_eq_true]
          · rw [if_neg hsep]
            obtain ⟨r'', w'', hrest⟩ := ih (r + 1 + (code.toNat - 1)) w' mem' (by omega)
            refine ⟨r'', w'', (hcopied.trans (reaches_next ?_)).trans hrest⟩
            simp only [next, if_neg hsep]

/-! ### One buffer -/

/-- The write index is behind the byte that is read next, and from that byte on the buffer is the
original one. In front of a group the two may meet: its code byte is read before anything is
written. -/
structure Behind (buf : List UInt8) (d : DecodeMoment (List UInt8)) : Prop where
  index : d.writeIndex ≤ d.cursor
  copying : ∀ code left, d.point = .copy code left → d.writeIndex < d.cursor
  copied : ∀ code, d.point = .separator code → d.writeIndex < d.cursor
  unread : d.mem.drop d.cursor = buf.drop d.cursor

/-- At the start nothing has been written or read. -/
theorem behind_start (buf : List UInt8) : Behind buf (start buf) :=
  ⟨Nat.le_refl 0, by rintro code left ⟨⟩, by rintro code ⟨⟩, rfl⟩

/-- One more byte is behind the cursor. -/
theorem drop_succ_of_drop {buf mem : List UInt8} {r : Nat} (h : mem.drop r = buf.drop r) :
    mem.drop (r + 1) = buf.drop (r + 1) := by
  rw [← List.drop_drop, h, List.drop_drop]

/-- A moment without a step of the two indices. -/
theorem Behind.stay {buf : List UInt8} {d : DecodeMoment (List UInt8)} (h : Behind buf d)
    {point : DecodePoint} (hcopy : ∀ code left, point ≠ .copy code left)
    (hcopied : ∀ code, point = .separator code → d.writeIndex < d.cursor) :
    Behind buf { d with point := point } where
  index := h.index
  copying code left hpoint := absurd hpoint (hcopy code left)
  copied := hcopied
  unread := h.unread

/-- Every step keeps it. The copying of a byte moves both indices, and the implicit zero is
written behind the code byte of its group, which has been read. -/
theorem Behind.next {buf : List UInt8} {d : DecodeMoment (List UInt8)} (h : Behind buf d)
    (len outCap : Nat) : Behind buf (d.next .aliased len outCap) := by
  -- A decoder that has returned moves nothing.
  have hreturned : ∀ result, Behind buf { d with point := .returned result } := fun result =>
    h.stay (by rintro code left ⟨⟩) (by rintro code ⟨⟩)
  obtain ⟨point, r, w, mem⟩ := d
  have hindex : w ≤ r := h.index
  have hunread : mem.drop r = buf.drop r := h.unread
  -- One case for each point of the decoder.
  cases point with
  | group =>
      simp only [DecodeMoment.next]
      split
      · split
        · exact hreturned none
        · split
          · exact hreturned none
          · -- The code byte has been read, so the cursor is ahead from now on.
            exact {
              index := Nat.le_succ_of_le hindex
              copying := fun _ _ _ => Nat.lt_succ_of_le hindex
              copied := by rintro code ⟨⟩
              unread := drop_succ_of_drop hunread }
      · exact hreturned _
  | copy code left =>
      have hahead : w < r := h.copying code left rfl
      cases left with
      | zero => exact h.stay (by rintro code left ⟨⟩) fun _ _ => hahead
      | succ left =>
          simp only [DecodeMoment.next]
          split
          · exact hreturned none
          · split
            · exact hreturned none
            · -- The byte goes to a place that was read before.
              refine ⟨Nat.succ_le_succ hindex, fun _ _ _ => Nat.succ_lt_succ hahead,
                by rintro code ⟨⟩, ?_⟩
              show (mem.set w _).drop (r + 1) = buf.drop (r + 1)
              rw [List.drop_set_of_lt (by omega)]
              exact drop_succ_of_drop hunread
  | separator code =>
      have hahead : w < r := h.copied code rfl
      simp only [DecodeMoment.next]
      split
      · split
        · exact hreturned none
        · -- And so does the zero, as the code byte of this group was read.
          refine ⟨hahead, by rintro code left ⟨⟩, by rintro code ⟨⟩, ?_⟩
          show (mem.set w 0).drop r = buf.drop r
          rw [List.drop_set_of_lt hahead]
          exact hunread
      · exact h.stay (by rintro code left ⟨⟩) (by rintro code ⟨⟩)
  | returned result => exact h

/-- The writes stay behind the reads at every moment, by induction on the steps. -/
theorem behind_moments (buf : List UInt8) (len outCap k : Nat) :
    Behind buf ((DecodeMoment.next .aliased len outCap)^[k] (start buf)) := by
  induction k with
  | zero => exact behind_start buf
  | succ k ih =>
      rw [Function.iterate_succ_apply']
      exact ih.next len outCap

end DecodeMoment

open DecodeMoment

/-- **Decoding in place.** With a capacity that is not below the length of the block, decoding a
block over itself succeeds exactly when decoding it into another buffer does, with the same length
and the same bytes. The function goes through moments up to this result, and at each of them the
bytes from the cursor on are the original ones. -/
theorem in_place_decoding (buf out : List UInt8) (len cap : Nat) (hlen : len ≤ cap)
    (hbuf : cap ≤ buf.length) (hout : cap ≤ out.length) :
    (cobsDecodeInPlace buf len cap).2 = (cobsDecode (buf.take len) out cap).2 ∧
      (∀ n, (cobsDecode (buf.take len) out cap).2 = some n →
        (cobsDecodeInPlace buf len cap).1.take n = (cobsDecode (buf.take len) out cap).1.take n) ∧
      (∃ k, let d := (DecodeMoment.next .aliased len cap)^[k] (start buf)
        d.point = .returned (cobsDecodeInPlace buf len cap).2 ∧
          d.mem = (cobsDecodeInPlace buf len cap).1) ∧
      ∀ k, let d := (DecodeMoment.next .aliased len cap)^[k] (start buf)
        d.mem.drop d.cursor = buf.drop d.cursor := by
  have hinPlace := cobsDecodeInPlace_answer buf len cap (hlen.trans hbuf) hbuf
  have hseparate := cobsDecode_eq (buf.take len) out cap hout
  refine ⟨?_, ?_, ?_, ?_⟩
  · -- Neither answer depends on where the output goes.
    rw [hinPlace, hseparate]
    rfl
  · intro n hn
    rw [hseparate] at hn
    simp only [answer, Option.ite_none_right_eq_some, Option.some.injEq] at hn
    obtain ⟨⟨-, hfit⟩, rfl⟩ := hn
    rw [hinPlace, hseparate]
    simp only [answer, List.take_of_length_le hfit, Buffer.overwrite_take]
  · -- The steps reach the end of the loop, whatever the separate decoder does.
    obtain ⟨r, w, k, hk⟩ := reaches_decodeLoop .aliased len cap len 0 0 buf (by omega)
    refine ⟨k, ?_⟩
    show ((DecodeMoment.next .aliased len cap)^[k] ⟨.group, 0, 0, buf⟩).point = _ ∧ _
    rw [start, hk]
    exact ⟨rfl, rfl⟩
  · -- And at each of them the bytes that are still to be read are the original ones.
    intro k
    exact (behind_moments buf len cap k).unread

/-- Two groups and a malformed third one behind them. -/
theorem in_place_decoding_two_groups :
    (cobsDecodeInPlace [2, 7, 2, 9, 5] 4 5).2 = some 3 ∧
      (cobsDecodeInPlace [2, 7, 2, 9, 5] 4 5).1.take 3 = [7, 0, 9] ∧
      (cobsDecodeInPlace [2, 7, 2, 9, 5] 5 5).2 = none := by
  have hsound := in_place_decoding [2, 7, 2, 9, 5] [0, 0, 0, 0, 0] 4 5 (by decide) (by decide)
    (by decide)
  have hbroken := in_place_decoding [2, 7, 2, 9, 5] [0, 0, 0, 0, 0] 5 5 (by decide) (by decide)
    (by decide)
  have hsize : (cobsDecode [2, 7, 2, 9] [0, 0, 0, 0, 0] 5).2 = some 3 := by decide +kernel
  have hnone : (cobsDecode [2, 7, 2, 9, 5] [0, 0, 0, 0, 0] 5).2 = none := by decide +kernel
  exact ⟨hsound.1.trans hsize, (hsound.2.1 3 hsize).trans (by decide +kernel),
    hbroken.1.trans hnone⟩

end SerialRpc
