import SerialRpc.Framing.Splitter
import SerialRpc.Lib.BigEndian
import SerialRpc.Proofs.Framing.Decoder

/-!
# `SerialRpc.Proofs.Framing.Refinement`: both demultiplexers are splitters

`decode_and_validate_frame` works in place and leaves garbage behind on malformed blocks.
`decodeAndValidateFrame_verdict` says that all of it is a function of the block alone, the
`verdict`.

`Demux.Models` relates a `Demux` to a splitter: the collector holds the block, the line
buffer holds the part of the line that fits, and the flag says whether some did not fit.
`demux_simulation` shows that each byte keeps the relation and gives the same report.
`demuxNoText_simulation` does it for the class without lines, whose reports are the
splitter's frames.
-/

set_option autoImplicit false

namespace SerialRpc

open Buffer

/-! ### `decode_and_validate_frame` -/

/-- The outcome of a validation with the bytes it is about. -/
def FrameValidation.verdict (v : FrameValidation) : Verdict :=
  match v.outcome with
  | .empty => .empty
  | .ready => .ready (v.buf.take v.outLen)
  | .cobsError => .cobsError (v.buf.take v.outLen)
  | .crcError => .crcError (v.buf.take v.outLen)

/-- The big-endian CRC of a payload, as bytes of a number. -/
theorem crcBe_eq (payload : List UInt8) :
    crcBe payload = BigEndian.toBytes 2 (crc16Ccitt payload).toNat :=
  BigEndian.bytes_word16 _

/-- The comparison in `decode_and_validate_frame` compares the last two bytes with the
CRC. -/
theorem received_eq_iff (payload : List UInt8) (b₀ b₁ : UInt8) :
    crc16Ccitt payload = (b₀.toUInt16 <<< 8) ||| b₁.toUInt16 ↔ [b₀, b₁] = crcBe payload := by
  rw [← UInt16.toNat_inj, BigEndian.toNat_word16, crcBe_eq]
  constructor
  · intro h
    rw [h]
    exact (BigEndian.toBytes_ofBytes [b₀, b₁]).symm
  · intro h
    rw [h, BigEndian.ofBytes_toBytes (UInt16.toNat_lt _)]

/-- The last two of at least two bytes. -/
theorem drop_eq_pair {l : List UInt8} (h : 2 ≤ l.length) :
    l.drop (l.length - 2) = [l.getD (l.length - 2) 0, l.getD (l.length - 2 + 1) 0] := by
  rw [List.drop_eq_getElem_cons (by omega), List.drop_eq_getElem_cons (by omega),
    List.drop_of_length_le (by omega)]
  simp [List.getD_eq_getElem?_getD, show l.length - 2 < l.length by omega,
    show l.length - 2 + 1 < l.length by omega]

/-- The CRC check on the decoded bytes at the front of the buffer. -/
theorem checkCrc_eq (decoded rest : List UInt8) :
    checkCrc decoded =
      if decoded.length < 2 then none
      else if crc16Ccitt ((decoded ++ rest).take (decoded.length - 2)) ≠
          (((decoded ++ rest).getD (decoded.length - 2) 0).toUInt16 <<< 8) |||
            ((decoded ++ rest).getD (decoded.length - 2 + 1) 0).toUInt16 then none
      else some ((decoded ++ rest).take (decoded.length - 2)) := by
  by_cases hshort : decoded.length < 2
  · rw [if_pos hshort, checkCrc, if_neg (by omega)]
  have hlast : ∀ i, i < decoded.length → (decoded ++ rest).getD i 0 = decoded.getD i 0 :=
    fun i hi => by simp [List.getD_eq_getElem?_getD, List.getElem?_append_left hi]
  rw [if_neg hshort, List.take_append_of_le_length (by omega), hlast _ (by omega),
    hlast _ (by omega), checkCrc]
  simp only [ne_eq, received_eq_iff, ← drop_eq_pair (show 2 ≤ decoded.length by omega),
    show 2 ≤ decoded.length by omega, true_and]
  split <;> simp_all

/-- In place over a buffer of `cap` bytes, the validation is the verdict on the block. -/
theorem decodeAndValidateFrame_verdict (buf : List UInt8) (len cap : Nat) (hlen : len ≤ cap)
    (hcap : cap = buf.length) :
    (decodeAndValidateFrame buf len cap).verdict = verdict (buf.take len) := by
  unfold decodeAndValidateFrame verdict
  -- An empty block is no frame and no error.
  by_cases hzero : len = 0
  · simp [hzero, FrameValidation.verdict]
  have hblock : (buf.take len).length = len := by simp; omega
  have hne : buf.take len ≠ [] := List.ne_nil_of_length_pos (by omega)
  rw [if_neg hzero, if_neg hne, cobsDecodeInPlace_eq buf len cap hlen hcap.le]
  have hle := Cobs.decodePartial_length_le (buf.take len)
  rw [hblock] at hle
  have hfront : (overwrite buf (Cobs.decodePartial (buf.take len)).1).take len
      = overwrite (buf.take len) (Cobs.decodePartial (buf.take len)).1 := by
    rw [overwrite, overwrite, List.take_append, List.take_of_length_le (by omega),
      List.drop_take]
  -- The block does not decode, its CRC does not match, or its payload is in front.
  cases hdecode : Cobs.decode (buf.take len) with
  | none => simp [FrameValidation.verdict, hfront]
  | some decoded =>
      obtain ⟨-, hdecoded⟩ : (Cobs.decodePartial (buf.take len)).2 = true ∧
          (Cobs.decodePartial (buf.take len)).1 = decoded := by
        simpa [Cobs.decode] using hdecode
      simp only [Option.map_some, hdecoded, overwrite]
      rw [checkCrc_eq decoded (buf.drop decoded.length)]
      -- Two bytes are needed for the CRC.
      by_cases hshort : decoded.length < 2
      · simp [hshort, FrameValidation.verdict]
      · simp only [hshort, if_false]
        split <;> simp [FrameValidation.verdict]

/-- The validation keeps the buffer's size and never looks past the block. -/
theorem decodeAndValidateFrame_length (buf : List UInt8) (len cap : Nat) (hlen : len ≤ cap)
    (hcap : cap = buf.length) :
    (decodeAndValidateFrame buf len cap).buf.length = buf.length := by
  unfold decodeAndValidateFrame
  split
  · rfl
  rw [cobsDecodeInPlace_eq buf len cap hlen hcap.le]
  have hle := Cobs.decodePartial_length_le (buf.take len)
  have hkeep : (overwrite buf (Cobs.decodePartial (buf.take len)).1).length = buf.length := by
    rw [overwrite_length]
    simp only [List.length_take] at hle
    omega
  cases Cobs.decode (buf.take len) with
  | none => exact hkeep
  | some decoded =>
      simp only [Option.map_some]
      split
      · exact hkeep
      · split <;> exact hkeep

/-! ### The demultiplexer with lines -/

namespace Demux

variable {sz : DemuxSize}

/-- The bytes collected in FRAME state, or `none` in TEXT state. -/
def collected (d : Demux sz) : Option (List UInt8) :=
  match d.state with
  | .text => none
  | .frame => some (d.frameBuf.take d.frameLen)

/-- The demultiplexer stands for the splitter `s`: the same block, the part of the line that
fits, and the same flags and counters. -/
structure Models (d : Demux sz) (s : Splitter) : Prop where
  block : s.block = d.collected
  frameLen_le : d.frameLen ≤ sz.frameMax
  frameBuf_length : d.frameBuf.length = sz.frameMax
  line : d.lineBuf.take d.lineLen = s.line.take (sz.lineMax - 1)
  lineLen : d.lineLen = min s.line.length (sz.lineMax - 1)
  lineBuf_length : d.lineBuf.length = sz.lineMax
  truncated : d.lineTruncated = decide (sz.lineMax - 1 < s.line.length)
  pendingCr : s.pendingCr = d.pendingCr
  crcErrors : s.crcErrors = d.crcErrors
  cobsErrors : s.cobsErrors = d.cobsErrors
  overflowErrors : s.overflowErrors = d.overflowErrors

/-- A new receiver models a new splitter. -/
theorem models_new (sz : DemuxSize) : (new sz).Models .new where
  block := rfl
  frameLen_le := Nat.zero_le _
  frameBuf_length := List.length_replicate
  line := by simp [new, Splitter.new]
  lineLen := by simp [new, Splitter.new]
  lineBuf_length := List.length_replicate
  truncated := by simp [new, Splitter.new]
  pendingCr := rfl
  crcErrors := rfl
  cobsErrors := rfl
  overflowErrors := rfl

section
variable {d : Demux sz} {s : Splitter}

/-- One more byte of the line. It is dropped, with the flag set, when the buffer is full. -/
theorem Models.appendLineByte (h : d.Models s) (b : UInt8) :
    (d.appendLineByte b).Models { s with line := s.line ++ [b] } := by
  have hpos := sz.lineMax_pos
  have hlen := h.lineLen
  have hline := h.line
  unfold Demux.appendLineByte
  split
  · rename_i hfull
    exact { h with
      line := by
        rw [hline, List.take_append_of_le_length (by omega)]
      lineLen := by
        simp only [List.length_append, List.length_singleton]
        omega
      truncated := by
        simp only [List.length_append, List.length_singleton]
        exact (decide_eq_true (by omega)).symm }
  · rename_i hroom
    -- Nothing was cut so far, so the buffer holds the whole line.
    have hshort : s.line.length = d.lineLen := by omega
    have hwhole : d.lineBuf.take d.lineLen = s.line := by
      rw [hline, List.take_of_length_le (by omega)]
    exact { h with
      line := by
        have hcut : (s.line ++ [b]).take (sz.lineMax - 1) = s.line ++ [b] := by
          rw [List.take_of_length_le]
          simp only [List.length_append, List.length_singleton]
          omega
        simp only [hcut, List.take_add_one]
        rw [List.take_set_of_le (Nat.le_refl _), hwhole,
          List.getElem?_set_self (by rw [h.lineBuf_length]; omega)]
        rfl
      lineLen := by
        simp only [List.length_append, List.length_singleton]
        omega
      lineBuf_length := by simp [h.lineBuf_length]
      truncated := by
        rw [h.truncated]
        simp only [List.length_append, List.length_singleton, decide_eq_decide]
        omega }

/-- Pushed-back bytes join the line one by one. -/
theorem Models.foldl_appendLineByte (h : d.Models s) (bytes : List UInt8) :
    (bytes.foldl Demux.appendLineByte d).Models { s with line := s.line ++ bytes } := by
  induction bytes generalizing d s with
  | nil => simpa using h
  | cons b bytes ih => simpa using ih (h.appendLineByte b)

/-- Pushing a broken frame back as text appends its bytes to the line. -/
theorem Models.pushBack (h : d.Models s) (len : Nat) :
    (d.pushBackFrameAsText len).Models { s with line := s.line ++ d.frameBuf.take len } :=
  h.foldl_appendLineByte _

/-- A fresh collector. -/
theorem Models.openFrame (h : d.Models s) :
    ({ d with state := .frame, frameLen := 0 } : Demux sz).Models
      { s with block := some [] } :=
  { h with block := rfl, frameLen_le := Nat.zero_le _ }

/-- The collector is given up. -/
theorem Models.giveUp (h : d.Models s) :
    ({ d with state := .text, frameLen := 0 } : Demux sz).Models { s with block := none } :=
  { h with block := rfl, frameLen_le := Nat.zero_le _ }

/-- A rejected frame joins the line, and its terminator opens the next one. -/
theorem Models.reject (h : d.Models s) (hframe : d.state = .frame) (len : Nat) :
    ({ d.pushBackFrameAsText len with frameLen := 0 } : Demux sz).Models
      { s with block := some [], line := s.line ++ d.frameBuf.take len } := by
  have hpushed := h.pushBack len
  have hstate : (d.pushBackFrameAsText len).state = .frame := by
    have hblock := h.block.symm.trans hpushed.block
    simp only [collected, hframe] at hblock
    cases hcase : (d.pushBackFrameAsText len).state with
    | text => simp [hcase] at hblock
    | frame => rfl
  exact { hpushed with
    block := by simp [collected, hstate]
    frameLen_le := Nat.zero_le _ }

/-- What an emitted line looks like to the caller. -/
theorem Models.report_emitLine (h : d.Models s) :
    d.emitLine.1.report d.emitLine.2 = some (Splitter.cut sz.lineMax s.line) := by
  have hlen := h.lineLen
  simp [emitLine, report, data, Demux.truncated, Splitter.cut, h.truncated, ← h.line,
    List.take_set_of_le]

/-- After a line the buffer is empty. -/
theorem Models.emitLine (h : d.Models s) : d.emitLine.1.Models { s with line := [] } :=
  { h with
    line := by simp [Demux.emitLine]
    lineLen := by simp [Demux.emitLine]
    lineBuf_length := by simp [Demux.emitLine, h.lineBuf_length]
    truncated := by simp [Demux.emitLine] }

/-- A byte in TEXT state. The block of the splitter plays no part. -/
theorem Models.feedText (h : d.Models s) (b : UInt8) :
    (d.feedText b).1.Models (s.text sz.lineMax b).1 ∧
      (d.feedText b).1.report (d.feedText b).2 = (s.text sz.lineMax b).2 := by
  unfold Demux.feedText Splitter.text
  split
  · exact ⟨h.openFrame, rfl⟩
  split
  · exact ⟨{ h.emitLine with pendingCr := rfl }, h.report_emitLine⟩
  split
  · have hsame := h.pendingCr
    cases hpending : d.pendingCr with
    | true =>
        rw [if_pos rfl, if_pos (by rw [hsame, hpending])]
        exact ⟨{ h with pendingCr := rfl }, rfl⟩
    | false =>
        rw [if_neg Bool.false_ne_true, if_neg (by rw [hsame, hpending]; exact Bool.false_ne_true)]
        exact ⟨h.emitLine, h.report_emitLine⟩
  · have hflag : { d with pendingCr := false }.Models { s with pendingCr := false } :=
      { h with pendingCr := rfl }
    exact ⟨hflag.appendLineByte b, rfl⟩

/-- A byte in FRAME state, behind the collected block. -/
theorem Models.feedFrame (h : d.Models s) (hframe : d.state = .frame) (b : UInt8) :
    (d.feedFrame b).1.Models
        (s.collect sz.frameMax sz.lineMax (d.frameBuf.take d.frameLen) b).1 ∧
      (d.feedFrame b).1.report (d.feedFrame b).2
        = (s.collect sz.frameMax sz.lineMax (d.frameBuf.take d.frameLen) b).2 := by
  have hle := h.frameLen_le
  have hbuf := h.frameBuf_length
  have hblockLen : (d.frameBuf.take d.frameLen).length = d.frameLen := by
    rw [List.length_take]
    omega
  unfold Demux.feedFrame Splitter.collect
  rw [hblockLen]
  split
  · split
    · -- Overflow: the block joins the line and the byte is read as text.
      have hcount : { d with overflowErrors := d.overflowErrors + 1 }.Models
          { s with overflowErrors := s.overflowErrors + 1 } :=
        { h with overflowErrors := by rw [h.overflowErrors] }
      exact (hcount.pushBack d.frameLen).giveUp.feedText b
    · rename_i hroom
      refine ⟨{ h with
        block := ?_
        frameLen_le := by simp only; omega
        frameBuf_length := by simp [hbuf] }, rfl⟩
      simp only [collected, hframe]
      rw [List.take_add_one, List.take_set_of_le (by omega), List.getElem?_set_self (by omega)]
      rfl
  · have hverdict := decodeAndValidateFrame_verdict d.frameBuf d.frameLen sz.frameMax hle
      hbuf.symm
    have hkept : (decodeAndValidateFrame d.frameBuf d.frameLen sz.frameMax).buf.length
        = sz.frameMax := by
      rw [decodeAndValidateFrame_length _ _ _ hle hbuf.symm, hbuf]
    unfold Splitter.terminate
    rw [← hverdict]
    generalize decodeAndValidateFrame d.frameBuf d.frameLen sz.frameMax = v at hkept
    obtain ⟨buf, outcome, outLen⟩ := v
    -- Only the buffer has changed when the switch is reached.
    have hdecoded : { d with frameBuf := buf }.Models
        { s with block := some (buf.take d.frameLen) } :=
      { h with block := by simp [collected, hframe], frameBuf_length := hkept }
    cases outcome with
    | empty =>
        refine ⟨{ hdecoded with block := ?_, frameLen_le := Nat.zero_le _ }, rfl⟩
        simp [FrameValidation.verdict, collected, hframe]
    | ready =>
      exact ⟨{ hdecoded with block := rfl }, by simp [FrameValidation.verdict, report, data]⟩
    | cobsError =>
        have hcount : { d with frameBuf := buf, cobsErrors := d.cobsErrors + 1 }.Models
            { s with block := some (buf.take d.frameLen), cobsErrors := s.cobsErrors + 1 } :=
          { hdecoded with cobsErrors := by simp [h.cobsErrors] }
        exact ⟨hcount.reject hframe outLen, rfl⟩
    | crcError =>
        have hcount : { d with frameBuf := buf, crcErrors := d.crcErrors + 1 }.Models
            { s with block := some (buf.take d.frameLen), crcErrors := s.crcErrors + 1 } :=
          { hdecoded with crcErrors := by simp [h.crcErrors] }
        exact ⟨hcount.reject hframe outLen, rfl⟩

end

/-- `Demux` does, byte by byte, what the splitter does, with the same reports. -/
theorem demux_simulation (sz : DemuxSize) :
    Mealy.Simulation (demux sz) (splitter sz.frameMax sz.lineMax) Models id := by
  have hstep : ∀ (d : Demux sz) (s : Splitter) (b : UInt8), d.Models s →
      (d.feed b).1.Models (s.step sz.frameMax sz.lineMax b).1 ∧
        (d.feed b).1.report (d.feed b).2 = (s.step sz.frameMax sz.lineMax b).2 := by
    intro d s b h
    have hblock := h.block
    unfold feed Splitter.step
    cases hstate : d.state with
    | text =>
        rw [show s.block = none by rw [hblock, collected, hstate]]
        exact h.feedText b
    | frame =>
        rw [show s.block = some (d.frameBuf.take d.frameLen) by rw [hblock, collected, hstate]]
        exact h.feedFrame hstate b
  exact ⟨fun d s b h => (hstep d s b h).1, fun d s b h => (hstep d s b h).2⟩

end Demux

/-! ### The demultiplexer without lines -/

/-- A report without the text. -/
def frameOnly : Option Report → Option Report
  | some (.frame payload) => some (.frame payload)
  | _ => none

/-- A byte between frames never gives a frame. -/
theorem Splitter.frameOnly_text (lineMax : Nat) (s : Splitter) (b : UInt8) :
    frameOnly (s.text lineMax b).2 = none := by
  unfold Splitter.text Splitter.cut
  split
  · rfl
  · split
    · rfl
    · split
      · split <;> rfl
      · rfl

namespace DemuxNoText

variable {frameMax : Nat}

/-- The bytes collected in FRAME state, or `none` in TEXT state. -/
def collected (d : DemuxNoText frameMax) : Option (List UInt8) :=
  match d.state with
  | .text => none
  | .frame => some (d.frameBuf.take d.frameLen)

/-- The same block and the same counters. The line is not kept. -/
structure Models (d : DemuxNoText frameMax) (s : Splitter) : Prop where
  block : s.block = d.collected
  frameLen_le : d.frameLen ≤ frameMax
  frameBuf_length : d.frameBuf.length = frameMax
  crcErrors : s.crcErrors = d.crcErrors
  cobsErrors : s.cobsErrors = d.cobsErrors
  overflowErrors : s.overflowErrors = d.overflowErrors

/-- A new receiver that collects no text models a new splitter. -/
theorem models_new (frameMax : Nat) : (new frameMax).Models .new where
  block := rfl
  frameLen_le := Nat.zero_le _
  frameBuf_length := List.length_replicate
  crcErrors := rfl
  cobsErrors := rfl
  overflowErrors := rfl

section
variable {d : DemuxNoText frameMax} {s : Splitter}

/-- A byte in TEXT state changes nothing unless it is a delimiter. -/
theorem Models.feedText (h : d.Models s) (lineMax : Nat) (b : UInt8) :
    (d.feedText b).1.Models (s.text lineMax b).1 ∧
      (d.feedText b).1.report (d.feedText b).2 = frameOnly (s.text lineMax b).2 := by
  rw [Splitter.frameOnly_text]
  unfold DemuxNoText.feedText Splitter.text
  split
  · exact ⟨{ h with block := rfl, frameLen_le := Nat.zero_le _ }, rfl⟩
  · refine ⟨?_, rfl⟩
    split
    · exact { h with }
    · split
      · split <;> exact { h with }
      · exact { h with }

/-- A byte in FRAME state, behind the collected block. -/
theorem Models.feedFrame (h : d.Models s) (hframe : d.state = .frame) (lineMax : Nat)
    (b : UInt8) :
    (d.feedFrame b).1.Models
        (s.collect frameMax lineMax (d.frameBuf.take d.frameLen) b).1 ∧
      (d.feedFrame b).1.report (d.feedFrame b).2
        = frameOnly (s.collect frameMax lineMax (d.frameBuf.take d.frameLen) b).2 := by
  have hle := h.frameLen_le
  have hbuf := h.frameBuf_length
  have hblockLen : (d.frameBuf.take d.frameLen).length = d.frameLen := by
    rw [List.length_take]
    omega
  -- A byte of the block, one too many, or the zero that ends it: the branches of `feed_frame_`.
  unfold DemuxNoText.feedFrame Splitter.collect
  rw [hblockLen]
  split
  · split
    · have hover : ({ d with
            overflowErrors := d.overflowErrors + 1, state := .text, frameLen := 0 } :
            DemuxNoText frameMax).Models
          { s with
            block := none
            line := s.line ++ d.frameBuf.take d.frameLen
            overflowErrors := s.overflowErrors + 1 } :=
        { h with
          block := rfl
          frameLen_le := Nat.zero_le _
          overflowErrors := by rw [h.overflowErrors] }
      exact hover.feedText lineMax b
    · rename_i hroom
      refine ⟨{ h with
        block := ?_
        frameLen_le := by simp only; omega
        frameBuf_length := by simp [hbuf] }, rfl⟩
      simp only [collected, hframe]
      rw [List.take_add_one, List.take_set_of_le (by omega), List.getElem?_set_self (by omega)]
      rfl
  · have hverdict := decodeAndValidateFrame_verdict d.frameBuf d.frameLen frameMax hle
      hbuf.symm
    have hkept : (decodeAndValidateFrame d.frameBuf d.frameLen frameMax).buf.length
        = frameMax := by
      rw [decodeAndValidateFrame_length _ _ _ hle hbuf.symm, hbuf]
    unfold Splitter.terminate
    rw [← hverdict]
    generalize decodeAndValidateFrame d.frameBuf d.frameLen frameMax = v at hkept
    obtain ⟨buf, outcome, outLen⟩ := v
    cases outcome with
    | empty =>
        refine ⟨{ h with
          block := ?_
          frameLen_le := Nat.zero_le _
          frameBuf_length := hkept }, rfl⟩
        simp [FrameValidation.verdict, collected, hframe]
    | ready =>
        exact ⟨{ h with block := rfl, frameBuf_length := hkept },
          by simp [FrameValidation.verdict, report, data, frameOnly]⟩
    | cobsError =>
        refine ⟨{ h with
          block := ?_
          frameLen_le := Nat.zero_le _
          frameBuf_length := hkept
          cobsErrors := by simp [FrameValidation.verdict, h.cobsErrors] }, rfl⟩
        simp [FrameValidation.verdict, collected, hframe]
    | crcError =>
        refine ⟨{ h with
          block := ?_
          frameLen_le := Nat.zero_le _
          frameBuf_length := hkept
          crcErrors := by simp [FrameValidation.verdict, h.crcErrors] }, rfl⟩
        simp [FrameValidation.verdict, collected, hframe]

end

/-- `Demux<FrameMax, 0>` reports what the splitter reports, less the text, whatever the
line length. -/
theorem demuxNoText_simulation (frameMax lineMax : Nat) :
    Mealy.Simulation (demuxNoText frameMax) (splitter frameMax lineMax) Models frameOnly := by
  have hstep : ∀ (d : DemuxNoText frameMax) (s : Splitter) (b : UInt8), d.Models s →
      (d.feed b).1.Models (s.step frameMax lineMax b).1 ∧
        (d.feed b).1.report (d.feed b).2 = frameOnly (s.step frameMax lineMax b).2 := by
    intro d s b h
    have hblock := h.block
    unfold feed Splitter.step
    cases hstate : d.state with
    | text =>
        rw [show s.block = none by rw [hblock, collected, hstate]]
        exact h.feedText lineMax b
    | frame =>
        rw [show s.block = some (d.frameBuf.take d.frameLen) by rw [hblock, collected, hstate]]
        exact h.feedFrame hstate lineMax b
  exact ⟨fun d s b h => (hstep d s b h).1, fun d s b h => (hstep d s b h).2⟩

end DemuxNoText

end SerialRpc
