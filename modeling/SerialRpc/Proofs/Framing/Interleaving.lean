import SerialRpc.Proofs.Framing.Refinement
import SerialRpc.Proofs.Framing.Splitting

/-!
# `SerialRpc.Proofs.Framing.Interleaving`: text and frames share the wire

A wire carries items: chunks of zero-free text and frames (`Item`). `lines` says what the
lines of a text are, by looking ahead from each `\r` for a `\n`. The demultiplexer cannot
look ahead and remembers the `\r` instead. `linesAhead_cons` is the step between the two:
a remembered `\r` means that the text still to come loses a leading `\n`.

`demux_items` puts it together for any sequence of items: the frames with their positions,
the lines of the text with the frames taken out, and the error counters.
-/

set_option autoImplicit false

namespace SerialRpc

/-! ### Lines of a text -/

/-- The text without a leading `\n`. -/
def dropLf : List UInt8 → List UInt8
  | [] => []
  | b :: rest => if b = lf then rest else b :: rest

/-- Dropping a leading LF makes no text longer. -/
theorem dropLf_length_le (text : List UInt8) : (dropLf text).length ≤ text.length := by
  cases text with
  | nil => exact Nat.le_refl _
  | cons b rest =>
      rw [dropLf]
      split <;> simp

/-- The lines of a text, with `acc` at the front of the first one. A line ends at `\n`, `\r`
or `\r\n`. What stands behind the last line end is no line. -/
def linesFrom (acc : List UInt8) : List UInt8 → List (List UInt8)
  | [] => []
  | b :: rest =>
      if b = cr then acc :: linesFrom [] (dropLf rest)
      else if b = lf then acc :: linesFrom [] rest
      else linesFrom (acc ++ [b]) rest
termination_by text => text.length
decreasing_by
  · have := dropLf_length_le rest
    simp only [List.length_cons]
    omega
  · simp
  · simp

/-- The lines of a text. -/
def lines (text : List UInt8) : List (List UInt8) := linesFrom [] text

/-- A `\r\n` pair ends one line, a lone `\r` another, and the rest is no line. -/
example : lines [0x61, 0x0d, 0x0a, 0x62, 0x0d, 0x63] = [[0x61], [0x62]] := by
  decide +kernel

/-! ### Items on a wire -/

/-- What a wire may carry to a collector of `frameMax` bytes. -/
inductive Item (frameMax : Nat) where
  | text (bytes : List UInt8) (noZero : 0 ∉ bytes)
  | frame (payload : List UInt8) (fits : (frameBytes payload).length ≤ frameMax + 2)

namespace Item

variable {frameMax : Nat}

/-- The bytes of an item. -/
def bytes : Item frameMax → List UInt8
  | text bytes _ => bytes
  | frame payload _ => frameBytes payload

/-- The text of an item. -/
def textBytes : Item frameMax → List UInt8
  | text bytes _ => bytes
  | frame _ _ => []

end Item

/-- The bytes of a sequence of items. -/
def wire {frameMax : Nat} (items : List (Item frameMax)) : List UInt8 := items.flatMap Item.bytes

/-- The text of a sequence of items, with the frames taken out. -/
def textOf {frameMax : Nat} (items : List (Item frameMax)) : List UInt8 :=
  items.flatMap Item.textBytes

/-- The payloads of a sequence of items. Each comes with the position of its frame's last
byte, where the first item starts at `start`. -/
def framesFrom {frameMax : Nat} (start : Nat) : List (Item frameMax) → List (Nat × List UInt8)
  | [] => []
  | .text bytes _ :: rest => framesFrom (start + bytes.length) rest
  | .frame payload _ :: rest =>
      (start + ((frameBytes payload).length - 1), payload)
        :: framesFrom (start + (frameBytes payload).length) rest

/-- The frame events of a sequence of reports, with their positions. -/
def frameEventsFrom (start : Nat) : List (Option Report) → List (Nat × List UInt8)
  | [] => []
  | some (.frame payload) :: rest => (start, payload) :: frameEventsFrom (start + 1) rest
  | _ :: rest => frameEventsFrom (start + 1) rest

/-- The line events of a sequence of reports: the line and `truncated()`. -/
def lineEvents (reports : List (Option Report)) : List (List UInt8 × Bool) :=
  reports.filterMap fun
    | some (.textLine line truncated) => some (line, truncated)
    | _ => none

/-- A line as a buffer of `lineMax` bytes reports it. -/
def cutLine (lineMax : Nat) (line : List UInt8) : List UInt8 × Bool :=
  (line.take (lineMax - 1), decide (lineMax - 1 < line.length))

/-- The frame events of two runs of reports, the second counted on from the first. -/
theorem frameEventsFrom_append (start : Nat) (rs rs' : List (Option Report)) :
    frameEventsFrom start (rs ++ rs')
      = frameEventsFrom start rs ++ frameEventsFrom (start + rs.length) rs' := by
  induction rs generalizing start with
  | nil => rfl
  | cons r rs ih =>
      have hshift : start + (rs.length + 1) = start + 1 + rs.length := by omega
      rw [List.cons_append, List.length_cons, hshift]
      rcases r with _ | ⟨line, truncated⟩ | ⟨payload⟩
      · exact ih (start + 1)
      · exact ih (start + 1)
      · exact congrArg ((start, payload) :: ·) (ih (start + 1))

/-- Bytes that report nothing yield no frame event. -/
theorem frameEventsFrom_silent (start n : Nat) :
    frameEventsFrom start (Splitter.silent n) = [] := by
  induction n generalizing start with
  | zero => rfl
  | succ n ih => exact ih (start + 1)

/-- The line events of two runs of reports. -/
theorem lineEvents_append (rs rs' : List (Option Report)) :
    lineEvents (rs ++ rs') = lineEvents rs ++ lineEvents rs' := by
  simp [lineEvents]

/-- Bytes that report nothing yield no line event. -/
theorem lineEvents_silent (n : Nat) : lineEvents (Splitter.silent n) = [] := by
  simp [lineEvents, Splitter.silent]

/-! ### The splitter on items -/

namespace Splitter

variable (frameMax lineMax : Nat)

/-- The lines the splitter will report when `text` still comes. A remembered `\r` swallows
a leading `\n` of it. -/
def linesAhead (s : Splitter) (text : List UInt8) : List (List UInt8) :=
  linesFrom s.line (if s.pendingCr then dropLf text else text)

/-- One byte of text: its line event, then the lines ahead of the next state. -/
theorem linesAhead_cons (s : Splitter) (htext : s.block = none) (b : UInt8) (hb : b ≠ 0)
    (rest : List UInt8) :
    (s.linesAhead (b :: rest)).map (cutLine lineMax)
      = lineEvents [((splitter frameMax lineMax).step s b).2]
        ++ (((splitter frameMax lineMax).step s b).1.linesAhead rest).map (cutLine lineMax) := by
  have hdiffer : cr ≠ lf := by decide
  simp only [splitter, step, htext, text, if_neg hb]
  by_cases hcr : b = cr
  · -- A `\r` ends the line at once, whatever was remembered.
    have hkeep : (if s.pendingCr then dropLf (b :: rest) else b :: rest) = b :: rest := by
      simp [dropLf, hcr, hdiffer]
    rw [if_pos hcr, linesAhead, hkeep, linesFrom, if_pos hcr]
    simp [linesAhead, lineEvents, cut, cutLine]
  rw [if_neg hcr]
  by_cases hlf : b = lf
  · rw [if_pos hlf]
    cases hpending : s.pendingCr with
    -- The `\n` of a `\r\n` ends no second line.
    | true => simp [linesAhead, hpending, dropLf, hlf, lineEvents]
    | false =>
        rw [linesAhead, hpending, if_neg Bool.false_ne_true, linesFrom, if_neg hcr, if_pos hlf]
        simp [linesAhead, lineEvents, cut, cutLine]
  · have hkeep : (if s.pendingCr then dropLf (b :: rest) else b :: rest) = b :: rest := by
      simp [dropLf, hlf]
    rw [if_neg hlf, linesAhead, hkeep, linesFrom, if_neg hcr, if_neg hlf]
    simp [linesAhead, lineEvents]

/-- What feeding `bytes` from `s` did, in the presence of more text to come: the frame
events are `frames`, the line events are those lines of `text` that ended, and no frame is
open. The counters are the old ones. -/
structure Reads (frameMax lineMax : Nat) (s : Splitter) (start : Nat) (bytes text : List UInt8)
    (frames : List (Nat × List UInt8)) : Prop where
  between : ((splitter frameMax lineMax).final s bytes).block = none
  crcErrors : ((splitter frameMax lineMax).final s bytes).crcErrors = s.crcErrors
  cobsErrors : ((splitter frameMax lineMax).final s bytes).cobsErrors = s.cobsErrors
  overflowErrors : ((splitter frameMax lineMax).final s bytes).overflowErrors = s.overflowErrors
  frames : frameEventsFrom start ((splitter frameMax lineMax).outputs s bytes) = frames
  lines : ∀ more, (s.linesAhead (text ++ more)).map (cutLine lineMax)
    = lineEvents ((splitter frameMax lineMax).outputs s bytes)
      ++ (((splitter frameMax lineMax).final s bytes).linesAhead more).map (cutLine lineMax)

/-- Reading nothing. -/
theorem reads_nil (s : Splitter) (htext : s.block = none) (start : Nat) :
    Reads frameMax lineMax s start [] [] [] where
  between := htext
  crcErrors := rfl
  cobsErrors := rfl
  overflowErrors := rfl
  frames := rfl
  lines _ := rfl

/-- Reading one part after another. -/
theorem Reads.append {frameMax lineMax : Nat} {s : Splitter} {start : Nat}
    {bytes bytes' text text' : List UInt8} {frames frames' : List (Nat × List UInt8)}
    (h : Reads frameMax lineMax s start bytes text frames)
    (h' : Reads frameMax lineMax ((splitter frameMax lineMax).final s bytes)
      (start + bytes.length) bytes' text' frames') :
    Reads frameMax lineMax s start (bytes ++ bytes') (text ++ text') (frames ++ frames') where
  between := by rw [Mealy.final_append, h'.between]
  crcErrors := by rw [Mealy.final_append, h'.crcErrors, h.crcErrors]
  cobsErrors := by rw [Mealy.final_append, h'.cobsErrors, h.cobsErrors]
  overflowErrors := by rw [Mealy.final_append, h'.overflowErrors, h.overflowErrors]
  frames := by
    rw [Mealy.outputs_append, frameEventsFrom_append, h.frames, Mealy.outputs_length, h'.frames]
  lines more := by
    rw [Mealy.outputs_append, Mealy.final_append, lineEvents_append, List.append_assoc,
      h.lines, h'.lines, List.append_assoc]

/-- One byte of text. -/
theorem reads_byte (s : Splitter) (htext : s.block = none) (start : Nat) (b : UInt8)
    (hb : b ≠ 0) : Reads frameMax lineMax s start [b] [b] [] := by
  have hstep : ((splitter frameMax lineMax).step s b).1.block = none ∧
      ((splitter frameMax lineMax).step s b).1.crcErrors = s.crcErrors ∧
      ((splitter frameMax lineMax).step s b).1.cobsErrors = s.cobsErrors ∧
      ((splitter frameMax lineMax).step s b).1.overflowErrors = s.overflowErrors ∧
      frameEventsFrom start [((splitter frameMax lineMax).step s b).2] = [] := by
    simp only [splitter, step, htext, text, if_neg hb]
    split
    · exact ⟨rfl, rfl, rfl, rfl, rfl⟩
    · split
      · split <;> exact ⟨rfl, rfl, rfl, rfl, rfl⟩
      · exact ⟨rfl, rfl, rfl, rfl, rfl⟩
  obtain ⟨hbetween, hcrc, hcobs, hoverflow, hframes⟩ := hstep
  exact ⟨hbetween, hcrc, hcobs, hoverflow, hframes,
    fun more => linesAhead_cons frameMax lineMax s htext b hb more⟩

/-- A chunk of text, byte by byte. -/
theorem reads_text (s : Splitter) (htext : s.block = none) (start : Nat) (bytes : List UInt8)
    (hbytes : 0 ∉ bytes) : Reads frameMax lineMax s start bytes bytes [] := by
  induction bytes generalizing s start with
  | nil => exact reads_nil frameMax lineMax s htext start
  | cons b bytes ih =>
      have hb : b ≠ 0 := by
        rintro rfl
        exact hbytes List.mem_cons_self
      have hone := reads_byte frameMax lineMax s htext start b hb
      exact hone.append (ih _ hone.between _ fun h => hbytes (List.mem_cons_of_mem _ h))

/-- A frame. -/
theorem reads_frame (s : Splitter) (htext : s.block = none) (start : Nat)
    (payload : List UInt8) (hfit : (frameBody payload).length ≤ frameMax) :
    Reads frameMax lineMax s start (frameBytes payload) []
      [(start + ((frameBytes payload).length - 1), payload)] := by
  obtain ⟨hfinal, houtputs⟩ := frame_from_text frameMax lineMax s payload htext hfit
  exact {
    between := by rw [hfinal, htext]
    crcErrors := by rw [hfinal]
    cobsErrors := by rw [hfinal]
    overflowErrors := by rw [hfinal]
    frames := by
      rw [houtputs, frameEventsFrom_append, frameEventsFrom_silent, frameBytes_length]
      simp [frameEventsFrom]
    lines := by
      intro more
      rw [houtputs, hfinal, lineEvents_append, lineEvents_silent]
      rfl }

/-- A sequence of items, from any state between frames. -/
theorem reads_items {frameMax : Nat} (lineMax : Nat) (items : List (Item frameMax)) (s : Splitter)
    (htext : s.block = none) (start : Nat) :
    Reads frameMax lineMax s start (wire items) (textOf items) (framesFrom start items) := by
  induction items generalizing s start with
  | nil => exact reads_nil frameMax lineMax s htext start
  | cons item items ih =>
      cases item with
      | text bytes noZero =>
          have hone := reads_text frameMax lineMax s htext start bytes noZero
          exact hone.append (ih _ hone.between _)
      | frame payload fits =>
          have hfit : (frameBody payload).length ≤ frameMax := by
            rw [frameBytes_length] at fits
            omega
          have hone := reads_frame frameMax lineMax s htext start payload hfit
          exact hone.append (ih _ hone.between _)

end Splitter

/-- Text and frames do not interfere. For every sequence of items, a fresh `Demux` reports
exactly the payloads, each at the last byte of its frame, and exactly the lines of the text
with the frames taken out, each cut to the line buffer. No error counter changes. -/
theorem demux_items (sz : DemuxSize) (items : List (Item sz.frameMax)) :
    let reports := (demux sz).outputs (.new sz) (wire items)
    let d := (demux sz).final (.new sz) (wire items)
    frameEventsFrom 0 reports = framesFrom 0 items ∧
      lineEvents reports = (lines (textOf items)).map (cutLine sz.lineMax) ∧
      d.crcErrors = (Demux.new sz).crcErrors ∧ d.cobsErrors = (Demux.new sz).cobsErrors ∧
      d.overflowErrors = (Demux.new sz).overflowErrors := by
  -- The splitter reads the items, and the demultiplexer is one.
  have hreads := Splitter.reads_items sz.lineMax items .new rfl 0
  have hmodels := (Demux.demux_simulation sz).final (Demux.models_new sz) (wire items)
  have hreports := (Demux.demux_simulation sz).outputs (Demux.models_new sz) (wire items)
  rw [List.map_id] at hreports
  refine ⟨by rw [hreports, hreads.frames], ?_, ?_, ?_, ?_⟩
  · -- With nothing more to come, no line is ahead.
    have hlines := hreads.lines []
    have hend : ∀ s : Splitter, s.linesAhead [] = [] := by
      intro s
      rw [Splitter.linesAhead]
      split <;> simp [dropLf, linesFrom]
    rw [hend, List.append_nil, List.map_nil, List.append_nil] at hlines
    rw [hreports, ← hlines]
    rfl
  · -- The counters are those of the splitter.
    rw [← hmodels.crcErrors, hreads.crcErrors]
    rfl
  · rw [← hmodels.cobsErrors, hreads.cobsErrors]
    rfl
  · rw [← hmodels.overflowErrors, hreads.overflowErrors]
    rfl

end SerialRpc
