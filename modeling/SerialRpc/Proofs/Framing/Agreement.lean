import SerialRpc.Proofs.Framing.Refinement

/-!
# `SerialRpc.Proofs.Framing.Agreement`: the two demultiplexers side by side

`Demux<FrameMax, LineMax>` and `Demux<FrameMax, 0>` are written separately. Both model the
splitter (`Demux.Models`, `DemuxNoText.Models`), so a splitter that both model at once is
the relation between them: the one reports what the other reports, less the text
(`demuxNoTextInputs_simulation`). `reset()` at the same points keeps it.

* `demux_agree`: the same frames at the same positions, and the same counters, after every
  sequence of bytes and resets.
-/

set_option autoImplicit false

namespace SerialRpc

/-- `reset` of the splitter: the counters stay. -/
def Splitter.reset (s : Splitter) : Splitter :=
  { s with block := none, line := [], pendingCr := false }

/-- A reset of the receiver is a reset of what it models. -/
theorem Demux.Models.reset {sz : DemuxSize} {d : Demux sz} {s : Splitter} (h : d.Models s) :
    d.reset.Models s.reset where
  block := rfl
  frameLen_le := Nat.zero_le _
  frameBuf_length := h.frameBuf_length
  line := by simp [Demux.reset, Splitter.reset]
  lineLen := by simp [Demux.reset, Splitter.reset]
  lineBuf_length := by simp [Demux.reset, h.lineBuf_length]
  truncated := by simp [Demux.reset, Splitter.reset]
  pendingCr := rfl
  crcErrors := h.crcErrors
  cobsErrors := h.cobsErrors
  overflowErrors := h.overflowErrors

/-- So it is where no text is collected. -/
theorem DemuxNoText.Models.reset {frameMax : Nat} {d : DemuxNoText frameMax} {s : Splitter}
    (h : d.Models s) : d.reset.Models s.reset where
  block := rfl
  frameLen_le := Nat.zero_le _
  frameBuf_length := h.frameBuf_length
  crcErrors := h.crcErrors
  cobsErrors := h.cobsErrors
  overflowErrors := h.overflowErrors

/-- One splitter models both. -/
def Alongside {sz : DemuxSize} (d' : DemuxNoText sz.frameMax) (d : Demux sz) : Prop :=
  ∃ s, d'.Models s ∧ d.Models s

/-- The same three counters. -/
theorem Alongside.counters {sz : DemuxSize} {d' : DemuxNoText sz.frameMax} {d : Demux sz}
    (h : Alongside d' d) :
    d'.crcErrors = d.crcErrors ∧ d'.cobsErrors = d.cobsErrors ∧
      d'.overflowErrors = d.overflowErrors := by
  obtain ⟨s, h', h⟩ := h
  exact ⟨h'.crcErrors.symm.trans h.crcErrors, h'.cobsErrors.symm.trans h.cobsErrors,
    h'.overflowErrors.symm.trans h.overflowErrors⟩

/-- Input by input, the specialization reports the frames of the primary template. -/
theorem demuxNoTextInputs_simulation (sz : DemuxSize) :
    Mealy.Simulation (demuxNoTextInputs sz.frameMax) (demuxInputs sz) Alongside frameOnly where
  state d' d input h := by
    obtain ⟨s, h', h⟩ := h
    cases input with
    | feed b =>
        exact ⟨((splitter sz.frameMax sz.lineMax).step s b).1,
          (DemuxNoText.demuxNoText_simulation sz.frameMax sz.lineMax).state d' s b h',
          (Demux.demux_simulation sz).state d s b h⟩
    | reset => exact ⟨s.reset, h'.reset, h.reset⟩
  output d' d input h := by
    obtain ⟨s, h', h⟩ := h
    cases input with
    | feed b =>
        have hwithout :=
          (DemuxNoText.demuxNoText_simulation sz.frameMax sz.lineMax).output d' s b h'
        have hwith := (Demux.demux_simulation sz).output d s b h
        show ((demuxNoText sz.frameMax).step d' b).2 = frameOnly ((demux sz).step d b).2
        rw [hwithout, hwith]
        rfl
    | reset => rfl

/-- A report that is a frame survives the loss of the text, and nothing else does. -/
theorem frameOnly_eq_frame {r : Option Report} {payload : List UInt8} :
    frameOnly r = some (.frame payload) ↔ r = some (.frame payload) := by
  rcases r with _ | ⟨line, truncated⟩ | ⟨p⟩
  · simp [frameOnly]
  · simp [frameOnly]
  · rfl

/-- **The two implementations agree on frames**: after every sequence of bytes and resets
both have reported the same frames at the same positions, and their counters are equal. -/
theorem demux_agree (sz : DemuxSize) (inputs : List DemuxInput) :
    (∀ (k : Nat) (payload : List UInt8),
      ((demuxInputs sz).outputs (.new sz) inputs)[k]? = some (some (.frame payload)) ↔
        ((demuxNoTextInputs sz.frameMax).outputs (.new sz.frameMax) inputs)[k]?
          = some (some (.frame payload))) ∧
      let d := (demuxInputs sz).final (.new sz) inputs
      let d' := (demuxNoTextInputs sz.frameMax).final (.new sz.frameMax) inputs
      d'.crcErrors = d.crcErrors ∧ d'.cobsErrors = d.cobsErrors ∧
        d'.overflowErrors = d.overflowErrors := by
  have hnew : Alongside (.new sz.frameMax) (.new sz) :=
    ⟨.new, DemuxNoText.models_new sz.frameMax, Demux.models_new sz⟩
  have hsim := demuxNoTextInputs_simulation sz
  refine ⟨?_, (hsim.final hnew inputs).counters⟩
  intro k payload
  rw [hsim.outputs hnew inputs, List.getElem?_map]
  cases ((demuxInputs sz).outputs (.new sz) inputs)[k]? with
  | none => simp
  | some r => simp [frameOnly_eq_frame]

end SerialRpc
