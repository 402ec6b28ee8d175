import SerialRpc.Proofs.Framing.Refinement
import SerialRpc.Proofs.Framing.Splitting

/-!
# `SerialRpc.Proofs.Framing.OneFrame`: a stream with one frame in it

Both directions of a call carry one frame, with text around it. A demultiplexer in TEXT
state reports that frame and no other, and is in TEXT state again behind the stream:
`Demux.Between.oneFrame`.
-/

set_option autoImplicit false

namespace SerialRpc

/-- One frame with zero-free text around it. -/
def OneFrame (payload stream : List UInt8) : Prop :=
  ∃ front back, 0 ∉ front ∧ 0 ∉ back ∧ stream = front ++ (frameBytes payload ++ back)

/-- No frame is reported. -/
def Frameless (reports : List (Option Report)) : Prop :=
  ∀ payload, some (.frame payload) ∉ reports

/-- Two runs without a frame make one. -/
theorem Frameless.append {rs rs' : List (Option Report)} (h : Frameless rs) (h' : Frameless rs') :
    Frameless (rs ++ rs') := by
  intro payload hmem
  rcases List.mem_append.mp hmem with hmem | hmem
  · exact h payload hmem
  · exact h' payload hmem

/-- Both parts of a run without a frame are without one. -/
theorem Frameless.of_append {rs rs' : List (Option Report)} (h : Frameless (rs ++ rs')) :
    Frameless rs ∧ Frameless rs' :=
  ⟨fun payload hmem => h payload (List.mem_append_left _ hmem),
    fun payload hmem => h payload (List.mem_append_right _ hmem)⟩

/-- So are its first report and the rest. -/
theorem Frameless.of_cons {r : Option Report} {rs : List (Option Report)}
    (h : Frameless (r :: rs)) :
    (∀ payload, r ≠ some (.frame payload)) ∧ Frameless rs :=
  ⟨fun payload hr => h payload (hr ▸ List.mem_cons_self),
    fun payload hmem => h payload (List.mem_cons_of_mem _ hmem)⟩

/-- One frame is reported. -/
def OneReport (payload : List UInt8) (reports : List (Option Report)) : Prop :=
  ∃ before after, reports = before ++ some (.frame payload) :: after ∧ Frameless before ∧
    Frameless after

/-- The byte that completes the frame, in the chunk it came in. -/
theorem OneReport.chunk {sz : DemuxSize} {d : Demux sz} {payload : List UInt8}
    {chunks : List (List UInt8)} (h : OneReport payload ((demux sz).outputs d chunks.flatten)) :
    ∃ earlier front b back later, chunks = earlier ++ (front ++ b :: back) :: later ∧
      Frameless ((demux sz).outputs d (earlier.flatten ++ front)) ∧
      ((demux sz).step ((demux sz).final d (earlier.flatten ++ front)) b).2
        = some (.frame payload) ∧
      Frameless ((demux sz).outputs ((demux sz).final d (earlier.flatten ++ front ++ [b]))
        (back ++ later.flatten)) := by
  obtain ⟨before, after, hsplit, hbefore, hafter⟩ := h
  obtain ⟨first, b, last, hbytes, rfl, hreport, hlast⟩ := (demux sz).outputs_split d _ hsplit
  obtain ⟨earlier, front, back, later, rfl, rfl, rfl⟩ := Mealy.exists_chunk hbytes
  refine ⟨earlier, front, b, back, later, rfl, hbefore, hreport, ?_⟩
  rw [Mealy.final_append]
  show Frameless ((demux sz).outputs ((demux sz).step _ b).1 _)
  rwa [hlast]

namespace Splitter

variable (frameMax lineMax : Nat)

/-- Text without zeros has no frame in it and stays in TEXT state. -/
theorem text_frameless (s : Splitter) (bytes : List UInt8) (htext : s.block = none)
    (hbytes : 0 ∉ bytes) :
    Frameless ((splitter frameMax lineMax).outputs s bytes) ∧
      ((splitter frameMax lineMax).final s bytes).block = none := by
  induction bytes generalizing s with
  | nil => exact ⟨fun payload => List.not_mem_nil, htext⟩
  | cons b bytes ih =>
      rw [List.mem_cons, not_or] at hbytes
      -- Only a zero opens a frame, and no byte here is zero.
      have hstep : (splitter frameMax lineMax).step s b = s.text lineMax b := by
        show s.step frameMax lineMax b = _
        rw [Splitter.step, htext]
      have hkept : (s.text lineMax b).1.block = none := by
        unfold Splitter.text
        rw [if_neg fun hzero => hbytes.1 hzero.symm]
        split
        · exact htext
        · split
          · split <;> exact htext
          · exact htext
      have hsilent : ∀ payload, (s.text lineMax b).2 ≠ some (.frame payload) := by
        intro payload hframe
        have hnone := frameOnly_text lineMax s b
        rw [hframe] at hnone
        cases hnone
      obtain ⟨hrest, hfinal⟩ := ih (s.text lineMax b).1 hkept hbytes.2
      rw [Mealy.outputs_cons, Mealy.final_cons, hstep]
      refine ⟨fun payload hmem => ?_, hfinal⟩
      rcases List.mem_cons.mp hmem with hframe | hmem
      · exact hsilent payload hframe.symm
      · exact hrest payload hmem

/-- A frame that fits, between text on both sides, is reported once and leaves no frame open. -/
theorem oneFrame (s : Splitter) {payload stream : List UInt8} (htext : s.block = none)
    (h : OneFrame payload stream) (hfit : (frameBody payload).length ≤ frameMax) :
    OneReport payload ((splitter frameMax lineMax).outputs s stream) ∧
      ((splitter frameMax lineMax).final s stream).block = none := by
  obtain ⟨front, back, hfront, hback, rfl⟩ := h
  obtain ⟨hbefore, htext'⟩ := text_frameless frameMax lineMax s front htext hfront
  obtain ⟨hfinal, houtputs⟩ := frame_from_text frameMax lineMax _ payload htext' hfit
  obtain ⟨hafter, htext''⟩ := text_frameless frameMax lineMax _ back htext' hback
  have hsilent : Frameless (silent ((frameBody payload).length + 1)) := by
    intro other hmem
    cases List.eq_of_mem_replicate hmem
  rw [Mealy.outputs_append, Mealy.outputs_append, Mealy.final_append, Mealy.final_append, hfinal,
    houtputs]
  refine ⟨⟨_, _, ?_, hbefore.append hsilent, hafter⟩, htext''⟩
  simp only [List.append_assoc, List.singleton_append]

end Splitter

namespace Demux

variable {sz : DemuxSize} {d : Demux sz}

/-- The demultiplexer is in TEXT state. -/
def Between (d : Demux sz) : Prop := ∃ s : Splitter, d.Models s ∧ s.block = none

/-- A new receiver is not inside a frame. -/
theorem new_between (sz : DemuxSize) : (new sz).Between := ⟨_, models_new sz, rfl⟩

/-- Text without zeros has no frame in it and stays in TEXT state. -/
theorem Between.text (h : d.Between) {bytes : List UInt8} (hbytes : 0 ∉ bytes) :
    Frameless ((demux sz).outputs d bytes) ∧ ((demux sz).final d bytes).Between := by
  obtain ⟨s, hmodels, htext⟩ := h
  obtain ⟨hreports, hfinal⟩ := Splitter.text_frameless sz.frameMax sz.lineMax s bytes htext hbytes
  have houtputs := (demux_simulation sz).outputs hmodels bytes
  rw [List.map_id] at houtputs
  rw [houtputs]
  exact ⟨hreports, _, (demux_simulation sz).final hmodels bytes, hfinal⟩

/-- A demultiplexer in TEXT state reports the frame, and is in TEXT state again behind it. -/
theorem Between.oneFrame (h : d.Between) {payload stream : List UInt8}
    (hstream : OneFrame payload stream) (hfit : (frameBody payload).length ≤ sz.frameMax) :
    OneReport payload ((demux sz).outputs d stream) ∧ ((demux sz).final d stream).Between := by
  obtain ⟨s, hmodels, htext⟩ := h
  obtain ⟨hreport, hfinal⟩ := Splitter.oneFrame sz.frameMax sz.lineMax s htext hstream hfit
  have houtputs := (demux_simulation sz).outputs hmodels stream
  rw [List.map_id] at houtputs
  rw [houtputs]
  exact ⟨hreport, _, (demux_simulation sz).final hmodels stream, hfinal⟩

end Demux

/-- A frame with nothing around it. -/
theorem oneFrame_frameBytes (payload : List UInt8) : OneFrame payload (frameBytes payload) :=
  ⟨[], [], List.not_mem_nil, List.not_mem_nil, (List.append_nil _).symm⟩

end SerialRpc
