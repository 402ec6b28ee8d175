import SerialRpc.Proofs.Framing.OneFrame

/-!
# `SerialRpc.Proofs.Framing.Recovery`: resynchronisation, and no invented frames

Two properties of every byte stream, proved for the splitter and carried to both `Demux`
classes by their simulations.

* `demux_resync`: from every reachable state, the second of two frames is reported, and
  the first one too unless its opening delimiter closed a valid block.
* `demux_frames_genuine`: every reported frame stands in the stream, between two zeros.
  The invariant is `Splitter.Traces`: the collector holds exactly the zero-free bytes since
  the last delimiter.
-/

set_option autoImplicit false

namespace SerialRpc

namespace Splitter

variable (frameMax lineMax : Nat)

/-! ### Resynchronisation -/

/-- A block that is no valid frame resumes behind its delimiter, and so does the state
between frames. -/
theorem open_after_zero (s : Splitter)
    (h : ∀ block, s.block = some block → ∀ payload, verdict block ≠ .ready payload) :
    ((splitter frameMax lineMax).step s 0).1.block = some [] := by
  cases hblock : s.block with
  | none => rw [step_open frameMax lineMax s hblock]
  | some block =>
      have hbad := h block hblock
      rw [step_zero frameMax lineMax s block hblock, terminate]
      cases hverdict : verdict block with
      | empty => rfl
      | ready payload => exact absurd hverdict (hbad payload)
      | cobsError residue => rfl
      | crcError decoded => rfl

/-- A frame is reported at its last byte unless its first byte closes a valid block. -/
theorem frame_reported (s : Splitter) (payload : List UInt8)
    (hfit : (frameBody payload).length ≤ frameMax)
    (h : ∀ block, s.block = some block → ∀ other, verdict block ≠ .ready other) :
    ((splitter frameMax lineMax).outputs s (frameBytes payload)).getLast?
        = some (some (.frame payload)) ∧
      ((splitter frameMax lineMax).final s (frameBytes payload)).block = none := by
  have hopen := open_after_zero frameMax lineMax s h
  obtain ⟨hfinal, houtputs⟩ := frame_from_open frameMax lineMax _ payload hopen hfit
  rw [frameBytes_eq, List.cons_append, Mealy.outputs_cons, Mealy.final_cons, hfinal, houtputs]
  simp [List.getLast?_cons]

/-- After any frame whose body fits, the splitter is between frames or right behind a
delimiter. So the next frame is reported. -/
theorem next_frame_reported (s : Splitter) (p₁ p₂ : List UInt8)
    (hfit₁ : (frameBody p₁).length ≤ frameMax) (hfit₂ : (frameBody p₂).length ≤ frameMax) :
    ((splitter frameMax lineMax).outputs s (frameBytes p₁ ++ frameBytes p₂)).getLast?
      = some (some (.frame p₂)) := by
  have hready : ∀ block,
      ((splitter frameMax lineMax).final s (frameBytes p₁)).block = some block →
        ∀ other, verdict block ≠ .ready other := by
    by_cases h : ∀ block, s.block = some block → ∀ other, verdict block ≠ .ready other
    · rw [(frame_reported frameMax lineMax s p₁ hfit₁ h).2]
      simp
    -- The opening delimiter closes a valid block, and the body is then read as text.
    simp only [not_forall, not_not] at h
    obtain ⟨block, hblock, other, hvalid⟩ := h
    have hclosed : ((splitter frameMax lineMax).step s 0).1.block = none := by
      rw [step_zero frameMax lineMax s block hblock, terminate, hvalid]
    have htext := (text_frameless frameMax lineMax _ (frameBody p₁) hclosed
      (frameBody_ne_zero p₁)).2
    rw [frameBytes_eq, List.cons_append, Mealy.final_cons, Mealy.final_append, Mealy.final_cons,
      step_open _ _ _ htext]
    simp [verdict]
  have hlast := (frame_reported frameMax lineMax _ p₂ hfit₂ hready).1
  rw [Mealy.outputs_append, List.getLast?_append, hlast]
  rfl

/-! ### No invented frames -/

/-- The collector holds the zero-free bytes since the last delimiter, and they fit. -/
def Traces (frameMax : Nat) (past : List UInt8) (s : Splitter) : Prop :=
  ∀ block, s.block = some block →
    ∃ front, past = front ++ 0 :: block ∧ 0 ∉ block ∧ block.length ≤ frameMax

/-- A delimiter opens an empty block. -/
theorem traces_open (past : List UInt8) : ∀ block : List UInt8, some [] = some block →
    ∃ front, past ++ [0] = front ++ 0 :: block ∧ 0 ∉ block ∧ block.length ≤ frameMax := by
  intro block h
  obtain rfl : [] = block := by simpa using h
  exact ⟨past, rfl, by simp, by simp⟩

/-- Between frames, only a delimiter changes the block. -/
theorem traces_text (past : List UInt8) (s : Splitter) (b : UInt8) (htext : s.block = none) :
    Traces frameMax (past ++ [b]) (s.text lineMax b).1 := by
  unfold text
  split
  · rename_i hb
    rw [hb]
    exact traces_open frameMax past
  have hnone : ∀ block, s.block = some block →
      ∃ front, past ++ [b] = front ++ 0 :: block ∧ 0 ∉ block ∧ block.length ≤ frameMax := by
    simp [htext]
  split
  · exact hnone
  · split
    · split <;> exact hnone
    · exact hnone

/-- Each byte keeps the invariant. -/
theorem traces_step (past : List UInt8) (s : Splitter) (b : UInt8)
    (h : Traces frameMax past s) :
    Traces frameMax (past ++ [b]) ((splitter frameMax lineMax).step s b).1 := by
  simp only [splitter, step]
  -- The block grows, is dropped for its length, or is judged at the delimiter.
  cases hblock : s.block with
  | none => exact traces_text frameMax lineMax past s b hblock
  | some block =>
      obtain ⟨front, hpast, hzero, hlen⟩ := h block hblock
      simp only [collect]
      split
      · -- Another byte of the block, unless it is full.
        rename_i hb
        split
        · exact traces_text frameMax lineMax past _ b rfl
        · rename_i hroom
          intro grown hgrown
          obtain rfl : block ++ [b] = grown := by simpa using hgrown
          refine ⟨front, by simp [hpast], by simp [hzero, Ne.symm hb], ?_⟩
          simp only [List.length_append, List.length_singleton]
          omega
      · -- The delimiter: whatever the verdict, an empty block begins here.
        rename_i hb
        rw [not_not.mp hb, terminate]
        cases verdict block with
        | empty => exact traces_open frameMax past
        | ready payload => intro other hother; simp at hother
        | cobsError residue => exact traces_open frameMax past
        | crcError decoded => exact traces_open frameMax past

/-- What a report of a frame says about the state and the byte. -/
theorem step_frame (s : Splitter) (b : UInt8) (payload : List UInt8)
    (h : ((splitter frameMax lineMax).step s b).2 = some (.frame payload)) :
    b = 0 ∧ ∃ block, s.block = some block ∧ verdict block = .ready payload := by
  -- Text reports no frame.
  have htext : ∀ s : Splitter, (s.text lineMax b).2 ≠ some (.frame payload) := by
    intro s hs
    have hnone := frameOnly_text lineMax s b
    rw [hs] at hnone
    simp [frameOnly] at hnone
  simp only [splitter, step] at h
  -- So the splitter was inside a block.
  cases hblock : s.block with
  | none =>
      rw [hblock] at h
      exact absurd h (htext s)
  | some block =>
      simp only [hblock, collect] at h
      -- A byte that is not the delimiter reports nothing.
      split at h
      · split at h
        · exact absurd h (htext _)
        · simp at h
      · -- And a delimiter reports a frame only where the verdict says so.
        rename_i hb
        refine ⟨not_not.mp hb, block, rfl, ?_⟩
        unfold terminate at h
        split at h <;> simp_all

end Splitter

/-- The frame reported at `k` stands in the stream: a delimiter at some `j < k`, a
delimiter at `k`, and between them a zero-free block of 1 to `frameMax` bytes that decodes
to the payload and its CRC. -/
def Genuine (frameMax : Nat) (stream : List UInt8) (k : Nat) (payload : List UInt8) : Prop :=
  ∃ j, j < k ∧ stream[j]? = some 0 ∧ stream[k]? = some 0 ∧
    let block := (stream.drop (j + 1)).take (k - (j + 1))
    0 ∉ block ∧ 1 ≤ block.length ∧ block.length ≤ frameMax ∧
      DecodesTo block (payload ++ crcBe payload)

/-- Every frame a splitter reports is genuine. -/
theorem splitter_frames_genuine (frameMax lineMax : Nat) (stream : List UInt8) (k : Nat)
    (payload : List UInt8)
    (h : ((splitter frameMax lineMax).outputs .new stream)[k]? = some (some (.frame payload))) :
    Genuine frameMax stream k payload := by
  rw [Mealy.outputs_getElem?, Option.map_eq_some_iff] at h
  obtain ⟨b, hb, hreport⟩ := h
  -- The report comes with a zero byte that ends a block. The history of the block is in `Traces`.
  obtain ⟨rfl, block, hblock, hverdict⟩ := Splitter.step_frame _ _ _ b payload hreport
  have htrace := (splitter frameMax lineMax).history_invariant
    (P := Splitter.Traces frameMax) (Splitter.traces_step frameMax lineMax) [] Splitter.new
    (stream.take k)
    (by intro block hblock; simp [Splitter.new] at hblock)
  obtain ⟨front, hpast, hzero, hlen⟩ := htrace block hblock
  rw [List.nil_append] at hpast
  have hdecode := (verdict_ready_iff block payload).mp hverdict
  have hne : block ≠ [] := by
    rintro rfl
    simp [Cobs.decode, Cobs.decodePartial, crcBe] at hdecode
  have hklen : k ≤ stream.length := by
    obtain ⟨hlt, -⟩ := List.getElem?_eq_some_iff.mp hb
    omega
  have hcount : front.length + (block.length + 1) = k := by
    have hsum := congrArg List.length hpast
    rw [List.length_take, Nat.min_eq_left hklen, List.length_append, List.length_cons] at hsum
    omega
  have hsplit : stream = front ++ 0 :: (block ++ stream.drop k) := by
    conv_lhs => rw [← List.take_append_drop k stream, hpast]
    simp
  have hinner : (stream.drop (front.length + 1)).take (k - (front.length + 1)) = block := by
    have hdrop : stream.drop (front.length + 1) = block ++ stream.drop k := by
      conv_lhs => rw [hsplit]
      simp
    rw [hdrop, List.take_append_of_le_length (by omega), List.take_of_length_le (by omega)]
  refine ⟨front.length, by omega, ?_, hb, ?_⟩
  · rw [hsplit]
    simp
  · rw [hinner]
    exact ⟨hzero, List.length_pos_of_ne_nil hne, hlen, (decodesTo_iff _ _).mpr hdecode⟩

/-! ### The two demultiplexers -/

/-- In FRAME state, the bytes collected are a complete valid block: COBS over a payload and
its CRC. -/
def Demux.HoldsFrame {sz : DemuxSize} (d : Demux sz) : Prop :=
  d.state = .frame ∧
    ∃ payload, DecodesTo (d.frameBuf.take d.frameLen) (payload ++ crcBe payload)

/-- The same for the class without lines. -/
def DemuxNoText.HoldsFrame {frameMax : Nat} (d : DemuxNoText frameMax) : Prop :=
  d.state = .frame ∧
    ∃ payload, DecodesTo (d.frameBuf.take d.frameLen) (payload ++ crcBe payload)

/-- A block that is accepted is a frame held in FRAME state. -/
theorem verdict_ne_ready {state : DemuxState} {bytes : List UInt8} {collected : Option (List UInt8)}
    (htext : state = .text → collected = none) (hframe : state = .frame → collected = some bytes)
    (hno : ¬ (state = .frame ∧ ∃ payload, DecodesTo bytes (payload ++ crcBe payload))) :
    ∀ block, collected = some block → ∀ payload, verdict block ≠ .ready payload := by
  intro block hblock payload hready
  cases state with
  | text =>
      rw [htext rfl] at hblock
      cases hblock
  | frame =>
      rw [hframe rfl] at hblock
      cases hblock
      exact hno ⟨rfl, payload, (decodesTo_iff _ _).mpr ((verdict_ready_iff _ _).mp hready)⟩

/-- A splitter whose block is accepted stands for a demultiplexer that holds a frame. -/
theorem Demux.Models.not_ready {sz : DemuxSize} {d : Demux sz} {s : Splitter} (h : d.Models s)
    (hno : ¬ d.HoldsFrame) :
    ∀ block, s.block = some block → ∀ payload, verdict block ≠ .ready payload := by
  rw [h.block]
  exact verdict_ne_ready (fun hstate => by simp [collected, hstate])
    (fun hstate => by simp [collected, hstate]) hno

/-- The same for the class without lines. -/
theorem DemuxNoText.Models.not_ready {frameMax : Nat} {d : DemuxNoText frameMax} {s : Splitter}
    (h : d.Models s) (hno : ¬ d.HoldsFrame) :
    ∀ block, s.block = some block → ∀ payload, verdict block ≠ .ready payload := by
  rw [h.block]
  exact verdict_ne_ready (fun hstate => by simp [collected, hstate])
    (fun hstate => by simp [collected, hstate]) hno

/-- After any stream a `Demux` stands for the splitter after the same stream. -/
theorem Demux.models_final (sz : DemuxSize) (past : List UInt8) :
    ((demux sz).final (.new sz) past).Models
      ((splitter sz.frameMax sz.lineMax).final .new past) :=
  (Demux.demux_simulation sz).final (Demux.models_new sz) past

/-- The same for the class without lines. -/
theorem DemuxNoText.models_final (frameMax lineMax : Nat) (past : List UInt8) :
    ((demuxNoText frameMax).final (.new frameMax) past).Models
      ((splitter frameMax lineMax).final .new past) :=
  (DemuxNoText.demuxNoText_simulation frameMax lineMax).final (DemuxNoText.models_new frameMax) past

/-- The frame bytes of a payload fit a collector of `frameMax` bytes. -/
theorem frameBody_le_of_frameBytes {payload : List UInt8} {frameMax : Nat}
    (h : (frameBytes payload).length ≤ frameMax + 2) : (frameBody payload).length ≤ frameMax := by
  rw [frameBytes_length] at h
  omega

/-- Resynchronisation. Whatever was fed before, the second of two frames is reported at its
last byte. The first one is reported at its last byte as well, unless the collected bytes
were themselves a valid block. This holds with and without lines. -/
theorem demux_resync (past p₁ p₂ : List UInt8) :
    (∀ sz : DemuxSize,
      (frameBytes p₁).length ≤ sz.frameMax + 2 → (frameBytes p₂).length ≤ sz.frameMax + 2 →
      let d := (demux sz).final (.new sz) past
      ((demux sz).outputs d (frameBytes p₁ ++ frameBytes p₂)).getLast?
          = some (some (.frame p₂)) ∧
        (¬ d.HoldsFrame →
          ((demux sz).outputs d (frameBytes p₁)).getLast? = some (some (.frame p₁)))) ∧
    (∀ frameMax : Nat,
      (frameBytes p₁).length ≤ frameMax + 2 → (frameBytes p₂).length ≤ frameMax + 2 →
      let d := (demuxNoText frameMax).final (.new frameMax) past
      ((demuxNoText frameMax).outputs d (frameBytes p₁ ++ frameBytes p₂)).getLast?
          = some (some (.frame p₂)) ∧
        (¬ d.HoldsFrame →
          ((demuxNoText frameMax).outputs d (frameBytes p₁)).getLast?
            = some (some (.frame p₁)))) := by
  constructor
  · -- Both demultiplexers simulate the splitter, and the fact is one about the splitter.
    intro sz h₁ h₂
    have hmodels := Demux.models_final sz past
    have hfit₁ := frameBody_le_of_frameBytes h₁
    have hfit₂ := frameBody_le_of_frameBytes h₂
    simp only [(Demux.demux_simulation sz).outputs hmodels, List.map_id]
    exact ⟨Splitter.next_frame_reported _ _ _ p₁ p₂ hfit₁ hfit₂,
      fun hno => (Splitter.frame_reported _ _ _ p₁ hfit₁ (hmodels.not_ready hno)).1⟩
  · intro frameMax h₁ h₂
    have hmodels := DemuxNoText.models_final frameMax 1 past
    have hfit₁ := frameBody_le_of_frameBytes h₁
    have hfit₂ := frameBody_le_of_frameBytes h₂
    simp only [(DemuxNoText.demuxNoText_simulation frameMax 1).outputs hmodels, List.getLast?_map]
    refine ⟨?_, fun hno => ?_⟩
    · rw [Splitter.next_frame_reported _ _ _ p₁ p₂ hfit₁ hfit₂]
      rfl
    · rw [(Splitter.frame_reported _ _ _ p₁ hfit₁ (hmodels.not_ready hno)).1]
      rfl

/-- A receiver that joins in the middle of a frame, after a stray byte: both frames are
reported. -/
theorem demux_resync_joining :
    let sz : DemuxSize := ⟨16, 8, by decide, by decide⟩
    let d := (demux sz).final (.new sz) [0x00, 0x41]
    ((demux sz).outputs d (frameBytes [1] ++ frameBytes [2])).getLast?
        = some (some (.frame [2])) ∧
      ((demux sz).outputs d (frameBytes [1])).getLast? = some (some (.frame [1])) := by
  have h := (demux_resync [0x00, 0x41] [1] [2]).1 ⟨16, 8, by decide, by decide⟩
    (by decide +kernel) (by decide +kernel)
  refine ⟨h.1, h.2 ?_⟩
  rintro ⟨-, payload, hdecodes⟩
  have hnone : Cobs.decode [0x41] = none := by decide +kernel
  rw [decodesTo_iff] at hdecodes
  exact absurd (hnone.symm.trans hdecodes) (by simp)

/-- No frame is invented: every frame event of a fresh demultiplexer, at any position of any
stream, is genuine. This holds with and without lines. -/
theorem demux_frames_genuine (stream : List UInt8) (k : Nat) (payload : List UInt8) :
    (∀ sz : DemuxSize, ((demux sz).outputs (.new sz) stream)[k]? = some (some (.frame payload)) →
      Genuine sz.frameMax stream k payload) ∧
    (∀ frameMax : Nat,
      ((demuxNoText frameMax).outputs (.new frameMax) stream)[k]?
          = some (some (.frame payload)) →
        Genuine frameMax stream k payload) := by
  constructor
  · intro sz h
    rw [(Demux.demux_simulation sz).outputs (Demux.models_new sz), List.map_id] at h
    exact splitter_frames_genuine _ _ stream k payload h
  · intro frameMax h
    rw [(DemuxNoText.demuxNoText_simulation frameMax 1).outputs (DemuxNoText.models_new frameMax),
      List.getElem?_map, Option.map_eq_some_iff] at h
    obtain ⟨report, hreport, hframe⟩ := h
    refine splitter_frames_genuine frameMax 1 stream k payload ?_
    rw [hreport]
    unfold frameOnly at hframe
    split at hframe <;> simp_all

/-- The frame event at the last byte of a frame for the payload `2a`. -/
theorem demux_frames_genuine_single :
    Genuine 16 [0x00, 0x04, 0x2a, 0x64, 0xd8, 0x00] 5 [0x2a] := by
  have h := demux_frames_genuine [0x00, 0x04, 0x2a, 0x64, 0xd8, 0x00] 5 [0x2a]
  exact h.1 ⟨16, 8, by decide, by decide⟩ (by decide +kernel)

end SerialRpc
