import SerialRpc.Proofs.Host.Messages

/-!
# `SerialRpc.Proofs.Host.Pumping`: reads cut the stream, and that shows only in one place

`feedBytes` leaves its loop when a frame throws, and drops the bytes behind the frame. Apart
from that the client is a machine over bytes (`client`), so where the reads are cut does not
matter.

* `pump_cuts`: two cuttings of a stream end in the same state, when every frame that throws
  ends its read in both.
-/

set_option autoImplicit false

namespace SerialRpc

/-- The client as a machine over bytes: exceptions are ignored. -/
def client : Mealy RPC UInt8 Unit where
  step c b := ((c.feedByte b).1, ())

/-- This byte completes a frame that `Value::decode` throws on. -/
def Throws (d : Demux hostDemuxSize) (b : UInt8) : Prop :=
  ∃ payload, ((demux hostDemuxSize).step d b).2 = some (.frame payload) ∧ Undecodable payload

/-- The exception that a report leads to, if there is one. -/
def thrownAt (report : Option Report) (memory : Memory := .unlimited) : Option HostError :=
  if memory.starves report then some .badAlloc
  else
    match report with
    | some (.frame payload) =>
        match readMessage payload with
        | .undecodable e => some (.protocol e)
        | _ => none
    | _ => none

/-- The report is a frame that `Value::decode` throws on. -/
def reportThrows : Option Report → Bool
  | some (.frame payload) =>
      match readMessage payload with
      | .undecodable _ => true
      | _ => false
  | _ => false

/-- With enough memory these are all. -/
theorem thrownAt_isSome (report : Option Report) :
    (thrownAt report).isSome = reportThrows report := by
  rcases report with _ | ⟨line, truncated⟩ | ⟨payload⟩
  · rfl
  · rfl
  · change (match readMessage payload with
      | .undecodable e => some (HostError.protocol e)
      | _ => none).isSome = _
    rw [reportThrows]
    cases readMessage payload <;> rfl

/-- A byte throws exactly if the report it completes does. -/
theorem throws_iff (d : Demux hostDemuxSize) (b : UInt8) :
    Throws d b ↔ reportThrows ((demux hostDemuxSize).step d b).2 = true := by
  unfold Throws
  rcases ((demux hostDemuxSize).step d b).2 with _ | ⟨line, truncated⟩ | ⟨payload⟩
  · simp [reportThrows]
  · simp [reportThrows]
  · have hmessage : Undecodable payload ↔ reportThrows (some (.frame payload)) = true := by
      rw [undecodable_iff, reportThrows]
      cases readMessage payload <;> simp
    rw [← hmessage]
    simp

instance (d : Demux hostDemuxSize) (b : UInt8) : Decidable (Throws d b) :=
  decidable_of_iff' _ (throws_iff d b)

/-- Every frame that throws ends its read. `d` is the demultiplexer before the first read. -/
def ThrowsEndReads (d : Demux hostDemuxSize) (reads : List (List UInt8)) : Prop :=
  ∀ earlier front b back later, reads = earlier ++ (front ++ b :: back) :: later →
    Throws ((demux hostDemuxSize).final d (earlier.flatten ++ front)) b → back = []

/-! ### One byte -/

/-- No message changes the demultiplexer. -/
theorem take_demux (c : RPC) (m : Message) : (c.take m).1.demux = c.demux := by
  cases m with
  | response msgid isError error result =>
      rw [RPC.take, RPC.takeResponse]
      split <;> rfl
  | notification method args =>
      obtain ⟨calls, -, heq⟩ := takeNotification_eq c method args
      rw [RPC.take, heq]
  | undecodable e => rfl
  | other => rfl

/-- A report that throws changes nothing. -/
theorem RPC.handleReport_threw {c : RPC} {report : Option Report} {e : ProtocolError}
    (h : (c.handleReport report).2 = some e) : (c.handleReport report).1 = c := by
  rcases report with _ | ⟨line, truncated⟩ | ⟨payload⟩
  · rfl
  · unfold handleReport at h
    dsimp only at h
    split at h <;> cases h
  · unfold handleReport at h ⊢
    simp only [handleFrame_eq] at h ⊢
    generalize readMessage payload = m at h ⊢
    cases m with
    | undecodable e' => rfl
    | response msgid isError error result =>
        rw [take, takeResponse] at h
        split at h <;> cases h
    | notification method args =>
        obtain ⟨calls, -, heq⟩ := takeNotification_eq c method args
        rw [take, heq] at h
        cases h
    | other => cases h

/-- Unlimited memory is enough. -/
@[simp] theorem Memory.unlimited_starves (report : Option Report) :
    Memory.unlimited.starves report = false := rfl

/-- A byte that the memory is enough for: the report is handled. -/
theorem feedByte_fed {c : RPC} {b : UInt8} {memory : Memory}
    (h : memory.starves ((demux hostDemuxSize).step c.demux b).2 = false) :
    c.feedByte b memory
      = (({ c with demux := ((demux hostDemuxSize).step c.demux b).1 }.handleReport
            ((demux hostDemuxSize).step c.demux b).2).1,
          ({ c with demux := ((demux hostDemuxSize).step c.demux b).1 }.handleReport
            ((demux hostDemuxSize).step c.demux b).2).2.map .protocol) := by
  rw [RPC.feedByte]
  exact if_neg (by rw [h]; exact Bool.false_ne_true)

/-- A byte that it is not enough for. -/
theorem feedByte_starved {c : RPC} {b : UInt8} {memory : Memory}
    (h : memory.starves ((demux hostDemuxSize).step c.demux b).2 = true) :
    c.feedByte b memory
      = ({ c with demux := ((demux hostDemuxSize).step c.demux b).1 }, some .badAlloc) := by
  rw [RPC.feedByte]
  exact if_pos h

/-- The demultiplexer sees every byte that is fed. -/
theorem feedByte_demux (c : RPC) (b : UInt8) (memory : Memory := .unlimited) :
    (c.feedByte b memory).1.demux = ((demux hostDemuxSize).step c.demux b).1 := by
  cases hstarves : memory.starves ((demux hostDemuxSize).step c.demux b).2 with
  | true => rw [feedByte_starved hstarves]
  | false =>
      rw [feedByte_fed hstarves, RPC.handleReport.eq_def]
      split
      · rfl
      · rw [RPC.handleFrame_eq, take_demux]
      · simp only
        split <;> rfl

/-- What a byte throws is said by what it completes. -/
theorem feedByte_thrown (c : RPC) (b : UInt8) (memory : Memory := .unlimited) :
    (c.feedByte b memory).2 = thrownAt ((demux hostDemuxSize).step c.demux b).2 memory := by
  unfold thrownAt
  -- Memory for the frame may run out first. After that only a frame that cannot be decoded throws.
  cases hstarves : memory.starves ((demux hostDemuxSize).step c.demux b).2 with
  | true =>
      rw [feedByte_starved hstarves]
      rfl
  | false =>
      rw [feedByte_fed hstarves]
      rcases ((demux hostDemuxSize).step c.demux b).2 with _ | ⟨line, truncated⟩ | ⟨payload⟩
      · rfl
      · rw [RPC.handleReport]
        dsimp only
        split <;> rfl
      · simp only [RPC.handleReport, RPC.handleFrame_eq]
        cases readMessage payload with
        | notification method args =>
            obtain ⟨calls, -, heq⟩ := takeNotification_eq
              { c with demux := ((demux hostDemuxSize).step c.demux b).1 } method args
            simp only [RPC.take, heq]
            rfl
        | response msgid isError error result =>
            rw [RPC.take, RPC.takeResponse]
            split <;> rfl
        | undecodable e => rfl
        | other => rfl

/-- Where the memory is enough, only an undecodable frame throws. -/
theorem feedByte_throws {c : RPC} {b : UInt8} {e : HostError}
    (h : (c.feedByte b).2 = some e) : Throws c.demux b := by
  rw [throws_iff, ← thrownAt_isSome, ← feedByte_thrown, h]
  rfl

/-! ### One read -/

/-- A read that no exception cuts short is fed byte by byte. -/
theorem feedBytes_eq (c : RPC) (bytes : List UInt8)
    (hends : ∀ front b back, bytes = front ++ b :: back →
      Throws ((demux hostDemuxSize).final c.demux front) b → back = []) :
    (c.feedBytes bytes).1 = client.final c bytes := by
  -- By induction on the bytes. A byte that throws is the last, by assumption.
  induction bytes generalizing c with
  | nil => rfl
  | cons b bs ih =>
      rw [RPC.feedBytes, Mealy.final_cons]
      cases hstep : c.feedByte b with
      | mk c' thrown =>
          have hclient : (client.step c b).1 = c' := congrArg Prod.fst hstep
          rw [hclient]
          cases thrown with
          | some e =>
              have hlast := hends [] b bs rfl (feedByte_throws (congrArg Prod.snd hstep))
              rw [hlast]
              rfl
          | none =>
              refine ih c' fun front b' back hbs hthrows => ?_
              have hdemux : c'.demux = ((demux hostDemuxSize).step c.demux b).1 := by
                rw [← feedByte_demux, hstep]
              rw [hdemux, ← Mealy.final_cons] at hthrows
              exact hends (b :: front) b' back (by rw [hbs]; rfl) hthrows

/-- What is fed to the client is fed to its demultiplexer. -/
theorem client_demux (c : RPC) (bytes : List UInt8) :
    (client.final c bytes).demux = (demux hostDemuxSize).final c.demux bytes := by
  induction bytes generalizing c with
  | nil => rfl
  | cons b bs ih =>
      rw [Mealy.final_cons, ih, Mealy.final_cons]
      exact congrArg (fun d => (demux hostDemuxSize).final d bs) (feedByte_demux c b)

/-! ### All reads -/

/-- Reads that no exception cuts short add up to the stream. -/
theorem pumpReads_eq (c : RPC) (reads : List (List UInt8)) (hends : ThrowsEndReads c.demux reads) :
    c.pumpReads reads = client.final c reads.flatten := by
  induction reads generalizing c with
  | nil => rfl
  | cons bytes reads ih =>
      have hread : (c.pumpBytes (some bytes)).1 = client.final c bytes := by
        refine feedBytes_eq c bytes fun front b back hbytes hthrows => ?_
        exact hends [] front b back reads (by rw [hbytes]; rfl) hthrows
      have hlater : ThrowsEndReads (client.final c bytes).demux reads := by
        intro earlier front b back later hreads hthrows
        rw [client_demux, ← Mealy.final_append, ← List.append_assoc, ← List.flatten_cons]
          at hthrows
        exact hends (bytes :: earlier) front b back later (by rw [hreads]; rfl) hthrows
      rw [RPC.pumpReads, List.foldl_cons, hread, List.flatten_cons, Mealy.final_append]
      exact ih _ hlater

/-- **Reads do not matter.** Two ways to cut a stream into reads leave the client in the same
state: the same lines, logs, notifications and responses handed on, the same counters and the
same demultiplexer. Every frame that throws must be the end of its read in both. -/
theorem pump_cuts (c : RPC) (reads reads' : List (List UInt8))
    (hstream : reads.flatten = reads'.flatten) (hends : ThrowsEndReads c.demux reads)
    (hends' : ThrowsEndReads c.demux reads') : c.pumpReads reads = c.pumpReads reads' := by
  rw [pumpReads_eq c reads hends, pumpReads_eq c reads' hends', hstream]

/-- A stream without frames can be cut anywhere. -/
theorem throwsEndReads_of_no_frame {d : Demux hostDemuxSize} {reads : List (List UInt8)}
    (h : ∀ payload, some (.frame payload) ∉ (demux hostDemuxSize).outputs d reads.flatten) :
    ThrowsEndReads d reads := by
  rintro earlier front b back later rfl ⟨payload, hframe, -⟩
  refine absurd ?_ (h payload)
  have hstream : (earlier ++ (front ++ b :: back) :: later).flatten
      = (earlier.flatten ++ front) ++ b :: (back ++ later.flatten) := by simp
  rw [hstream, Mealy.outputs_append, Mealy.outputs_cons, hframe]
  simp

/-- A line of text in one read and in two. -/
theorem pump_cuts_line :
    (RPC.new .default).pumpReads [[0x68, 0x0a]]
      = (RPC.new .default).pumpReads [[0x68], [0x0a]] := by
  have houtputs : (demux hostDemuxSize).outputs (Demux.new hostDemuxSize) [0x68, 0x0a]
      = [none, some (.textLine [0x68] false)] := by decide +kernel
  have hnone : ∀ payload, some (.frame payload)
      ∉ (demux hostDemuxSize).outputs (Demux.new hostDemuxSize) [0x68, 0x0a] := by
    intro payload
    rw [houtputs]
    simp
  exact pump_cuts (RPC.new .default) [[0x68, 0x0a]] [[0x68], [0x0a]] rfl
    (throwsEndReads_of_no_frame hnone) (throwsEndReads_of_no_frame hnone)

/-- A frame whose payload is `[2, "a", 0xc1]`, and a line behind it. In one read the line is
lost, in two it is not. -/
theorem pump_cuts_fails :
    ¬ ∀ (c : RPC) (reads reads' : List (List UInt8)), reads.flatten = reads'.flatten →
      (∀ bytes ∈ reads ++ reads', 1 ≤ bytes.length ∧ bytes.length ≤ 256) →
      c.pumpReads reads = c.pumpReads reads' := by
  intro h
  have hsame := h (RPC.new .default)
    [[0x00, 0x08, 0x93, 0x02, 0xa1, 0x61, 0xc1, 0x4f, 0xe6, 0x00, 0x78, 0x0a]]
    [[0x00, 0x08, 0x93, 0x02, 0xa1, 0x61, 0xc1, 0x4f, 0xe6, 0x00], [0x78, 0x0a]] rfl (by decide)
  have hlines := congrArg (fun c => c.stats.textRecv) hsame
  exact absurd hlines (by decide +kernel)

end SerialRpc
