import SerialRpc.Host.IoThread
import SerialRpc.Proofs.Host.Connection
import SerialRpc.Proofs.Host.Matching
import SerialRpc.Proofs.Host.Paging

/-!
# `SerialRpc.Proofs.Host.Exceptions`: what the client throws

Each exception that comes out of `connect` has a text (`hearConnect_hasText`). `disconnect` throws
an `IoError` only, and `poll` throws what `hearPoll` says. Whatever is thrown, the client keeps its
options and the sizes of its buffers, and says that it is attached only behind a `connect` that
succeeded (`connect_kept`, `disconnect_kept`).
-/

set_option autoImplicit false

namespace SerialRpc

open MsgPack Reader

/-! ### The texts of the exceptions -/

/-- Whatever the `double`s in it look like, the text is not empty. -/
def Thrown.HasText (e : Thrown) : Prop := ∀ g17, e.what g17 ≠ []

/-- A C string that does not start with its end. -/
theorem cstr_append_ne_nil {s : List UInt8} (h : cstr s ≠ []) (rest : List UInt8) :
    cstr (s ++ rest) ≠ [] := by
  cases s with
  | nil => exact absurd rfl h
  | cons b s =>
      rw [cstr, List.takeWhile_cons] at h
      rw [cstr, List.cons_append, List.takeWhile_cons]
      split at h
      · rw [if_pos ‹_›]
        exact List.cons_ne_nil _ _
      · exact absurd rfl h

/-- How the texts begin. -/
def beginnings : List String :=
  ["SerialPort: ", "serial_rpc: remote error calling '", "serial_rpc: read_some() failed",
    "serial_rpc: write() failed or short write", "serial_rpc: request payload exceeds max_frame",
    "serial_rpc: timed out waiting for a response to '",
    "serial_rpc: connect() timed out waiting for a 'ready' line or an rpc.ping reply",
    "std::bad_alloc"] ++
    Value.parseErrors.map ProtocolError.what

/-- Each of them is a text that prints. -/
theorem beginnings_ne_nil : ∀ s ∈ beginnings, cstr (text s) ≠ [] := by
  decide +kernel

/-- A failure of the port prints something. -/
theorem Thrown.system_hasText (what : String) : (Thrown.system what).HasText := by
  intro g17
  exact cstr_append_ne_nil (beginnings_ne_nil "SerialPort: " (by simp [beginnings])) (text what)

/-- So does a remote error, whatever value it carries. -/
theorem Thrown.remote_hasText (method : List UInt8) (error : Value) :
    (Thrown.host (.remote method error)).HasText := by
  intro g17
  have hprefix := beginnings_ne_nil "serial_rpc: remote error calling '" (by simp [beginnings])
  rw [what]
  cases error <;> simp only [remoteMessage, List.append_assoc] <;>
    exact cstr_append_ne_nil hprefix _

/-- So does every error of the decoder. -/
theorem Thrown.parse_hasText {e : ProtocolError} (h : e ∈ Value.parseErrors) :
    (Thrown.host (.protocol e)).HasText := by
  intro g17
  exact beginnings_ne_nil e.what (List.mem_append_right _ (List.mem_map_of_mem h))

/-- So does memory that runs out. -/
theorem Thrown.badAlloc_hasText : (Thrown.host .badAlloc).HasText := by
  intro g17
  exact beginnings_ne_nil "std::bad_alloc" (by simp [beginnings])

namespace RPC

/-- A request that fails says why. -/
theorem hearRequest_hasText {maxFrame : Nat} {write : Nat → Int} {msgid : UInt32}
    {method : List UInt8} {args : List Value} {deadline : Nat} {d : Demux hostDemuxSize}
    {attempts : List Attempt} {memory : Memory} {e : HostError}
    (h : (hearRequest maxFrame write msgid method args deadline d attempts memory).ending
      = .failed e) : (Thrown.host e).HasText := by
  rw [hearRequest] at h
  cases herror : requestError maxFrame write msgid method args with
  -- The request is out, and the waiting fails.
  | none =>
      simp only [herror] at h
      rcases hear_errors h with rfl | rfl | ⟨p, hp, rfl⟩
      · intro g17
        exact beginnings_ne_nil _ (by simp [beginnings])
      · exact Thrown.badAlloc_hasText
      · exact Thrown.parse_hasText hp
  | some e' =>
      simp only [herror] at h
      obtain rfl : e' = e := Ending.failed.inj h
      rw [requestError, sendError] at herror
      split at herror
      · split at herror <;> cases herror
        intro g17
        exact beginnings_ne_nil _ (by simp [beginnings])
      · cases herror
        intro g17
        exact beginnings_ne_nil _ (by simp [beginnings])

/-- So does a waiting loop of `connect`. -/
theorem hearDevice_hasText {maxFrame deadline : Nat} {msgid : UInt32} {d : Demux hostDemuxSize}
    {probes : List Probe} {memory : Memory} {e : HostError}
    (h : (hearDevice maxFrame deadline msgid d probes memory).outcome = .threw e) :
    (Thrown.host e).HasText := by
  -- By induction on the probes: the wait throws what a request throws, or the error of an answer.
  induction probes generalizing msgid d with
  | nil => cases h
  | cons probe probes ih =>
      rw [hearDevice] at h
      by_cases hnow : deadline ≤ probe.now
      · rw [if_pos hnow] at h
        cases h
      · rw [if_neg hnow] at h
        cases hending : (hearRequest maxFrame probe.write msgid (text "rpc.ping") []
          (probe.start + min (deadline - probe.now) 250) d probe.attempts memory).ending with
        | failed e' =>
            simp only [hending] at h
            obtain rfl : e' = e := WaitOutcome.threw.inj h
            exact hearRequest_hasText hending
        | waiting =>
            simp only [hending] at h
            cases h
        | answered isError value =>
            simp only [hending] at h
            cases isError with
            | true =>
                obtain rfl := WaitOutcome.threw.inj h
                exact Thrown.remote_hasText _ value
            | false => cases h
        | expired =>
            simp only [hending] at h
            split at h
            · cases h
            · exact ih h

/-- So does `rpc.attach`. -/
theorem hearAttach_hasText {opts : Options} {msgid : UInt32} {d : Demux hostDemuxSize}
    {exchange : Exchange} {memory : Memory} {e : HostError}
    (h : hearAttach opts msgid d exchange memory = .threw e) :
    (Thrown.host e).HasText := by
  rw [hearAttach] at h
  -- The four ends of a call. A timeout has a text of its own.
  cases hending : (hearRequest opts.maxFrame exchange.write msgid (text "rpc.attach") []
    (exchange.start + opts.timeout) d exchange.attempts memory).ending with
  | failed e' =>
      simp only [hending, Ending.callOutcome] at h
      obtain rfl : e' = e := ConnectOutcome.threw.inj h
      exact hearRequest_hasText hending
  | waiting =>
      simp only [hending, Ending.callOutcome] at h
      cases h
  | answered isError value =>
      simp only [hending, Ending.callOutcome] at h
      cases isError with
      | true =>
          obtain rfl := ConnectOutcome.threw.inj h
          exact Thrown.remote_hasText _ value
      | false => cases h
  | expired =>
      simp only [hending, Ending.callOutcome] at h
      obtain rfl := ConnectOutcome.threw.inj h
      intro g17
      have hprefix := beginnings_ne_nil "serial_rpc: timed out waiting for a response to '"
        (by simp [beginnings])
      rw [Thrown.what, List.append_assoc]
      exact cstr_append_ne_nil hprefix _

/-- Every exception of `connect` has a text. -/
theorem hearConnect_hasText {opts : Options} {deadline : Nat} {msgid : UInt32}
    {d : Demux hostDemuxSize} {probes : List Probe} {exchange : Exchange} {memory : Memory}
    {e : HostError} (h : hearConnect opts deadline msgid d probes exchange memory = .threw e) :
    (Thrown.host e).HasText := by
  rw [hearConnect] at h
  cases houtcome : (hearDevice opts.maxFrame deadline msgid d probes memory).outcome with
  | threw e' =>
      simp only [houtcome] at h
      obtain rfl : e' = e := ConnectOutcome.threw.inj h
      exact hearDevice_hasText houtcome
  | waiting =>
      simp only [houtcome] at h
      cases h
  | timedOut =>
      simp only [houtcome] at h
      obtain rfl := ConnectOutcome.threw.inj h
      intro g17
      exact beginnings_ne_nil _ (by simp [beginnings])
  | alive =>
      simp only [houtcome] at h
      exact hearAttach_hasText h

end RPC

/-! ### What the client keeps -/

namespace RPC

/-- `list` is some requests. -/
theorem list_later {c : RPC} (h : c.Sized) (pages : List Exchange)
    (memory : Memory := .unlimited) :
    ∃ count, Later count c (c.list pages memory).1.client := by
  refine collectFrom_keeps (P := fun l : Listing => ∃ count, Later count c l.client) ?_
    kMaxListPages [] ⟨0, Later.refl h⟩
  intro l start hl
  obtain ⟨count, hlater⟩ := hl
  cases hexchanges : l.exchanges with
  | nil =>
      rw [fetchPage, hexchanges]
      exact ⟨count, hlater⟩
  | cons exchange exchanges =>
      rw [fetchPage, hexchanges]
      exact ⟨count + 1, hlater.trans (callValues_later hlater.sized _ _ _ _ _ memory)⟩

/-- `connect` leaves the options alone, and the client attached if it succeeds. -/
theorem connect_kept {c : RPC} (h : c.Sized) (temporary deadline : Nat) (probes : List Probe)
    (exchange : Exchange) (memory : Memory := .unlimited) :
    (c.connect temporary deadline probes exchange memory).1.Sized ∧
      (c.connect temporary deadline probes exchange memory).1.opts = c.opts ∧
      ((c.connect temporary deadline probes exchange memory).2.2 = .connected →
        (c.connect temporary deadline probes exchange memory).1.attached = true) ∧
      ((c.connect temporary deadline probes exchange memory).2.2 ≠ .connected →
        (c.connect temporary deadline probes exchange memory).1.attached = c.attached) := by
  have hsized : { c with demux := c.demux.reset, onText := some temporary }.Sized :=
    ⟨h.payload, h.frame⟩
  obtain ⟨count, hwaited⟩ :=
    waitForDevice_later hsized temporary c.onText deadline probes memory
  unfold connect
  simp only
  rcases hwait : RPC.waitForDevice { c with demux := c.demux.reset, onText := some temporary }
    temporary c.onText deadline probes memory with ⟨c', bytes, outcome⟩
  rw [hwait] at hwaited
  have hrestored : { c' with onText := c.onText }.Sized :=
    ⟨hwaited.sized.payload, hwaited.sized.frame⟩
  cases outcome with
  | threw e => exact ⟨hwaited.sized, hwaited.opts, by rintro ⟨⟩, fun _ => hwaited.attached⟩
  | waiting => exact ⟨hwaited.sized, hwaited.opts, by rintro ⟨⟩, fun _ => hwaited.attached⟩
  | timedOut => exact ⟨hrestored, hwaited.opts, by rintro ⟨⟩, fun _ => hwaited.attached⟩
  | alive =>
      -- Only the answer to `rpc.attach` attaches the client.
      have hcalled := callValues_later hrestored exchange.write (text "rpc.attach") []
        exchange.start exchange.attempts memory
      simp only [RPC.attach]
      rcases hcall : RPC.callValues { c' with onText := c.onText } exchange.write
        (text "rpc.attach") [] exchange.start exchange.attempts memory with
          ⟨c'', later, v | e | _⟩ <;> rw [hcall] at hcalled
      · exact ⟨⟨hcalled.sized.payload, hcalled.sized.frame⟩, hcalled.opts.trans hwaited.opts,
          fun _ => rfl, fun hfailed => absurd rfl hfailed⟩
      · exact ⟨hcalled.sized, hcalled.opts.trans hwaited.opts, by rintro ⟨⟩,
          fun _ => hcalled.attached.trans hwaited.attached⟩
      · exact ⟨hcalled.sized, hcalled.opts.trans hwaited.opts, by rintro ⟨⟩,
          fun _ => hcalled.attached.trans hwaited.attached⟩

/-- `disconnect` leaves the options alone, and the client as attached as it was if it fails. -/
theorem disconnect_kept {c : RPC} (h : c.Sized) (write : Nat → Int) :
    (c.disconnect write).1.Sized ∧ (c.disconnect write).1.opts = c.opts ∧
      ((c.disconnect write).2.2 ≠ none → (c.disconnect write).1.attached = c.attached) := by
  have hlater := notifyValues_later h write (text "rpc.detach") []
  rw [disconnect]
  split
  · rcases hnotify : c.notifyValues write (text "rpc.detach") [] with ⟨c', bytes, _ | e⟩ <;>
      rw [hnotify] at hlater
    · exact ⟨⟨hlater.sized.payload, hlater.sized.frame⟩, hlater.opts,
        fun hfailed => absurd rfl hfailed⟩
    · exact ⟨hlater.sized, hlater.opts, fun _ => hlater.attached⟩
  · exact ⟨h, rfl, fun _ => rfl⟩

/-- The exception of a notification, if there is one. -/
theorem notifyValues_thrown {c : RPC} (h : c.Sized) (write : Nat → Int) (method : List UInt8)
    (args : List Value) :
    (c.notifyValues write method args).2.2
      = sendError c.opts.maxFrame write ⟨"serial_rpc: notification payload exceeds max_frame"⟩
          (notifyPayload method args) := by
  obtain ⟨txPayload, txFrame, -, -, hsend⟩ := sendPacked_eq h write
    (packNotify_eq method args) ⟨"serial_rpc: notification payload exceeds max_frame"⟩
  rw [notifyValues, hsend, notifyPayload]
  cases sendError c.opts.maxFrame write ⟨"serial_rpc: notification payload exceeds max_frame"⟩
    (PackOp.encodings (notifyOps method args)) <;> rfl

/-- A `rpc.detach` fits into every frame, so only the write can fail. -/
theorem disconnect_threw {c : RPC} (h : c.Sized)
    (hmaxFrame : c.opts.maxFrame = Options.default.maxFrame) {write : Nat → Int} {e : HostError}
    (hthrew : (c.disconnect write).2.2 = some e) : ∃ what, e = .io what := by
  have hfits : (notifyPayload (text "rpc.detach") []).length ≤ Options.default.maxFrame := by
    decide +kernel
  have hthrown := notifyValues_thrown h write (text "rpc.detach") []
  rw [hmaxFrame, sendError, if_pos hfits] at hthrown
  rw [disconnect] at hthrew
  split at hthrew
  · rcases hnotify : c.notifyValues write (text "rpc.detach") [] with ⟨c', bytes, _ | e'⟩ <;>
      rw [hnotify] at hthrown hthrew
    · cases hthrew
    · obtain rfl : e' = e := Option.some.inj hthrew
      -- The write is all that is left.
      split at hthrown
      · cases hthrown
      · exact ⟨_, Option.some.inj hthrown⟩
  · cases hthrew

/-! ### What `poll` throws -/

/-- The exception that leaves `poll`, as a function of what arrives: a read fails, or one of the
reports of a read throws. -/
def hearPoll (deadline : Nat) (d : Demux hostDemuxSize) (turns : List PollTurn)
    (memory : Memory := .unlimited) : Option HostError :=
  match turns with
  | [] => none
  | turn :: turns =>
      match turn.read with
      | none => some (.io "serial_rpc: read_some() failed")
      | some bytes =>
          match ((SerialRpc.demux hostDemuxSize).outputs d bytes).findSome?
            fun r => thrownAt r memory with
          | some e => some e
          | none =>
              if turn.after < deadline then
                hearPoll deadline ((SerialRpc.demux hostDemuxSize).final d bytes) turns memory
              else none

/-- `poll` throws what `hearPoll` says. -/
theorem poll_hear (c : RPC) (deadline : Nat) (turns : List PollTurn) (memory : Memory)
    (e : HostError) :
    (c.poll deadline turns memory).2 = .threw e ↔
      hearPoll deadline c.demux turns memory = some e := by
  rw [poll]
  generalize c.eventsTotal = before
  -- By induction on the turns, each of which reads and feeds what it has read.
  induction turns generalizing c with
  | nil => exact ⟨by rintro ⟨⟩, by rintro ⟨⟩⟩
  | cons turn turns ih =>
      rw [pollLoop, hearPoll]
      cases hread : turn.read with
      | none => simp [pumpBytes]
      | some bytes =>
          have hthrown := feedBytes_thrown c bytes memory
          have hdemux : (c.feedBytes bytes memory).2 = none →
              (c.feedBytes bytes memory).1.demux
                = (SerialRpc.demux hostDemuxSize).final c.demux bytes := feedBytes_demux
          simp only [pumpBytes, ← hthrown]
          rcases hfeed : c.feedBytes bytes memory with ⟨c', _ | e'⟩
          · rw [hfeed] at hdemux
            simp only
            rw [← hdemux rfl]
            split
            · exact ih c'
            · exact ⟨by rintro ⟨⟩, by rintro ⟨⟩⟩
          · simp

/-- What `poll` throws has one of three kinds. -/
theorem hearPoll_errors {deadline : Nat} {d : Demux hostDemuxSize} {turns : List PollTurn}
    {memory : Memory} {e : HostError} (h : hearPoll deadline d turns memory = some e) :
    (∃ what, e = .io what) ∨ e = .badAlloc ∨ ∃ p, e = .protocol p := by
  -- By induction on the turns: reading fails, or a byte throws what the decoder throws.
  induction turns generalizing d with
  | nil => cases h
  | cons turn turns ih =>
      rw [hearPoll] at h
      cases hread : turn.read with
      | none =>
          simp only [hread] at h
          exact Or.inl ⟨_, (Option.some.inj h).symm⟩
      | some bytes =>
          simp only [hread] at h
          cases hthrown : ((SerialRpc.demux hostDemuxSize).outputs d bytes).findSome?
              fun r => thrownAt r memory with
          | some e' =>
              simp only [hthrown] at h
              obtain rfl : e' = e := Option.some.inj h
              obtain ⟨r, -, hr⟩ := List.exists_of_findSome?_eq_some hthrown
              rcases thrownAt_errors hr with hbad | ⟨p, -, hp⟩
              · exact Or.inr (Or.inl hbad)
              · exact Or.inr (Or.inr ⟨p, hp⟩)
          | none =>
              simp only [hthrown] at h
              split at h
              · exact ih h
              · cases h

end RPC

end SerialRpc
