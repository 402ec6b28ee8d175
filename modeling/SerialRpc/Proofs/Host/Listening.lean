import SerialRpc.Host.Connection
import SerialRpc.Proofs.Host.Pumping

/-!
# `SerialRpc.Proofs.Host.Listening`: what a waiting client hears

`call_values` and `try_request_` wait in the same way: they read until the deadline, a
failure, or a response to their request. `RPC.listen` is the loop they share, and `hear` the
same loop as a function of what arrives, without the client. `listen_hear` says that they end
alike, and `RPC.Keeps` what no incoming byte changes.

* `hear_answered`: an answer is the last response to the request in some read, and the loop
  was still waiting before that read.
-/

set_option autoImplicit false

namespace SerialRpc

/-! ### What incoming bytes leave alone -/

/-- The options, the buffers and the callbacks. Only the application sets them, and a request
counts the ids on. -/
structure RPC.SameSetup (c c' : RPC) : Prop where
  opts : c'.opts = c.opts
  txPayload : c'.txPayload = c.txPayload
  txFrame : c'.txFrame = c.txFrame
  nextMsgid : c'.nextMsgid = c.nextMsgid
  attached : c'.attached = c.attached
  onLog : c'.onLog = c.onLog
  onText : c'.onText = c.onText
  handlers : c'.handlers = c.handlers
  onAny : c'.onAny = c.onAny

/-- The fields that no incoming byte changes. -/
structure RPC.Keeps (c c' : RPC) : Prop extends RPC.SameSetup c c' where
  pendingMsgid : c'.pendingMsgid = c.pendingMsgid

namespace RPC

/-- Nothing happened. -/
theorem SameSetup.refl (c : RPC) : SameSetup c c := by constructor <;> rfl

/-- Two stretches that keep the setup make one. -/
theorem SameSetup.trans {c c' c'' : RPC} (h : SameSetup c c') (h' : SameSetup c' c'') :
    SameSetup c c'' where
  opts := h'.opts.trans h.opts
  txPayload := h'.txPayload.trans h.txPayload
  txFrame := h'.txFrame.trans h.txFrame
  nextMsgid := h'.nextMsgid.trans h.nextMsgid
  attached := h'.attached.trans h.attached
  onLog := h'.onLog.trans h.onLog
  onText := h'.onText.trans h.onText
  handlers := h'.handlers.trans h.handlers
  onAny := h'.onAny.trans h.onAny

/-- The end of a loop clears the pending call, and nothing of the setup. -/
theorem SameSetup.cleared {c c' : RPC} (h : SameSetup c c') (pending : Option Nat) (ready : Bool)
    (stats : Stats) :
    SameSetup c
      { c' with pendingMsgid := pending, pendingResponseReady := ready, stats := stats } :=
  ⟨h.opts, h.txPayload, h.txFrame, h.nextMsgid, h.attached, h.onLog, h.onText, h.handlers, h.onAny⟩

/-- Nothing happened. -/
theorem Keeps.refl (c : RPC) : Keeps c c := ⟨SameSetup.refl c, rfl⟩

/-- Two stretches that keep setup and receiver make one. -/
theorem Keeps.trans {c c' c'' : RPC} (h : Keeps c c') (h' : Keeps c' c'') : Keeps c c'' :=
  ⟨h.toSameSetup.trans h'.toSameSetup, h'.pendingMsgid.trans h.pendingMsgid⟩

/-- Taking a message in keeps setup and receiver. -/
theorem take_keeps (c : RPC) (m : Message) : Keeps c (c.take m).1 := by
  cases m with
  | response msgid isError error result =>
      rw [take, takeResponse]
      split <;> exact ⟨by constructor <;> rfl, rfl⟩
  | notification method args =>
      obtain ⟨calls, -, heq⟩ := takeNotification_eq c method args
      rw [take, heq]
      exact ⟨by constructor <;> rfl, rfl⟩
  | undecodable e => exact Keeps.refl c
  | other => exact ⟨by constructor <;> rfl, rfl⟩

/-- A report changes counters, the pending response and the record of what was dispatched. -/
theorem handleReport_keeps (c : RPC) (report : Option Report) :
    Keeps c (c.handleReport report).1 := by
  rcases report with _ | ⟨line, truncated⟩ | ⟨payload⟩
  · exact Keeps.refl c
  · unfold handleReport
    dsimp only
    split <;> exact ⟨by constructor <;> rfl, rfl⟩
  · show Keeps c (c.handleFrame payload).1
    rw [handleFrame_eq]
    exact take_keeps c _

/-- A byte moves the receiver on, and keeps the setup. -/
theorem feedByte_keeps (c : RPC) (b : UInt8) (memory : Memory := .unlimited) :
    Keeps c (c.feedByte b memory).1 := by
  let c' : RPC := { c with demux := ((SerialRpc.demux hostDemuxSize).step c.demux b).1 }
  have hdemux : Keeps c c' := ⟨by constructor <;> rfl, rfl⟩
  cases hstarves : memory.starves ((SerialRpc.demux hostDemuxSize).step c.demux b).2 with
  | true => rwa [feedByte_starved hstarves]
  | false =>
      rw [feedByte_fed hstarves]
      exact hdemux.trans (handleReport_keeps c' _)

/-- So do any number of bytes, by induction. -/
theorem feedBytes_keeps (c : RPC) (bytes : List UInt8) (memory : Memory := .unlimited) :
    Keeps c (c.feedBytes bytes memory).1 := by
  induction bytes generalizing c with
  | nil => exact Keeps.refl c
  | cons b bs ih =>
      have hstep := feedByte_keeps c b memory
      rw [feedBytes]
      cases hfeed : c.feedByte b memory with
      | mk c' thrown =>
          rw [hfeed] at hstep
          cases thrown with
          | some e => exact hstep
          | none => exact hstep.trans (ih c')

/-- So does what was read, if anything was. -/
theorem pumpBytes_keeps (c : RPC) (read : Option (List UInt8)) (memory : Memory := .unlimited) :
    Keeps c (c.pumpBytes read memory).1 := by
  cases read with
  | none => exact Keeps.refl c
  | some bytes => exact feedBytes_keeps c bytes memory

end RPC

/-! ### One read -/

/-- What a client that waits for the response to a request makes of what it gets. -/
inductive Heard where
  | nothing
  | reply (isError : Bool) (value : Value)
  | broken (e : HostError)

/-- The later reply counts, unless an exception came before it. -/
def Heard.followedBy : Heard → Heard → Heard
  | .broken e, _ => .broken e
  | h, .nothing => h
  | _, h => h

/-- One report. -/
def heardAt (msgid : Nat) (report : Option Report) (memory : Memory := .unlimited) : Heard :=
  if memory.starves report then .broken .badAlloc
  else
    match report with
    | some (.frame payload) =>
        match readMessage payload with
        | .response msgid' isError error result =>
            if msgid' = msgid then .reply isError (if isError then error else result) else .nothing
        | .undecodable e => .broken (.protocol e)
        | .notification _ _ => .nothing
        | .other => .nothing
    | _ => .nothing

/-- The reports of one read. -/
def heard (msgid : Nat) (reports : List (Option Report)) (memory : Memory := .unlimited) : Heard :=
  match reports with
  | [] => .nothing
  | r :: rs => (heardAt msgid r memory).followedBy (heard msgid rs memory)

/-- Only a response to the request is a reply. -/
theorem heardAt_reply {msgid : Nat} {report : Option Report} {memory : Memory} {isError : Bool}
    {value : Value} (h : heardAt msgid report memory = .reply isError value) :
    ∃ payload error result, report = some (.frame payload) ∧
      readMessage payload = .response msgid isError error result ∧
      value = if isError then error else result := by
  unfold heardAt at h
  split at h
  · cases h
  · -- Of all reports only a frame is heard, and of the frames only a response is a reply.
    rcases report with _ | ⟨line, truncated⟩ | ⟨payload⟩
    · cases h
    · cases h
    · simp only at h
      cases hmessage : readMessage payload with
      | response msgid' isError' error result =>
          simp only [hmessage] at h
          by_cases hsame : msgid' = msgid
          · rw [if_pos hsame, Heard.reply.injEq] at h
            obtain ⟨rfl, hvalue⟩ := h
            exact ⟨payload, error, result, rfl, by rw [hmessage, hsame], hvalue.symm⟩
          · rw [if_neg hsame] at h
            cases h
      | undecodable e =>
          simp only [hmessage] at h
          cases h
      | notification method args =>
          simp only [hmessage] at h
          cases h
      | other =>
          simp only [hmessage] at h
          cases h

/-- A report that the memory is not enough for. -/
theorem heardAt_starved {msgid : Nat} {report : Option Report} {memory : Memory}
    (h : memory.starves report = true) : heardAt msgid report memory = .broken .badAlloc := by
  unfold heardAt
  exact if_pos h

/-- A report that it is enough for. -/
theorem heardAt_fed {msgid : Nat} {report : Option Report} {memory : Memory}
    (h : memory.starves report = false) : heardAt msgid report memory = heardAt msgid report := by
  unfold heardAt
  rw [h]
  rfl

/-- What a frame says to a waiting call, by the kind of message in it. -/
theorem heardAt_frame (msgid : Nat) (payload : List UInt8) :
    heardAt msgid (some (.frame payload))
      = match readMessage payload with
        | .response msgid' isError error result =>
            if msgid' = msgid then .reply isError (if isError then error else result) else .nothing
        | .undecodable e => .broken (.protocol e)
        | .notification _ _ => .nothing
        | .other => .nothing := rfl

/-- What a client that waits throws is what the report leads to. -/
theorem heardAt_broken_iff {msgid : Nat} {report : Option Report} {memory : Memory}
    {e : HostError} :
    heardAt msgid report memory = .broken e ↔ thrownAt report memory = some e := by
  unfold heardAt thrownAt
  cases memory.starves report with
  | true => simp
  | false =>
      simp only [Bool.false_eq_true, if_false]
      rcases report with _ | ⟨line, truncated⟩ | ⟨payload⟩
      · simp
      · simp
      · cases hmessage : readMessage payload with
        | response msgid' isError error result =>
            by_cases hsame : msgid' = msgid <;> simp [hmessage, hsame]
        | undecodable e => simp [hmessage]
        | notification method args => simp [hmessage]
        | other => simp [hmessage]

/-- A reply is that of some frame with the right id. -/
theorem heard_reply {msgid : Nat} {isError : Bool} {value : Value} {reports : List (Option Report)}
    {memory : Memory} (h : heard msgid reports memory = .reply isError value) :
    ∃ before payload after error result, reports = before ++ some (.frame payload) :: after ∧
      readMessage payload = .response msgid isError error result ∧
      value = if isError then error else result := by
  induction reports with
  | nil => cases h
  | cons r rs ih =>
      rw [heard] at h
      cases hrest : heard msgid rs memory with
      | reply isError' value' =>
          -- The later reply counts.
          have hsame : Heard.reply isError' value' = .reply isError value := by
            rw [hrest] at h
            cases hfirst : heardAt msgid r memory with
            | nothing => rwa [hfirst] at h
            | reply _ _ => rwa [hfirst] at h
            | broken e =>
                rw [hfirst] at h
                cases h
          obtain ⟨before, payload, after, error, result, rfl, hmessage, hvalue⟩ :=
            ih (hrest.trans hsame)
          exact ⟨r :: before, payload, after, error, result, rfl, hmessage, hvalue⟩
      | broken e =>
          rw [hrest] at h
          cases hfirst : heardAt msgid r memory <;> rw [hfirst] at h <;> cases h
      | nothing =>
          have hfirst : heardAt msgid r memory = .reply isError value := by
            rw [hrest] at h
            cases hfirst : heardAt msgid r memory with
            | nothing => rwa [hfirst] at h
            | reply _ _ => rwa [hfirst] at h
            | broken e =>
                rw [hfirst] at h
                cases h
          obtain ⟨payload, error, result, rfl, hmessage, hvalue⟩ := heardAt_reply hfirst
          exact ⟨[], payload, rs, error, result, rfl, hmessage, hvalue⟩

/-- A report that does not break the wait throws nothing. -/
theorem thrownAt_eq_none {msgid : Nat} {report : Option Report} {memory : Memory}
    (h : ∀ e, heardAt msgid report memory ≠ .broken e) : thrownAt report memory = none := by
  rw [Option.eq_none_iff_forall_ne_some]
  intro e hthrown
  exact h e (heardAt_broken_iff.mpr hthrown)

/-- The first exception among the reports is what is heard. -/
theorem heard_broken_iff {msgid : Nat} {reports : List (Option Report)} {memory : Memory}
    {e : HostError} :
    heard msgid reports memory = .broken e ↔
      reports.findSome? (fun r => thrownAt r memory) = some e := by
  -- By induction on the reports: what is heard first breaks the wait, or the wait goes on.
  induction reports with
  | nil => simp [heard]
  | cons r rs ih =>
      rw [heard, List.findSome?_cons]
      cases hfirst : heardAt msgid r memory with
      | broken e' =>
          rw [heardAt_broken_iff.mp hfirst]
          simp [Heard.followedBy]
      | nothing =>
          have hquiet : ∀ e, heardAt msgid r memory ≠ .broken e := by
            rw [hfirst]
            rintro e ⟨⟩
          rw [thrownAt_eq_none hquiet, ← ih]
          cases heard msgid rs memory <;> simp [Heard.followedBy]
      | reply isError value =>
          have hquiet : ∀ e, heardAt msgid r memory ≠ .broken e := by
            rw [hfirst]
            rintro e ⟨⟩
          rw [thrownAt_eq_none hquiet, ← ih]
          cases heard msgid rs memory <;> simp [Heard.followedBy]

/-- A report throws because the memory is not enough or a value cannot be decoded. -/
theorem thrownAt_errors {report : Option Report} {memory : Memory} {e : HostError}
    (h : thrownAt report memory = some e) :
    e = .badAlloc ∨ ∃ p ∈ Value.parseErrors, e = .protocol p := by
  unfold thrownAt at h
  split at h
  · exact Or.inl (Option.some.inj h).symm
  · rcases report with _ | ⟨line, truncated⟩ | ⟨payload⟩
    · cases h
    · cases h
    · simp only at h
      cases hmessage : readMessage payload with
      | undecodable p =>
          rw [hmessage] at h
          exact Or.inr ⟨p, readMessage_errors hmessage, (Option.some.inj h).symm⟩
      | _ =>
          rw [hmessage] at h
          cases h

/-- An exception is that of some report. -/
theorem heard_errors {msgid : Nat} {reports : List (Option Report)} {memory : Memory}
    {e : HostError} (h : heard msgid reports memory = .broken e) :
    e = .badAlloc ∨ ∃ p ∈ Value.parseErrors, e = .protocol p := by
  obtain ⟨r, -, hthrown⟩ := List.exists_of_findSome?_eq_some (heard_broken_iff.mp h)
  exact thrownAt_errors hthrown

namespace RPC

/-- The pending call is completed. -/
structure Completed (c : RPC) (isError : Bool) (value : Value) : Prop where
  ready : c.pendingResponseReady = true
  isError : c.pendingResponseIsError = isError
  value : c.pendingResponseValue = value

/-- The client took in what was heard. -/
def Took (c : RPC) (after : RPC × Option HostError) : Heard → Prop
  | .nothing => after.2 = none ∧ SamePending c after.1
  | .reply isError value => after.2 = none ∧ after.1.Completed isError value
  | .broken e => after.2 = some e

/-- A waiting client takes in what it hears in a frame. -/
theorem take_took {c : RPC} {msgid : Nat} (hpending : c.pendingMsgid = some msgid)
    (payload : List UInt8) :
    Took c ((c.take (readMessage payload)).1, (c.take (readMessage payload)).2.map .protocol)
      (heardAt msgid (some (.frame payload))) := by
  rw [heardAt_frame]
  cases hmessage : readMessage payload with
  | response msgid' isError error result =>
      -- A response is taken in under the pending message id, and counted as a stray under any
      -- other.
      by_cases hsame : msgid' = msgid
      · have hmatch : c.pendingMsgid = some msgid' := by rw [hpending, hsame]
        simp only [hsame, if_true, take, takeResponse, hpending, Took]
        exact ⟨rfl, rfl, rfl, rfl⟩
      · have hdiffer : c.pendingMsgid ≠ some msgid' := by
          rw [hpending]
          intro h
          exact hsame (Option.some.inj h).symm
        simp only [if_neg hsame, take, takeResponse, if_neg hdiffer, Took]
        exact ⟨rfl, rfl, rfl, rfl, rfl⟩
  | notification method args =>
      obtain ⟨calls, -, heq⟩ := takeNotification_eq c method args
      simp only [take, heq, Took]
      exact ⟨rfl, rfl, rfl, rfl, rfl⟩
  | undecodable e => exact rfl
  | other => exact ⟨rfl, rfl, rfl, rfl, rfl⟩

/-- So is every report. -/
theorem handleReport_took {c : RPC} {msgid : Nat} (hpending : c.pendingMsgid = some msgid)
    (report : Option Report) :
    Took c ((c.handleReport report).1, (c.handleReport report).2.map .protocol)
      (heardAt msgid report) := by
  rcases report with _ | ⟨line, truncated⟩ | ⟨payload⟩
  · exact ⟨rfl, rfl, rfl, rfl, rfl⟩
  · unfold handleReport
    dsimp only
    split <;> exact ⟨rfl, rfl, rfl, rfl, rfl⟩
  · show Took c ((c.handleFrame payload).1, (c.handleFrame payload).2.map .protocol)
      (heardAt msgid (some (.frame payload)))
    rw [handleFrame_eq]
    exact take_took hpending payload

/-- It takes in what it hears at a byte. -/
theorem feedByte_took {c : RPC} {msgid : Nat} (hpending : c.pendingMsgid = some msgid)
    (b : UInt8) (memory : Memory := .unlimited) :
    Took c (c.feedByte b memory)
      (heardAt msgid ((SerialRpc.demux hostDemuxSize).step c.demux b).2 memory) := by
  -- Memory may run out before the report is handled at all.
  cases hstarves : memory.starves ((SerialRpc.demux hostDemuxSize).step c.demux b).2 with
  | true =>
      rw [feedByte_starved hstarves, heardAt_starved hstarves]
      exact rfl
  | false =>
      rw [feedByte_fed hstarves, heardAt_fed hstarves]
      let c' : RPC := { c with demux := ((SerialRpc.demux hostDemuxSize).step c.demux b).1 }
      have htook := handleReport_took (c := c') hpending
        ((SerialRpc.demux hostDemuxSize).step c.demux b).2
      cases hheard : heardAt msgid ((SerialRpc.demux hostDemuxSize).step c.demux b).2 with
      | nothing =>
          rw [hheard] at htook
          exact ⟨htook.1, htook.2.msgid, htook.2.ready, htook.2.isError, htook.2.value⟩
      | reply isError value =>
          rw [hheard] at htook
          exact htook
      | broken e =>
          rw [hheard] at htook
          exact htook

/-- One more read behind what was taken in before. -/
theorem Took.followedBy {c c' : RPC} {after : RPC × Option HostError} {h h' : Heard}
    (hfirst : Took c (c', none) h) (hrest : Took c' after h') : Took c after (h.followedBy h') := by
  cases h with
  | broken e => cases hfirst
  | nothing =>
      cases h' with
      | broken e => exact hrest
      | reply isError value => exact hrest
      | nothing =>
          exact ⟨hrest.1, hrest.2.msgid.trans hfirst.2.msgid, hrest.2.ready.trans hfirst.2.ready,
            hrest.2.isError.trans hfirst.2.isError, hrest.2.value.trans hfirst.2.value⟩
  | reply isError value =>
      cases h' with
      | broken e => exact hrest
      | reply isError' value' => exact hrest
      | nothing =>
          exact ⟨hrest.1, hrest.2.ready.trans hfirst.2.ready,
            hrest.2.isError.trans hfirst.2.isError, hrest.2.value.trans hfirst.2.value⟩

/-- A read is taken in as it is heard. -/
theorem feedBytes_took {c : RPC} {msgid : Nat} (hpending : c.pendingMsgid = some msgid)
    (bytes : List UInt8) (memory : Memory := .unlimited) :
    Took c (c.feedBytes bytes memory)
      (heard msgid ((SerialRpc.demux hostDemuxSize).outputs c.demux bytes) memory) := by
  induction bytes generalizing c with
  | nil => exact ⟨rfl, rfl, rfl, rfl, rfl⟩
  | cons b bs ih =>
      have hstep := feedByte_took hpending b memory
      have hkeeps := feedByte_keeps c b memory
      have hdemux := feedByte_demux c b memory
      rw [Mealy.outputs_cons, heard, feedBytes]
      cases hfeed : c.feedByte b memory with
      | mk c' thrown =>
          rw [hfeed] at hstep hkeeps hdemux
          cases thrown with
          | none =>
              have hrest := ih (hkeeps.pendingMsgid.trans hpending)
              rw [hdemux] at hrest
              exact hstep.followedBy hrest
          | some e =>
              -- The exception leaves the loop.
              cases hheard :
                  heardAt msgid ((SerialRpc.demux hostDemuxSize).step c.demux b).2 memory with
              | nothing =>
                  rw [hheard] at hstep
                  cases hstep.1
              | reply isError value =>
                  rw [hheard] at hstep
                  cases hstep.1
              | broken e' =>
                  rw [hheard] at hstep
                  exact hstep

/-- What leaves the loop is the first exception of the read. -/
theorem feedBytes_thrown (c : RPC) (bytes : List UInt8) (memory : Memory := .unlimited) :
    (c.feedBytes bytes memory).2
      = ((SerialRpc.demux hostDemuxSize).outputs c.demux bytes).findSome?
          fun r => thrownAt r memory := by
  induction bytes generalizing c with
  | nil => rfl
  | cons b bs ih =>
      have hthrown := feedByte_thrown c b memory
      have hdemux := feedByte_demux c b memory
      rw [feedBytes, Mealy.outputs_cons, List.findSome?_cons, ← hthrown]
      cases hfeed : c.feedByte b memory with
      | mk c' thrown =>
          rw [hfeed] at hdemux
          cases thrown with
          | some e => rfl
          | none =>
              rw [← hdemux]
              exact ih c'

/-- It has one of two kinds. -/
theorem feedBytes_errors {c : RPC} {bytes : List UInt8} {memory : Memory} {e : HostError}
    (h : (c.feedBytes bytes memory).2 = some e) :
    e = .badAlloc ∨ ∃ p ∈ Value.parseErrors, e = .protocol p := by
  rw [feedBytes_thrown c bytes memory] at h
  obtain ⟨r, -, hr⟩ := List.exists_of_findSome?_eq_some h
  exact thrownAt_errors hr

/-- Without an exception the demultiplexer has seen every byte. -/
theorem feedBytes_demux {c : RPC} {bytes : List UInt8} {memory : Memory}
    (h : (c.feedBytes bytes memory).2 = none) :
    (c.feedBytes bytes memory).1.demux
      = (SerialRpc.demux hostDemuxSize).final c.demux bytes := by
  induction bytes generalizing c with
  | nil => rfl
  | cons b bs ih =>
      have hdemux := feedByte_demux c b memory
      rw [feedBytes] at h ⊢
      cases hfeed : c.feedByte b memory with
      | mk c' thrown =>
          rw [hfeed] at h hdemux
          cases thrown with
          | none =>
              rw [Mealy.final_cons, ← hdemux]
              exact ih h
          | some e => cases h

end RPC

/-! ### Lines -/

/-- A line that contains `ready`. -/
def readyLine : Option Report → Bool
  | some (.textLine line _) => RPC.findsReady line
  | _ => false

namespace RPC

/-- No frame is a `ready` line. -/
theorem sawReady_fromFrame (temporary : Nat) {call : Dispatched} (h : call.FromFrame) :
    sawReady temporary call = false := by
  cases call with
  | text callback line => exact h.elim
  | log callback level line => rfl
  | notification callback args => rfl
  | any callback method args => rfl
  | response msgid isError value => rfl

/-- A message dispatches callbacks for frames only. -/
theorem take_dispatched (c : RPC) (m : Message) :
    ∃ calls, (∀ call ∈ calls, call.FromFrame) ∧
      (c.take m).1.dispatched = c.dispatched ++ calls := by
  have hnone : ∃ calls, (∀ call ∈ calls, Dispatched.FromFrame call) ∧
      c.dispatched = c.dispatched ++ calls := ⟨[], by simp, by simp⟩
  cases m with
  | response msgid isError error result =>
      rw [take, takeResponse]
      split
      · exact ⟨[.response msgid isError (if isError then error else result)], by
          simp [Dispatched.FromFrame], rfl⟩
      · exact hnone
  | notification method args =>
      obtain ⟨calls, hcalls, heq⟩ := takeNotification_eq c method args
      exact ⟨calls, hcalls, by rw [take, heq]⟩
  | undecodable e => exact hnone
  | other => exact hnone

/-- The temporary callback gets the lines of the stream, and no others. -/
theorem feedByte_sawReady {c : RPC} {temporary : Nat} (honText : c.onText = some temporary)
    (b : UInt8) (memory : Memory := .unlimited) :
    ∃ calls, (c.feedByte b memory).1.dispatched = c.dispatched ++ calls ∧
      calls.any (sawReady temporary)
        = readyLine ((SerialRpc.demux hostDemuxSize).step c.demux b).2 := by
  cases hstarves : memory.starves ((SerialRpc.demux hostDemuxSize).step c.demux b).2 with
  | true =>
      -- Only a frame can ask for too much, and no frame is a line.
      rw [feedByte_starved hstarves]
      refine ⟨[], (List.append_nil _).symm, ?_⟩
      generalize ((SerialRpc.demux hostDemuxSize).step c.demux b).2 = report at hstarves
      rcases report with _ | ⟨line, truncated⟩ | ⟨payload⟩
      · rfl
      · cases memory <;> cases hstarves
      · rfl
  | false =>
      rw [feedByte_fed hstarves]
      rcases ((SerialRpc.demux hostDemuxSize).step c.demux b).2 with
        _ | ⟨line, truncated⟩ | ⟨payload⟩
      · exact ⟨[], (List.append_nil _).symm, rfl⟩
      · refine ⟨[.text temporary line], ?_, by simp [sawReady, readyLine]⟩
        simp only [handleReport, honText, record]
      · obtain ⟨calls, hcalls, heq⟩ := take_dispatched
          { c with demux := ((SerialRpc.demux hostDemuxSize).step c.demux b).1 }
          (readMessage payload)
        refine ⟨calls, ?_, ?_⟩
        · simp only [handleReport, handleFrame_eq]
          exact heq
        · show calls.any (sawReady temporary) = false
          rw [List.any_eq_false]
          intro call hcall
          rw [sawReady_fromFrame temporary (hcalls call hcall)]
          exact Bool.false_ne_true

/-- The temporary callback has seen `ready` exactly if such a line ended in the bytes. -/
theorem feedBytes_sawReady {c : RPC} {temporary : Nat} (honText : c.onText = some temporary)
    {bytes : List UInt8} {memory : Memory} (hnone : (c.feedBytes bytes memory).2 = none) :
    ∃ calls, (c.feedBytes bytes memory).1.dispatched = c.dispatched ++ calls ∧
      calls.any (sawReady temporary)
        = ((SerialRpc.demux hostDemuxSize).outputs c.demux bytes).any readyLine := by
  -- By induction on the bytes, each of which may end a line.
  induction bytes generalizing c with
  | nil => exact ⟨[], by simp [feedBytes], rfl⟩
  | cons b bs ih =>
      obtain ⟨calls, hcalls, hfirst⟩ := feedByte_sawReady honText b memory
      have hkeeps := feedByte_keeps c b memory
      have hdemux := feedByte_demux c b memory
      rw [feedBytes] at hnone ⊢
      cases hfeed : c.feedByte b memory with
      | mk c' thrown =>
          rw [hfeed] at hnone hkeeps hdemux hcalls
          cases thrown with
          | some e => cases hnone
          | none =>
              obtain ⟨later, hlater, hrest⟩ := ih (hkeeps.onText.trans honText) hnone
              refine ⟨calls ++ later, ?_, ?_⟩
              · rw [hlater, hcalls, List.append_assoc]
              · rw [Mealy.outputs_cons, List.any_append, List.any_cons, hfirst, hrest, hdemux]

end RPC

/-! ### All reads -/

/-- How a waiting loop ends. -/
inductive Ending where
  /-- The deadline. -/
  | expired
  | failed (e : HostError)
  | answered (isError : Bool) (value : Value)
  | waiting

/-- What a waiting loop was about: its end, the demultiplexer behind the reads it made, and
whether a line contained `ready`. -/
structure Hearing where
  ending : Ending
  demux : Demux hostDemuxSize
  ready : Bool

/-- The waiting loop for the response to `msgid`. -/
def hear (msgid deadline : Nat) (d : Demux hostDemuxSize) (attempts : List RPC.Attempt)
    (memory : Memory := .unlimited) : Hearing :=
  match attempts with
  | [] => ⟨.waiting, d, false⟩
  | attempt :: attempts =>
      if deadline ≤ attempt.now then ⟨.expired, d, false⟩
      else
        match attempt.read with
        | none => ⟨.failed (.io "serial_rpc: read_some() failed"), d, false⟩
        | some bytes =>
            let reports := (demux hostDemuxSize).outputs d bytes
            let d := (demux hostDemuxSize).final d bytes
            match heard msgid reports memory with
            | .broken e => ⟨.failed e, d, false⟩
            | .reply isError value => ⟨.answered isError value, d, reports.any readyLine⟩
            | .nothing =>
                let rest := hear msgid deadline d attempts memory
                { rest with ready := reports.any readyLine || rest.ready }

/-- What a waiting loop fails with. -/
theorem hear_errors {msgid deadline : Nat} {d : Demux hostDemuxSize} {attempts : List RPC.Attempt}
    {memory : Memory} {e : HostError}
    (h : (hear msgid deadline d attempts memory).ending = .failed e) :
    e = .io "serial_rpc: read_some() failed" ∨ e = .badAlloc ∨
      ∃ p ∈ Value.parseErrors, e = .protocol p := by
  -- By induction on the attempts. The wait fails where a read does, or where a byte throws.
  induction attempts generalizing d with
  | nil => cases h
  | cons attempt attempts ih =>
      rw [hear] at h
      by_cases hnow : deadline ≤ attempt.now
      · rw [if_pos hnow] at h
        cases h
      · rw [if_neg hnow] at h
        cases hread : attempt.read with
        | none =>
            simp only [hread] at h
            exact Or.inl (Ending.failed.inj h).symm
        | some bytes =>
            simp only [hread] at h
            cases hheard : heard msgid ((demux hostDemuxSize).outputs d bytes) memory with
            | broken e' =>
                simp only [hheard] at h
                obtain rfl : e' = e := Ending.failed.inj h
                exact Or.inr (heard_errors hheard)
            | reply isError value =>
                simp only [hheard] at h
                cases h
            | nothing =>
                simp only [hheard] at h
                exact ih h

/-- The bytes of the reads that were made. -/
def received (attempts : List RPC.Attempt) : List UInt8 :=
  (attempts.filterMap RPC.Attempt.read).flatten

/-- The bytes received in two stretches of attempts. -/
theorem received_append (attempts attempts' : List RPC.Attempt) :
    received (attempts ++ attempts') = received attempts ++ received attempts' := by
  rw [received, List.filterMap_append, List.flatten_append]
  rfl

/-- An answer is what was heard in one read, and the loop was waiting before it. -/
theorem hear_answered {msgid deadline : Nat} {d : Demux hostDemuxSize}
    {attempts : List RPC.Attempt} {isError : Bool} {value : Value}
    (h : (hear msgid deadline d attempts).ending = .answered isError value) :
    ∃ earlier attempt later bytes, attempts = earlier ++ attempt :: later ∧
      attempt.read = some bytes ∧ (hear msgid deadline d earlier).ending = .waiting ∧
      heard msgid ((demux hostDemuxSize).outputs ((demux hostDemuxSize).final d (received earlier))
        bytes) = .reply isError value := by
  induction attempts generalizing d with
  | nil => cases h
  | cons attempt attempts ih =>
      rw [hear] at h
      by_cases hnow : deadline ≤ attempt.now
      · rw [if_pos hnow] at h
        cases h
      · rw [if_neg hnow] at h
        cases hread : attempt.read with
        | none =>
            simp only [hread] at h
            cases h
        | some bytes =>
            simp only [hread] at h
            cases hheard : heard msgid ((demux hostDemuxSize).outputs d bytes) with
            | broken e =>
                simp only [hheard] at h
                cases h
            | reply isError' value' =>
                simp only [hheard, Ending.answered.injEq] at h
                obtain ⟨rfl, rfl⟩ := h
                exact ⟨[], attempt, attempts, bytes, rfl, hread, rfl, hheard⟩
            | nothing =>
                -- The answer comes in a later read.
                simp only [hheard] at h
                obtain ⟨earlier, attempt', later, bytes', rfl, hread', hwaiting, hreply⟩ := ih h
                refine ⟨attempt :: earlier, attempt', later, bytes', rfl, hread', ?_, ?_⟩
                · rw [hear, if_neg hnow]
                  simp only [hread, hheard]
                  exact hwaiting
                · rwa [received, List.filterMap_cons_some hread, List.flatten_cons,
                    Mealy.final_append]

/-- A loop that is still waiting goes on with the reads that follow. -/
theorem hear_append {msgid deadline : Nat} {d : Demux hostDemuxSize}
    {earlier : List RPC.Attempt} (later : List RPC.Attempt)
    (h : (hear msgid deadline d earlier).ending = .waiting) :
    (hear msgid deadline d (earlier ++ later)).ending
        = (hear msgid deadline ((demux hostDemuxSize).final d (received earlier)) later).ending ∧
      (hear msgid deadline d (earlier ++ later)).demux
        = (hear msgid deadline ((demux hostDemuxSize).final d (received earlier)) later).demux := by
  induction earlier generalizing d with
  | nil => exact ⟨rfl, rfl⟩
  | cons attempt attempts ih =>
      rw [hear] at h
      rw [List.cons_append, hear]
      -- Every branch that ends the loop contradicts `h`.
      by_cases hnow : deadline ≤ attempt.now
      · rw [if_pos hnow] at h
        cases h
      · rw [if_neg hnow] at h ⊢
        cases hread : attempt.read with
        | none =>
            simp only [hread] at h
            cases h
        | some bytes =>
            simp only [hread] at h ⊢
            rw [received, List.filterMap_cons_some hread, List.flatten_cons, Mealy.final_append]
            cases hheard : heard msgid ((demux hostDemuxSize).outputs d bytes) with
            | broken e =>
                simp only [hheard] at h
                cases h
            | reply isError value =>
                simp only [hheard] at h
                cases h
            | nothing =>
                simp only [hheard] at h ⊢
                exact ih h

/-- An answer in the last read: all reads were made. -/
theorem hear_last {msgid deadline : Nat} {d : Demux hostDemuxSize} {earlier : List RPC.Attempt}
    {attempt : RPC.Attempt} (hwaiting : (hear msgid deadline d earlier).ending = .waiting)
    {isError : Bool} {value : Value}
    (hanswered : (hear msgid deadline d (earlier ++ [attempt])).ending = .answered isError value) :
    (hear msgid deadline d (earlier ++ [attempt])).demux
      = (demux hostDemuxSize).final d (received (earlier ++ [attempt])) := by
  obtain ⟨hending, hdemux⟩ := hear_append [attempt] hwaiting
  rw [hending] at hanswered
  rw [hdemux, received_append, Mealy.final_append]
  -- The reply comes at the last attempt, because the call was still waiting before it.
  rw [hear] at hanswered ⊢
  by_cases hnow : deadline ≤ attempt.now
  · rw [if_pos hnow] at hanswered
    cases hanswered
  · rw [if_neg hnow] at hanswered ⊢
    -- So all the bytes that were received have gone through the receiver.
    cases hread : attempt.read with
    | none =>
        simp only [hread] at hanswered
        cases hanswered
    | some bytes =>
        simp only [hread] at hanswered ⊢
        rw [show received [attempt] = bytes by simp [received, hread]]
        cases hheard : heard msgid ((demux hostDemuxSize).outputs
            ((demux hostDemuxSize).final d (received earlier)) bytes) with
        | broken e =>
            simp only [hheard] at hanswered
            cases hanswered
        | reply isError' value' => rfl
        | nothing =>
            simp only [hheard] at hanswered
            cases hanswered

/-- How `call_values` ends. -/
def Ending.callOutcome (method : List UInt8) : Ending → RPC.CallOutcome
  | .expired =>
      .threw (.timeout
        (text "serial_rpc: timed out waiting for a response to '" ++ method ++ text "'"))
  | .failed e => .threw e
  | .answered isError value => if isError then .threw (.remote method value) else .returned value
  | .waiting => .waiting

/-- How `try_request_` ends. -/
def Ending.tryOutcome (method : List UInt8) : Ending → RPC.TryOutcome
  | .expired => .nothing
  | .failed e => .threw e
  | .answered isError value => if isError then .threw (.remote method value) else .replied value
  | .waiting => .waiting

namespace RPC

/-- The client waits for the response to `msgid`. -/
structure Waiting (c : RPC) (msgid : Nat) : Prop where
  pending : c.pendingMsgid = some msgid
  notReady : c.pendingResponseReady = false

/-- One read of a waiting client, in the terms of `hear`: an exception, the reply, or more to
wait for. -/
theorem pumpBytes_cases {c : RPC} {msgid : Nat} (hwaiting : c.Waiting msgid) (bytes : List UInt8)
    (memory : Memory := .unlimited) :
    (∃ c' e, heard msgid ((SerialRpc.demux hostDemuxSize).outputs c.demux bytes) memory
          = .broken e ∧
        c.pumpBytes (some bytes) memory = (c', some e)) ∨
      ∃ c', c.pumpBytes (some bytes) memory = (c', none) ∧
        c'.demux = (SerialRpc.demux hostDemuxSize).final c.demux bytes ∧
        ((∃ isError value, c'.Completed isError value ∧
            heard msgid ((SerialRpc.demux hostDemuxSize).outputs c.demux bytes) memory
              = .reply isError value) ∨
          c'.Waiting msgid ∧
            heard msgid ((SerialRpc.demux hostDemuxSize).outputs c.demux bytes) memory
              = .nothing) := by
  -- What the client took is what was heard, and a fed read leaves the demultiplexer at its end.
  have htook := feedBytes_took hwaiting.pending bytes memory
  have hdemux : (c.feedBytes bytes memory).2 = none →
      (c.feedBytes bytes memory).1.demux
        = (SerialRpc.demux hostDemuxSize).final c.demux bytes :=
    feedBytes_demux
  rw [pumpBytes]
  cases hfeed : c.feedBytes bytes memory with
  | mk c' thrown =>
      rw [hfeed] at htook hdemux
      cases hheard : heard msgid ((SerialRpc.demux hostDemuxSize).outputs c.demux bytes) memory with
      | broken e =>
          rw [hheard] at htook
          obtain rfl : thrown = some e := htook
          exact Or.inl ⟨c', e, rfl, rfl⟩
      | reply isError value =>
          rw [hheard] at htook
          obtain ⟨rfl, hcompleted⟩ : thrown = none ∧ c'.Completed isError value := htook
          exact Or.inr ⟨c', rfl, hdemux rfl, Or.inl ⟨isError, value, hcompleted, rfl⟩⟩
      | nothing =>
          rw [hheard] at htook
          obtain ⟨rfl, hsame⟩ : thrown = none ∧ SamePending c c' := htook
          exact Or.inr ⟨c', rfl, hdemux rfl, Or.inr
            ⟨⟨hsame.msgid.trans hwaiting.pending, hsame.ready.trans hwaiting.notReady⟩, rfl⟩⟩

/-- The loop of `call_values` and of `try_request_`, up to what they do when it ends. -/
def listen (c : RPC) (deadline : Nat) (attempts : List Attempt) (memory : Memory := .unlimited) :
    RPC × Ending :=
  match attempts with
  | [] => (c, .waiting)
  | attempt :: attempts =>
      if deadline ≤ attempt.now then (c, .expired)
      else
        match c.pumpBytes attempt.read memory with
        | (c, some e) => (c, .failed e)
        | (c, none) =>
            if c.pendingResponseReady then
              (c, .answered c.pendingResponseIsError c.pendingResponseValue)
            else listen c deadline attempts memory

/-- The client when `call_values` leaves its loop. -/
def leaveCall (c : RPC) : Ending → RPC
  | .expired =>
      { c with
          stats := { c.stats with timeouts := c.stats.timeouts + 1 }
          pendingMsgid := none }
  | .failed _ => { c with pendingMsgid := none }
  | .answered _ _ => { c with pendingMsgid := none }
  | .waiting => c

/-- The client when `try_request_` leaves its loop. -/
def leaveTry (c : RPC) : Ending → RPC
  | .expired => { c with pendingMsgid := none }
  | .failed _ => { c with pendingMsgid := none }
  | .answered _ _ => { c with pendingMsgid := none, pendingResponseReady := false }
  | .waiting => c

/-- The wait of `call_values` listens, and its result is read off the way it ended. -/
theorem awaitResponse_eq {memory : Memory} (c : RPC) (method : List UInt8) (deadline : Nat)
    (attempts : List Attempt) :
    c.awaitResponse method deadline attempts memory
      = ((c.listen deadline attempts memory).1.leaveCall (c.listen deadline attempts memory).2,
          (c.listen deadline attempts memory).2.callOutcome method) := by
  induction attempts generalizing c with
  | nil => rfl
  | cons attempt attempts ih =>
      rw [awaitResponse, listen]
      by_cases hnow : deadline ≤ attempt.now
      · rw [if_pos hnow, if_pos hnow]
        rfl
      · rw [if_neg hnow, if_neg hnow]
        rcases c.pumpBytes attempt.read memory with ⟨c', _ | e⟩
        · by_cases hready : c'.pendingResponseReady = true
          · simp only [if_pos hready]
            rfl
          · simp only [if_neg hready]
            exact ih c'
        · rfl

/-- So does the wait of `try_request_`, which lets a timeout be a result. -/
theorem awaitReply_eq {memory : Memory} (c : RPC) (method : List UInt8) (deadline : Nat)
    (attempts : List Attempt) :
    c.awaitReply method deadline attempts memory
      = ((c.listen deadline attempts memory).1.leaveTry (c.listen deadline attempts memory).2,
          (c.listen deadline attempts memory).2.tryOutcome method) := by
  induction attempts generalizing c with
  | nil => rfl
  | cons attempt attempts ih =>
      rw [awaitReply, listen]
      by_cases hnow : deadline ≤ attempt.now
      · rw [if_pos hnow, if_pos hnow]
        rfl
      · rw [if_neg hnow, if_neg hnow]
        rcases c.pumpBytes attempt.read memory with ⟨c', _ | e⟩
        · by_cases hready : c'.pendingResponseReady = true
          · simp only [if_pos hready]
            rfl
          · simp only [if_neg hready]
            exact ih c'
        · rfl

/-- The loop ends as `hear` says. If no exception ends it, it leaves the demultiplexer as `hear`
says, too. -/
theorem listen_hear {c : RPC} {msgid : Nat} (hwaiting : c.Waiting msgid) (deadline : Nat)
    (attempts : List Attempt) (memory : Memory := .unlimited) :
    (c.listen deadline attempts memory).2 = (hear msgid deadline c.demux attempts memory).ending ∧
      ((∀ e, (c.listen deadline attempts memory).2 ≠ .failed e) →
        (c.listen deadline attempts memory).1.demux
          = (hear msgid deadline c.demux attempts memory).demux) := by
  -- By induction on the attempts: time is up, the read fails, or its bytes go through the receiver.
  induction attempts generalizing c with
  | nil => exact ⟨rfl, fun _ => rfl⟩
  | cons attempt attempts ih =>
      rw [listen, hear]
      by_cases hnow : deadline ≤ attempt.now
      · rw [if_pos hnow, if_pos hnow]
        exact ⟨rfl, fun _ => rfl⟩
      · rw [if_neg hnow, if_neg hnow]
        cases hread : attempt.read with
        | none => exact ⟨rfl, fun hfine => absurd rfl (hfine _)⟩
        | some bytes =>
            -- A pump breaks off, completes the pending call, or leaves it waiting for the next
            -- attempt.
            rcases pumpBytes_cases hwaiting bytes memory with
              ⟨c', e, hheard, hpump⟩ | ⟨c', hpump, hdemux, hrest⟩
            · simp only [hpump, hheard]
              exact ⟨trivial, fun hfine => absurd rfl (hfine _)⟩
            · rcases hrest with ⟨isError, value, hcompleted, hheard⟩ | ⟨hwaiting', hheard⟩
              · simp only [hpump, hheard, hcompleted.ready, hcompleted.isError, hcompleted.value,
                  if_true]
                exact ⟨trivial, fun _ => hdemux⟩
              · simp only [hpump, hheard, hwaiting'.notReady, Bool.false_eq_true, if_false]
                rw [← hdemux]
                exact ih hwaiting'

/-- A loop that ran into its deadline has shown each line to the temporary callback. -/
theorem listen_expired {c : RPC} {msgid temporary : Nat} (hwaiting : c.Waiting msgid)
    (honText : c.onText = some temporary) {deadline : Nat} {attempts : List Attempt}
    {memory : Memory} (h : (hear msgid deadline c.demux attempts memory).ending = .expired) :
    ∃ calls, (c.listen deadline attempts memory).1.dispatched = c.dispatched ++ calls ∧
      calls.any (sawReady temporary) = (hear msgid deadline c.demux attempts memory).ready := by
  induction attempts generalizing c with
  | nil => cases h
  | cons attempt attempts ih =>
      rw [listen]
      rw [hear] at h ⊢
      by_cases hnow : deadline ≤ attempt.now
      · rw [if_pos hnow, if_pos hnow]
        exact ⟨[], (List.append_nil _).symm, rfl⟩
      · rw [if_neg hnow] at h ⊢
        rw [if_neg hnow]
        cases hread : attempt.read with
        | none =>
            simp only [hread] at h
            cases h
        | some bytes =>
            simp only [hread] at h
            rcases pumpBytes_cases hwaiting bytes memory with
              ⟨c', e, hheard, hpump⟩ | ⟨c', hpump, hdemux, hrest⟩
            · simp only [hheard] at h
              cases h
            · rcases hrest with ⟨isError, value, hcompleted, hheard⟩ | ⟨hwaiting', hheard⟩
              · simp only [hheard] at h
                cases h
              · -- The lines of this read, and those of the later ones.
                simp only [hheard] at h
                have hnone : (c.feedBytes bytes memory).2 = none := congrArg Prod.snd hpump
                have hsame : (c.feedBytes bytes memory).1 = c' := congrArg Prod.fst hpump
                obtain ⟨calls, hcalls, hready⟩ := feedBytes_sawReady honText hnone
                rw [hsame] at hcalls
                have hkeeps := pumpBytes_keeps c (some bytes) memory
                rw [hpump] at hkeeps
                rw [← hdemux] at h
                obtain ⟨later, hlater, hrest⟩ := ih hwaiting' (hkeeps.onText.trans honText) h
                simp only [hpump, hheard, hwaiting'.notReady, Bool.false_eq_true, if_false]
                rw [hdemux] at hrest
                refine ⟨calls ++ later, ?_, ?_⟩
                · rw [hlater, hcalls, List.append_assoc]
                · rw [List.any_append, hready, hrest]

/-- Listening keeps the setup. -/
theorem listen_sameSetup (c : RPC) (deadline : Nat) (attempts : List Attempt)
    (memory : Memory := .unlimited) :
    SameSetup c (c.listen deadline attempts memory).1 := by
  induction attempts generalizing c with
  | nil => exact SameSetup.refl c
  | cons attempt attempts ih =>
      rw [listen]
      split
      · exact SameSetup.refl c
      · have hpumped := (pumpBytes_keeps c attempt.read memory).toSameSetup
        rcases hpump : c.pumpBytes attempt.read memory with ⟨c', _ | e⟩
        · rw [hpump] at hpumped
          simp only
          split
          · exact hpumped
          · exact hpumped.trans (ih c')
        · rw [hpump] at hpumped
          exact hpumped

/-! ### The two loops -/

/-- `call_values` ends as `hear` says. -/
theorem awaitResponse_hear {c : RPC} {msgid : Nat} (hwaiting : c.Waiting msgid)
    (method : List UInt8) (deadline : Nat) (attempts : List Attempt)
    (memory : Memory := .unlimited) :
    (c.awaitResponse method deadline attempts memory).2
      = (hear msgid deadline c.demux attempts memory).ending.callOutcome method := by
  rw [awaitResponse_eq, (listen_hear hwaiting deadline attempts memory).1]

/-- `try_request_` ends as `hear` says. -/
theorem awaitReply_hear {c : RPC} {msgid : Nat} (hwaiting : c.Waiting msgid)
    (method : List UInt8) (deadline : Nat) (attempts : List Attempt)
    (memory : Memory := .unlimited) :
    (c.awaitReply method deadline attempts memory).2
      = (hear msgid deadline c.demux attempts memory).ending.tryOutcome method := by
  rw [awaitReply_eq, (listen_hear hwaiting deadline attempts memory).1]

/-- A loop that ends without an exception leaves the demultiplexer as `hear` says. -/
theorem awaitResponse_demux {c : RPC} {msgid : Nat} (hwaiting : c.Waiting msgid)
    (method : List UInt8) {deadline : Nat} {attempts : List Attempt} {memory : Memory}
    (h : ∀ e, (hear msgid deadline c.demux attempts memory).ending ≠ .failed e) :
    (c.awaitResponse method deadline attempts memory).1.demux
      = (hear msgid deadline c.demux attempts memory).demux := by
  obtain ⟨hending, hdemux⟩ := listen_hear hwaiting deadline attempts memory
  rw [← hending] at h
  have hleave : (c.awaitResponse method deadline attempts memory).1.demux
      = (c.listen deadline attempts memory).1.demux := by
    rw [awaitResponse_eq]
    cases (c.listen deadline attempts memory).2 <;> rfl
  exact hleave.trans (hdemux h)

/-- Unless reading failed, the receiver has moved over exactly the bytes that were heard. -/
theorem awaitReply_demux {c : RPC} {msgid : Nat} (hwaiting : c.Waiting msgid)
    (method : List UInt8) {deadline : Nat} {attempts : List Attempt} {memory : Memory}
    (h : ∀ e, (hear msgid deadline c.demux attempts memory).ending ≠ .failed e) :
    (c.awaitReply method deadline attempts memory).1.demux
      = (hear msgid deadline c.demux attempts memory).demux := by
  obtain ⟨hending, hdemux⟩ := listen_hear hwaiting deadline attempts memory
  rw [← hending] at h
  have hleave : (c.awaitReply method deadline attempts memory).1.demux
      = (c.listen deadline attempts memory).1.demux := by
    rw [awaitReply_eq]
    cases (c.listen deadline attempts memory).2 <;> rfl
  exact hleave.trans (hdemux h)

/-- A loop that ran into its deadline has read all it could, and shown each line to the
temporary callback. -/
theorem awaitReply_expired {c : RPC} {msgid temporary : Nat} (hwaiting : c.Waiting msgid)
    (honText : c.onText = some temporary) (method : List UInt8) {deadline : Nat}
    {attempts : List Attempt} {memory : Memory}
    (h : (hear msgid deadline c.demux attempts memory).ending = .expired) :
    (c.awaitReply method deadline attempts memory).1.demux
        = (hear msgid deadline c.demux attempts memory).demux ∧
      ∃ calls, (c.awaitReply method deadline attempts memory).1.dispatched = c.dispatched ++ calls ∧
        calls.any (sawReady temporary) = (hear msgid deadline c.demux attempts memory).ready := by
  obtain ⟨hending, hdemux⟩ := listen_hear hwaiting deadline attempts memory
  have hexpired := hending.trans h
  rw [awaitReply_eq, hexpired]
  refine ⟨hdemux ?_, listen_expired hwaiting honText h⟩
  rw [hexpired]
  rintro e ⟨⟩

/-- A waiting loop keeps the setup, and when it has ended no call is pending. -/
theorem awaitResponse_sameSetup (c : RPC) (method : List UInt8) (deadline : Nat)
    (attempts : List Attempt) (memory : Memory := .unlimited) :
    SameSetup c (c.awaitResponse method deadline attempts memory).1 ∧
      ((c.awaitResponse method deadline attempts memory).2 ≠ .waiting →
        (c.awaitResponse method deadline attempts memory).1.pendingMsgid = none) := by
  have hsetup := listen_sameSetup c deadline attempts memory
  rw [awaitResponse_eq]
  cases (c.listen deadline attempts memory).2 with
  | waiting => exact ⟨hsetup, fun h => absurd rfl h⟩
  | expired => exact ⟨hsetup.cleared _ _ _, fun _ => rfl⟩
  | failed e => exact ⟨hsetup.cleared _ _ _, fun _ => rfl⟩
  | answered isError value => exact ⟨hsetup.cleared _ _ _, fun _ => rfl⟩

/-- Waiting for a reply keeps the setup. -/
theorem awaitReply_sameSetup (c : RPC) (method : List UInt8) (deadline : Nat)
    (attempts : List Attempt) (memory : Memory := .unlimited) :
    SameSetup c (c.awaitReply method deadline attempts memory).1 ∧
      ((c.awaitReply method deadline attempts memory).2 ≠ .waiting →
        (c.awaitReply method deadline attempts memory).1.pendingMsgid = none) := by
  have hsetup := listen_sameSetup c deadline attempts memory
  rw [awaitReply_eq]
  cases (c.listen deadline attempts memory).2 with
  | waiting => exact ⟨hsetup, fun h => absurd rfl h⟩
  | expired => exact ⟨hsetup.cleared _ _ _, fun _ => rfl⟩
  | failed e => exact ⟨hsetup.cleared _ _ _, fun _ => rfl⟩
  | answered isError value => exact ⟨hsetup.cleared _ _ _, fun _ => rfl⟩

end RPC

end SerialRpc
