import SerialRpc.Proofs.Framing.OneFrame
import SerialRpc.Proofs.Host.Listening
import SerialRpc.Proofs.Host.Sending

/-!
# `SerialRpc.Proofs.Host.Calls`: the client, from a call to its response

A call writes one request (`startCall_started`) and waits. When one frame is heard of what
arrives, the call ends as the frame says, whatever comes around it (`hear_once`,
`callValues_eq`).
-/

set_option autoImplicit false

namespace SerialRpc

open MsgPack Reader

namespace RPC

/-! ### The request -/

/-- A port that takes all it is given. -/
def writesAll (n : Nat) : Int := n

/-- `count` requests later the setup is as it was. -/
structure Later (count : UInt32) (c c' : RPC) : Prop where
  sized : c'.Sized
  opts : c'.opts = c.opts
  nextMsgid : c'.nextMsgid = c.nextMsgid + count
  attached : c'.attached = c.attached
  onLog : c'.onLog = c.onLog
  onText : c'.onText = c.onText
  handlers : c'.handlers = c.handlers
  onAny : c'.onAny = c.onAny

/-- A client is no request later than itself. -/
theorem Later.refl {c : RPC} (h : c.Sized) : Later 0 c c := by
  constructor <;> first | exact h | exact (UInt32.add_zero _).symm | rfl

/-- The requests of two stretches add up. -/
theorem Later.trans {c c' c'' : RPC} {m n : UInt32} (h : Later m c c') (h' : Later n c' c'') :
    Later (m + n) c c'' where
  sized := h'.sized
  opts := h'.opts.trans h.opts
  nextMsgid := by rw [h'.nextMsgid, h.nextMsgid, UInt32.add_assoc]
  attached := h'.attached.trans h.attached
  onLog := h'.onLog.trans h.onLog
  onText := h'.onText.trans h.onText
  handlers := h'.handlers.trans h.handlers
  onAny := h'.onAny.trans h.onAny

/-- What happens without a request does not count. -/
theorem Later.of_sameSetup {c c' c'' : RPC} {n : UInt32} (h : Later n c c')
    (h' : SameSetup c' c'') : Later n c c'' where
  sized :=
    ⟨by rw [h'.txPayload, h'.opts, h.sized.payload], by rw [h'.txFrame, h'.opts, h.sized.frame]⟩
  opts := h'.opts.trans h.opts
  nextMsgid := h'.nextMsgid.trans h.nextMsgid
  attached := h'.attached.trans h.attached
  onLog := h'.onLog.trans h.onLog
  onText := h'.onText.trans h.onText
  handlers := h'.handlers.trans h.handlers
  onAny := h'.onAny.trans h.onAny

/-- What the start of a request leaves alone. -/
structure Launched (c c' : RPC) : Prop extends Later 1 c c' where
  demux : c'.demux = c.demux
  dispatched : c'.dispatched = c.dispatched

/-- The request is out, and its call becomes the pending one. -/
theorem Launched.pend {c c' : RPC} (h : Launched c c') (pending : Option Nat) (ready : Bool)
    (stats : Stats) :
    Launched c
      { c' with pendingMsgid := pending, pendingResponseReady := ready, stats := stats } where
  sized := ⟨h.sized.payload, h.sized.frame⟩
  opts := h.opts
  nextMsgid := h.nextMsgid
  attached := h.attached
  onLog := h.onLog
  onText := h.onText
  handlers := h.handlers
  onAny := h.onAny
  demux := h.demux
  dispatched := h.dispatched

/-- The exception of a request, if there is one. -/
def requestError (maxFrame : Nat) (write : Nat → Int) (msgid : UInt32) (method : List UInt8)
    (args : List Value) : Option HostError :=
  sendError maxFrame write ⟨"serial_rpc: request payload exceeds max_frame"⟩
    (requestPayload msgid method args)

/-- What comes of the start of a request: the bytes, and a client that waits, or one whose
pending call is as it was. -/
structure Started (c : RPC) (write : Nat → Int) (method : List UInt8) (args : List Value)
    (started : RPC × List UInt8 × Option HostError) : Prop where
  launched : Launched c started.1
  bytes : started.2.1 = written c.opts.maxFrame (requestPayload c.nextMsgid method args)
  thrown : started.2.2 = requestError c.opts.maxFrame write c.nextMsgid method args
  waiting : started.2.2 = none → started.1.Waiting c.nextMsgid.toNat
  pending : started.2.2 ≠ none → started.1.pendingMsgid = c.pendingMsgid

/-- `send_request_` with the next id. -/
theorem sendRequest_launched {c : RPC} (h : c.Sized) (write : Nat → Int) (method : List UInt8)
    (args : List Value) :
    ∃ c', { c with nextMsgid := c.nextMsgid + 1 }.sendRequest write c.nextMsgid method args
        = (c', written c.opts.maxFrame (requestPayload c.nextMsgid method args),
            requestError c.opts.maxFrame write c.nextMsgid method args) ∧
      Launched c c' ∧ SamePending c c' := by
  have hsized : { c with nextMsgid := c.nextMsgid + 1 }.Sized := ⟨h.payload, h.frame⟩
  obtain ⟨txPayload, txFrame, hpayload, hframe, hsend⟩ := sendPacked_eq hsized write
    (packRequest_eq c.nextMsgid method args) ⟨"serial_rpc: request payload exceeds max_frame"⟩
  exact ⟨_, hsend, ⟨⟨⟨hpayload, hframe⟩, rfl, rfl, rfl, rfl, rfl, rfl, rfl⟩, rfl, rfl⟩,
    ⟨rfl, rfl, rfl, rfl⟩⟩

/-- A call that waits is the one that has started, and its request was sent. -/
theorem Started.pending_sent {c : RPC} {write : Nat → Int} {method : List UInt8}
    {args : List Value} {started : RPC × List UInt8 × Option HostError}
    (h : Started c write method args started) (hidle : c.pendingMsgid = none) {msgid : Nat}
    (hpending : started.1.pendingMsgid = some msgid) :
    c.nextMsgid.toNat = msgid ∧ started.1.Waiting msgid ∧
      (requestPayload c.nextMsgid method args).length ≤ c.opts.maxFrame := by
  cases hthrown : started.2.2 with
  | some e =>
      -- Nothing waited before, and a call that throws does not wait.
      have hsame := h.pending (by rw [hthrown]; rintro ⟨⟩)
      rw [hsame, hidle] at hpending
      cases hpending
  | none =>
      have hwaiting := h.waiting hthrown
      obtain rfl : c.nextMsgid.toNat = msgid :=
        Option.some.inj (hwaiting.pending.symm.trans hpending)
      refine ⟨rfl, hwaiting, ?_⟩
      by_contra hlong
      have herror := h.thrown
      rw [hthrown, requestError, sendError, if_neg hlong] at herror
      cases herror

/-- The request is not sent, or not all of it, and no call waits. -/
theorem Started.threw {c c' : RPC} {write : Nat → Int} {method : List UInt8} {args : List Value}
    {e : HostError} (hlaunched : Launched c c') (hpending : SamePending c c')
    (hthrown : requestError c.opts.maxFrame write c.nextMsgid method args = some e) :
    Started c write method args
      (c', written c.opts.maxFrame (requestPayload c.nextMsgid method args), some e) where
  launched := hlaunched
  bytes := rfl
  thrown := hthrown.symm
  waiting := by rintro ⟨⟩
  pending := fun _ => hpending.msgid

/-- The request is sent, and the call waits. -/
theorem Started.waits {c c' : RPC} {write : Nat → Int} {method : List UInt8} {args : List Value}
    (hlaunched : Launched c c')
    (hthrown : requestError c.opts.maxFrame write c.nextMsgid method args = none)
    (hwaiting : c'.Waiting c.nextMsgid.toNat) :
    Started c write method args
      (c', written c.opts.maxFrame (requestPayload c.nextMsgid method args), none) where
  launched := hlaunched
  bytes := rfl
  thrown := hthrown.symm
  waiting := fun _ => hwaiting
  pending := fun hsome => absurd rfl hsome

/-- `call_values` up to its waiting loop. -/
theorem startCall_started {c : RPC} (h : c.Sized) (write : Nat → Int) (method : List UInt8)
    (args : List Value) : Started c write method args (c.startCall write method args) := by
  obtain ⟨c', hsend, hlaunched, hpending⟩ := sendRequest_launched h write method args
  unfold startCall
  simp only [hsend]
  cases hthrown : requestError c.opts.maxFrame write c.nextMsgid method args with
  | some e => exact .threw hlaunched hpending hthrown
  | none => exact .waits (hlaunched.pend _ _ _) hthrown ⟨rfl, rfl⟩

/-- `try_request_` up to its waiting loop. -/
theorem startTry_started {c : RPC} (h : c.Sized) (write : Nat → Int) (method : List UInt8) :
    Started c write method [] (c.startTry write method) := by
  obtain ⟨c', hsend, hlaunched, hpending⟩ := sendRequest_launched h write method []
  unfold startTry
  simp only [hsend]
  cases hthrown : requestError c.opts.maxFrame write c.nextMsgid method [] with
  | some e => exact .threw hlaunched hpending hthrown
  | none => exact .waits (hlaunched.pend _ _ _) hthrown ⟨rfl, rfl⟩

/-- Only a response makes a `RemoteError`. -/
theorem requestError_not_remote {maxFrame : Nat} {write : Nat → Int} {msgid : UInt32}
    {method : List UInt8} {args : List Value} {e : HostError}
    (h : requestError maxFrame write msgid method args = some e) (method' : List UInt8)
    (v : Value) : e ≠ .remote method' v := by
  rw [requestError, sendError] at h
  split at h
  · split at h <;> cases h
    rintro ⟨⟩
  · cases h
    rintro ⟨⟩

/-- A whole request, as a function of what arrives. -/
def hearRequest (maxFrame : Nat) (write : Nat → Int) (msgid : UInt32) (method : List UInt8)
    (args : List Value) (deadline : Nat) (d : Demux hostDemuxSize) (attempts : List Attempt)
    (memory : Memory := .unlimited) : Hearing :=
  match requestError maxFrame write msgid method args with
  | some e => ⟨.failed e, d, false⟩
  | none => hear msgid.toNat deadline d attempts memory

/-- `call_values` ends as `hearRequest` says. -/
theorem callValues_hear {c : RPC} (h : c.Sized) (write : Nat → Int) (method : List UInt8)
    (args : List Value) (start : Nat) (attempts : List Attempt) (memory : Memory := .unlimited) :
    (c.callValues write method args start attempts memory).2.2
      = (hearRequest c.opts.maxFrame write c.nextMsgid method args (start + c.opts.timeout) c.demux
          attempts memory).ending.callOutcome method := by
  have hstarted := startCall_started h write method args
  rw [callValues, hearRequest, ← hstarted.thrown]
  rcases hstart : c.startCall write method args with ⟨c', bytes, _ | e⟩
  · rw [hstart] at hstarted
    simp only
    rw [awaitResponse_hear (hstarted.waiting rfl) _ _ _ memory, hstarted.launched.opts,
      hstarted.launched.demux]
  · rfl

/-- `try_request_` ends as `hearRequest` says. -/
theorem tryRequest_hear {c : RPC} (h : c.Sized) (write : Nat → Int) (method : List UInt8)
    (budget start : Nat) (attempts : List Attempt) (memory : Memory := .unlimited) :
    (c.tryRequest write method budget start attempts memory).2.2
      = (hearRequest c.opts.maxFrame write c.nextMsgid method [] (start + budget) c.demux
          attempts memory).ending.tryOutcome method := by
  have hstarted := startTry_started h write method
  rw [tryRequest, hearRequest, ← hstarted.thrown]
  rcases hstart : c.startTry write method with ⟨c', bytes, _ | e⟩
  · rw [hstart] at hstarted
    simp only
    rw [awaitReply_hear (hstarted.waiting rfl) _ _ _ memory, hstarted.launched.demux]
  · rfl

/-- A request that is not heard to fail is sent, and what is heard of it is heard of the wait. -/
theorem startTry_heard {c : RPC} (h : c.Sized) {write : Nat → Int} {method : List UInt8}
    {deadline : Nat} {attempts : List Attempt} {memory : Memory} {heard : Hearing}
    (hheard : hearRequest c.opts.maxFrame write c.nextMsgid method [] deadline c.demux
      attempts memory = heard) (hfine : ∀ e, heard.ending ≠ .failed e) :
    ∃ c' bytes, c.startTry write method = (c', bytes, none) ∧
      Started c write method [] (c', bytes, none) ∧
      hear c.nextMsgid.toNat deadline c'.demux attempts memory = heard := by
  have hstarted := startTry_started h write method
  rw [hearRequest, ← hstarted.thrown] at hheard
  rcases hstart : c.startTry write method with ⟨c', bytes, _ | e⟩
  · rw [hstart] at hstarted hheard
    refine ⟨c', bytes, rfl, hstarted, ?_⟩
    rw [hstarted.launched.demux]
    exact hheard
  · rw [hstart] at hheard
    subst hheard
    exact absurd rfl (hfine e)

/-- A try that ends without an exception leaves the demultiplexer as `hearRequest` says. -/
theorem tryRequest_demux {c : RPC} (h : c.Sized) (write : Nat → Int) (method : List UInt8)
    (budget start : Nat) (attempts : List Attempt) {memory : Memory} {heard : Hearing}
    (hheard : hearRequest c.opts.maxFrame write c.nextMsgid method [] (start + budget) c.demux
      attempts memory = heard) (hfine : ∀ e, heard.ending ≠ .failed e) :
    (c.tryRequest write method budget start attempts memory).1.demux = heard.demux := by
  obtain ⟨c', bytes, hstart, hstarted, rfl⟩ := startTry_heard h hheard hfine
  rw [tryRequest, hstart]
  exact awaitReply_demux (hstarted.waiting rfl) method hfine

/-- A request without an answer in time has read all it could, and shown each line to the
temporary callback. -/
theorem tryRequest_expired {c : RPC} (h : c.Sized) {temporary : Nat}
    (honText : c.onText = some temporary) (write : Nat → Int) (method : List UInt8)
    (budget start : Nat) (attempts : List Attempt) {memory : Memory} {heard : Hearing}
    (hheard : hearRequest c.opts.maxFrame write c.nextMsgid method [] (start + budget) c.demux
      attempts memory = heard) (hexpired : heard.ending = .expired) :
    (c.tryRequest write method budget start attempts memory).1.demux = heard.demux ∧
      ∃ calls, (c.tryRequest write method budget start attempts memory).1.dispatched
          = c.dispatched ++ calls ∧
        calls.any (sawReady temporary) = heard.ready := by
  have hfine : ∀ e, heard.ending ≠ .failed e := by
    rw [hexpired]
    rintro e ⟨⟩
  -- The lines come from the wait alone.
  obtain ⟨c', bytes, hstart, hstarted, rfl⟩ := startTry_heard h hheard hfine
  rw [tryRequest, hstart, ← hstarted.launched.dispatched]
  exact awaitReply_expired (hstarted.waiting rfl) (hstarted.launched.onText.trans honText) method
    hexpired

/-- A call is one request. -/
theorem callValues_later {c : RPC} (h : c.Sized) (write : Nat → Int) (method : List UInt8)
    (args : List Value) (start : Nat) (attempts : List Attempt) (memory : Memory := .unlimited) :
    Later 1 c (c.callValues write method args start attempts memory).1 := by
  have hstarted := startCall_started h write method args
  rw [callValues]
  rcases hstart : c.startCall write method args with ⟨c', bytes, _ | e⟩
  · rw [hstart] at hstarted
    exact hstarted.launched.toLater.of_sameSetup (c'.awaitResponse_sameSetup _ _ _ _).1
  · rw [hstart] at hstarted
    exact hstarted.launched.toLater

/-- A try is one request. -/
theorem tryRequest_later {c : RPC} (h : c.Sized) (write : Nat → Int) (method : List UInt8)
    (budget start : Nat) (attempts : List Attempt) (memory : Memory := .unlimited) :
    Later 1 c (c.tryRequest write method budget start attempts memory).1 := by
  have hstarted := startTry_started h write method
  rw [tryRequest]
  rcases hstart : c.startTry write method with ⟨c', bytes, _ | e⟩
  · rw [hstart] at hstarted
    exact hstarted.launched.toLater.of_sameSetup (c'.awaitReply_sameSetup _ _ _ _).1
  · rw [hstart] at hstarted
    exact hstarted.launched.toLater

/-- A request that fits is sent, over a port that takes all it is given. -/
theorem requestError_writesAll {maxFrame : Nat} {msgid : UInt32} {method : List UInt8}
    {args : List Value} (hfit : (requestPayload msgid method args).length ≤ maxFrame) :
    requestError maxFrame writesAll msgid method args = none := by
  have hall (n : Nat) : writesAll n = (n : Int) := rfl
  rw [requestError, sendError, if_pos hfit, if_pos (hall _)]

end RPC

/-! ### The response -/

/-- Silence afterwards changes nothing. -/
@[simp] theorem Heard.followedBy_nothing (h : Heard) : h.followedBy .nothing = h := by
  cases h <;> rfl

/-- Silence before does not either. -/
@[simp] theorem Heard.nothing_followedBy (h : Heard) : Heard.nothing.followedBy h = h := by
  cases h <;> rfl

/-- Of three things heard the first that ends the wait counts, however they are grouped. -/
theorem Heard.followedBy_assoc (a b c : Heard) :
    (a.followedBy b).followedBy c = a.followedBy (b.followedBy c) := by
  cases a <;> cases b <;> cases c <;> rfl

/-- What is heard in two runs of reports is what is heard in the first, else in the second. -/
theorem heard_append (msgid : Nat) (rs rs' : List (Option Report)) :
    heard msgid (rs ++ rs') = (heard msgid rs).followedBy (heard msgid rs') := by
  induction rs with
  | nil => exact (Heard.nothing_followedBy _).symm
  | cons r rs ih => rw [List.cons_append, heard, heard, ih, Heard.followedBy_assoc]

/-- None of the reports is heard. -/
def Unheard (msgid : Nat) (reports : List (Option Report)) : Prop :=
  ∀ r ∈ reports, heardAt msgid r = .nothing

/-- Two runs in which nothing is heard make one. -/
theorem Unheard.append {msgid : Nat} {rs rs' : List (Option Report)} (h : Unheard msgid rs)
    (h' : Unheard msgid rs') : Unheard msgid (rs ++ rs') := by
  intro r hr
  rcases List.mem_append.mp hr with hr | hr
  · exact h r hr
  · exact h' r hr

/-- Nothing is heard in either part of such a run. -/
theorem Unheard.of_append {msgid : Nat} {rs rs' : List (Option Report)}
    (h : Unheard msgid (rs ++ rs')) : Unheard msgid rs ∧ Unheard msgid rs' :=
  ⟨fun r hr => h r (List.mem_append_left _ hr), fun r hr => h r (List.mem_append_right _ hr)⟩

/-- Only frames are heard. -/
theorem Frameless.unheard {reports : List (Option Report)} (h : Frameless reports) (msgid : Nat) :
    Unheard msgid reports := by
  intro r hr
  rcases r with _ | ⟨line, truncated⟩ | ⟨payload⟩
  · rfl
  · rfl
  · exact absurd hr (h payload)

/-- Where no report is heard, nothing is heard. -/
theorem heard_unheard {msgid : Nat} {reports : List (Option Report)} (h : Unheard msgid reports) :
    heard msgid reports = .nothing := by
  induction reports with
  | nil => rfl
  | cons r rs ih =>
      obtain ⟨hfirst, hrest⟩ := List.forall_mem_cons.mp h
      rw [heard, hfirst, ih hrest, Heard.followedBy_nothing]

/-- Of all the reports, the frame is what is heard. -/
def HeardOnce (msgid : Nat) (payload : List UInt8) (reports : List (Option Report)) : Prop :=
  ∃ before after, reports = before ++ some (.frame payload) :: after ∧ Unheard msgid before ∧
    Unheard msgid after

/-- The only frame reported is the only thing that can be heard. -/
theorem OneReport.heardOnce {payload : List UInt8} {reports : List (Option Report)}
    (h : OneReport payload reports) (msgid : Nat) : HeardOnce msgid payload reports := by
  obtain ⟨before, after, hsplit, hbefore, hafter⟩ := h
  exact ⟨before, after, hsplit, hbefore.unheard msgid, hafter.unheard msgid⟩

/-- A frame that is not heard. -/
theorem OneReport.unheard {payload : List UInt8} {reports : List (Option Report)}
    (h : OneReport payload reports) {msgid : Nat}
    (hnone : heardAt msgid (some (.frame payload)) = .nothing) : Unheard msgid reports := by
  obtain ⟨before, after, rfl, hbefore, hafter⟩ := h
  refine (hbefore.unheard msgid).append ?_
  exact List.forall_mem_cons.mpr ⟨hnone, hafter.unheard msgid⟩

/-- How a loop ends that hears this and nothing else. -/
def Heard.ending : Heard → Ending
  | .nothing => .waiting
  | .reply isError value => .answered isError value
  | .broken e => .failed e

/-- Reads that succeed, each with what the clock reads before it. -/
def RPC.arriving (reads : List (Nat × List UInt8)) : List RPC.Attempt :=
  reads.map fun read => ⟨read.1, some read.2⟩

/-- Reads that are not heard, before the deadline: the loop goes on. -/
theorem hear_unheard {msgid deadline : Nat} {d : Demux hostDemuxSize}
    {reads : List (Nat × List UInt8)} (hintime : ∀ read ∈ reads, read.1 < deadline)
    (hunheard : Unheard msgid ((demux hostDemuxSize).outputs d (reads.map Prod.snd).flatten)) :
    (hear msgid deadline d (RPC.arriving reads)).ending = .waiting := by
  induction reads generalizing d with
  | nil => rfl
  | cons read reads ih =>
      obtain ⟨hnow, hlater⟩ := List.forall_mem_cons.mp hintime
      rw [List.map_cons, List.flatten_cons, Mealy.outputs_append] at hunheard
      obtain ⟨hfirst, hrest⟩ := hunheard.of_append
      rw [RPC.arriving, List.map_cons, hear, if_neg (show ¬ deadline ≤ read.1 by omega)]
      simp only [heard_unheard hfirst]
      exact ih hlater hrest

/-- **One frame among others.** The loop ends as the frame says. -/
theorem hear_once {msgid deadline : Nat} {d : Demux hostDemuxSize}
    {reads : List (Nat × List UInt8)} (hintime : ∀ read ∈ reads, read.1 < deadline)
    {payload : List UInt8}
    (hreport : HeardOnce msgid payload
      ((demux hostDemuxSize).outputs d (reads.map Prod.snd).flatten)) :
    (hear msgid deadline d (RPC.arriving reads)).ending
      = (heardAt msgid (some (.frame payload))).ending := by
  induction reads generalizing d with
  | nil =>
      obtain ⟨before, after, hempty, -⟩ := hreport
      cases before <;> cases hempty
  | cons read reads ih =>
      obtain ⟨hnow, hlater⟩ := List.forall_mem_cons.mp hintime
      obtain ⟨before, after, hsplit, hbefore, hafter⟩ := hreport
      rw [List.map_cons, List.flatten_cons, Mealy.outputs_append] at hsplit
      rw [RPC.arriving, List.map_cons, hear, if_neg (show ¬ deadline ≤ read.1 by omega)]
      rcases List.append_eq_append_iff.mp hsplit with ⟨front, rfl, hrest⟩ | ⟨back, hfirst, hrest⟩
      · -- The frame comes in a later read.
        obtain ⟨hread, hfront⟩ := hbefore.of_append
        simp only [heard_unheard hread]
        exact ih hlater ⟨front, after, hrest, hfront, hafter⟩
      · cases back with
        | nil =>
            -- This read ends just before it.
            rw [List.append_nil] at hfirst
            rw [List.nil_append] at hrest
            simp only [hfirst, heard_unheard hbefore]
            exact ih hlater ⟨[], after, hrest.symm, fun r hr => (List.not_mem_nil hr).elim, hafter⟩
        | cons r back =>
            -- It comes in this read.
            rw [List.cons_append, List.cons.injEq] at hrest
            obtain ⟨rfl, rfl⟩ := hrest
            obtain ⟨hback, hrest⟩ := hafter.of_append
            have hheard : heard msgid ((demux hostDemuxSize).outputs d read.2)
                = heardAt msgid (some (.frame payload)) := by
              rw [hfirst, heard_append, heard, heard_unheard hbefore,
                heard_unheard hback, Heard.followedBy_nothing, Heard.nothing_followedBy]
            simp only [hheard]
            cases heardAt msgid (some (.frame payload)) with
            | reply isError value => rfl
            | broken e => rfl
            | nothing => exact hear_unheard hlater hrest

namespace RPC

/-- How a call of `method` with the id `msgid` ends when the message comes. -/
def callOutcome (method : List UInt8) (msgid : Nat) : Message → CallOutcome
  | .response msgid' isError error result =>
      if msgid' = msgid then if isError then .threw (.remote method error) else .returned result
      else .waiting
  | .undecodable e => .threw (.protocol e)
  | .notification _ _ => .waiting
  | .other => .waiting

/-- What a frame makes of a call is read off the message in it. -/
theorem callOutcome_heardAt (method : List UInt8) (msgid : Nat) (payload : List UInt8) :
    (heardAt msgid (some (.frame payload))).ending.callOutcome method
      = callOutcome method msgid (readMessage payload) := by
  rw [heardAt_frame]
  cases readMessage payload with
  | response msgid' isError error result =>
      simp only [callOutcome]
      by_cases hsame : msgid' = msgid
      · rw [if_pos hsame, if_pos hsame]
        cases isError <;> rfl
      · rw [if_neg hsame, if_neg hsame]
        rfl
  | undecodable e => rfl
  | notification method' args => rfl
  | other => rfl

/-- **A whole call** over a stream of which one frame is heard: the call ends as the frame
says. -/
theorem callValues_eq {c : RPC} (h : c.Sized) {method : List UInt8} {args : List Value}
    (hroom : (requestPayload c.nextMsgid method args).length ≤ c.opts.maxFrame) {start : Nat}
    {reads : List (Nat × List UInt8)} (hintime : ∀ read ∈ reads, read.1 < start + c.opts.timeout)
    {payload : List UInt8}
    (hreport : HeardOnce c.nextMsgid.toNat payload
      ((SerialRpc.demux hostDemuxSize).outputs c.demux (reads.map Prod.snd).flatten)) :
    (c.callValues writesAll method args start (arriving reads)).2.2
      = callOutcome method c.nextMsgid.toNat (readMessage payload) := by
  rw [callValues_hear h, hearRequest, requestError_writesAll hroom]
  simp only
  rw [hear_once hintime hreport, callOutcome_heardAt]

/-- The demultiplexer behind a call whose answer came in its last read. -/
theorem callValues_demux {c : RPC} (h : c.Sized) {method : List UInt8} {args : List Value}
    (hroom : (requestPayload c.nextMsgid method args).length ≤ c.opts.maxFrame) {start : Nat}
    {earlier : List (Nat × List UInt8)} {last : Nat × List UInt8}
    (hwaiting : (c.callValues writesAll method args start (arriving earlier)).2.2 = .waiting)
    {isError : Bool} {value : Value}
    (hanswered : (hear c.nextMsgid.toNat (start + c.opts.timeout) c.demux
      (arriving (earlier ++ [last]))).ending = .answered isError value) :
    (c.callValues writesAll method args start (arriving (earlier ++ [last]))).1.demux
      = (SerialRpc.demux hostDemuxSize).final c.demux
        ((earlier ++ [last]).map Prod.snd).flatten := by
  have hstarted := startCall_started h writesAll method args
  rw [callValues_hear h, hearRequest, requestError_writesAll hroom] at hwaiting
  have hreceived : ∀ reads : List (Nat × List UInt8),
      received (arriving reads) = (reads.map Prod.snd).flatten := by
    intro reads
    rw [received, arriving, List.filterMap_map]
    exact congrArg List.flatten (List.filterMap_eq_map ▸ rfl)
  -- Only a loop that is still waiting has the outcome `waiting`.
  have hlistening : (hear c.nextMsgid.toNat (start + c.opts.timeout) c.demux
      (arriving earlier)).ending = .waiting := by
    cases hending : (hear c.nextMsgid.toNat (start + c.opts.timeout) c.demux
        (arriving earlier)).ending with
    | waiting => rfl
    | answered isError value =>
        simp only [hending, Ending.callOutcome] at hwaiting
        split at hwaiting <;> cases hwaiting
    | _ =>
        simp only [hending, Ending.callOutcome] at hwaiting
        cases hwaiting
  have hall : arriving (earlier ++ [last]) = arriving earlier ++ [⟨last.1, some last.2⟩] :=
    List.map_append
  rw [← hreceived, hall, ← hear_last hlistening (hall ▸ hanswered), ← hall, callValues]
  have hnone := hstarted.thrown.trans (requestError_writesAll hroom)
  rcases hstart : c.startCall writesAll method args with ⟨c', bytes, thrown⟩
  rw [hstart] at hstarted hnone
  obtain rfl : thrown = none := hnone
  simp only
  rw [hstarted.launched.opts, awaitResponse_demux (hstarted.waiting rfl), hstarted.launched.demux]
  intro e
  rw [hstarted.launched.demux, hanswered]
  rintro ⟨⟩

end RPC

/-! ### What a response says -/

/-- A response as it is read, from the error slot on. -/
theorem readMessage_response {msgid : Nat} {head type id : List UInt8}
    (four : Spells (.array 4) head) (one : Spells (.int 1) type) (same : Spells (.int msgid) id)
    (msgid_lt : msgid < 2 ^ 32) (rest : List UInt8) :
    readMessage (head ++ (type ++ (id ++ rest)))
      = match Value.parseEntry parseObject rest with
        | .ok ((error, result), _) =>
            .response msgid (decide (typeAt rest ≠ .nil)) error result
        | .error e => .undecodable e := by
  -- The head of a response: an array of four, the number 1 and the message id.
  have hcount : asArray .host64 (.array 4) = some 4 := by decide
  have htype : asInt (-(maxSigned 32 : Nat) - 1) (maxSigned 32) (.int 1) = some 1 := by decide
  have hmsgid : asNat (maxUnsigned 32) (.int msgid) = some msgid :=
    asNat_eq_some.mpr ⟨rfl, Nat.le_sub_one_of_lt msgid_lt⟩
  have hdrop : (head ++ (type ++ (id ++ rest))).drop (head.length + type.length) = id ++ rest := by
    rw [← List.append_assoc, ← List.length_append, List.drop_left]
  have hhead : responseHead (head ++ (type ++ (id ++ rest)))
      = some (msgid, head.length + type.length + id.length) := by
    have hmessage : messageHead (head ++ (type ++ (id ++ rest)))
        = some ((4, 1), head.length + type.length) := by
      rw [messageHead, header_of_spells four hcount, Option.bind_some, List.drop_left,
        header_of_spells one htype, Option.map_some]
    simp only [responseHead, hmessage, hdrop, header_of_spells same hmsgid, Option.map_some]
  -- Behind it are the two slots, which the parser reads as one entry.
  have hrest : (head ++ (type ++ (id ++ rest))).drop (head.length + type.length + id.length)
      = rest := by
    rw [← List.drop_drop, hdrop, List.drop_left]
  cases hslots : Value.parseEntry parseObject rest with
  | ok p => simp only [readMessage, hhead, hrest, hslots]
  | error e => simp only [readMessage, hhead, hrest, hslots]

/-- The slots of a response without an error. -/
theorem parseEntry_result (result : List UInt8) :
    Value.parseEntry parseObject (kNil :: result)
      = match parseObject result with
        | .ok (v, k) => .ok ((.nil, v), 1 + k)
        | .error e => .error e := by
  have hnil : parseObject (kNil :: result) = .ok (.nil, 1) := by
    have h := Value.parseNested_bytes (Value.kMaxDepth + 1) .nil trivial result
    rwa [if_pos (by decide)] at h
  rw [Value.parseEntry, hnil]
  simp only [List.drop_succ_cons, List.drop_zero]
  cases parseObject result <;> rfl

/-- The slots of a response with an error. -/
theorem parseEntry_error {error : List UInt8} (h : error.length < 2 ^ 32) :
    Value.parseEntry parseObject ((Value.str error).bytes ++ [kNil])
      = .ok ((.str error, .nil), (Value.str error).bytes.length + 1) := by
  have hstr : parseObject ((Value.str error).bytes ++ [kNil])
      = .ok (.str error, (Value.str error).bytes.length) := by
    have hbytes := Value.parseNested_bytes (Value.kMaxDepth + 1) (.str error) h [kNil]
    rwa [if_pos (show (Value.str error).nesting < Value.kMaxDepth + 1 from Nat.succ_pos _)]
      at hbytes
  have hnil : parseObject [kNil] = .ok (.nil, 1) := by
    have hbytes := Value.parseNested_bytes (Value.kMaxDepth + 1) .nil trivial []
    rwa [if_pos (by decide)] at hbytes
  rw [Value.parseEntry, hstr]
  simp only [List.drop_left, hnil]

end SerialRpc
