import SerialRpc.Host.Nesting
import SerialRpc.Proofs.Host.IoWorker

/-!
# `SerialRpc.Proofs.Host.Nesting`: what a call gets when callbacks make calls

The client has one `_pending_msgid` and one slot for a response, and a call from a callback
takes both. When it has ended, the call around it finds the slot ready and returns what is in
it. The call from the callback also reads on while `pump_bytes_` around it has bytes in its
buffer, and those come to the demultiplexer behind the bytes that were read later.

`orderly` is the condition on a move under which neither happens. `Consistent` is the
invariant, and `consistent_step` what one move preserves.

* `nested_sound`: in an orderly run, a call returns a response with its own message id, and the
  demultiplexer gets the bytes in the order of their reception.
* `pumped_orderly_of_flat`: the slot is never a wrong one in a run without calls from callbacks.
* `reaches_call`: with callbacks that only return, a call ends as `callValues` says.
-/

set_option autoImplicit false

namespace SerialRpc

/-- What the device said, if the call ends with that. -/
def CallEnd.answer : CallEnd → Option (Bool × Value)
  | .returned v => some (false, v)
  | .threw (.remote _ v) => some (true, v)
  | _ => none

/-- The bytes that are read and not fed, in the order of their reception: a pump further out
has read before the pumps in it. -/
def unfed : List Activation → List UInt8
  | [] => []
  | .pump bytes :: outer => unfed outer ++ bytes
  | _ :: outer => unfed outer

namespace Nesting

/-- What the demultiplexer has reported since the client `c`. -/
def reports (c : RPC) (s : Nesting) : List (Option Report) :=
  (demux hostDemuxSize).outputs c.demux s.fed

/-- Every call that was answered got a response with its own message id. -/
def OwnAnswers (c : RPC) (s : Nesting) : Prop :=
  ∀ msgid e isError v, (msgid, e) ∈ s.ended → e.answer = some (isError, v) →
    ∃ before, ResponseAt msgid isError v (s.reports c) before

/-- The calls got their own answers, and the bytes that were read are fed in their order, all of
them once nothing is active. -/
structure Sound (c : RPC) (s : Nesting) : Prop where
  own : s.OwnAnswers c
  ordered : s.fed <+: s.read
  complete : s.stack = [] → s.fed = s.read

/-- A byte is fed when every pump further out is through with its bytes, and ends its read if its
frame throws. A call that finds a response there is still the pending one. An exception that
leaves a callback comes at the end of a read. -/
def orderly (s : Nesting) (move : Move) : Bool :=
  match move, s.stack with
  | .feed, .pump (b :: bs) :: outer => unfed outer = [] ∧ (Throws s.client.demux b → bs = [])
  | .pumped _, .pump [] :: .call msgid _ _ :: _ =>
      s.client.pendingResponseReady = true → s.client.pendingMsgid = some msgid
  | .escape e, .callback running _ :: .pump bytes :: _ => swallowed running e = false → bytes = []
  | _, _ => true

/-- A run of orderly moves. -/
def orderlyRun (s : Nesting) : List Move → Bool
  | [] => true
  | move :: moves => s.orderly move && (s.step move).all fun s' => orderlyRun s' moves

/-- A response that is ready for the pending call is one with its message id. -/
def Genuine (c : RPC) (s : Nesting) : Prop :=
  ∀ msgid, s.client.pendingMsgid = some msgid → s.client.pendingResponseReady = true →
    ∃ before, ResponseAt msgid s.client.pendingResponseIsError s.client.pendingResponseValue
      (s.reports c) before

/-- The invariant of orderly runs. -/
structure Consistent (c : RPC) (s : Nesting) : Prop where
  demux : s.client.demux = (SerialRpc.demux hostDemuxSize).final c.demux s.fed
  bytes : s.read = s.fed ++ unfed s.stack
  genuine : s.Genuine c
  own : s.OwnAnswers c

end Nesting

/-! ### What the moves leave alone -/

namespace RPC

/-- Sending leaves the receiver and the pending call alone. -/
theorem sendPacked_pending (c : RPC) (write : Nat → Int) (pack : Writer → Writer)
    (overflow : ProtocolError) :
    (c.sendPacked write pack overflow).1.demux = c.demux ∧
      SamePending c (c.sendPacked write pack overflow).1 := by
  unfold sendPacked writeFrame
  simp only
  split
  · exact ⟨rfl, rfl, rfl, rfl, rfl⟩
  · split
    · exact ⟨rfl, rfl, rfl, rfl, rfl⟩
    · split <;> exact ⟨rfl, rfl, rfl, rfl, rfl⟩

/-- So does a notification. -/
theorem notifyValues_pending (c : RPC) (write : Nat → Int) (method : List UInt8)
    (args : List Value) :
    (c.notifyValues write method args).1.demux = c.demux ∧
      SamePending c (c.notifyValues write method args).1 := by
  have hsend := sendPacked_pending c write (packNotify method args)
    ⟨"serial_rpc: notification payload exceeds max_frame"⟩
  rw [notifyValues]
  rcases hpacked : c.sendPacked write (packNotify method args)
    ⟨"serial_rpc: notification payload exceeds max_frame"⟩ with ⟨c', bytes, _ | e⟩
  · rw [hpacked] at hsend
    exact ⟨hsend.1, hsend.2.msgid, hsend.2.ready, hsend.2.isError, hsend.2.value⟩
  · rw [hpacked] at hsend
    exact hsend

/-- A frame that throws leaves the pending call alone. -/
theorem feedByte_threw {c : RPC} {b : UInt8} {e : HostError} (h : (c.feedByte b).2 = some e) :
    SamePending c (c.feedByte b).1 := by
  rw [feedByte_fed (Memory.unlimited_starves _)] at h ⊢
  obtain ⟨p, hp, -⟩ := Option.map_eq_some_iff.mp h
  rw [handleReport_threw hp]
  exact ⟨rfl, rfl, rfl, rfl⟩

/-- A request that is not sent has no answer. -/
theorem startCall_threw {c : RPC} {write : Nat → Int} {method : List UInt8} {args : List Value}
    {e : HostError} (h : (c.startCall write method args).2.2 = some e) :
    (CallEnd.threw e).answer = none := by
  -- The sending throws `ProtocolError` in two places and `IoError` in one.
  unfold startCall sendRequest sendPacked writeFrame at h
  simp only at h
  split at h
  · rename_i hsend
    obtain rfl := Option.some.inj h
    split at hsend
    · cases hsend
      rfl
    · split at hsend
      · cases hsend
        rfl
      · split at hsend
        · cases hsend
          rfl
        · cases hsend
  · cases h

/-- What `startCall` leaves: a call that waits, or the pending one as it was. -/
theorem startCall_pending (c : RPC) (write : Nat → Int) (method : List UInt8) (args : List Value) :
    (c.startCall write method args).1.demux = c.demux ∧
      ((c.startCall write method args).2.2 = none →
        (c.startCall write method args).1.Waiting c.nextMsgid.toNat) ∧
      ∀ e, (c.startCall write method args).2.2 = some e →
        SamePending c (c.startCall write method args).1 := by
  let launched : RPC := { c with nextMsgid := c.nextMsgid + 1 }
  have hsend := sendPacked_pending launched write (packRequest c.nextMsgid method args)
    ⟨"serial_rpc: request payload exceeds max_frame"⟩
  rw [startCall]
  simp only [sendRequest]
  rcases hpacked : launched.sendPacked write (packRequest c.nextMsgid method args)
    ⟨"serial_rpc: request payload exceeds max_frame"⟩ with ⟨c', bytes, _ | e⟩
  · rw [hpacked] at hsend
    exact ⟨hsend.1, fun _ => ⟨rfl, rfl⟩, by rintro e ⟨⟩⟩
  · rw [hpacked] at hsend
    refine ⟨hsend.1, by rintro ⟨⟩, fun _ _ => ?_⟩
    exact ⟨hsend.2.msgid, hsend.2.ready, hsend.2.isError, hsend.2.value⟩

end RPC

/-! ### The invariant -/

/-- What is heard in one report is a response there. -/
theorem responseAt_of_heardAt {msgid : Nat} {isError : Bool} {v : Value} {report : Option Report}
    (h : heardAt msgid report = .reply isError v) (reports : List (Option Report)) :
    ResponseAt msgid isError v (reports ++ [report]) reports := by
  have hheard : heard msgid [report] = .reply isError v := by
    rw [heard, h]
    rfl
  obtain ⟨before, payload, after, error, result, hreports, hmessage, hvalue⟩ := heard_reply hheard
  cases before with
  | nil =>
      obtain ⟨rfl, rfl⟩ := List.cons.inj hreports
      exact ⟨payload, [], error, result, rfl, hmessage, hvalue⟩
  | cons first before =>
      have hlength := congrArg List.length hreports
      simp at hlength

namespace Nesting

/-- How a call ends that finds a response. -/
def slotEnd (c : RPC) (method : List UInt8) : CallEnd :=
  if c.pendingResponseIsError then .threw (.remote method c.pendingResponseValue)
  else .returned c.pendingResponseValue

/-- The end that the slot gives a call has the answer that was in the slot. -/
theorem slotEnd_answer (c : RPC) (method : List UInt8) :
    (slotEnd c method).answer = some (c.pendingResponseIsError, c.pendingResponseValue) := by
  unfold slotEnd
  cases c.pendingResponseIsError <;> rfl

variable {c : RPC} {s : Nesting}

/-- Callbacks that are entered have read no bytes. -/
@[simp] theorem unfed_enter (calls : List Dispatched) (outer : List Activation) :
    unfed (enter calls outer) = unfed outer := by
  cases calls <;> rfl

/-- A move that feeds nothing and ends no call. -/
theorem Consistent.quiet (h : s.Consistent c) {s' : Nesting}
    (hdemux : s'.client.demux = s.client.demux) (hgenuine : s'.Genuine c) (hfed : s'.fed = s.fed)
    (hbytes : s'.read = s.fed ++ unfed s'.stack) (hended : s'.ended = s.ended) :
    s'.Consistent c where
  demux := by rw [hdemux, hfed, h.demux]
  bytes := by rw [hbytes, hfed]
  genuine := hgenuine
  own := by
    intro msgid e isError v hmem hanswer
    rw [reports, hfed]
    exact h.own msgid e isError v (hended ▸ hmem) hanswer

/-- The pending call is as before, and so are the reports. -/
theorem Consistent.genuine_of_same (h : s.Consistent c) {s' : Nesting}
    (hpending : SamePending s.client s'.client) (hfed : s'.fed = s.fed) : s'.Genuine c := by
  intro msgid hmsgid hready
  rw [reports, hfed, hpending.isError, hpending.value]
  exact h.genuine msgid (hpending.msgid ▸ hmsgid) (hpending.ready ▸ hready)

/-- A call ends, with no answer or with one of its own. -/
theorem Consistent.endCall (h : s.Consistent c) {msgid : Nat} {e : CallEnd}
    {outer : List Activation} (houter : unfed outer = unfed s.stack)
    (hanswer : ∀ isError v, e.answer = some (isError, v) →
      ∃ before, ResponseAt msgid isError v (s.reports c) before) :
    (s.endCall msgid e outer).Consistent c where
  demux := h.demux
  bytes := by
    show s.read = s.fed ++ unfed outer
    rw [houter, h.bytes]
  genuine := by
    rintro msgid' ⟨⟩
  own := by
    intro msgid' e' isError v hmem hanswered
    rcases List.mem_append.mp hmem with hmem | hmem
    · exact h.own msgid' e' isError v hmem hanswered
    · obtain ⟨rfl, rfl⟩ := Prod.mk.inj (List.mem_singleton.mp hmem)
      exact hanswer isError v hanswered

/-- An exception leaves `pump_bytes_` when there is nothing left in it. -/
theorem Consistent.unwind (h : s.Consistent c) {e : CallEnd} {outer : List Activation}
    (houter : unfed outer = unfed s.stack) (hanswer : e.answer = none) :
    (s.unwind e outer).Consistent c := by
  have hleft (stack : List Activation) (hstack : unfed stack = unfed s.stack) :
      Consistent c { s with stack := stack } :=
    h.quiet rfl (h.genuine_of_same ⟨rfl, rfl, rfl, rfl⟩ rfl) rfl (by rw [hstack, h.bytes]) rfl
  -- A call ends without an answer. Around a `poll` there is nothing to end.
  cases outer with
  | nil => exact hleft [] houter
  | cons top outer =>
      cases top with
      | call msgid method deadline =>
          refine h.endCall houter ?_
          intro isError v hanswered
          rw [hanswer] at hanswered
          cases hanswered
      | poll deadline => exact hleft outer houter
      | pump bytes => exact hleft _ houter
      | callback running next => exact hleft _ houter

/-- The stack of a state that is unwound does not matter. -/
theorem unwind_stack (s : Nesting) (e : CallEnd) (stack outer : List Activation) :
    { s with stack := stack }.unwind e outer = s.unwind e outer := by
  cases outer with
  | nil => rfl
  | cons top outer => cases top <;> rfl

/-- A byte is fed in its turn. -/
theorem Consistent.fed (h : s.Consistent c) {b : UInt8} {bs : List UInt8}
    {outer : List Activation} (hstack : s.stack = .pump (b :: bs) :: outer)
    (houter : unfed outer = []) {stack : List Activation} (hrest : unfed stack = bs) :
    Consistent c
      { s with client := (s.client.feedByte b).1, fed := s.fed ++ [b], stack := stack } where
  demux := by
    show (s.client.feedByte b).1.demux = _
    rw [feedByte_demux, h.demux, Mealy.final_append]
    rfl
  bytes := by
    show s.read = s.fed ++ [b] ++ unfed stack
    rw [h.bytes, hstack, unfed, houter, hrest, List.nil_append, List.append_assoc]
    rfl
  genuine := by
    intro msgid hmsgid hready
    have hpending : s.client.pendingMsgid = some msgid :=
      (RPC.feedByte_keeps s.client b).pendingMsgid ▸ hmsgid
    have hreports : (SerialRpc.demux hostDemuxSize).outputs c.demux (s.fed ++ [b])
        = s.reports c ++ [((SerialRpc.demux hostDemuxSize).step s.client.demux b).2] := by
      rw [Mealy.outputs_concat, ← h.demux, reports]
    -- When the slot is not filled now, it was before.
    have hsame (hpending' : SamePending s.client (s.client.feedByte b).1) :
        ∃ before, ResponseAt msgid (s.client.feedByte b).1.pendingResponseIsError
          (s.client.feedByte b).1.pendingResponseValue
          ((SerialRpc.demux hostDemuxSize).outputs c.demux (s.fed ++ [b])) before := by
      obtain ⟨before, hbefore⟩ := h.genuine msgid hpending (hpending'.ready ▸ hready)
      rw [hreports, hpending'.isError, hpending'.value]
      exact ⟨before, hbefore.append _⟩
    have htook := RPC.feedByte_took hpending b
    cases hheard : heardAt msgid ((SerialRpc.demux hostDemuxSize).step s.client.demux b).2 with
    | nothing =>
        rw [hheard] at htook
        exact hsame htook.2
    | broken e =>
        rw [hheard] at htook
        exact hsame (RPC.feedByte_threw htook)
    | reply isError value =>
        -- This byte completes the response.
        rw [hheard] at htook
        obtain ⟨-, hcompleted⟩ := htook
        refine ⟨s.reports c, ?_⟩
        show ResponseAt msgid (s.client.feedByte b).1.pendingResponseIsError
          (s.client.feedByte b).1.pendingResponseValue
          ((SerialRpc.demux hostDemuxSize).outputs c.demux (s.fed ++ [b])) _
        rw [hreports, hcompleted.isError, hcompleted.value]
        exact responseAt_of_heardAt hheard _
  own := by
    intro msgid e isError v hmem hanswer
    obtain ⟨before, hbefore⟩ := h.own msgid e isError v hmem hanswer
    refine ⟨before, ?_⟩
    show ResponseAt msgid isError v
      ((SerialRpc.demux hostDemuxSize).outputs c.demux (s.fed ++ [b])) before
    rw [Mealy.outputs_append]
    exact hbefore.append _

/-! ### Moves -/

/-- A call that starts keeps consistency: its id is pending, and nothing has been answered. -/
theorem Consistent.startCall (h : s.Consistent c) (write : Nat → Int) (method : List UInt8)
    (args : List Value) (start : Nat) : (s.startCall write method args start).Consistent c := by
  have hstart := RPC.startCall_pending s.client write method args
  rw [Nesting.startCall]
  rcases hcall : s.client.startCall write method args with ⟨c', bytes, _ | e⟩
  · -- The slot is empty now.
    rw [hcall] at hstart
    refine h.quiet hstart.1 ?_ rfl h.bytes rfl
    intro msgid hmsgid hready
    exact absurd (hready.symm.trans (hstart.2.1 rfl).notReady) (by decide)
  · rw [hcall] at hstart
    have hclient : Consistent c { s with client := c' } :=
      h.quiet hstart.1 (h.genuine_of_same (hstart.2.2 e rfl) rfl) rfl h.bytes rfl
    exact {
      demux := hclient.demux
      bytes := hclient.bytes
      genuine := hclient.genuine
      own := by
        intro msgid e' isError v hmem hanswer
        rcases List.mem_append.mp hmem with hmem | hmem
        · exact h.own msgid e' isError v hmem hanswer
        · -- A request that is not sent is not answered.
          obtain ⟨-, rfl⟩ := Prod.mk.inj (List.mem_singleton.mp hmem)
          rw [RPC.startCall_threw (congrArg (fun r => r.2.2) hcall)] at hanswer
          cases hanswer }

/-- A read keeps it: the bytes are read and not yet fed. -/
theorem Consistent.startRead (h : s.Consistent c) {now : Nat} {bytes : Option (List UInt8)}
    {s' : Nesting} (hstep : s.startRead now bytes = some s') : s'.Consistent c := by
  unfold Nesting.startRead at hstep
  split at hstep
  · rename_i bytes msgid method deadline outer hstack
    have houter : unfed outer = unfed s.stack := by simp [hstack, unfed]
    split at hstep
    · obtain rfl := Option.some.inj hstep
      let stats := { s.client.stats with timeouts := s.client.stats.timeouts + 1 }
      have hcounted : Consistent c { s with client := { s.client with stats := stats } } :=
        h.quiet rfl (h.genuine_of_same ⟨rfl, rfl, rfl, rfl⟩ rfl) rfl h.bytes rfl
      exact hcounted.endCall houter (by rintro isError v ⟨⟩)
    · split at hstep
      · obtain rfl := Option.some.inj hstep
        exact h.endCall houter (by rintro isError v ⟨⟩)
      · -- The new chunk comes behind everything that was read.
        rename_i bytes
        obtain rfl := Option.some.inj hstep
        refine h.quiet rfl (h.genuine_of_same ⟨rfl, rfl, rfl, rfl⟩ rfl) rfl ?_ rfl
        show s.read ++ bytes = s.fed ++ (unfed s.stack ++ bytes)
        rw [h.bytes, List.append_assoc]
  · rename_i deadline outer hstack
    obtain rfl := Option.some.inj hstep
    refine h.quiet rfl (h.genuine_of_same ⟨rfl, rfl, rfl, rfl⟩ rfl) rfl ?_ rfl
    simp [h.bytes, hstack, unfed]
  · rename_i deadline outer bytes hstack
    obtain rfl := Option.some.inj hstep
    refine h.quiet rfl (h.genuine_of_same ⟨rfl, rfl, rfl, rfl⟩ rfl) rfl ?_ rfl
    show s.read ++ bytes = s.fed ++ (unfed s.stack ++ bytes)
    rw [h.bytes, List.append_assoc]
  · cases hstep

/-- A byte that is fed keeps it, where no other pump has bytes left to feed first. -/
theorem Consistent.feed (h : s.Consistent c) (horderly : s.orderly .feed = true) {s' : Nesting}
    (hstep : s.feed = some s') : s'.Consistent c := by
  unfold Nesting.feed at hstep
  split at hstep
  · rename_i b bs outer hstack
    simp only [orderly, hstack, decide_eq_true_eq] at horderly
    obtain ⟨houter, hlast⟩ := horderly
    split at hstep
    · -- The frame throws, and nothing is behind it.
      rename_i c' e hfeed
      obtain rfl := Option.some.inj hstep
      have hbs : bs = [] := hlast (feedByte_throws (congrArg Prod.snd hfeed))
      have hfed := h.fed hstack houter (houter.trans hbs.symm)
      rw [hfeed] at hfed
      rw [← unwind_stack _ _ outer]
      refine hfed.unwind rfl ?_
      -- What a frame throws is no answer.
      rcases thrownAt_errors ((feedByte_thrown _ _).symm.trans (congrArg Prod.snd hfeed)) with
        rfl | ⟨p, -, rfl⟩
      · rfl
      · rfl
    · rename_i c' hfeed
      obtain rfl := Option.some.inj hstep
      let calls := (c'.dispatched.drop s.client.dispatched.length).filter Dispatched.isCallback
      have hrest : unfed (enter calls (.pump bs :: outer)) = bs := by
        rw [unfed_enter, unfed, houter, List.nil_append]
      have hfed := h.fed hstack houter hrest
      rw [hfeed] at hfed
      exact hfed
  · cases hstep

/-- A pump that ends keeps it, where its call takes the answer to its own id. -/
theorem Consistent.pumped (h : s.Consistent c) {now : Nat}
    (horderly : s.orderly (.pumped now) = true) {s' : Nesting}
    (hstep : s.pumped now = some s') : s'.Consistent c := by
  unfold Nesting.pumped at hstep
  split at hstep
  · rename_i msgid method deadline outer hstack
    simp only [orderly, hstack, decide_eq_true_eq] at horderly
    have houter : unfed outer = unfed s.stack := by simp [hstack, unfed]
    split at hstep
    · -- The response in the slot is one to this call.
      rename_i hready
      obtain rfl := Option.some.inj hstep
      have hanswer : ∀ isError v, (slotEnd s.client method).answer = some (isError, v) →
          ∃ before, ResponseAt msgid isError v (s.reports c) before := by
        intro isError v hanswer
        rw [slotEnd_answer] at hanswer
        obtain ⟨rfl, rfl⟩ := Prod.mk.inj (Option.some.inj hanswer)
        exact h.genuine msgid (horderly hready) hready
      have hended := h.endCall houter hanswer
      -- No call is pending, so what is left in the slot is nobody's.
      exact hended.quiet rfl (by rintro msgid' ⟨⟩) rfl hended.bytes rfl
    · obtain rfl := Option.some.inj hstep
      refine h.quiet rfl (h.genuine_of_same ⟨rfl, rfl, rfl, rfl⟩ rfl) rfl ?_ rfl
      show s.read = s.fed ++ unfed outer
      rw [houter, h.bytes]
  · rename_i deadline outer hstack
    obtain rfl := Option.some.inj hstep
    refine h.quiet rfl (h.genuine_of_same ⟨rfl, rfl, rfl, rfl⟩ rfl) rfl ?_ rfl
    rw [h.bytes, hstack]
    simp only [unfed, List.append_nil]
    split <;> rfl
  · cases hstep

/-- A callback that ends keeps it. -/
theorem Consistent.finish (h : s.Consistent c) {s' : Nesting} (hstep : s.finish = some s') :
    s'.Consistent c := by
  unfold Nesting.finish at hstep
  split at hstep
  · rename_i running next outer hstack
    obtain rfl := Option.some.inj hstep
    refine h.quiet rfl (h.genuine_of_same ⟨rfl, rfl, rfl, rfl⟩ rfl) rfl ?_ rfl
    simp [h.bytes, hstack, unfed]
  · cases hstep

/-- An exception keeps it, where no byte that was read is thrown away. -/
theorem Consistent.escape (h : s.Consistent c) {e : Escape}
    (horderly : s.orderly (.escape e) = true) {s' : Nesting}
    (hstep : s.escape e = some s') : s'.Consistent c := by
  unfold Nesting.escape at hstep
  split at hstep
  · rename_i running next bytes outer hstack
    simp only [orderly, hstack, decide_eq_true_eq] at horderly
    split at hstep
    · obtain rfl := Option.some.inj hstep
      refine h.quiet rfl (h.genuine_of_same ⟨rfl, rfl, rfl, rfl⟩ rfl) rfl ?_ rfl
      simp [h.bytes, hstack, unfed]
    · -- The rest of the read would be lost, but there is none.
      rename_i hescapes
      obtain rfl := Option.some.inj hstep
      have hnone : bytes = [] := horderly (Bool.eq_false_iff.mpr hescapes)
      refine h.unwind ?_ rfl
      simp [hstack, unfed, hnone]
  · cases hstep

/-- **One move** of an orderly run keeps the invariant. -/
theorem consistent_step (h : s.Consistent c) {move : Move} (horderly : s.orderly move = true)
    {s' : Nesting} (hstep : s.step move = some s') : s'.Consistent c := by
  -- The calls and the polls come from outside or from a callback, and read nothing by themselves.
  cases move with
  | call write method args start =>
      rw [step] at hstep
      split at hstep
      · obtain rfl := Option.some.inj hstep
        exact h.startCall write method args start
      · cases hstep
  | notify write method args =>
      rw [step] at hstep
      split at hstep
      · obtain rfl := Option.some.inj hstep
        obtain ⟨hdemux, hpending⟩ := RPC.notifyValues_pending s.client write method args
        exact h.quiet hdemux (h.genuine_of_same hpending rfl) rfl h.bytes rfl
      · cases hstep
  | poll deadline =>
      rw [step] at hstep
      split at hstep
      · obtain rfl := Option.some.inj hstep
        exact h.quiet rfl (h.genuine_of_same ⟨rfl, rfl, rfl, rfl⟩ rfl) rfl h.bytes rfl
      · cases hstep
  -- The other moves are steps of the loop that is innermost.
  | read now bytes => exact h.startRead hstep
  | feed => exact h.feed horderly hstep
  | pumped now => exact h.pumped horderly hstep
  | finish => exact h.finish hstep
  | escape e => exact h.escape horderly hstep

/-! ### Runs -/

/-- With no call active there is nothing to be inconsistent about. -/
theorem consistent_idle (hidle : c.pendingMsgid = none) : (idle c).Consistent c where
  demux := rfl
  bytes := rfl
  genuine := by
    intro msgid hmsgid
    exact absurd (hidle.symm.trans hmsgid) (by simp)
  own := by rintro msgid e isError v ⟨⟩

/-- What each move that meets a condition keeps, a run of such moves keeps. -/
theorem run_keeps {I : Nesting → Prop} {ok : Nesting → Move → Bool}
    {okRun : Nesting → List Move → Bool}
    (hcons : ∀ s move moves, okRun s (move :: moves)
      = (ok s move && (s.step move).all fun s' => okRun s' moves))
    (hstep : ∀ {s}, I s → ∀ {move}, ok s move = true → ∀ {s'}, s.step move = some s' → I s')
    {s s' : Nesting} (h : I s) {moves : List Move} (hok : okRun s moves = true)
    (hrun : s.run moves = some s') : I s' := by
  induction moves generalizing s with
  | nil =>
      obtain rfl := Option.some.inj hrun
      exact h
  | cons move moves ih =>
      rw [run] at hrun
      obtain ⟨next, hnext, hrest⟩ := Option.bind_eq_some_iff.mp hrun
      rw [hcons, hnext, Option.all_some, Bool.and_eq_true] at hok
      exact ih (hstep h hok.1 hnext) hok.2 hrest

/-- Orderly runs keep consistency, by induction on the moves. -/
theorem consistent_run (h : s.Consistent c) {moves : List Move}
    (horderly : s.orderlyRun moves = true) {s' : Nesting} (hrun : s.run moves = some s') :
    s'.Consistent c :=
  run_keeps (fun _ _ _ => rfl) consistent_step h horderly hrun

/-- What is consistent is sound. -/
theorem Consistent.sound (h : s.Consistent c) : s.Sound c where
  own := h.own
  ordered := ⟨unfed s.stack, h.bytes.symm⟩
  complete := by
    intro hstack
    rw [h.bytes, hstack, unfed, List.append_nil]

/-- **Calls from callbacks.** In a run whose moves are all orderly, from a client that no call
waits on, every state is sound. -/
theorem nested_sound {c : RPC} (hidle : c.pendingMsgid = none) {moves : List Move}
    (horderly : (idle c).orderlyRun moves = true) {s : Nesting}
    (hrun : (idle c).run moves = some s) : s.Sound c :=
  (consistent_run (consistent_idle hidle) horderly hrun).sound

/-- The response `[1, 2, nil, 7]`. -/
def reply : List UInt8 := [0x00, 0x08, 0x94, 0x01, 0x02, 0xc0, 0x07, 0xc0, 0xe7, 0x00]

/-- A call waits and reads a line. The text callback makes a call, which is answered, and another
one, which runs out of time. So does the first call then. -/
def givenUp : List Move :=
  [.call RPC.writesAll [0x66] [] 0, .read 1 (some [0x78, 0x0a]), .feed, .feed,
    .call RPC.writesAll [0x67] [] 2, .read 3 (some reply)] ++ List.replicate 10 .feed ++
  [.pumped 4, .call RPC.writesAll [0x68] [] 5, .read 1005 none, .finish, .pumped 1006,
    .read 1007 none]

/-- A nested call that is given up, in a run that is orderly: the outcome is sound. -/
theorem nested_sound_givenUp :
    ∃ s, (idle (.new .default)).run givenUp = some s ∧ s.Sound (.new .default) := by
  have hreturns : ((idle (.new .default)).run givenUp).isSome = true := by decide +kernel
  obtain ⟨s, hrun⟩ := Option.isSome_iff_exists.mp hreturns
  exact ⟨s, hrun, nested_sound rfl (by decide +kernel) hrun⟩

/-- A call waits and reads a line and a byte. The text callback makes a call, which is answered,
and returns. -/
def takenOver : List Move :=
  [.call RPC.writesAll [0x66] [] 0, .read 1 (some [0x78, 0x0a, 0x79]), .feed, .feed,
    .call RPC.writesAll [0x67] [] 2, .read 3 (some reply)] ++ List.replicate 10 .feed ++
  [.pumped 4, .finish, .feed, .pumped 5]

/-- **The call around it returns what the call from the callback got.** There is no response with
its message id, and the byte behind the line comes to the demultiplexer behind the response. -/
theorem nested_sound_fails :
    ∃ s, (idle (.new .default)).run takenOver = some s ∧ ¬ s.OwnAnswers (.new .default) ∧
      ¬ s.fed <+: s.read := by
  have hreturns : ((idle (.new .default)).run takenOver).isSome = true := by decide +kernel
  obtain ⟨s, hrun⟩ := Option.isSome_iff_exists.mp hreturns
  have hcheck : ∀ s ∈ (idle (.new .default)).run takenOver,
      responseIds (s.reports (.new .default)) = [2] ∧
        (∃ x ∈ s.ended, x.1 = 1 ∧ x.2.answer.isSome = true) ∧ ¬ s.fed <+: s.read := by
    decide +kernel
  obtain ⟨hids, ⟨⟨msgid, e⟩, hmem, rfl, hsome⟩, horder⟩ := hcheck s hrun
  refine ⟨s, hrun, ?_, horder⟩
  intro hown
  obtain ⟨⟨isError, v⟩, hanswer⟩ := Option.isSome_iff_exists.mp hsome
  obtain ⟨before, hresponse⟩ := hown 1 e isError v hmem hanswer
  -- The only response in the stream is the one to the second call.
  have hid := responseIds_at hresponse
  rw [hids] at hid
  exact absurd (List.mem_of_getElem? hid) (by decide)

end Nesting

/-! ### Calls from outside only -/

namespace Nesting

/-- The message ids of the calls that are active. -/
def callIds : List Activation → List Nat
  | [] => []
  | .call msgid _ _ :: outer => msgid :: callIds outer
  | _ :: outer => callIds outer

/-- At most one call is active, and it is the pending one. -/
def Alone (s : Nesting) : Prop := callIds s.stack = s.client.pendingMsgid.toList

/-- The move is no call, or one from outside. -/
def flat (s : Nesting) : Move → Bool
  | .call _ _ _ _ => s.stack.isEmpty
  | _ => true

/-- A run in which no callback makes a call. -/
def flatRun (s : Nesting) : List Move → Bool
  | [] => true
  | move :: moves => s.flat move && (s.step move).all fun s' => flatRun s' moves

variable {c : RPC} {s : Nesting}

/-- Callbacks that are entered have no call ids. -/
@[simp] theorem callIds_enter (calls : List Dispatched) (outer : List Activation) :
    callIds (enter calls outer) = callIds outer := by
  cases calls <;> rfl

/-- An active call is the pending one, and behind it there is no other. -/
theorem callIds_call {msgid : Nat} {outer : List Activation} {pending : Option Nat}
    (h : msgid :: callIds outer = pending.toList) : pending = some msgid ∧ callIds outer = [] := by
  cases pending with
  | none => cases h
  | some msgid' =>
      obtain ⟨rfl, houter⟩ := List.cons.inj h
      exact ⟨rfl, houter⟩

/-- An exception that ends the innermost activation leaves at most one call active. -/
theorem Alone.unwind {outer : List Activation}
    (h : callIds outer = s.client.pendingMsgid.toList) (e : CallEnd) :
    (s.unwind e outer).Alone := by
  cases outer with
  | nil => exact h
  | cons top outer =>
      cases top with
      | call msgid method deadline => exact (callIds_call h).2
      | poll deadline => exact h
      | pump bytes => exact h
      | callback running next => exact h

/-- A call from outside is the only one. -/
theorem Alone.startCall (h : s.Alone) (hstack : s.stack = []) (write : Nat → Int)
    (method : List UInt8) (args : List Value) (start : Nat) :
    (s.startCall write method args start).Alone := by
  have hstart := RPC.startCall_pending s.client write method args
  rw [Nesting.startCall]
  rcases hcall : s.client.startCall write method args with ⟨c', bytes, _ | e⟩
  · rw [hcall] at hstart
    show callIds (.call s.client.nextMsgid.toNat method _ :: s.stack) = c'.pendingMsgid.toList
    rw [hstack, (hstart.2.1 rfl).pending]
    rfl
  · rw [hcall] at hstart
    show callIds s.stack = c'.pendingMsgid.toList
    rw [(hstart.2.2 e rfl).msgid]
    exact h

/-- A move that is no nested call leaves at most one call active. -/
theorem alone_step (h : s.Alone) {move : Move} (hflat : s.flat move = true) {s' : Nesting}
    (hstep : s.step move = some s') : s'.Alone := by
  -- Only `call` adds an id to those on the stack, and a flat run makes it from outside.
  cases move with
  | call write method args start =>
      rw [step] at hstep
      split at hstep
      · obtain rfl := Option.some.inj hstep
        exact h.startCall (List.isEmpty_iff.mp hflat) write method args start
      · cases hstep
  | notify write method args =>
      rw [step] at hstep
      split at hstep
      · obtain rfl := Option.some.inj hstep
        show callIds s.stack = Option.toList _
        rw [(RPC.notifyValues_pending s.client write method args).2.msgid]
        exact h
      · cases hstep
  | poll deadline =>
      rw [step] at hstep
      split at hstep
      · obtain rfl := Option.some.inj hstep
        exact h
      · cases hstep
  | read now bytes =>
      simp only [step, startRead] at hstep
      split at hstep
      · -- A read that fails or comes too late ends its call, and the id goes with it.
        rename_i bytes msgid method deadline outer hstack
        rw [Alone, hstack] at h
        split at hstep
        · obtain rfl := Option.some.inj hstep
          exact (callIds_call h).2
        · split at hstep
          · obtain rfl := Option.some.inj hstep
            exact (callIds_call h).2
          · obtain rfl := Option.some.inj hstep
            rw [Alone]
            simpa [callIds, hstack] using h
      · rename_i deadline outer hstack
        obtain rfl := Option.some.inj hstep
        simpa [Alone, hstack, callIds] using h
      · rename_i deadline outer bytes hstack
        obtain rfl := Option.some.inj hstep
        simpa [Alone, hstack, callIds] using h
      · cases hstep
  | feed =>
      simp only [step, feed] at hstep
      split at hstep
      · -- A byte may throw, which ends the pump and, further out, the call.
        rename_i b bs outer hstack
        have hkept := (RPC.feedByte_keeps s.client b).pendingMsgid
        have houter : callIds outer = s.client.pendingMsgid.toList := by
          simpa [Alone, hstack, callIds] using h
        rw [← hkept] at houter
        split at hstep
        · rename_i c' e hfeed
          rw [hfeed] at houter
          obtain rfl := Option.some.inj hstep
          exact Alone.unwind houter _
        · rename_i c' hfeed
          rw [hfeed] at houter
          obtain rfl := Option.some.inj hstep
          simpa [Alone, callIds] using houter
      · cases hstep
  | pumped now =>
      simp only [step, pumped] at hstep
      split at hstep
      · rename_i msgid method deadline outer hstack
        rw [Alone, hstack] at h
        split at hstep
        · obtain rfl := Option.some.inj hstep
          exact (callIds_call h).2
        · obtain rfl := Option.some.inj hstep
          exact h
      · rename_i deadline outer hstack
        obtain rfl := Option.some.inj hstep
        rw [Alone, hstack] at h
        rw [Alone]
        simp only
        split <;> exact h
      · cases hstep
  | finish =>
      simp only [step, finish] at hstep
      split at hstep
      · rename_i running next outer hstack
        obtain rfl := Option.some.inj hstep
        simpa [Alone, hstack, callIds] using h
      · cases hstep
  | escape e =>
      simp only [step, escape] at hstep
      split at hstep
      · -- So may a callback whose exception is not swallowed.
        rename_i running next bytes outer hstack
        have houter : callIds outer = s.client.pendingMsgid.toList := by
          simpa [Alone, hstack, callIds] using h
        split at hstep
        · obtain rfl := Option.some.inj hstep
          simpa [Alone, callIds] using houter
        · obtain rfl := Option.some.inj hstep
          exact Alone.unwind houter _
      · cases hstep

/-- So does a run of such moves, by induction. -/
theorem alone_run (h : s.Alone) {moves : List Move} (hflat : s.flatRun moves = true)
    {s' : Nesting} (hrun : s.run moves = some s') : s'.Alone :=
  run_keeps (fun _ _ _ => rfl) alone_step h hflat hrun

/-- **Without calls from callbacks**, a waiting call that finds a response is the pending one. -/
theorem pumped_orderly_of_flat (hidle : c.pendingMsgid = none) {moves : List Move}
    (hflat : (idle c).flatRun moves = true) (hrun : (idle c).run moves = some s) (now : Nat) :
    s.orderly (.pumped now) = true := by
  have hstart : (idle c).Alone := by
    show [] = c.pendingMsgid.toList
    rw [hidle]
    rfl
  have halone := alone_run hstart hflat hrun
  unfold orderly
  split
  · rename_i hmove _
    cases hmove
  · rename_i msgid method deadline outer hstack
    rw [Alone, hstack] at halone
    exact decide_eq_true fun _ => (callIds_call halone).1
  · rename_i hmove _
    cases hmove
  · rfl

end Nesting

/-! ### Callbacks that only return -/

namespace Nesting

/-- Some run leads there. -/
def Reaches (s s' : Nesting) : Prop := ∃ moves, s.run moves = some s'

/-- No move at all. -/
theorem Reaches.refl (s : Nesting) : s.Reaches s := ⟨[], rfl⟩

/-- A move and then a run. -/
theorem Reaches.head {s s' s'' : Nesting} {move : Move} (hstep : s.step move = some s')
    (h : s'.Reaches s'') : s.Reaches s'' := by
  obtain ⟨moves, hrun⟩ := h
  refine ⟨move :: moves, ?_⟩
  rw [run, hstep]
  exact hrun

/-- Two runs in a row. -/
theorem Reaches.trans {s s' s'' : Nesting} (h : s.Reaches s') (h' : s'.Reaches s'') :
    s.Reaches s'' := by
  obtain ⟨moves, hrun⟩ := h
  induction moves generalizing s with
  | nil =>
      obtain rfl := Option.some.inj hrun
      exact h'
  | cons move moves ih =>
      rw [run] at hrun
      obtain ⟨next, hstep, hrest⟩ := Option.bind_eq_some_iff.mp hrun
      exact (ih hrest).head hstep

/-- The callbacks return one after the other. -/
theorem reaches_finish (s : Nesting) (calls : List Dispatched) (outer : List Activation) :
    Reaches { s with stack := enter calls outer } { s with stack := outer } := by
  induction calls with
  | nil => exact Reaches.refl _
  | cons running next ih =>
      have hstep : step { s with stack := enter (running :: next) outer } .finish
          = some { s with stack := enter next outer } := rfl
      exact ih.head hstep

/-- The bytes of a read are fed as in `feedBytes`. -/
theorem reaches_feedBytes (s : Nesting) (bytes : List UInt8) (outer : List Activation) :
    ∃ fed, ∀ c', (s.client.feedBytes bytes = (c', none) →
        Reaches { s with stack := .pump bytes :: outer }
          { s with client := c', fed := fed, stack := .pump [] :: outer }) ∧
      ∀ e, s.client.feedBytes bytes = (c', some e) →
        Reaches { s with stack := .pump bytes :: outer }
          ({ s with client := c', fed := fed }.unwind (.threw e) outer) := by
  induction bytes generalizing s with
  | nil =>
      refine ⟨s.fed, fun c' => ⟨?_, ?_⟩⟩
      · intro hfeed
        obtain rfl : s.client = c' := congrArg Prod.fst hfeed
        exact Reaches.refl _
      · rintro e ⟨⟩
  | cons b bs ih =>
      rcases hbyte : s.client.feedByte b with ⟨c₁, _ | e⟩
      · obtain ⟨fed, hrest⟩ := ih { s with client := c₁, fed := s.fed ++ [b] }
        let s₁ : Nesting := { s with client := c₁, fed := s.fed ++ [b] }
        let calls := (c₁.dispatched.drop s.client.dispatched.length).filter Dispatched.isCallback
        -- The byte is fed, and then the callbacks it led to return one by one.
        have hstep : step { s with stack := .pump (b :: bs) :: outer } .feed
            = some { s₁ with stack := enter calls (.pump bs :: outer) } := by
          simp only [step, feed, hbyte]
          rfl
        have hfirst : Reaches { s with stack := .pump (b :: bs) :: outer }
            { s₁ with stack := .pump bs :: outer } := (reaches_finish s₁ calls _).head hstep
        refine ⟨fed, fun c' => ⟨?_, ?_⟩⟩
        · intro hfeed
          simp only [RPC.feedBytes, hbyte] at hfeed
          exact hfirst.trans ((hrest c').1 hfeed)
        · intro e hfeed
          simp only [RPC.feedBytes, hbyte] at hfeed
          exact hfirst.trans ((hrest c').2 e hfeed)
      · refine ⟨s.fed ++ [b], fun c' => ⟨?_, ?_⟩⟩
        · intro hfeed
          simp only [RPC.feedBytes, hbyte] at hfeed
          cases hfeed
        · intro e' hfeed
          simp only [RPC.feedBytes, hbyte] at hfeed
          cases hfeed
          let s₁ : Nesting := { s with client := c₁, fed := s.fed ++ [b] }
          have hstep : step { s with stack := .pump (b :: bs) :: outer } .feed
              = some (s₁.unwind (.threw e) outer) := by
            simp only [step, feed, hbyte]
            exact congrArg some (unwind_stack s₁ _ _ _)
          exact (Reaches.refl _).head hstep

/-- How `call_values` ends, if it does. -/
def endOf : RPC.CallOutcome → Option CallEnd
  | .returned v => some (.returned v)
  | .threw e => some (.threw e)
  | .waiting => none

/-- The slot after the call has taken a response out of it. -/
def settled (c : RPC) (outcome : RPC.CallOutcome) : RPC :=
  if outcome.answer.isSome then { c with pendingResponseValue := c.pendingResponseValue.movedFrom }
  else c

/-- A call ends as the slot says: with the error in it, or with the result. -/
theorem endOf_slot (c : RPC) (method : List UInt8) :
    endOf (if c.pendingResponseIsError then .threw (.remote method c.pendingResponseValue)
      else .returned c.pendingResponseValue) = some (slotEnd c method) := by
  unfold slotEnd
  cases c.pendingResponseIsError <;> rfl

/-- The value is moved out of the slot, whether it is a result or an error. -/
theorem settled_slot (c c' : RPC) (method : List UInt8) :
    settled c' (if c.pendingResponseIsError then .threw (.remote method c.pendingResponseValue)
      else .returned c.pendingResponseValue)
      = { c' with pendingResponseValue := c'.pendingResponseValue.movedFrom } := by
  cases c.pendingResponseIsError <;> rfl

/-- The waiting loop ends as in `awaitResponse`. -/
theorem reaches_await (s : Nesting) {msgid deadline : Nat} {method : List UInt8}
    {outer : List Activation} {attempts : List RPC.Attempt} {c' : RPC} {outcome : RPC.CallOutcome}
    {e : CallEnd} (hstack : s.stack = .call msgid method deadline :: outer)
    (hawait : s.client.awaitResponse method deadline attempts = (c', outcome))
    (hend : endOf outcome = some e) :
    ∃ s', s.Reaches s' ∧ s'.client = settled c' outcome ∧ s'.stack = outer ∧
      s'.ended = s.ended ++ [(msgid, e)] := by
  induction attempts generalizing s with
  | nil =>
      obtain ⟨-, rfl⟩ := Prod.mk.inj hawait
      cases hend
  | cons attempt attempts ih =>
      rw [RPC.awaitResponse] at hawait
      by_cases hlate : deadline ≤ attempt.now
      · rw [if_pos hlate] at hawait
        obtain ⟨rfl, rfl⟩ := Prod.mk.inj hawait
        obtain rfl := Option.some.inj hend
        let stats := { s.client.stats with timeouts := s.client.stats.timeouts + 1 }
        let s' : Nesting := { s with client := { s.client with stats := stats } }.endCall msgid
          (.threw (.timeout
            (text "serial_rpc: timed out waiting for a response to '" ++ method ++ text "'"))) outer
        have hstep : s.step (.read attempt.now attempt.read) = some s' := by
          simp only [step, startRead, hstack, if_pos hlate]
          rfl
        exact ⟨s', (Reaches.refl s').head hstep, rfl, rfl, rfl⟩
      · rw [if_neg hlate] at hawait
        cases hread : attempt.read with
        | none =>
            rw [hread] at hawait
            obtain ⟨rfl, rfl⟩ := Prod.mk.inj hawait
            obtain rfl := Option.some.inj hend
            let s' := s.endCall msgid (.threw (.io "serial_rpc: read_some() failed")) outer
            have hstep : s.step (.read attempt.now none) = some s' := by
              simp only [step, startRead, hstack, if_neg hlate]
              rfl
            exact ⟨s', (Reaches.refl s').head hstep, rfl, rfl, rfl⟩
        | some bytes =>
            rw [hread] at hawait
            let s₁ : Nesting := { s with read := s.read ++ bytes }
            have hstep : s.step (.read attempt.now (some bytes))
                = some { s₁ with stack := .pump bytes :: s.stack } := by
              simp only [step, startRead, hstack, if_neg hlate]
              rfl
            obtain ⟨fed, hfeed⟩ := reaches_feedBytes s₁ bytes s.stack
            rcases hpump : s.client.feedBytes bytes with ⟨c₁, _ | thrown⟩
            · let s₂ : Nesting :=
                { s₁ with client := c₁, fed := fed, stack := .pump [] :: s.stack }
              have hpumped : s.Reaches s₂ := ((hfeed c₁).1 hpump).head hstep
              simp only [RPC.pumpBytes, hpump] at hawait
              by_cases hready : c₁.pendingResponseReady = true
              · rw [if_pos hready] at hawait
                obtain ⟨rfl, rfl⟩ := Prod.mk.inj hawait
                let value := c₁.pendingResponseValue.movedFrom
                let s₃ : Nesting := { s₂ with client := { c₁ with pendingResponseValue := value } }
                let s' := s₃.endCall msgid (slotEnd c₁ method) outer
                have hlast : s₂.step (.pumped 0) = some s' := by
                  simp only [step, pumped, s₂, hstack, if_pos hready]
                  rfl
                rw [endOf_slot] at hend
                obtain rfl := Option.some.inj hend
                rw [settled_slot]
                exact ⟨s', hpumped.trans ((Reaches.refl s').head hlast), rfl, rfl, rfl⟩
              · rw [if_neg hready] at hawait
                -- No response yet, so the loop goes on.
                have hlast : s₂.step (.pumped 0) = some { s₂ with stack := s.stack } := by
                  simp only [step, pumped, s₂, hstack, if_neg hready]
                obtain ⟨s', hreaches, hclient, houter, hended⟩ :=
                  ih { s₂ with stack := s.stack } hstack hawait
                exact ⟨s', hpumped.trans (hreaches.head hlast), hclient, houter, hended⟩
            · have hthrown := ((hfeed c₁).2 thrown hpump).head hstep
              simp only [RPC.pumpBytes, hpump] at hawait
              obtain ⟨rfl, rfl⟩ := Prod.mk.inj hawait
              obtain rfl := Option.some.inj hend
              rw [hstack] at hthrown
              -- What a read throws is no answer, so nothing is moved out of the slot.
              rcases RPC.feedBytes_errors (congrArg Prod.snd hpump) with rfl | ⟨p, -, rfl⟩
              · exact ⟨_, hthrown, rfl, rfl, rfl⟩
              · exact ⟨_, hthrown, rfl, rfl, rfl⟩

/-- **The client alone.** When the callbacks only return, a call ends as `callValues` says, from
wherever it is made. -/
theorem reaches_call {s : Nesting} (hfree : s.free = true) {write : Nat → Int}
    {method : List UInt8} {args : List Value} {start : Nat} {attempts : List RPC.Attempt} {c' : RPC}
    {bytes : List UInt8} {outcome : RPC.CallOutcome} {e : CallEnd}
    (hcall : s.client.callValues write method args start attempts = (c', bytes, outcome))
    (hend : endOf outcome = some e) :
    ∃ s', s.Reaches s' ∧ s'.client = settled c' outcome ∧ s'.stack = s.stack ∧
      s'.ended = s.ended ++ [(s.client.nextMsgid.toNat, e)] := by
  have hstep : s.step (.call write method args start)
      = some (s.startCall write method args start) := if_pos hfree
  rw [RPC.callValues] at hcall
  -- The request is sent and the call waits, or sending throws and the call is over.
  rcases hstart : s.client.startCall write method args with ⟨c₁, sent, _ | thrown⟩
  · rw [hstart] at hcall
    let s₁ : Nesting :=
      { s with
        client := c₁
        stack := .call s.client.nextMsgid.toNat method (start + c₁.opts.timeout) :: s.stack }
    have hstarted : s.startCall write method args start = s₁ := by
      simp only [Nesting.startCall, hstart]
      rfl
    rcases hawait : c₁.awaitResponse method (start + c₁.opts.timeout) attempts with ⟨c₂, ending⟩
    simp only [hawait] at hcall
    obtain ⟨rfl, -, rfl⟩ := hcall
    obtain ⟨s', hreaches, hclient, houter, hended⟩ := reaches_await s₁ rfl hawait hend
    exact ⟨s', hreaches.head (hstarted ▸ hstep), hclient, houter, hended⟩
  · rw [hstart] at hcall
    obtain ⟨rfl, -, rfl⟩ := hcall
    obtain rfl := Option.some.inj hend
    let s' : Nesting :=
      { s with client := c', ended := s.ended ++ [(s.client.nextMsgid.toNat, .threw thrown)] }
    have hstarted : s.startCall write method args start = s' := by
      simp only [Nesting.startCall, hstart]
      rfl
    -- A call that could not send has no answer.
    have hnone : (RPC.CallOutcome.threw thrown).answer = none := by
      have hthrew := RPC.startCall_threw (congrArg (fun r => r.2.2) hstart)
      cases thrown <;> first | rfl | cases hthrew
    refine ⟨s', (Reaches.refl s').head (hstarted ▸ hstep), ?_, rfl, rfl⟩
    rw [settled, hnone]
    rfl

end Nesting

end SerialRpc
