import SerialRpc.Host.IoWorker
import SerialRpc.Proofs.Host.Matching
import SerialRpc.Proofs.Host.Paging

/-!
# `SerialRpc.Proofs.Host.IoWorker`: which request a result of the REPL answers

The requests on an open port are numbered in the order they are sent. A `Session` keeps the
numbers and message ids of those whose answers may still come. The link is first-in-first-out
(`Delivered`): what a call reads are answers to them, oldest first, and some may get lost.

A new `RPC` object counts its message ids from 1 again. So a late answer to a request of the old
one can carry the id of a new one.

* `results_matched`: without such a late answer (`Session.Fresh`) each result of a call is the
  answer to its own request.
* `results_matched_fails`: with one it is not.
-/

set_option autoImplicit false

namespace SerialRpc

open MsgPack Reader

/-! ### What a call reads -/

/-- The bytes that the waiting loop of `call_values` reads. -/
def RPC.bytesRead (c : RPC) (deadline : Nat) : List RPC.Attempt → List UInt8
  | [] => []
  | attempt :: attempts =>
      if deadline ≤ attempt.now then []
      else
        attempt.read.getD [] ++
          match c.pumpBytes attempt.read with
          | (_, some _) => []
          | (c, none) => if c.pendingResponseReady then [] else c.bytesRead deadline attempts

/-- What the demultiplexer reports during a call. -/
def RPC.callReports (c : RPC) (method : List UInt8) (args : List Value) (exchange : RPC.Exchange) :
    List (Option Report) :=
  match c.startCall exchange.write method args with
  | (_, _, some _) => []
  | (c, _, none) =>
      (SerialRpc.demux hostDemuxSize).outputs c.demux
        (c.bytesRead (exchange.start + c.opts.timeout) exchange.attempts)

/-- What the device said, if the call ends with that. -/
def RPC.CallOutcome.answer : RPC.CallOutcome → Option (Bool × Value)
  | .returned v => some (false, v)
  | .threw (.remote _ v) => some (true, v)
  | _ => none

/-- The reports hold a response to `msgid` with `v` in its error slot or in its result slot, and
`before` are the reports in front of it. -/
def ResponseAt (msgid : Nat) (isError : Bool) (v : Value) (reports before : List (Option Report)) :
    Prop :=
  ∃ payload after error result, reports = before ++ some (.frame payload) :: after ∧
    readMessage payload = .response msgid isError error result ∧
      v = if isError then error else result

/-- A response stays where it is when more is reported. -/
theorem ResponseAt.append {msgid : Nat} {isError : Bool} {v : Value}
    {reports before : List (Option Report)} (h : ResponseAt msgid isError v reports before)
    (more : List (Option Report)) : ResponseAt msgid isError v (reports ++ more) before := by
  obtain ⟨payload, after, error, result, rfl, hmessage, hvalue⟩ := h
  exact ⟨payload, after ++ more, error, result, by simp, hmessage, hvalue⟩

/-- Earlier reports come in front of those before it. -/
theorem ResponseAt.after {msgid : Nat} {isError : Bool} {v : Value}
    {reports before : List (Option Report)} (h : ResponseAt msgid isError v reports before)
    (earlier : List (Option Report)) :
    ResponseAt msgid isError v (earlier ++ reports) (earlier ++ before) := by
  obtain ⟨payload, after, error, result, rfl, hmessage, hvalue⟩ := h
  exact ⟨payload, after, error, result, by simp, hmessage, hvalue⟩

namespace RPC

/-- A loop that ends with an answer found it in what it read. -/
theorem awaitResponse_answer {c : RPC} {msgid : Nat} (hwaiting : c.Waiting msgid)
    {method : List UInt8} {deadline : Nat} {attempts : List Attempt} {isError : Bool} {v : Value}
    (h : (c.awaitResponse method deadline attempts).2.answer = some (isError, v)) :
    ∃ before, ResponseAt msgid isError v
      ((SerialRpc.demux hostDemuxSize).outputs c.demux (c.bytesRead deadline attempts)) before := by
  induction attempts generalizing c with
  | nil => cases h
  | cons attempt attempts ih =>
      rw [awaitResponse] at h
      rw [bytesRead]
      by_cases hnow : deadline ≤ attempt.now
      · rw [if_pos hnow] at h
        cases h
      · rw [if_neg hnow] at h ⊢
        cases hread : attempt.read with
        | none =>
            rw [hread] at h
            cases h
        | some bytes =>
            rw [hread] at h
            rcases pumpBytes_cases hwaiting bytes with
              ⟨c', e, hbroken, hpump⟩ | ⟨c', hpump, hdemux, hrest⟩
            · -- What a read throws is no answer.
              simp only [hpump] at h
              rcases heard_errors hbroken with rfl | ⟨p, -, rfl⟩
              · cases h
              · cases h
            · rcases hrest with ⟨isError', value, hcompleted, hheard⟩ | ⟨hwaiting', -⟩
              · -- The answer is in this read.
                simp only [hpump, hcompleted.ready, hcompleted.isError, hcompleted.value,
                  if_true] at h ⊢
                have hsame : isError' = isError ∧ value = v := by
                  cases isError' <;> cases h <;> exact ⟨rfl, rfl⟩
                obtain ⟨rfl, rfl⟩ := hsame
                rw [Option.getD_some, List.append_nil]
                exact heard_reply hheard
              · -- It is in a later one.
                simp only [hpump, hwaiting'.notReady, Bool.false_eq_true, if_false] at h ⊢
                obtain ⟨before, hbefore⟩ := ih hwaiting' h
                rw [Option.getD_some, Mealy.outputs_append, ← hdemux]
                exact ⟨_, hbefore.after _⟩

/-- A call that ends with an answer found it in what it read. -/
theorem callValues_answer {c : RPC} (h : c.Sized) {method : List UInt8} {args : List Value}
    {exchange : Exchange} {isError : Bool} {v : Value}
    (hanswer : (c.callValues exchange.write method args exchange.start exchange.attempts).2.2.answer
      = some (isError, v)) :
    ∃ before, ResponseAt c.nextMsgid.toNat isError v
      (c.callReports method args exchange) before := by
  have hstarted := startCall_started h exchange.write method args
  rw [callValues] at hanswer
  rw [callReports]
  rcases hstart : c.startCall exchange.write method args with ⟨c', bytes, _ | e⟩ <;>
    rw [hstart] at hstarted hanswer
  · exact awaitResponse_answer (hstarted.waiting rfl) hanswer
  · -- An exception of the sending is no answer.
    have hremote := requestError_not_remote hstarted.thrown.symm
    cases e with
    | remote method' value => exact absurd rfl (hremote method' value)
    | _ => cases hanswer

end RPC

/-! ### The link -/

/-- The message ids of the responses among some reports. -/
def responseIds (reports : List (Option Report)) : List Nat :=
  reports.filterMap fun
    | some (.frame payload) =>
        match readMessage payload with
        | .response msgid _ _ _ => some msgid
        | _ => none
    | _ => none

/-- What comes in at some place is the response there. -/
theorem responseIds_at {msgid : Nat} {isError : Bool} {v : Value}
    {reports before : List (Option Report)} (h : ResponseAt msgid isError v reports before) :
    (responseIds reports)[(responseIds before).length]? = some msgid := by
  obtain ⟨payload, after, error, result, rfl, hmessage, -⟩ := h
  have hsplit : responseIds (before ++ some (.frame payload) :: after)
      = responseIds before ++ msgid :: responseIds after := by
    simp only [responseIds, List.filterMap_append, List.filterMap_cons, hmessage]
  rw [hsplit, List.getElem?_append_right (Nat.le_refl _), Nat.sub_self]
  rfl

/-- Of the requests, oldest first, each with its message id and its number, each is answered once
or its answer is lost. `ids` are the message ids that come in, and `answers` says which request
each of them answers. -/
inductive Delivered : List (UInt32 × Nat) → List Nat → List Nat → Prop where
  | nil : Delivered [] [] []
  | lost {requests : List (UInt32 × Nat)} {ids answers : List Nat} (request : UInt32 × Nat)
      (rest : Delivered requests ids answers) : Delivered (request :: requests) ids answers
  | answered {requests : List (UInt32 × Nat)} {ids answers : List Nat} (id : UInt32) (number : Nat)
      (rest : Delivered requests ids answers) :
      Delivered ((id, number) :: requests) (id.toNat :: ids) (number :: answers)

/-- What comes in answers one of the requests, with the same message id. -/
theorem Delivered.lookup {requests : List (UInt32 × Nat)} {ids answers : List Nat}
    (h : Delivered requests ids answers) {k msgid : Nat} (hid : ids[k]? = some msgid) :
    ∃ id number, answers[k]? = some number ∧ (id, number) ∈ requests ∧ id.toNat = msgid := by
  induction h generalizing k with
  | nil => cases hid
  | lost request rest ih =>
      obtain ⟨id, number, hanswer, hmem, hsame⟩ := ih hid
      exact ⟨id, number, hanswer, List.mem_cons_of_mem _ hmem, hsame⟩
  | answered id number rest ih =>
      cases k with
      | zero => exact ⟨id, number, rfl, List.mem_cons_self, Option.some.inj hid⟩
      | succ k =>
          obtain ⟨id', number', hanswer, hmem, hsame⟩ := ih hid
          exact ⟨id', number', hanswer, List.mem_cons_of_mem _ hmem, hsame⟩

/-! ### Sessions -/

/-- The message ids of the requests of `list`. -/
def RPC.listIds (c : RPC) (pages : List RPC.Exchange) : List UInt32 :=
  (List.range (c.list pages).1.requests.length).map fun i => c.nextMsgid + UInt32.ofNat i

namespace IoWorker

/-- The message ids of the requests of `attach_`. -/
def attachIds (w : IoWorker) (env : Attaching) : List UInt32 :=
  match w.rpc, env.flush with
  | some c, none =>
      c.requestsIn (.connect temporaryCallback env.deadline env.probes env.exchange) ++
        match c.connect temporaryCallback env.deadline env.probes env.exchange with
        | (c', _, .connected) => c'.listIds env.pages
        | _ => []
  | _, _ => []

/-- The message ids of the requests of one action. -/
def requestIds (w : IoWorker) : Action → List UInt32
  | .call _ _ _ => (w.rpc.map RPC.nextMsgid).toList
  | .attach env => w.attachIds env
  | .list pages => (w.rpc.map fun c => c.listIds pages).getD []
  | .setTimeout value write env =>
      match w.rpc with
      | some c => if w.attached then (w.rebuild c value write).attachIds env else []
      | none => []
  | _ => []

/-- The worker on an open port, how many requests it has sent, and those whose answers may still
come, oldest first, each with its message id and its number. -/
structure Session where
  worker : IoWorker
  sent : Nat
  outstanding : List (UInt32 × Nat)

/-- One action. Behind it the answers to the first `settled` requests have come or are lost, and
`answers` says which requests the responses answer that a call read. -/
structure Turn where
  action : Action
  settled : Nat
  answers : List Nat

namespace Session

/-- The port was just opened. -/
def opened (callTimeout : Nat) : Session := ⟨.opened callTimeout, 0, []⟩

/-- The requests of an action, with their numbers. -/
def requests (s : Session) (action : Action) : List (UInt32 × Nat) :=
  (s.worker.requestIds action).zipIdx s.sent

/-- One turn. -/
def after (s : Session) (turn : Turn) : Session where
  worker := (s.worker.act turn.action).1
  sent := s.sent + (s.worker.requestIds turn.action).length
  outstanding := (s.outstanding ++ s.requests turn.action).drop turn.settled

/-- The link is faithful during a turn: the responses that a call reads are answers to requests
that were sent, in their order, and no two to the same one. -/
def Faithful (s : Session) (turn : Turn) : Prop :=
  ∀ c method args exchange, s.worker.rpc = some c → turn.action = .call method args exchange →
    Delivered ((s.outstanding ++ s.requests turn.action).take turn.settled)
      (responseIds (c.callReports method args exchange)) turn.answers

/-- No answer may still come that has the message id of the call. -/
def Fresh (s : Session) (turn : Turn) : Prop :=
  ∀ c method args exchange, s.worker.rpc = some c → turn.action = .call method args exchange →
    ∀ request ∈ s.outstanding, request.1 ≠ c.nextMsgid

/-- A result, or the error of a response. -/
def answerShown : Emission → Option (Bool × Value)
  | .result v => some (false, v)
  | .error (.remote _ v) => some (true, v)
  | _ => none

/-- What a call shows as its result is the answer to its own request: the response that was
taken is one that answers the request with the next number. -/
def Matched (s : Session) (turn : Turn) : Prop :=
  ∀ c method args exchange, s.worker.rpc = some c → turn.action = .call method args exchange →
    ∀ x ∈ (s.worker.act turn.action).1.emitted.drop s.worker.emitted.length, ∀ isError v,
      answerShown x = some (isError, v) →
      ∃ before, ResponseAt c.nextMsgid.toNat isError v (c.callReports method args exchange) before ∧
        turn.answers[(responseIds before).length]? = some s.sent

/-- Along a run, each turn satisfies `P`. A run ends with an action that does not return. -/
def Along (P : Session → Turn → Prop) : Session → List Turn → Prop
  | _, [] => True
  | s, turn :: turns =>
      P s turn ∧ ((s.worker.act turn.action).2 = .returned → Along P (s.after turn) turns)

/-! ### One call -/

/-- A call shows an answer only if it ends with it. -/
theorem executeCall_shown {w : IoWorker} {c : RPC} (hrpc : w.rpc = some c) (method : List UInt8)
    (args : List Value) (exchange : RPC.Exchange) :
    ∃ shown, (w.executeCall method args exchange).1.emitted
        = w.emitted ++ .call method args :: shown ∧
      ∀ x ∈ shown, ∀ answer, answerShown x = some answer →
        (c.callValues exchange.write method args exchange.start exchange.attempts).2.2.answer
          = some answer := by
  rw [executeCall, hrpc]
  -- The message shown depends on how the call ended, and the answer is in it if there is one.
  rcases hcall : c.callValues exchange.write method args exchange.start exchange.attempts with
    ⟨c', bytes, v | e | _⟩
  · refine ⟨[.result v], by simp [hcall, used, emit], ?_⟩
    intro x hx answer hshown
    rwa [List.mem_singleton.mp hx] at hshown
  · cases e with
    | io what =>
        refine ⟨[.error (.io what), .ioError what], by simp [hcall, used, emit, handleIoError], ?_⟩
        intro x hx answer hshown
        rcases List.mem_cons.mp hx with rfl | hx
        · exact hshown
        · rw [List.mem_singleton.mp hx] at hshown
          cases hshown
    | protocol e =>
        refine ⟨[.error (.protocol e)], by simp [hcall, used, emit], ?_⟩
        intro x hx answer hshown
        rwa [List.mem_singleton.mp hx] at hshown
    | timeout what =>
        refine ⟨[.error (.timeout what)], by simp [hcall, used, emit], ?_⟩
        intro x hx answer hshown
        rwa [List.mem_singleton.mp hx] at hshown
    | remote method' v =>
        refine ⟨[.error (.remote method' v)], by simp [hcall, used, emit], ?_⟩
        intro x hx answer hshown
        rwa [List.mem_singleton.mp hx] at hshown
    -- When memory runs out nothing is shown: the exception leaves the thread.
    | badAlloc =>
        refine ⟨[], by simp [hcall, used, emit], ?_⟩
        rintro x ⟨⟩
  · refine ⟨[], by simp [hcall, used, emit], ?_⟩
    rintro x ⟨⟩

/-- **One call.** With a message id that no other answer on its way has, the answer that the
link delivers under it is the one to this call. -/
theorem matched_of_fresh {s : Session} {turn : Turn} (hsized : ∀ c ∈ s.worker.rpc, c.Sized)
    (hlink : s.Faithful turn) (hfresh : s.Fresh turn) : s.Matched turn := by
  intro c method args exchange hrpc haction x hx isError v hshown
  obtain ⟨shown, hemitted, hanswers⟩ := executeCall_shown hrpc method args exchange
  rw [haction, show s.worker.act (.call method args exchange)
    = s.worker.executeCall method args exchange from rfl, hemitted, List.drop_left] at hx
  have hanswer :
      (c.callValues exchange.write method args exchange.start exchange.attempts).2.2.answer
        = some (isError, v) := by
    rcases List.mem_cons.mp hx with rfl | hx
    · cases hshown
    · exact hanswers x hx _ hshown
  obtain ⟨before, hresponse⟩ := RPC.callValues_answer (hsized c hrpc) hanswer
  refine ⟨before, hresponse, ?_⟩
  obtain ⟨id, number, hnumber, hmem, hid⟩ :=
    (hlink c method args exchange hrpc haction).lookup (responseIds_at hresponse)
  rw [hnumber]
  -- Which request has this id.
  rcases List.mem_append.mp (List.mem_of_mem_take hmem) with hmem | hmem
  · exact absurd (UInt32.toNat_inj.mp hid) (hfresh c method args exchange hrpc haction _ hmem)
  · rw [requests, haction, requestIds, hrpc] at hmem
    have hown : (id, number) = (c.nextMsgid, s.sent) := by simpa using hmem
    rw [(Prod.mk.inj hown).2]

end Session

/-! ### The message ids of an action -/

section

variable {w : IoWorker} {c : RPC}

/-- The `RPC` object, if there is one, has counted on from `first` by the ids. -/
def Counted (first : UInt32) (ids : List UInt32) (w : IoWorker) : Prop :=
  ∀ c ∈ w.rpc, c.Sized ∧ RPC.Consecutive first ids c.nextMsgid

/-- A client that has counted on is the one the thread holds. -/
theorem counted_used {first : UInt32} {ids : List UInt32} (hsized : c.Sized)
    (hids : RPC.Consecutive first ids c.nextMsgid) (hrpc : w.rpc = some c) :
    Counted first ids w := by
  intro c' hc'
  obtain rfl : c = c' := Option.some.inj (hrpc.symm.trans hc')
  exact ⟨hsized, hids⟩

/-- Without a client there is nothing to count. -/
theorem counted_none {first : UInt32} {ids : List UInt32} (hrpc : w.rpc = none) :
    Counted first ids w := by
  rw [Counted, hrpc]
  rintro c ⟨⟩

/-- `n` ids in a row, from the first on. -/
theorem consecutive_range (first : UInt32) (n : Nat) :
    RPC.Consecutive first ((List.range n).map fun i => first + UInt32.ofNat i)
      (first + UInt32.ofNat n) := by
  induction n with
  | zero => exact UInt32.add_zero first
  | succ n ih =>
      rw [List.range_succ, List.map_append]
      refine ih.append ⟨rfl, ?_⟩
      show _ = _ + 1
      rw [UInt32.ofNat_add, ← UInt32.add_assoc]
      rfl

/-- Listing the methods uses up the ids of its calls. -/
theorem refreshMethods_counted {first : UInt32} {ids : List UInt32} (hsized : c.Sized)
    (hids : RPC.Consecutive first ids c.nextMsgid) (hrpc : w.rpc = some c) (print : Bool)
    (pages : List RPC.Exchange) :
    Counted first (ids ++ c.listIds pages) (w.refreshMethods print pages).1 := by
  obtain ⟨hlisted, hnext⟩ := RPC.list_ids hsized pages
  have hall : RPC.Consecutive first (ids ++ c.listIds pages) (c.list pages).1.client.nextMsgid := by
    refine hids.append ?_
    rw [hnext]
    exact consecutive_range _ _
  refine counted_used hlisted hall ?_
  rw [refreshMethods, hrpc]
  simp only
  rcases c.list pages with ⟨l, methods | e | _⟩
  · cases print <;> rfl
  · rfl
  · rfl

/-- Attaching uses up one id, and those of the listing behind it. -/
theorem attach_counted {first : UInt32} {ids : List UInt32} (hsized : c.Sized)
    (hids : RPC.Consecutive first ids c.nextMsgid) (hrpc : w.rpc = some c) (env : Attaching) :
    Counted first (ids ++ w.attachIds env) (w.attach env).1 := by
  rw [attach, attachIds, hrpc]
  -- The flush throws before a message id is taken.
  cases env.flush with
  | some what =>
      simp only [List.append_nil]
      have hreset : RPC.Sized { c with demux := c.demux.reset } := ⟨hsized.payload, hsized.frame⟩
      exact counted_used hreset hids rfl
  | none =>
      -- Else `connect` takes some, and the listing behind it takes more.
      obtain ⟨hrequests, hconnected, -⟩ := RPC.act_requestsIn hsized
        (.connect temporaryCallback env.deadline env.probes env.exchange)
      rw [RPC.act] at hrequests hconnected
      have hall := hids.append hrequests
      simp only
      rcases hconnect : c.connect temporaryCallback env.deadline env.probes env.exchange with
        ⟨c', bytes, _ | e | _⟩ <;> rw [hconnect] at hall hconnected
      · simp only
        rw [← List.append_assoc]
        exact refreshMethods_counted hconnected hall rfl false env.pages
      · simp only [List.append_nil]
        cases e with
        | io what => exact counted_none rfl
        | _ => exact counted_used hconnected hall rfl
      · simp only [List.append_nil]
        exact counted_used hconnected hall rfl

/-- Sending without a request uses up none. -/
theorem sent_counted {first : UInt32} {ids : List UInt32} (hsized : c.Sized)
    (hids : RPC.Consecutive first ids c.nextMsgid) (bytes : List UInt8)
    (thrown : Option HostError) :
    Counted first ids (w.sent c bytes thrown) := by
  rcases thrown with _ | (e | what | what | ⟨method, v⟩ | _)
  · exact counted_used hsized hids rfl
  · exact counted_used hsized hids rfl
  · exact counted_none rfl
  · exact counted_used hsized hids rfl
  · exact counted_used hsized hids rfl
  · exact counted_used hsized hids rfl

/-- A new client has its buffers sized as they must be. -/
theorem makeRpc_sized (callTimeout : Nat) : (makeRpc callTimeout).Sized :=
  ⟨(RPC.new_sized _).payload, (RPC.new_sized _).frame⟩

/-- Disconnecting sends no request. -/
theorem disconnect_counted (hsized : c.Sized) (write : Nat → Int) :
    (c.disconnect write).1.Sized ∧
      RPC.Consecutive c.nextMsgid [] (c.disconnect write).1.nextMsgid := by
  have hlater := RPC.notifyValues_later hsized write (text "rpc.detach") []
  have hnext := hlater.nextMsgid.trans (UInt32.add_zero _)
  rw [RPC.disconnect]
  split
  · rcases hnotify : c.notifyValues write (text "rpc.detach") [] with ⟨c', bytes, _ | e⟩ <;>
      rw [hnotify] at hlater hnext
    · exact ⟨⟨hlater.sized.payload, hlater.sized.frame⟩, hnext⟩
    · exact ⟨hlater.sized, hnext⟩
  · exact ⟨hsized, rfl⟩

/-- An action that makes a new `RPC` object counts from 1, any other from where it was. -/
def firstId (c : RPC) : Action → UInt32
  | .setTimeout _ _ _ => 1
  | _ => c.nextMsgid

/-- The message ids of one action are counted on. -/
theorem act_counted (hsized : c.Sized) (hrpc : w.rpc = some c) (action : Action) :
    Counted (firstId c action) (w.requestIds action) (w.act action).1 := by
  have hnone : RPC.Consecutive c.nextMsgid [] c.nextMsgid := rfl
  cases action with
  | call method args exchange =>
      have hlater := RPC.callValues_later hsized exchange.write method args exchange.start
        exchange.attempts
      have hids : RPC.Consecutive c.nextMsgid [c.nextMsgid] (c.callValues exchange.write method args
          exchange.start exchange.attempts).1.nextMsgid := ⟨rfl, hlater.nextMsgid⟩
      have hcalled := hlater.sized
      show Counted c.nextMsgid _ (w.executeCall method args exchange).1
      rw [executeCall, requestIds, hrpc]
      simp only
      rcases hcall : c.callValues exchange.write method args exchange.start exchange.attempts with
        ⟨c', bytes, v | e | _⟩ <;> rw [hcall] at hids hcalled
      · exact counted_used hcalled hids rfl
      · cases e with
        | io what => exact counted_none rfl
        | _ => exact counted_used hcalled hids rfl
      · exact counted_used hcalled hids rfl
  | notify method args write =>
      have hlater := RPC.notifyValues_later hsized write method args
      have hids : RPC.Consecutive c.nextMsgid [] (c.notifyValues write method args).1.nextMsgid :=
        hlater.nextMsgid.trans (UInt32.add_zero _)
      show Counted c.nextMsgid [] (w.executeNotify method args write).1
      rw [executeNotify, hrpc]
      exact sent_counted hlater.sized hids _ _
  | sendText line write =>
      show Counted c.nextMsgid [] (w.executeSendText line write).1
      rw [executeSendText, hrpc]
      exact sent_counted hsized hnone _ _
  | attach env => exact attach_counted hsized hnone hrpc env
  | detach write =>
      -- A notification takes no id.
      obtain ⟨hdisconnected, hids⟩ := disconnect_counted hsized write
      show Counted c.nextMsgid [] (w.executeDetach write).1
      rw [executeDetach, hrpc]
      simp only
      rcases hdisconnect : c.disconnect write with ⟨c', bytes, _ | e⟩ <;>
        rw [hdisconnect] at hdisconnected hids
      · exact counted_used hdisconnected hids rfl
      · cases e with
        | io what => exact counted_none rfl
        | _ => exact counted_used hdisconnected hids rfl
  | list pages =>
      show Counted c.nextMsgid _ (w.executeList pages).1
      rw [executeList, requestIds, hrpc]
      exact refreshMethods_counted hsized hnone hrpc true pages
  | setTimeout value write env =>
      -- The new object counts from 1.
      have hnew : (makeRpc value).Sized := makeRpc_sized value
      have hfirst : RPC.Consecutive 1 [] (makeRpc value).nextMsgid := rfl
      show Counted 1 _ (w.executeSetTimeout value write env).1
      rw [executeSetTimeout, requestIds, hrpc]
      simp only
      cases w.attached with
      | true =>
          exact attach_counted (w := (w.rebuild c value write).emit (.timeoutSet value)) hnew hfirst
            rfl env
      | false => exact counted_used hnew hfirst rfl
  | poll deadline turns =>
      have hlater := RPC.poll_later hsized deadline turns
      have hids : RPC.Consecutive c.nextMsgid [] (c.poll deadline turns).1.nextMsgid :=
        hlater.nextMsgid.trans (UInt32.add_zero _)
      have hpolled := hlater.sized
      show Counted c.nextMsgid [] (w.pollTurn deadline turns).1
      rw [pollTurn, hrpc]
      simp only
      rcases hpoll : c.poll deadline turns with ⟨c', events | e | _⟩ <;> rw [hpoll] at hids hpolled
      · exact counted_used hpolled hids rfl
      · cases e with
        | io what => exact counted_none rfl
        | _ => exact counted_used hpolled hids rfl
      · exact counted_used hpolled hids rfl

/-- Without a port nothing opens one. -/
theorem act_closed (hrpc : w.rpc = none) (action : Action) : (w.act action).1.rpc = none := by
  -- Every action looks for the client first, and does nothing without one.
  cases action with
  | attach env =>
      rw [act, attach, hrpc]
      cases env.flush <;> exact hrpc
  | call method args exchange =>
      rw [act, executeCall, hrpc]
      exact hrpc
  | notify method args write =>
      rw [act, executeNotify, hrpc]
      exact hrpc
  | sendText line write =>
      rw [act, executeSendText, hrpc]
      exact hrpc
  | detach write =>
      rw [act, executeDetach, hrpc]
      exact hrpc
  | list pages =>
      rw [act, executeList, hrpc]
      exact hrpc
  | setTimeout value write env =>
      rw [act, executeSetTimeout, hrpc]
      rfl
  | poll deadline turns =>
      rw [act, pollTurn, hrpc]
      exact hrpc

/-- The buffers of the client keep their sizes. -/
theorem act_sized (hsized : ∀ c ∈ w.rpc, c.Sized) (action : Action) :
    ∀ c ∈ (w.act action).1.rpc, c.Sized := by
  cases hrpc : w.rpc with
  | none =>
      rw [act_closed hrpc action]
      rintro c ⟨⟩
  | some c => exact fun c' hc' => (act_counted (hsized c hrpc) hrpc action c' hc').1

end

/-! ### Runs -/

namespace Session

/-- An invariant along a run. -/
theorem Along.of_invariant {I : Session → Prop} {P Q : Session → Turn → Prop}
    (hstep : ∀ s turn, I s → P s turn → Q s turn ∧ I (s.after turn)) {s : Session}
    {turns : List Turn} (hI : I s) (h : Along P s turns) : Along Q s turns := by
  induction turns generalizing s with
  | nil => trivial
  | cons turn turns ih =>
      obtain ⟨hfirst, hrest⟩ := h
      obtain ⟨hturn, hnext⟩ := hstep s turn hI hfirst
      exact ⟨hturn, fun hreturned => ih hnext (hrest hreturned)⟩

/-- What two properties say along a run, their conjunction says. -/
theorem Along.and {P Q : Session → Turn → Prop} {s : Session} {turns : List Turn}
    (h : Along P s turns) (h' : Along Q s turns) :
    Along (fun s turn => P s turn ∧ Q s turn) s turns := by
  induction turns generalizing s with
  | nil => trivial
  | cons turn turns ih =>
      exact ⟨⟨h.1, h'.1⟩, fun hreturned => ih (h.2 hreturned) (h'.2 hreturned)⟩

/-- The client of an opened session is sized. -/
theorem opened_sized (callTimeout : Nat) : ∀ c ∈ (opened callTimeout).worker.rpc, c.Sized := by
  intro c hc
  obtain rfl := Option.some.inj hc
  exact makeRpc_sized callTimeout

/-- **Results are answers to their own calls**, in every run over a faithful link in which each
call takes a message id that no answer on its way has. -/
theorem results_matched {callTimeout : Nat} {turns : List Turn}
    (hlink : Along Faithful (opened callTimeout) turns)
    (hfresh : Along Fresh (opened callTimeout) turns) :
    Along Matched (opened callTimeout) turns := by
  refine Along.of_invariant (I := fun s => ∀ c ∈ s.worker.rpc, c.Sized) ?_
    (opened_sized callTimeout) (hlink.and hfresh)
  intro s turn hsized h
  exact ⟨matched_of_fresh hsized h.1 h.2, act_sized hsized turn.action⟩

/-- A call over a faithful link. -/
theorem faithful_of_call {s : Session} {method : List UInt8} {args : List Value}
    {exchange : RPC.Exchange} {settled : Nat}
    {requests : List (UInt32 × Nat)} {ids answers : List Nat}
    (hdelivered : Delivered requests ids answers)
    (hrequests : (s.outstanding ++ s.requests (.call method args exchange)).take settled = requests)
    (hids : (s.worker.rpc.map fun c => responseIds (c.callReports method args exchange))
      = some ids) :
    s.Faithful ⟨.call method args exchange, settled, answers⟩ := by
  intro c method' args' exchange' hrpc haction
  cases haction
  rw [hrpc] at hids
  subst hrequests
  rwa [← Option.some.inj hids] at hdelivered

/-- A call that runs out of time. -/
def timedOut : Turn := ⟨.call [0x66] [] ⟨RPC.writesAll, 0, [⟨1000, none⟩]⟩, 0, []⟩

/-- A poll that reads the answer to the call. -/
def polled : Turn :=
  ⟨.poll 1005 [⟨some [0x00, 0x08, 0x94, 0x01, 0x01, 0xc0, 0x07, 0x99, 0xb7, 0x00], 1005⟩], 1, []⟩

/-- A longer timeout. -/
def retimed : Turn :=
  ⟨.setTimeout 2000 RPC.writesAll ⟨none, 0, [], ⟨RPC.writesAll, 0, []⟩, []⟩, 0, []⟩

/-- Another call, which reads a response with the message id 1. It answers the request with the
number `answer`. -/
def answered (answer : Nat) : Turn :=
  ⟨.call [0x67] [] ⟨RPC.writesAll, 1010,
    [⟨1020, some [0x00, 0x08, 0x94, 0x01, 0x01, 0xc0, 0x07, 0x99, 0xb7, 0x00]⟩]⟩, 1, [answer]⟩

/-- Its request is answered once and too late to be read in time. -/
theorem timedOut_faithful : (opened 1000).Faithful timedOut := by
  refine faithful_of_call .nil rfl ?_
  decide +kernel

/-- The answer to the first call is read before the timeout is set. -/
theorem results_matched_polled :
    Along Matched (opened 1000) [timedOut, polled, retimed, answered 1] := by
  -- The late answer is read by the poll, so no answer is on its way when the timeout is set.
  refine results_matched ?_ ?_
  · refine ⟨timedOut_faithful, fun _ => ⟨?_, fun _ => ⟨?_, fun _ => ⟨?_, fun _ => trivial⟩⟩⟩⟩
    · rintro c method args exchange hrpc ⟨⟩
    · rintro c method args exchange hrpc ⟨⟩
    · refine faithful_of_call (.answered 1 1 .nil) ?_ ?_
      · decide +kernel
      · decide +kernel
  · -- And each call has a message id of its own.
    have hnone : (opened 1000).outstanding = [] := rfl
    have hread :
        ((((opened 1000).after timedOut).after polled).after retimed).outstanding = [] := by
      decide +kernel
    refine ⟨?_, fun _ => ⟨?_, fun _ => ⟨?_, fun _ => ⟨?_, fun _ => trivial⟩⟩⟩⟩
    · rintro c method args exchange hrpc - request hrequest
      rw [hnone] at hrequest
      cases hrequest
    · rintro c method args exchange hrpc ⟨⟩
    · rintro c method args exchange hrpc ⟨⟩
    · rintro c method args exchange hrpc - request hrequest
      rw [hread] at hrequest
      cases hrequest

/-- **A late answer is taken for another.** The answer to the first call comes behind the new
`RPC` object, whose first call has the same message id. -/
theorem results_matched_fails :
    Along Faithful (opened 1000) [timedOut, retimed, answered 0] ∧
      ¬ Along Matched (opened 1000) [timedOut, retimed, answered 0] := by
  have hfirst : ((opened 1000).worker.act timedOut.action).2 = .returned := by decide +kernel
  have hsecond : (((opened 1000).after timedOut).worker.act retimed.action).2 = .returned := by
    decide +kernel
  constructor
  · refine ⟨timedOut_faithful, fun _ => ⟨?_, fun _ => ⟨?_, fun _ => trivial⟩⟩⟩
    · rintro c method args exchange hrpc ⟨⟩
    · refine faithful_of_call (.answered 1 0 .nil) ?_ ?_
      · decide +kernel
      · decide +kernel
  · intro hmatched
    obtain ⟨hlast, -⟩ := (hmatched.2 hfirst).2 hsecond
    have hshown : ∃ x ∈ (((((opened 1000).after timedOut).after retimed).worker.act
        (answered 0).action).1.emitted.drop
          (((opened 1000).after timedOut).after retimed).worker.emitted.length),
        (answerShown x).isSome = true := by
      decide +kernel
    obtain ⟨x, hx, hsome⟩ := hshown
    obtain ⟨⟨isError, v⟩, hanswer⟩ := Option.isSome_iff_exists.mp hsome
    obtain ⟨c, hrpc⟩ : ∃ c, (((opened 1000).after timedOut).after retimed).worker.rpc = some c :=
      Option.isSome_iff_exists.mp (by decide +kernel)
    obtain ⟨before, -, hnumber⟩ := hlast c _ _ _ hrpc rfl x hx isError v hanswer
    -- The request has the number 1.
    have hsent : (((opened 1000).after timedOut).after retimed).sent = 1 := by
      decide +kernel
    rw [hsent] at hnumber
    have hmem : 1 ∈ (answered 0).answers := List.mem_of_getElem? hnumber
    exact absurd hmem (by decide)

/-- `SetTimeoutCmd` comes when no answer is on its way, and fewer than `2 ^ 32` requests were
sent. -/
def Settled (s : Session) (turn : Turn) : Prop :=
  (∀ value write env, turn.action = .setTimeout value write env → s.outstanding = []) ∧
    s.sent + 1 < 2 ^ 32

/-- The outstanding requests have ids that the `RPC` object has counted. -/
def Recent (s : Session) : Prop :=
  ∀ c ∈ s.worker.rpc, c.Sized ∧ ∃ ids, RPC.Consecutive 1 ids c.nextMsgid ∧
    ids.length ≤ s.sent ∧ ∀ request ∈ s.outstanding, request.1 ∈ ids

/-- Before the ids wrap around, the next id is none of those outstanding. -/
theorem Recent.fresh {s : Session} (h : s.Recent) (hfew : s.sent + 1 < 2 ^ 32) (turn : Turn) :
    s.Fresh turn := by
  intro c method args exchange hrpc _ request hrequest hsame
  obtain ⟨-, ids, hids, hlength, hmem⟩ := h c hrpc
  have hnext : RPC.Consecutive 1 (ids ++ [c.nextMsgid]) (c.nextMsgid + 1) := hids.append ⟨rfl, rfl⟩
  have hnodup := hnext.nodup (by rw [List.length_append, List.length_singleton]; omega)
  exact (List.nodup_append.mp hnodup).2.2 c.nextMsgid (hsame ▸ hmem request hrequest) c.nextMsgid
    List.mem_cons_self rfl

/-- A turn that leaves no answer behind for a new client keeps the ids recent. -/
theorem Recent.after {s : Session} (h : s.Recent) {turn : Turn} (hsettled : s.Settled turn) :
    (s.after turn).Recent := by
  intro c' hc'
  cases hrpc : s.worker.rpc with
  | none =>
      rw [show (s.after turn).worker.rpc = none from act_closed hrpc turn.action] at hc'
      cases hc'
  | some c =>
      obtain ⟨hsized, ids, hids, hlength, hmem⟩ := h c hrpc
      obtain ⟨hsized', hcounted⟩ := act_counted hsized hrpc turn.action c' hc'
      -- What is on its way was so before, or was sent in this turn.
      have hover : ∀ request ∈ (s.after turn).outstanding,
          request ∈ s.outstanding ∨ request.1 ∈ s.worker.requestIds turn.action := by
        intro request hrequest
        rcases List.mem_append.mp (List.mem_of_mem_drop hrequest) with hrequest | hrequest
        · exact Or.inl hrequest
        · exact Or.inr (List.fst_mem_of_mem_zipIdx hrequest)
      refine ⟨hsized', ?_⟩
      by_cases hrebuilt : ∃ value write env, turn.action = .setTimeout value write env
      · -- The ids start again, and no answer is on its way.
        obtain ⟨value, write, env, haction⟩ := hrebuilt
        have hnone := hsettled.1 value write env haction
        have hfirst : firstId c turn.action = 1 := by rw [haction, firstId]
        refine ⟨_, hfirst ▸ hcounted, Nat.le_add_left _ _, ?_⟩
        intro request hrequest
        rcases hover request hrequest with hrequest | hrequest
        · rw [hnone] at hrequest
          cases hrequest
        · exact hrequest
      · have hfirst : firstId c turn.action = c.nextMsgid := by
          cases haction : turn.action with
          | setTimeout value write env => exact absurd ⟨value, write, env, haction⟩ hrebuilt
          | _ => rfl
        refine ⟨_, hids.append (hfirst ▸ hcounted), ?_, ?_⟩
        · show _ ≤ s.sent + _
          rw [List.length_append]
          omega
        · intro request hrequest
          rcases hover request hrequest with hrequest | hrequest
          · exact List.mem_append_left _ (hmem request hrequest)
          · exact List.mem_append_right _ hrequest

/-- It takes a new `RPC` object while an answer is on its way, or `2 ^ 32` requests, for a message
id to come back too early. -/
theorem fresh_of_settled {callTimeout : Nat} {turns : List Turn}
    (h : Along Settled (opened callTimeout) turns) : Along Fresh (opened callTimeout) turns := by
  refine Along.of_invariant (I := Recent) (fun s turn hrecent hsettled => ?_) ?_ h
  · exact ⟨hrecent.fresh hsettled.2 turn, hrecent.after hsettled⟩
  · intro c hc
    refine ⟨opened_sized callTimeout c hc, [], ?_, Nat.le_refl 0, by rintro request ⟨⟩⟩
    obtain rfl := Option.some.inj hc
    rfl

end Session

end IoWorker

end SerialRpc
