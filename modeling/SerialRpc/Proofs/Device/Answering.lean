import SerialRpc.Proofs.Device.Wire
import SerialRpc.Proofs.Device.Paging
import SerialRpc.Proofs.Host.Calls

/-!
# `SerialRpc.Proofs.Device.Answering`: which requests the device has answered

The message ids of the responses among the writes of a device (`answerIds`) are the ids of the
requests among the reports that it has handled, in the same order: `handleReports_tells`. What the
sketch does in between, and the attach timeout, answers nothing.
-/

set_option autoImplicit false

namespace SerialRpc

open MsgPack Reader

/-- The message id of a response, as the client reads it. -/
def responseIdOf (payload : List UInt8) : Option Nat := (responseHead payload).map Prod.fst

/-- The message id of a request, as the device reads it. -/
def requestIdOf (sz : ServerSize) (payload : List UInt8) : Option Nat :=
  match readIncoming sz payload with
  | .request msgid _ _ => some msgid
  | _ => none

def Report.responseId : Report → Option Nat
  | .frame payload => responseIdOf payload
  | .textLine _ _ => none

def Report.requestId (sz : ServerSize) : Report → Option Nat
  | .frame payload => requestIdOf sz payload
  | .textLine _ _ => none

def Sent.responseId : Sent → Option Nat
  | .frame payload _ => responseIdOf payload
  | .text _ => none

/-- The ids of the responses among some writes. -/
def answerIds (writes : List Sent) : List Nat := writes.filterMap Sent.responseId

/-! ### Payloads -/

/-- A payload with the head of a response starts like one. -/
theorem isResponse_of_responseIdOf {payload bytes : List UInt8} {msgid : Nat}
    (h : responseIdOf payload = some msgid) : (Sent.frame payload bytes).IsResponse := by
  obtain ⟨⟨msgid', k⟩, hhead, -⟩ := Option.map_eq_some_iff.mp h
  unfold responseHead at hhead
  split at hhead
  · rename_i i hmessage
    obtain ⟨⟨n, a⟩, hcount, hmap⟩ := Option.bind_eq_some_iff.mp hmessage
    obtain ⟨⟨v, b⟩, htype, hpair⟩ := Option.map_eq_some_iff.mp hmap
    cases hpair
    obtain ⟨t, harray, array⟩ := spells_of_header hcount
    obtain ⟨rfl, -⟩ := asArray_eq_some.mp harray
    obtain ⟨t', hint, int⟩ := spells_of_header htype
    obtain ⟨rfl, -⟩ := asInt_eq_some.mp hint
    refine ⟨payload.take a, (payload.drop a).take b, (payload.drop a).drop b, ?_, array, int⟩
    rw [List.append_assoc, List.take_append_drop, List.take_append_drop]
  · cases hhead

/-- The head of a response as it is read. -/
theorem responseIdOf_spells {msgid : Nat} {head type id : List UInt8}
    (four : Spells (.array 4) head) (one : Spells (.int 1) type) (same : Spells (.int msgid) id)
    (msgid_lt : msgid < 2 ^ 32) (rest : List UInt8) :
    responseIdOf (head ++ (type ++ (id ++ rest))) = some msgid := by
  have hcount : asArray .host64 (.array 4) = some 4 := by decide
  have htype : asInt (-(maxSigned 32 : Nat) - 1) (maxSigned 32) (.int 1) = some 1 := by decide
  have hmsgid : asNat (maxUnsigned 32) (.int msgid) = some msgid :=
    asNat_eq_some.mpr ⟨rfl, Nat.le_sub_one_of_lt msgid_lt⟩
  have hdrop : (head ++ (type ++ (id ++ rest))).drop (head.length + type.length) = id ++ rest := by
    rw [← List.append_assoc, ← List.length_append, List.drop_left]
  have hmessage : messageHead (head ++ (type ++ (id ++ rest)))
      = some ((4, 1), head.length + type.length) := by
    rw [messageHead, header_of_spells four hcount, Option.bind_some, List.drop_left,
      header_of_spells one htype, Option.map_some]
  rw [responseIdOf]
  simp only [responseHead, hmessage, hdrop, header_of_spells same hmsgid, Option.map_some]

/-- A well-formed response has its id. -/
theorem Response.responseIdOf {msgid : Nat} {payload : List UInt8} (h : Response msgid payload)
    (msgid_lt : msgid < 2 ^ 32) : responseIdOf payload = some msgid := by
  cases h with
  | success four one same none object =>
      simp only [List.append_assoc]
      exact responseIdOf_spells four one same msgid_lt _
  | failure four one same string none =>
      simp only [List.append_assoc]
      exact responseIdOf_spells four one same msgid_lt _

/-- Writes that are no responses answer nothing. -/
theorem answerIds_eq_nil {writes : List Sent} (h : ∀ x ∈ writes, ¬ x.IsResponse) :
    answerIds writes = [] := by
  refine List.filterMap_eq_nil_iff.mpr fun x hx => ?_
  cases x with
  | text bytes => rfl
  | frame payload bytes =>
      cases hid : SerialRpc.responseIdOf payload with
      | none => exact hid
      | some msgid => exact absurd (isResponse_of_responseIdOf hid) (h _ hx)

namespace Server

variable {sz : ServerSize} {σ : Type}

/-! ### Steps of the device -/

/-- From `s` to `s'` the device has answered the requests `ids`. -/
def Tells (ids : List Nat) (s s' : Server sz σ) : Prop :=
  ∃ during, s'.sent = s.sent ++ during ∧ answerIds during = ids

variable {s s' s'' : Server sz σ}

/-- The answers of two stretches, in order. -/
theorem Tells.trans {ids ids' : List Nat} (h : Tells ids s s') (h' : Tells ids' s' s'') :
    Tells (ids ++ ids') s s'' := by
  obtain ⟨before, hbefore, hids⟩ := h
  obtain ⟨after, hafter, hids'⟩ := h'
  refine ⟨before ++ after, by rw [hafter, hbefore, List.append_assoc], ?_⟩
  rw [answerIds, List.filterMap_append, ← hids, ← hids']
  rfl

/-- What sends no response answers nothing. -/
theorem Tells.of_sends (h : Sends (¬ ·.IsResponse) s s') : Tells [] s s' := by
  obtain ⟨during, hduring, hnone⟩ := h
  exact ⟨during, hduring, answerIds_eq_nil hnone⟩

/-- One response answers its request. -/
theorem SendsResponse.tells {msgid : Nat} (h : SendsResponse msgid s s')
    (msgid_lt : msgid < 2 ^ 32) : Tells [msgid] s s' := by
  obtain ⟨during, response, hsent, hnone, hresponse⟩ := h
  refine ⟨during ++ [.frame response (frameBytes response)], ?_, ?_⟩
  · rw [hsent, List.append_assoc]
  · have hid : Sent.responseId (.frame response (frameBytes response)) = some msgid :=
      hresponse.responseIdOf msgid_lt
    rw [answerIds, List.filterMap_append, List.filterMap_cons_some hid]
    show answerIds during ++ [msgid] = [msgid]
    rw [answerIds_eq_nil hnone]
    rfl

/-- Every handler of the table packs at most one value. -/
def PacksValues (s : Server sz σ) : Prop := ∀ entry ∈ s.handlers, PacksOneValue entry.fn

/-- What the device writes fits its headers. -/
theorem headersFit (hwide : sz.kFrameMax ≤ hostDemuxSize.frameMax) (s : Server sz σ) :
    s.HeadersFit := by
  refine Or.inl ?_
  have hframe : sz.kFrameMax ≤ 4096 := hwide
  unfold ServerSize.kFrameMax cobsMaxEncodedSize at hframe
  unfold ServerSize.kResultScratch
  split <;> omega

/-- A report is answered, if it is a request. -/
theorem handleReport_tells (hroom : 32 ≤ sz.bufSize)
    (hwide : sz.kFrameMax ≤ hostDemuxSize.frameMax) (hpacks : s.PacksValues) (report : Report) :
    Tells (report.requestId sz).toList s (s.handleReport (some report)) := by
  cases report with
  -- A line of text runs a hook, which sends no response.
  | textLine line truncated => exact Tells.of_sends (runHook_sends s _)
  | frame payload =>
      have hanswers := s.handleFrame_answers payload hroom (headersFit hwide s) hpacks
      show Tells (requestIdOf sz payload).toList s (s.handleFrame payload)
      unfold requestIdOf
      by_cases hrequest : ∃ msgid method count params,
          Request sz.sizeT msgid method count params payload
      · -- A request is told by its message id, and answered under it.
        obtain ⟨msgid, method, count, params, hrequest⟩ := hrequest
        obtain ⟨pos, hread, -⟩ := readIncoming_request hrequest
        have hlt : msgid < 2 ^ 32 := by
          cases hrequest with
          | mk four zero same msgid_lt call => exact msgid_lt
        rw [hread]
        exact (hanswers.request msgid method count params hrequest).tells hlt
      have hno : ∀ msgid method count params,
          ¬ Request sz.sizeT msgid method count params payload := fun msgid method count params h =>
        hrequest ⟨msgid, method, count, params, h⟩
      by_cases hnotification : ∃ method count params,
          Notification sz.sizeT method count params payload
      · -- A notification has no id, and whatever its handler sends is no response.
        obtain ⟨method, count, params, hnotification⟩ := hnotification
        obtain ⟨pos, hread, -⟩ := readIncoming_notification hnotification
        rw [hread]
        exact Tells.of_sends (hanswers.notification method count params hnotification)
      · have hnone : ∀ method count params,
            ¬ Notification sz.sizeT method count params payload := fun method count params h =>
          hnotification ⟨method, count, params, h⟩
        -- Any other frame is dropped.
        rw [readIncoming_malformed hno hnone, hanswers.other hno hnone]
        exact Tells.of_sends (Sends.of_eq rfl)

/-! ### The table stays -/

/-- A call does not change the table. -/
theorem dispatch_table (s : Server sz σ) (method : List UInt8) (args : Args sz.sizeT)
    (reply : Reply) : (s.dispatch method args reply).1.handlers = s.handlers := by
  -- Counting a failure does not touch the table.
  have hcount : ∀ answer : Server sz σ × Reply,
      (countFailure answer).1.handlers = answer.1.handlers := by
    intro answer
    unfold countFailure
    split <;> rfl
  rcases s.dispatch_cases method args reply with ⟨answer, hbuiltin, hdispatch⟩ |
    ⟨entry, -, -, hdispatch⟩ | ⟨-, -, hdispatch⟩
  · rw [hdispatch, hcount]
    -- Nor does any builtin method, `attach` and `detach` with their hooks included.
    cases hbuiltin with
    | ping => rfl
    | rejected => rfl
    | list =>
        rcases packRpcListResult_server s reply _ with heq | heq
        · rw [heq]
        · rw [heq]
    | attach => exact (runHook_keeps _ _).1
    | detach =>
        show s.detach.handlers = s.handlers
        unfold detach
        dsimp only
        split
        · exact (runHook_keeps _ _).1
        · rfl
  · rw [hdispatch, hcount]
    exact (s.run_keeps _).1
  · rw [hdispatch]

/-- Nor does a response. -/
theorem sendResponse_table (s : Server sz σ) (msgid : UInt32) (reply : Reply) :
    (s.sendResponse msgid reply).handlers = s.handlers := by
  unfold sendResponse sendFrame
  dsimp only
  split <;> rfl

/-- So a report does not. -/
theorem handleReport_table (s : Server sz σ) (report : Report) :
    (s.handleReport (some report)).handlers = s.handlers := by
  cases report with
  | textLine line truncated => exact (runHook_keeps s _).1
  | frame payload =>
      show (s.handleFrame payload).handlers = s.handlers
      rw [handleFrame_eq]
      cases readIncoming sz payload with
      | request msgid method args =>
          rw [receive, sendResponse_table, dispatch_table]
          rfl
      | notification method args =>
          rw [receive, dispatch_table]
          rfl
      | malformed => rfl

/-- Nor do several. -/
theorem handleReports_table (s : Server sz σ) (reports : List Report) :
    (s.handleReports reports).handlers = s.handlers := by
  induction reports generalizing s with
  | nil => rfl
  | cons report reports ih => exact (ih _).trans (s.handleReport_table report)

/-! ### Runs of the device -/

/-- **Every request is answered once.** The responses to some reports are those to the requests
among them, one for each, in order. -/
theorem handleReports_tells (hroom : 32 ≤ sz.bufSize)
    (hwide : sz.kFrameMax ≤ hostDemuxSize.frameMax) (hpacks : s.PacksValues)
    (reports : List Report) :
    Tells (reports.filterMap (Report.requestId sz)) s (s.handleReports reports) := by
  induction reports generalizing s with
  | nil => exact Tells.of_sends (Sends.of_eq rfl)
  | cons report reports ih =>
      have hfirst := handleReport_tells hroom hwide hpacks report
      have hpacks' : (s.handleReport (some report)).PacksValues := by
        unfold PacksValues
        rw [handleReport_table]
        exact hpacks
      have hboth := hfirst.trans (ih hpacks')
      rw [List.filterMap_cons]
      cases hid : report.requestId sz with
      | none =>
          rw [hid] at hboth
          exact hboth
      | some msgid =>
          rw [hid] at hboth
          exact hboth

/-- The timeout of the attachment answers nothing. -/
theorem checkAttachTimeout_tells (s : Server sz σ) : Tells [] s s.checkAttachTimeout := by
  refine Tells.of_sends ?_
  unfold checkAttachTimeout
  split
  · dsimp only [nowMs]
    split
    · exact (Sends.of_eq rfl).trans (runHook_sends _ _)
    · exact Sends.of_eq rfl
  · exact Sends.of_eq rfl

/-- What the sketch does in its main loop answers nothing. -/
theorem act_tells {event : Event sz σ} (h : event.Clean) (s : Server sz σ) :
    Tells [] s (s.act event) := by
  refine Tells.of_sends ?_
  cases event with
  | byte b => exact h.elim
  | pollEnd => exact h.elim
  | begin => exact h.elim
  | notify name args => exact (s.run_outputs (.notify name args fun _ => .done ())).sent
  | log b => exact (s.run_outputs (.log [b] (.done ()))).sent
  | bind entry =>
      show Sends _ s (s.bind entry)
      unfold bind
      split
      · exact Sends.of_eq rfl
      · split <;> exact Sends.of_eq rfl
  | logAt level => exact Sends.of_eq rfl
  | onText hook => exact Sends.of_eq rfl
  | onAttach hook => exact Sends.of_eq rfl
  | onDetach hook => exact Sends.of_eq rfl
  | sketch state => exact Sends.of_eq rfl

end Server

end SerialRpc
