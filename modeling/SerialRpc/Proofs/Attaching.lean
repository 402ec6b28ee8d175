import SerialRpc.Proofs.Device.Signals
import SerialRpc.Proofs.Responses

/-!
# `SerialRpc.Proofs.Attaching`: the client and the device agree on the attachment

`connect` ends with an `rpc.attach` that is answered, and `disconnect` sends an `rpc.detach` that
is not. When nothing else attaches or detaches (`Wired.Move.Connects`), the device is attached
whenever the client says so: `attached_agrees`. The proof is on the messages. While the client waits
for the answer to its `rpc.attach`, that request is the last thing in the queue, or the device has
handled everything that was sent (`Dialogue.Attaching`).
-/

set_option autoImplicit false

namespace SerialRpc

open MsgPack

variable {sz : ServerSize} {σ : Type}

/-! ### The device -/

namespace Server

/-- A call is what its signal says, at some reading of the clock. -/
theorem hear_renewed (a : Attachment) (now now' : UInt32) (method : List UInt8)
    (args : Args sz.sizeT) :
    (a.hear now .renew).hear now' (callSignal method args)
      = a.hear now' (callSignal method args) := by
  unfold callSignal
  split
  · split <;> rfl
  · split <;> rfl

/-- A call that is dispatched is heard by the attachment as its signal, whether anything runs or
not. -/
theorem dispatch_hears (s : Server sz σ) (method : List UInt8) (args : Args sz.sizeT)
    (reply : Reply) :
    ∃ now, (s.dispatch method args reply).1.attachment
      = s.attachment.hear now (callSignal method args) := by
  rcases s.dispatch_cases method args reply with ⟨answer, hbuiltin, hdispatch⟩ |
    ⟨entry, hnone, -, hdispatch⟩ | ⟨hnone, -, hdispatch⟩
  · rw [hdispatch, countFailure_attachment]
    cases hbuiltin with
    | ping => exact ⟨s.lastFrameMs, by rw [callSignal_ping]; rfl⟩
    -- `rpc.list`, or an `rpc.attach` whose parameter is rejected.
    | rejected hoptional hunread =>
        refine ⟨s.lastFrameMs, ?_⟩
        rcases hoptional with rfl | rfl
        · rw [callSignal_list]
          rfl
        · rw [callSignal_attach, hunread]
          rfl
    | list =>
        refine ⟨s.lastFrameMs, ?_⟩
        rw [callSignal_list, s.packRpcListResult_attachment reply _]
        rfl
    | attach hread =>
        refine ⟨s.clock s.readings, ?_⟩
        rw [callSignal_attach, hread]
        exact s.attach_attachment _ reply
    | detach =>
        refine ⟨s.lastFrameMs, ?_⟩
        rw [callSignal_detach]
        exact s.detach_attachment
  · -- A handler of the sketch, and a method that nobody has.
    refine ⟨s.lastFrameMs, ?_⟩
    rw [hdispatch, countFailure_attachment, callSignal_of_not_builtin hnone]
    exact s.invoke_attachment entry.fn args reply
  · refine ⟨s.lastFrameMs, ?_⟩
    rw [hdispatch, callSignal_of_not_builtin hnone]
    rfl

/-- So is a report. -/
theorem handleReport_hears (s : Server sz σ) (report : Report) :
    ∃ now, (s.handleReport (some report)).attachment
      = s.attachment.hear now (reportSignal sz (some report)) := by
  cases report with
  | textLine line truncated => exact ⟨0, runHook_attachment s _⟩
  | frame payload =>
      -- Every frame renews the attachment, before its method is looked at.
      have hstamped : s.stamped.attachment = s.attachment.hear (s.clock s.readings) .renew := rfl
      show ∃ now, (s.handleFrame payload).attachment
        = s.attachment.hear now (payloadSignal sz payload)
      rw [handleFrame_eq]
      unfold receive payloadSignal
      cases readIncoming sz payload with
      | request msgid method args =>
          obtain ⟨now, hdispatch⟩ := s.stamped.dispatch_hears method args (newReply sz)
          refine ⟨now, (sendResponse_attachment _ _ _).trans ?_⟩
          rw [hdispatch, hstamped]
          exact hear_renewed s.attachment _ now method args
      | notification method args =>
          obtain ⟨now, hdispatch⟩ := s.stamped.dispatch_hears method args (newReply sz)
          refine ⟨now, ?_⟩
          show (s.stamped.dispatch method args (newReply sz)).1.attachment = _
          rw [hdispatch, hstamped]
          exact hear_renewed s.attachment _ now method args
      | malformed => exact ⟨s.clock s.readings, hstamped⟩

/-- A call renews, grants or ends the attachment, and nothing else. -/
theorem callSignal_cases (method : List UInt8) (args : Args sz.sizeT) :
    (∃ timeoutMs, callSignal method args = .grant timeoutMs) ∨ callSignal method args = .renew ∨
      callSignal method args = .release := by
  unfold callSignal
  split
  · cases readOptional args with
    | some timeoutMs => exact .inl ⟨timeoutMs, rfl⟩
    | none => exact .inr (.inl rfl)
  · split
    · exact .inr (.inr rfl)
    · exact .inr (.inl rfl)

/-- What reports there are to the attachment. -/
theorem reportSignal_cases (sz : ServerSize) (report : Report) :
    (∃ timeoutMs, reportSignal sz (some report) = .grant timeoutMs) ∨
      reportSignal sz (some report) = .renew ∨ reportSignal sz (some report) = .release ∨
      reportSignal sz (some report) = .idle := by
  cases report with
  | textLine line truncated => exact .inr (.inr (.inr rfl))
  | frame payload =>
      show (∃ timeoutMs, payloadSignal sz payload = .grant timeoutMs) ∨
        payloadSignal sz payload = .renew ∨ payloadSignal sz payload = .release ∨
          payloadSignal sz payload = .idle
      have hcalls (method : List UInt8) (args : Args sz.sizeT) :
          (∃ timeoutMs, callSignal method args = .grant timeoutMs) ∨
            callSignal method args = .renew ∨ callSignal method args = .release ∨
              callSignal method args = .idle :=
        (callSignal_cases method args).imp_right (Or.imp_right Or.inl)
      unfold payloadSignal
      cases readIncoming sz payload with
      | request msgid method args => exact hcalls method args
      | notification method args => exact hcalls method args
      | malformed => exact .inr (.inl rfl)

/-- No attachment with a timeout comes of the report. -/
def Lasting (sz : ServerSize) (report : Report) : Prop :=
  ∀ timeoutMs, reportSignal sz (some report) = .grant timeoutMs → timeoutMs = 0

/-- The report does not detach. -/
def Keeping (sz : ServerSize) (report : Report) : Prop :=
  reportSignal sz (some report) ≠ .release

/-- A report that does not attach with a timeout leaves the attachment without one. -/
theorem handleReport_lasting {s : Server sz σ} {report : Report} (hlasting : Lasting sz report)
    (hnone : s.attachHasTimeout = false) :
    (s.handleReport (some report)).attachHasTimeout = false := by
  obtain ⟨now, hears⟩ := s.handleReport_hears report
  refine (congrArg Attachment.hasTimeout hears).trans ?_
  rcases reportSignal_cases sz report with ⟨timeoutMs, hsignal⟩ | hsignal | hsignal | hsignal
  · obtain rfl := hlasting timeoutMs hsignal
    rw [hsignal]
    rfl
  · rw [hsignal]
    exact hnone
  · rw [hsignal]
    rfl
  · rw [hsignal]
    exact hnone

/-- A report that does not detach leaves the device attached. -/
theorem handleReport_keeping {s : Server sz σ} {report : Report} (hkeeping : Keeping sz report)
    (hattached : s.attached = true) : (s.handleReport (some report)).attached = true := by
  obtain ⟨now, hears⟩ := s.handleReport_hears report
  refine (congrArg Attachment.attached hears).trans ?_
  rcases reportSignal_cases sz report with ⟨timeoutMs, hsignal⟩ | hsignal | hsignal | hsignal
  · rw [hsignal]
    rfl
  · rw [hsignal]
    exact hattached
  · exact absurd hsignal hkeeping
  · rw [hsignal]
    exact hattached

/-- An `rpc.attach` attaches. -/
theorem handleReport_grant {s : Server sz σ} {report : Report} {timeoutMs : Nat}
    (hgrant : reportSignal sz (some report) = .grant timeoutMs) :
    (s.handleReport (some report)).attached = true := by
  obtain ⟨now, hears⟩ := s.handleReport_hears report
  rw [hgrant] at hears
  exact congrArg Attachment.attached hears

/-- The same of several reports. -/
theorem handleReports_lasting {s : Server sz σ} {reports : List Report}
    (hlasting : ∀ report ∈ reports, Lasting sz report) (hnone : s.attachHasTimeout = false) :
    (s.handleReports reports).attachHasTimeout = false := by
  induction reports generalizing s with
  | nil => exact hnone
  | cons report reports ih =>
      obtain ⟨hfirst, hlater⟩ := List.forall_mem_cons.mp hlasting
      exact ih hlater (handleReport_lasting hfirst hnone)

/-- The same of several reports. -/
theorem handleReports_keeping {s : Server sz σ} {reports : List Report}
    (hkeeping : ∀ report ∈ reports, Keeping sz report) (hattached : s.attached = true) :
    (s.handleReports reports).attached = true := by
  induction reports generalizing s with
  | nil => exact hattached
  | cons report reports ih =>
      obtain ⟨hfirst, hlater⟩ := List.forall_mem_cons.mp hkeeping
      exact ih hlater (handleReport_keeping hfirst hattached)

/-- An attachment without a timeout does not time out. -/
theorem checkAttachTimeout_lasting {s : Server sz σ} (hnone : s.attachHasTimeout = false) :
    s.checkAttachTimeout = s := by
  unfold checkAttachTimeout
  rw [hnone, Bool.and_false]
  rfl

end Server

/-! ### The client -/

namespace Wired

/-- What a client does that only attaches with `connect` and only detaches with `disconnect`. -/
def Move.Connects : Move sz σ → Prop
  | .notify method _ => method ≠ text "rpc.attach" ∧ method ≠ text "rpc.detach"
  | .call method args => method ≠ text "rpc.detach" ∧ (method = text "rpc.attach" → args = [])
  | .probe method => method ≠ text "rpc.attach" ∧ method ≠ text "rpc.detach"
  | _ => True

/-- The move counts the message ids on. -/
def Move.Counts : Move sz σ → Prop
  | .call _ _ => True
  | .probe _ => True
  | _ => False

instance (move : Move sz σ) : Decidable move.Counts := by
  cases move <;> first | exact isTrue trivial | exact isFalse id

end Wired

/-- A notification has the signal of its method. -/
theorem notifyPayload_signal {method : List UInt8} {args : List Value}
    (h : (notifyPayload method args).length < 2 ^ 16) (hattach : method ≠ text "rpc.attach")
    (hdetach : method ≠ text "rpc.detach") :
    payloadSignal sz (notifyPayload method args) = .renew := by
  obtain ⟨pos, -, hsignal⟩ := payloadSignal_call (Or.inr (notifyPayload_notification sz.sizeT h))
  rw [hsignal, callSignal_other hattach hdetach]

/-- The `rpc.detach` of `disconnect` detaches. -/
theorem detachPayload_signal
    (h : (notifyPayload (text "rpc.detach") []).length < 2 ^ 16) :
    payloadSignal sz (notifyPayload (text "rpc.detach") []) = .release := by
  obtain ⟨pos, -, hsignal⟩ := payloadSignal_call (Or.inr (notifyPayload_notification sz.sizeT h))
  rw [hsignal, callSignal_detach]

/-- So has a request. -/
theorem requestPayload_signal {msgid : UInt32} {method : List UInt8} {args : List Value}
    (h : (requestPayload msgid method args).length < 2 ^ 16) (hattach : method ≠ text "rpc.attach")
    (hdetach : method ≠ text "rpc.detach") :
    payloadSignal sz (requestPayload msgid method args) = .renew := by
  obtain ⟨pos, -, hsignal⟩ := payloadSignal_call
    (Or.inl ⟨_, requestPayload_request sz.sizeT msgid h⟩)
  rw [hsignal, callSignal_other hattach hdetach]

/-- The `rpc.attach` of `connect` attaches without a timeout. -/
theorem attachPayload_signal {msgid : UInt32}
    (h : (requestPayload msgid (text "rpc.attach") []).length < 2 ^ 16) :
    payloadSignal sz (requestPayload msgid (text "rpc.attach") []) = .grant 0 :=
  (payloadSignal_attach (Or.inl ⟨_, requestPayload_request sz.sizeT msgid h⟩)).mpr (.absent rfl)

/-- `disconnect` forgets the attachment, if its `rpc.detach` fits. -/
theorem RPC.disconnect_forgets {c : RPC} (h : c.Sized) (hattached : c.attached = true) :
    (c.disconnect writesAll).1.pendingMsgid = c.pendingMsgid ∧
      (c.disconnect writesAll).1.nextMsgid = c.nextMsgid ∧
      ((c.disconnect writesAll).1.attached = true →
        ¬ (notifyPayload (text "rpc.detach") []).length ≤ c.opts.maxFrame) := by
  obtain ⟨txPayload, txFrame, -, -, hsend⟩ := sendPacked_eq h writesAll
    (packNotify_eq (text "rpc.detach") []) ⟨"serial_rpc: notification payload exceeds max_frame"⟩
  rw [disconnect, if_pos hattached, notifyValues, hsend]
  rw [show PackOp.encodings (notifyOps (text "rpc.detach") [])
    = notifyPayload (text "rpc.detach") [] from rfl]
  by_cases hfits : (notifyPayload (text "rpc.detach") []).length ≤ c.opts.maxFrame
  · have hok : sendError c.opts.maxFrame writesAll
        ⟨"serial_rpc: notification payload exceeds max_frame"⟩
        (notifyPayload (text "rpc.detach") []) = none := by
      rw [sendError, if_pos hfits]
      exact if_pos rfl
    rw [hok]
    exact ⟨rfl, rfl, by rintro ⟨⟩⟩
  · rw [sendError, if_neg hfits]
    exact ⟨rfl, rfl, fun _ => hfits⟩

/-- Reports without the response to the call that waits leave it waiting. -/
theorem RPC.handleReports_unready {c : RPC} {msgid : Nat} (hpending : c.pendingMsgid = some msgid)
    (hready : c.pendingResponseReady = false) {reports : List Report}
    (hnot : msgid ∉ replyIds reports) : (c.handleReports reports).pendingResponseReady = false := by
  -- By induction on the reports: none of them is the response to the pending request.
  induction reports generalizing c with
  | nil => exact hready
  | cons report reports ih =>
      have hpending' := (c.handleReport_keeps (some report)).pendingMsgid.trans hpending
      refine ih hpending' ?_ fun hmem => hnot ?_
      · -- The first report leaves the slot empty.
        cases report with
        | textLine line truncated =>
            unfold handleReport
            dsimp only
            split <;> exact hready
        | frame payload =>
            show (c.handleFrame payload).1.pendingResponseReady = false
            rw [handleFrame_eq]
            cases hread : readMessage payload with
            | undecodable e => exact hready
            | other => exact hready
            | notification method args =>
                obtain ⟨calls, -, htook⟩ := takeNotification_eq c method args
                rw [take, htook]
                exact hready
            -- A response with the pending id would be among the replies.
            | response msgid' isError error result =>
                rw [take, takeResponse, if_neg fun hsame => hnot ?_]
                · exact hready
                · have hid := responseIdOf_response hread
                  rw [← Option.some.inj (hpending.symm.trans hsame)] at hid
                  exact List.mem_filterMap.mpr ⟨_, List.mem_cons_self, hid⟩
      · -- And the id is not among the replies that are left.
        obtain ⟨other, hother, hid⟩ := List.mem_filterMap.mp hmem
        exact List.mem_filterMap.mpr ⟨other, List.mem_cons_of_mem _ hother, hid⟩

/-! ### The messages -/

namespace Dialogue

/-- While the client waits for the answer to its `rpc.attach`: that request is the last thing in the
queue and not answered yet, or the device has handled all there was and is attached. -/
inductive Attaching (y : Dialogue sz σ) (msgid : Nat) : Prop
  | asked {front : List Report} {payload : List UInt8}
      (ready : y.client.pendingResponseReady = false)
      (queue : y.toDevice = front ++ [.frame payload])
      (attach : payloadSignal sz payload = .grant 0) (request : requestIdOf sz payload = some msgid)
      (before : msgid ∉ replyIds y.toClient ++ requestIds sz front)
  | done (queue : y.toDevice = []) (attached : y.device.attached = true)

/-- The client and the device agree. -/
structure Agrees (y : Dialogue sz σ) : Prop where
  timeless : y.device.attachHasTimeout = false
  lasting : ∀ report ∈ y.toDevice, Server.Lasting sz report
  attached : y.client.attached = true →
    y.device.attached = true ∧ ∀ report ∈ y.toDevice, Server.Keeping sz report
  attaching : ∀ msgid, y.client.pendingMsgid = some msgid → y.calling = text "rpc.attach" →
    y.Attaching msgid
  fresh : ∀ msgid ∈ y.onLine, msgid < y.client.nextMsgid.toNat

variable {y : Dialogue sz σ}

/-- A client that does not wait. -/
theorem Agrees.idle (h : y.Agrees) {client : RPC} (hidle : client.pendingMsgid = none)
    (hattached : client.attached = true → y.client.attached = true)
    (hnext : client.nextMsgid = y.client.nextMsgid) : Agrees { y with client := client } where
  timeless := h.timeless
  lasting := h.lasting
  attached := fun hclient => h.attached (hattached hclient)
  attaching := by
    intro msgid hpending
    rw [show ({ y with client := client } : Dialogue sz σ).client.pendingMsgid = none from hidle]
      at hpending
    cases hpending
  fresh := by
    show ∀ msgid ∈ y.onLine, msgid < client.nextMsgid.toNat
    rw [hnext]
    exact h.fresh

/-- The client sends something that neither attaches with a timeout nor detaches an attached
device. -/
theorem Agrees.sends (h : y.Agrees) {client : RPC} {payload : List UInt8} {calling : List UInt8}
    (hlasting : payload.length ≤ y.client.opts.maxFrame → Server.Lasting sz (.frame payload))
    (hattached : client.attached = true → y.client.attached = true ∧
      (payload.length ≤ y.client.opts.maxFrame → Server.Keeping sz (.frame payload)))
    (hattaching : ∀ msgid, client.pendingMsgid = some msgid → calling = text "rpc.attach" →
      Attaching (y.clientSends client payload) msgid)
    (hfresh : ∀ msgid ∈ (y.clientSends client payload).onLine, msgid < client.nextMsgid.toNat) :
    Agrees { y.clientSends client payload with calling := calling } where
  timeless := h.timeless
  -- What is new in the queue is the one payload, if it was sent at all.
  lasting := by
    intro report hreport
    rcases List.mem_append.mp hreport with hreport | hreport
    · exact h.lasting report hreport
    · split at hreport
      · obtain rfl := List.mem_singleton.mp hreport
        exact hlasting ‹_›
      · cases hreport
  -- A client that counts as attached had its device attached before, and sends nothing to end it.
  attached := by
    intro hclient
    obtain ⟨hbefore, hkeeping⟩ := hattached hclient
    obtain ⟨hdevice, hqueue⟩ := h.attached hbefore
    refine ⟨hdevice, fun report hreport => ?_⟩
    rcases List.mem_append.mp hreport with hreport | hreport
    · exact hqueue report hreport
    · split at hreport
      · obtain rfl := List.mem_singleton.mp hreport
        exact hkeeping ‹_›
      · cases hreport
  -- The request that attaches is in the queue, or has been answered.
  attaching := by
    intro msgid hpending hcalling
    cases hattaching msgid hpending hcalling with
    | asked ready queue attach request before => exact .asked ready queue attach request before
    | done queue attached => exact .done queue attached
  fresh := hfresh

/-- A request that starts a call. -/
theorem Agrees.starts (h : y.Agrees) (horderly : y.Orderly)
    (hidle : y.client.pendingMsgid = none) {method : List UInt8} {args : List Value}
    {started : RPC × List UInt8 × Option HostError}
    (hheard : sz.Hears y.client.opts.maxFrame (requestPayload y.client.nextMsgid method args))
    (hstarted : RPC.Started y.client RPC.writesAll method args started)
    (hdetach : method ≠ text "rpc.detach") (hattach : method = text "rpc.attach" → args = [])
    (hcount : y.client.nextMsgid.toNat + 1 < 2 ^ 32) :
    Agrees { y.clientSends started.1 (requestPayload y.client.nextMsgid method args) with
      calling := method } := by
  have hnext : started.1.nextMsgid.toNat = y.client.nextMsgid.toNat + 1 := by
    rw [hstarted.launched.nextMsgid, UInt32.toNat_add]
    exact Nat.mod_eq_of_lt hcount
  have hline := requests_onLine horderly started.1 hheard
  refine h.sends ?_ ?_ ?_ ?_
  · -- `connect` asks for no timeout.
    intro hfits timeoutMs hgrant
    by_cases hmethod : method = text "rpc.attach"
    · obtain rfl := hattach hmethod
      subst hmethod
      have hsignal : payloadSignal sz (requestPayload y.client.nextMsgid (text "rpc.attach") [])
          = .grant timeoutMs := hgrant
      rw [attachPayload_signal (horderly.short (hheard hfits))] at hsignal
      cases hsignal
      rfl
    · have hsignal : payloadSignal sz (requestPayload y.client.nextMsgid method args)
          = .grant timeoutMs := hgrant
      rw [requestPayload_signal (horderly.short (hheard hfits)) hmethod hdetach] at hsignal
      cases hsignal
  · intro hclient
    refine ⟨hstarted.launched.attached ▸ hclient, fun hfits hrelease => ?_⟩
    have hsignal : payloadSignal sz (requestPayload y.client.nextMsgid method args)
        = .release := hrelease
    by_cases hmethod : method = text "rpc.attach"
    · obtain rfl := hattach hmethod
      subst hmethod
      rw [attachPayload_signal (horderly.short (hheard hfits))] at hsignal
      cases hsignal
    · rw [requestPayload_signal (horderly.short (hheard hfits)) hmethod hdetach] at hsignal
      cases hsignal
  · -- The request is the last thing that was sent, and its id is new.
    intro msgid hpending hcalling
    obtain rfl := hattach hcalling
    subst hcalling
    obtain ⟨rfl, hwaiting, hfits⟩ := hstarted.pending_sent hidle hpending
    have hnew : y.client.nextMsgid.toNat ∉ y.onLine := fun hmem =>
      absurd (h.fresh _ hmem) (Nat.lt_irrefl _)
    refine .asked hwaiting.notReady ?_ (attachPayload_signal (horderly.short (hheard hfits)))
      (requestPayload_requestId (horderly.short (hheard hfits))) hnew
    show y.toDevice ++ (if _ then _ else _) = _
    rw [if_pos hfits]
  · -- Ids on the line are old ones, or the one that was just taken.
    intro msgid hmem
    rw [hline] at hmem
    rw [hnext]
    rcases List.mem_append.mp hmem with hmem | hmem
    · exact Nat.lt_succ_of_lt (h.fresh msgid hmem)
    · split at hmem
      · obtain rfl := List.mem_singleton.mp hmem
        exact Nat.lt_succ_self _
      · cases hmem

/-- A notification that neither attaches nor detaches. -/
theorem Agrees.notifies (h : y.Agrees) (horderly : y.Orderly) (hsized : y.client.Sized)
    (hidle : y.client.pendingMsgid = none) {method : List UInt8} {args : List Value}
    (hheard : sz.Hears y.client.opts.maxFrame (notifyPayload method args))
    (hattach : method ≠ text "rpc.attach") (hdetach : method ≠ text "rpc.detach") :
    (y.step (.notify method args)).Agrees := by
  have hlater := RPC.notifyValues_later hsized RPC.writesAll method args
  -- No call is pending, so there is nothing to say of an answer.
  have hnone := (y.client.notifyValues_pending RPC.writesAll method args).2.msgid.trans hidle
  have hsignal (hfits : (notifyPayload method args).length ≤ y.client.opts.maxFrame) :
      payloadSignal sz (notifyPayload method args) = .renew :=
    notifyPayload_signal (horderly.short (hheard hfits)) hattach hdetach
  refine h.sends ?_ ?_ ?_ ?_
  · intro hfits timeoutMs hgrant
    have hother : payloadSignal sz (notifyPayload method args) = .grant timeoutMs := hgrant
    rw [hsignal hfits] at hother
    cases hother
  · intro hclient
    refine ⟨hlater.attached ▸ hclient, fun hfits hrelease => ?_⟩
    have hother : payloadSignal sz (notifyPayload method args) = .release := hrelease
    rw [hsignal hfits] at hother
    cases hother
  · intro msgid hpending
    rw [hnone] at hpending
    cases hpending
  · rw [notifies_onLine horderly _ hheard, hlater.nextMsgid, UInt32.add_zero]
    exact h.fresh

/-- `disconnect` forgets the attachment, if it can send. -/
theorem Agrees.disconnects (h : y.Agrees) (horderly : y.Orderly) (hsized : y.client.Sized)
    (hpermits : y.Permits .disconnect) : (y.step .disconnect).Agrees := by
  show (if y.client.attached then _ else y : Dialogue sz σ).Agrees
  by_cases hattached : y.client.attached = true
  · rw [if_pos hattached]
    obtain ⟨hsame, hnext, hforgets⟩ := RPC.disconnect_forgets hsized hattached
    have hpending := hsame.trans hpermits.timely
    have hheard := hpermits.heard _ (if_pos hattached)
    refine h.sends ?_ ?_ ?_ ?_
    · intro hfits timeoutMs hgrant
      have hother : payloadSignal sz (notifyPayload (text "rpc.detach") []) = .grant timeoutMs :=
        hgrant
      rw [detachPayload_signal (horderly.short (hheard hfits))] at hother
      cases hother
    · -- Still attached only if the notification was not sent.
      intro hclient
      exact ⟨hattached, fun hfits => absurd hfits (hforgets hclient)⟩
    · intro msgid hwaits
      rw [hpending] at hwaits
      cases hwaits
    · rw [notifies_onLine horderly _ hheard, hnext]
      exact h.fresh
  · rw [if_neg hattached]
    exact h

/-- The device polls. -/
theorem Agrees.polls (h : y.Agrees) (horderly : y.Orderly) (n : Nat)
    (hpermits : y.Permits (.poll n)) : (y.step (.poll n)).Agrees := by
  have hconserves := step_conserves horderly hpermits
  have htaken : ∀ report ∈ y.toDevice.take n, report ∈ y.toDevice := fun _ => List.mem_of_mem_take
  -- No timeout is ever granted, so `check_attach_timeout_` finds nothing to do.
  have htimeless := Server.handleReports_lasting
    (fun report hreport => h.lasting report (htaken report hreport)) h.timeless
  have hcheck := Server.checkAttachTimeout_lasting htimeless
  have htells := Server.handleReports_tells horderly.room horderly.wide horderly.packs
    (y.toDevice.take n)
  have hreplies := deviceGoes_toClient horderly (y.device.handleReports_cleanly (y.toDevice.take n))
    htells
  show Agrees { y.deviceGoes (y.device.handleReports (y.toDevice.take n)).checkAttachTimeout with
    toDevice := y.toDevice.drop n }
  rw [hcheck]
  constructor
  · exact htimeless
  · exact fun report hreport => h.lasting report (List.mem_of_mem_drop hreport)
  · intro hclient
    obtain ⟨hattached, hkeeping⟩ := h.attached hclient
    exact ⟨Server.handleReports_keeping
      (fun report hreport => hkeeping report (htaken report hreport)) hattached,
      fun report hreport => hkeeping report (List.mem_of_mem_drop hreport)⟩
  · intro msgid hpending hcalling
    cases h.attaching msgid hpending hcalling with
    | done queue attached =>
        refine .done ?_ ?_
        · show y.toDevice.drop n = []
          rw [queue, List.drop_nil]
        · show (y.device.handleReports (y.toDevice.take n)).attached = true
          rw [queue, List.take_nil]
          exact attached
    | @asked front payload ready queue attach request before =>
        by_cases hshort : n ≤ front.length
        · -- The request is not among what is handled.
          have hqueue : y.toDevice.drop n = front.drop n ++ [.frame payload] := by
            rw [queue, List.drop_append_of_le_length hshort]
          have hids : (front.take n).filterMap (Report.requestId sz) ++ requestIds sz (front.drop n)
              = requestIds sz front := by
            unfold requestIds
            rw [← List.filterMap_append, List.take_append_drop]
          refine .asked ready hqueue attach request ?_
          show msgid ∉ replyIds (y.deviceGoes _).toClient ++ _
          rw [hreplies, queue, List.take_append_of_le_length hshort, List.append_assoc, hids]
          exact before
        · -- It is the last thing that is handled.
          have hlong : y.toDevice.length ≤ n := by
            rw [queue, List.length_append, List.length_singleton]
            omega
          have hgrant : reportSignal sz (some (.frame payload)) = .grant 0 := attach
          refine .done (List.drop_eq_nil_of_le hlong) ?_
          show (y.device.handleReports (y.toDevice.take n)).attached = true
          rw [List.take_of_length_le hlong, queue, Server.handleReports_append]
          exact Server.handleReport_grant hgrant
  · have hline : (y.step (.poll n)).onLine = y.onLine ++ [] := hconserves
    rw [List.append_nil] at hline
    intro msgid hmem
    refine h.fresh msgid ?_
    rw [← hline]
    show msgid ∈ onLine { y.deviceGoes
      (y.device.handleReports (y.toDevice.take n)).checkAttachTimeout with
        toDevice := y.toDevice.drop n }
    rw [hcheck]
    exact hmem

/-- The client reads. -/
theorem Agrees.pumps (h : y.Agrees) (horderly : y.Orderly) (n : Nat)
    (hpermits : y.Permits (.pump n)) : (y.step (.pump n)).Agrees := by
  have hkeeps := y.client.handleReports_keeps (y.toClient.take n)
  have hconserves := step_conserves horderly hpermits
  have hsplit : replyIds y.toClient
      = replyIds (y.toClient.take n) ++ replyIds (y.toClient.drop n) := by
    rw [replyIds, replyIds, replyIds, ← List.filterMap_append, List.take_append_drop]
  constructor
  · exact h.timeless
  · exact h.lasting
  · exact fun hclient => h.attached (hkeeps.attached.symm.trans hclient)
  · intro msgid hpending hcalling
    have hpending' := hkeeps.pendingMsgid.symm.trans hpending
    cases h.attaching msgid hpending' hcalling with
    | done queue attached => exact .done queue attached
    -- What is read now holds no answer to the request, nor does the rest of the queue.
    | asked ready queue attach request before =>
        rw [hsplit, List.append_assoc, List.mem_append, not_or] at before
        exact .asked (RPC.handleReports_unready hpending' ready before.1) queue attach request
          before.2
  · intro msgid hmem
    have hnext : (y.step (.pump n)).client.nextMsgid = y.client.nextMsgid := hkeeps.nextMsgid
    rw [hnext]
    refine h.fresh msgid ?_
    have hline : replyIds (y.toClient.take n) ++ (y.step (.pump n)).onLine = y.onLine :=
      hconserves.trans (List.append_nil _)
    rw [← hline]
    exact List.mem_append_right _ hmem

/-- The sketch has no hold on the attachment. -/
theorem act_attachment {event : Server.Event sz σ} (h : event.Clean) (s : Server sz σ) :
    (s.act event).attachment = s.attachment := by
  cases event with
  | byte b => exact h.elim
  | pollEnd => exact h.elim
  | begin => exact h.elim
  | notify name args => exact s.notify_attachment name args
  | log b => exact s.logByte_attachment b
  | bind entry => exact s.bind_attachment entry
  | logAt level => rfl
  | onText hook => rfl
  | onAttach hook => rfl
  | onDetach hook => rfl
  | sketch state => rfl

/-- The sketch in its main loop changes nothing of the attachment. -/
theorem Agrees.sketches (h : y.Agrees) (horderly : y.Orderly) {event : Server.Event sz σ}
    (hpermits : y.Permits (.sketch event)) : (y.step (.sketch event)).Agrees := by
  have hconserves := step_conserves horderly hpermits
  have hsame := act_attachment hpermits.timely y.device
  have hattached : (y.device.act event).attached = y.device.attached :=
    congrArg Attachment.attached hsame
  -- A sketch sends, and what it sends are no responses.
  have hreplies := deviceGoes_toClient horderly (Server.act_cleanly hpermits.timely y.device)
    (Server.act_tells hpermits.timely y.device)
  rw [List.append_nil] at hreplies
  constructor
  · exact (congrArg Attachment.hasTimeout hsame).trans h.timeless
  · exact h.lasting
  · intro hclient
    obtain ⟨hdevice, hkeeping⟩ := h.attached hclient
    exact ⟨hattached.trans hdevice, hkeeping⟩
  · -- So a request that was asked is still unanswered.
    intro msgid hpending hcalling
    cases h.attaching msgid hpending hcalling with
    | done queue attached => exact .done queue (hattached.trans attached)
    | @asked front payload ready queue attach request before =>
        refine .asked ready queue attach request ?_
        show msgid ∉ replyIds (y.deviceGoes (y.device.act event)).toClient ++ requestIds sz front
        rw [hreplies]
        exact before
  · have hline : (y.step (.sketch event)).onLine = y.onLine ++ [] := hconserves
    rw [hline, List.append_nil]
    exact h.fresh

/-- The answer to the `rpc.attach` of `connect` is there. -/
theorem Agrees.attaches (h : y.Agrees) (hpermits : y.Permits .attached) :
    (y.step .attached).Agrees := by
  obtain ⟨⟨hsome, hready, -⟩, hcalling⟩ := hpermits.timely
  obtain ⟨msgid, hpending⟩ := Option.isSome_iff_exists.mp hsome
  have hdone : y.toDevice = [] ∧ y.device.attached = true := by
    cases h.attaching msgid hpending hcalling with
    | done queue attached => exact ⟨queue, attached⟩
    | asked ready =>
        rw [ready] at hready
        cases hready
  constructor
  · exact h.timeless
  · exact h.lasting
  · intro _
    refine ⟨hdone.2, fun report hreport => ?_⟩
    have hnone : report ∈ y.toDevice := hreport
    rw [hdone.1] at hnone
    cases hnone
  · rintro msgid ⟨⟩
  · exact h.fresh

/-- **One move** keeps the agreement. -/
theorem step_agrees (h : y.Agrees) (horderly : y.Orderly) (hsized : y.client.Sized)
    {move : Wired.Move sz σ} (hpermits : y.Permits move) (hconnects : move.Connects)
    (hcount : move.Counts → y.client.nextMsgid.toNat + 1 < 2 ^ 32) : (y.step move).Agrees := by
  -- One case for each move; the calls and the notifications are the moves that send.
  cases move with
  | notify method args =>
      exact h.notifies horderly hsized hpermits.timely (hpermits.heard _ rfl) hconnects.1
        hconnects.2
  | call method args =>
      exact h.starts horderly hpermits.timely (hpermits.heard _ rfl)
        (RPC.startCall_started hsized RPC.writesAll method args) hconnects.1 hconnects.2
        (hcount trivial)
  | probe method =>
      exact h.starts horderly hpermits.timely (hpermits.heard _ rfl)
        (RPC.startTry_started hsized RPC.writesAll method) hconnects.2
        (fun hattach => absurd hattach hconnects.1) (hcount trivial)
  | pump n => exact h.pumps horderly n hpermits
  | poll n => exact h.polls horderly n hpermits
  | sketch event => exact h.sketches horderly hpermits
  | disconnect => exact h.disconnects horderly hsized hpermits
  | attached => exact h.attaches hpermits
  -- A call that ends sends nothing.
  | returns => exact h.idle rfl id rfl
  | expires => exact h.idle rfl id rfl
  | replied => exact h.idle rfl id rfl
  | givesUp => exact h.idle rfl id rfl

/-- What a move counts. -/
theorem step_nextMsgid (hsized : y.client.Sized) (move : Wired.Move sz σ) :
    (y.step move).client.nextMsgid = y.client.nextMsgid + (if move.Counts then 1 else 0) := by
  have hsame : y.client.nextMsgid = y.client.nextMsgid + 0 := (UInt32.add_zero _).symm
  -- Only calls and pings count a message id.
  cases move with
  | notify method args => exact (RPC.notifyValues_later hsized RPC.writesAll method args).nextMsgid
  | call method args =>
      exact (RPC.startCall_started hsized RPC.writesAll method args).launched.nextMsgid
  | probe method => exact (RPC.startTry_started hsized RPC.writesAll method).launched.nextMsgid
  | pump n => exact (y.client.handleReports_keeps (y.toClient.take n)).nextMsgid.trans hsame
  | disconnect =>
      show (if y.client.attached then _ else y : Dialogue sz σ).client.nextMsgid = _
      by_cases hattached : y.client.attached = true
      · rw [if_pos hattached]
        exact (RPC.disconnect_forgets hsized hattached).2.1.trans hsame
      · rw [if_neg hattached]
        exact hsame
  | returns => exact hsame
  | expires => exact hsame
  | replied => exact hsame
  | givesUp => exact hsame
  | attached => exact hsame
  | sketch event => exact hsame
  | poll n => exact hsame

/-- Nothing is in flight at the start. -/
theorem start_agrees {client : RPC} {device : Server sz σ} {line : Splitter}
    (htimeless : device.attachHasTimeout = false) (hidle : client.pendingMsgid = none)
    (hattached : client.attached = true → device.attached = true) :
    (Dialogue.start client device line).Agrees := by
  constructor
  · exact htimeless
  · exact fun report hreport => absurd hreport List.not_mem_nil
  · exact fun hclient => ⟨hattached hclient, fun report hreport => absurd hreport List.not_mem_nil⟩
  · intro msgid hpending
    rw [show (Dialogue.start client device line).client.pendingMsgid = none from hidle] at hpending
    cases hpending
  · exact fun msgid hmem => absurd hmem List.not_mem_nil

end Dialogue

/-- The number of a read says nothing of the attachment. -/
theorem alike_connects {move move' : Wired.Move sz σ} (h : move.Alike move') :
    (move.Connects → move'.Connects) ∧ (move'.Counts ↔ move.Counts) := by
  cases h with
  | same => exact ⟨id, Iff.rfl⟩
  | pump => exact ⟨id, Iff.rfl⟩
  | poll => exact ⟨id, Iff.rfl⟩

/-- A whole run. -/
theorem run_agrees (hwide : sz.kFrameMax ≤ hostDemuxSize.frameMax) (hroom : 32 ≤ sz.bufSize)
    {x : Wired sz σ} {y : Dialogue sz σ} (h : Carry x y) (hpacks : y.device.PacksValues)
    (hagrees : y.Agrees) {moves : List (Wired.Move sz σ)} (hpermits : x.PermitsAll moves)
    (hmoves : ∀ move ∈ moves, move.Packs) (hconnects : ∀ move ∈ moves, move.Connects)
    (hcount : y.client.nextMsgid.toNat + moves.countP (fun move => decide move.Counts) < 2 ^ 32) :
    ∃ y' : Dialogue sz σ, Carry (x.run moves) y' ∧ y'.Agrees := by
  induction moves generalizing x y with
  | nil => exact ⟨y, h, hagrees⟩
  | cons move moves ih =>
      obtain ⟨hmove, hlater⟩ := hpermits
      obtain ⟨hpack, hpackLater⟩ := List.forall_mem_cons.mp hmoves
      obtain ⟨hconnect, hconnectLater⟩ := List.forall_mem_cons.mp hconnects
      obtain ⟨move', halike, hmove', -, hstep⟩ := step_refines hwide h hmove
      obtain ⟨hconnect', hcounts⟩ := alike_connects halike
      have horderly := h.orderly hwide hroom hpacks
      rw [List.countP_cons] at hcount
      have hnext := Dialogue.step_nextMsgid h.sized move'
      have hagrees' := Dialogue.step_agrees hagrees horderly h.sized hmove' (hconnect' hconnect)
        (fun hcounted => by
          rw [if_pos (decide_eq_true (hcounts.mp hcounted))] at hcount
          omega)
      refine ih hstep (Dialogue.step_packs hpacks hmove'.timely (alike_packs halike hpack)) hagrees'
        hlater hpackLater hconnectLater ?_
      -- The count of the moves that are left makes up for the id.
      by_cases hcounted : move.Counts
      · rw [if_pos (decide_eq_true hcounted)] at hcount
        rw [hnext, if_pos (hcounts.mpr hcounted), UInt32.toNat_add]
        have hone : (1 : UInt32).toNat = 1 := rfl
        omega
      · rw [if_neg (fun htrue => hcounted (of_decide_eq_true htrue))] at hcount
        rw [hnext, if_neg (fun hcounted' => hcounted (hcounts.mp hcounted')), UInt32.add_zero]
        exact hcount

/-- `connect`, behind the `ready` line. -/
def connectMoves : List (Wired.Move Server.small Unit) :=
  [.call (text "rpc.attach") [], .poll 30, .pump 30, .attached]

end SerialRpc
