import SerialRpc.Proofs.Device.Answering
import SerialRpc.Proofs.EndToEnd
import SerialRpc.Proofs.Host.Nesting
import SerialRpc.Proofs.Wired

/-!
# `SerialRpc.Proofs.Responses`: every request gets its response

On the messages (`Dialogue`) the ids of the requests and of the responses move in one direction:
from the client to the device, and there from one queue to the other. `step_conserves` says so of
one move, and with `step_refines` it holds of every run on the bytes.

* `responses_in_order`: the ids of the responses that the client was given, then of those on their
  way, then of the requests on their way, are the ids of all requests that were sent, in order.
* `waiting_answered`: while a call waits, its request or its response is on the line.
-/

set_option autoImplicit false

namespace SerialRpc

open MsgPack

variable {sz : ServerSize} {σ : Type}

/-- The ids of the responses among some reports. -/
def replyIds (reports : List Report) : List Nat := reports.filterMap Report.responseId

/-- The ids of the requests among some reports. -/
def requestIds (sz : ServerSize) (reports : List Report) : List Nat :=
  reports.filterMap (Report.requestId sz)

namespace Wired

/-- The request that is sent in a move, by its id. It is not sent if it does not fit. -/
def issuedBy (c : RPC) : Move sz σ → List Nat
  | .call method args =>
      if (requestPayload c.nextMsgid method args).length ≤ c.opts.maxFrame then
        [c.nextMsgid.toNat]
      else []
  | .probe method =>
      if (requestPayload c.nextMsgid method []).length ≤ c.opts.maxFrame then [c.nextMsgid.toNat]
      else []
  | _ => []

/-- The requests of a run. -/
def issuedIn (x : Wired sz σ) : List (Move sz σ) → List Nat
  | [] => []
  | move :: moves => issuedBy x.client move ++ (x.step move).issuedIn moves

/-- A handler that is bound packs at most one value. -/
def Move.Packs : Move sz σ → Prop
  | .sketch (.bind entry) => Server.PacksOneValue entry.fn
  | _ => True

/-- The responses and then the requests that are on the line. -/
def onLine (x : Wired sz σ) : List Nat :=
  replyIds ((demux hostDemuxSize).messages x.client.demux x.toClient) ++
    requestIds sz ((demux sz.demuxSize).messages x.device.demux x.toDevice)

end Wired

/-! ### What the client sends -/

/-- The parts of a notification. -/
theorem notifyPayload_eq (method : List UInt8) (args : List Value) :
    notifyPayload method args
      = [0x93] ++ ([0x02] ++ (shortest (.str method.length) ++ method
          ++ (shortest (.array args.length) ++ PackOp.encodings (Value.opsElems args)))) := by
  rw [notifyPayload, notifyOps, PackOp.encodings_append]
  show [0x93] ++ ([0x02] ++ ((PackOp.str method).encoding
    ++ ((PackOp.array args.length).encoding ++ []))) ++ _ = _
  simp [PackOp.encoding, PackOp.token, PackOp.body]

/-- The client's notification is one to the device. -/
theorem notifyPayload_notification (w : SizeT) {method : List UInt8} {args : List Value}
    (h : (notifyPayload method args).length < 2 ^ 16) :
    Notification w method args.length (PackOp.encodings (Value.opsElems args))
      (notifyPayload method args) := by
  have hargs := Value.length_le_opsElems args
  have hbytes := PackOp.length_le_encodings (Value.opsElems args)
  rw [notifyPayload_eq] at h ⊢
  simp only [List.length_append] at h
  exact .mk (by decide) (by decide)
    (.mk (spells_shortest (show method.length < 2 ^ 32 by omega))
      (spells_shortest (show args.length < 2 ^ 32 by omega))
      (Reader.asLength_eq_some.mp (Reader.asLength_small w (by omega))).2
      (Reader.asLength_eq_some.mp (Reader.asLength_small w (by omega))).2)

/-- A notification has no message id to answer. -/
theorem notifyPayload_requestId {method : List UInt8} {args : List Value}
    (h : (notifyPayload method args).length < 2 ^ 16) :
    requestIdOf sz (notifyPayload method args) = none := by
  obtain ⟨pos, hread, -⟩ := readIncoming_notification (notifyPayload_notification sz.sizeT h)
  rw [requestIdOf, hread]

/-- A request is answered under its own message id. -/
theorem requestPayload_requestId {msgid : UInt32} {method : List UInt8} {args : List Value}
    (h : (requestPayload msgid method args).length < 2 ^ 16) :
    requestIdOf sz (requestPayload msgid method args) = some msgid.toNat := by
  obtain ⟨pos, hread, -⟩ := readIncoming_request (requestPayload_request sz.sizeT msgid h)
  rw [requestIdOf, hread]

/-! ### What the device writes -/

/-- A text has no response in it. -/
theorem replyIds_text {frameMax lineMax : Nat} {line : Splitter} (htext : line.block = none)
    {bytes : List UInt8} (hbytes : 0 ∉ bytes) :
    replyIds ((splitter frameMax lineMax).messages line bytes) = [] := by
  refine List.filterMap_eq_nil_iff.mpr fun report hreport => ?_
  cases report with
  | textLine text truncated => rfl
  | frame payload =>
      have hnone := (Splitter.text_frameless frameMax lineMax line bytes htext hbytes).1
      exact absurd ((Mealy.mem_messages _).mp hreport) (hnone payload)

/-- The client is told the responses that the device writes. -/
theorem overhearAll_ids {line : Splitter} (htext : line.block = none) {writes : List Sent}
    (hwrites : ∀ w ∈ writes, w.OnWire sz) :
    replyIds (overhearAll line writes).1 = answerIds writes := by
  induction writes generalizing line with
  | nil => rfl
  | cons write writes ih =>
      obtain ⟨hwrite, hlater⟩ := List.forall_mem_cons.mp hwrites
      -- A write leaves the client between two frames.
      have hrest : (overhear line write).2.block = none := by
        cases write with
        | frame payload bytes => exact htext
        | text bytes => exact (Splitter.text_frameless _ _ line bytes htext hwrite).2
      have hfirst : replyIds (overhear line write).1 = answerIds [write] := by
        cases write with
        | frame payload bytes =>
            show List.filterMap Report.responseId [Report.frame payload]
              = List.filterMap Sent.responseId [Sent.frame payload bytes]
            cases hid : responseIdOf payload with
            | none =>
                rw [List.filterMap_cons_none
                    (show Report.responseId (.frame payload) = none from hid),
                  List.filterMap_cons_none
                    (show Sent.responseId (.frame payload bytes) = none from hid)]
                rfl
            | some msgid =>
                rw [List.filterMap_cons_some
                    (show Report.responseId (.frame payload) = some msgid from hid),
                  List.filterMap_cons_some
                    (show Sent.responseId (.frame payload bytes) = some msgid from hid)]
                rfl
        | text bytes => exact replyIds_text htext hwrite
      rw [overhearAll, replyIds, List.filterMap_append]
      show replyIds (overhear line write).1
        ++ replyIds (overhearAll (overhear line write).2 writes).1 = answerIds ([write] ++ writes)
      rw [hfirst, ih hrest hlater, answerIds, answerIds, answerIds, List.filterMap_append]

namespace Dialogue

/-- The responses and then the requests that are in the queues. -/
def onLine (y : Dialogue sz σ) : List Nat :=
  replyIds y.toClient ++ requestIds sz y.toDevice

/-- What the parties keep to: the device has room for its answers and the client for these, and
every handler packs at most one value. -/
structure Orderly (y : Dialogue sz σ) : Prop where
  wide : sz.kFrameMax ≤ hostDemuxSize.frameMax
  room : 32 ≤ sz.bufSize
  packs : y.device.PacksValues
  clean : y.device.Clean
  between : y.line.block = none

variable {y : Dialogue sz σ}

/-- A payload that the device has room for is short. -/
theorem Orderly.short (h : y.Orderly) {payload : List UInt8}
    (hfits : payload.length ≤ sz.bufSize) : payload.length < 2 ^ 16 := by
  have hwide : sz.kFrameMax ≤ 4096 := h.wide
  unfold ServerSize.kFrameMax cobsMaxEncodedSize at hwide
  omega

/-- The client sends a payload. -/
theorem clientSends_onLine (client : RPC) (payload : List UInt8) :
    (y.clientSends client payload).onLine = y.onLine ++
      (if payload.length ≤ y.client.opts.maxFrame then (requestIdOf sz payload).toList
        else []) := by
  show replyIds y.toClient ++ requestIds sz (y.toDevice ++ _) = _
  rw [requestIds, List.filterMap_append, ← List.append_assoc]
  refine congrArg (y.onLine ++ ·) ?_
  -- What was sent is one more message in the queue, and it may be a request.
  split
  · show List.filterMap (Report.requestId sz) [Report.frame payload]
      = (requestIdOf sz payload).toList
    cases hid : requestIdOf sz payload with
    | none =>
        rw [List.filterMap_cons_none (show Report.requestId sz (.frame payload) = none from hid)]
        rfl
    | some msgid =>
        rw [List.filterMap_cons_some
          (show Report.requestId sz (.frame payload) = some msgid from hid)]
        rfl
  · rfl

/-- A notification is no request. -/
theorem notifies_onLine (h : y.Orderly) (client : RPC) {method : List UInt8} {args : List Value}
    (hheard : sz.Hears y.client.opts.maxFrame (notifyPayload method args)) :
    (y.clientSends client (notifyPayload method args)).onLine = y.onLine := by
  rw [clientSends_onLine]
  split
  · rename_i hfits
    rw [notifyPayload_requestId (h.short (hheard hfits))]
    exact List.append_nil _
  · exact List.append_nil _

/-- A request is one, if it is sent. -/
theorem requests_onLine (h : y.Orderly) (client : RPC) {msgid : UInt32} {method : List UInt8}
    {args : List Value}
    (hheard : sz.Hears y.client.opts.maxFrame (requestPayload msgid method args)) :
    (y.clientSends client (requestPayload msgid method args)).onLine = y.onLine ++
      (if (requestPayload msgid method args).length ≤ y.client.opts.maxFrame then [msgid.toNat]
        else []) := by
  rw [clientSends_onLine]
  split
  · rename_i hfits
    rw [requestPayload_requestId (h.short (hheard hfits))]
    rfl
  · rfl

/-- The device comes to a state in which it has answered the requests `ids`. -/
theorem deviceGoes_toClient (h : y.Orderly) {s : Server sz σ} {ids : List Nat}
    (hcleanly : Server.Cleanly y.device s) (htells : Server.Tells ids y.device s) :
    replyIds (y.deviceGoes s).toClient = replyIds y.toClient ++ ids := by
  obtain ⟨-, during, hsent, hwire⟩ := hcleanly h.clean
  obtain ⟨during', hsent', hids⟩ := htells
  have hsame : during' = during := List.append_cancel_left (hsent'.symm.trans hsent)
  have hwritten : writtenBy y.device s = during := by
    rw [writtenBy, hsent, List.drop_left]
  show replyIds (y.toClient ++ (overhearAll y.line (writtenBy y.device s)).1) = _
  rw [replyIds, List.filterMap_append, hwritten]
  exact congrArg (replyIds y.toClient ++ ·)
    ((overhearAll_ids h.between hwire).trans (hsame ▸ hids))

/-- **One move** takes responses off the line at one end and puts a request on it at the other. -/
theorem step_conserves (h : y.Orderly) {move : Wired.Move sz σ} (hpermits : y.Permits move) :
    replyIds (y.told move) ++ (y.step move).onLine
      = y.onLine ++ Wired.issuedBy y.client move := by
  have hsilent : y.onLine = y.onLine ++ [] := (List.append_nil _).symm
  cases move with
  | notify method args => exact (notifies_onLine h _ (hpermits.heard _ rfl)).trans hsilent
  | call method args =>
      exact requests_onLine h (y.client.startCall RPC.writesAll method args).1
        (hpermits.heard _ rfl)
  | probe method =>
      exact requests_onLine h (y.client.startTry RPC.writesAll method).1 (hpermits.heard _ rfl)
  | disconnect =>
      show (if y.client.attached then _ else y).onLine = _
      split
      · rename_i hattached
        exact (notifies_onLine h _ (hpermits.heard _ (if_pos hattached))).trans hsilent
      · exact hsilent
  | pump n =>
      -- The client takes off the line what it is told.
      show replyIds (y.toClient.take n)
        ++ (replyIds (y.toClient.drop n) ++ requestIds sz y.toDevice) = y.onLine ++ []
      rw [List.append_nil, ← List.append_assoc, replyIds, replyIds, ← List.filterMap_append,
        List.take_append_drop]
      rfl
  | poll n =>
      -- The requests that are taken off come back as responses, in their order.
      have htells := (Server.handleReports_tells h.room h.wide h.packs (y.toDevice.take n)).trans
        (Server.checkAttachTimeout_tells _)
      have hcleanly := (y.device.handleReports_cleanly (y.toDevice.take n)).trans
        (Server.checkAttachTimeout_cleanly _)
      show replyIds (y.deviceGoes _).toClient ++ requestIds sz (y.toDevice.drop n) = y.onLine ++ []
      rw [deviceGoes_toClient h hcleanly htells, List.append_nil, List.append_nil,
        List.append_assoc]
      refine congrArg (replyIds y.toClient ++ ·) ?_
      rw [requestIds, requestIds, ← List.filterMap_append, List.take_append_drop]
  | sketch event =>
      have hgoes := deviceGoes_toClient h (Server.act_cleanly hpermits.timely y.device)
        (Server.act_tells hpermits.timely y.device)
      show replyIds (y.deviceGoes _).toClient ++ requestIds sz y.toDevice = y.onLine ++ []
      rw [hgoes, List.append_nil, List.append_nil]
      rfl
  | returns => exact hsilent
  | expires => exact hsilent
  | replied => exact hsilent
  | givesUp => exact hsilent
  | attached => exact hsilent

/-- The table keeps to it that each handler packs at most one value. -/
theorem step_packs (h : y.device.PacksValues) {move : Wired.Move sz σ}
    (htimely : move.Timely y.client y.calling) (hpacks : move.Packs) :
    (y.step move).device.PacksValues := by
  -- Most moves do not touch the table of handlers.
  have same {s : Server sz σ} (hsame : s.handlers = y.device.handlers) : s.PacksValues := by
    unfold Server.PacksValues
    rw [hsame]
    exact h
  cases move with
  | poll n =>
      exact same ((Server.checkAttachTimeout_keeps _).1.trans (Server.handleReports_table _ _))
  -- A sketch may bind a handler, which packs one value by assumption.
  | sketch event =>
      show (y.device.act event).PacksValues
      cases event with
      | bind entry =>
          have hentry : ∀ e ∈ [entry], Server.PacksOneValue e.fn := by
            intro e hmem
            rwa [List.mem_singleton.mp hmem]
          exact Server.binds_forall (p := Server.PacksOneValue) hentry h
      | byte b => exact htimely.elim
      | pollEnd => exact htimely.elim
      | begin => exact htimely.elim
      | notify name args => exact same (y.device.run_keeps (.notify name args fun _ => .done ())).1
      | log b => exact same (y.device.run_keeps (.log [b] (.done ()))).1
      | logAt level => exact h
      | onText hook => exact h
      | onAttach hook => exact h
      | onDetach hook => exact h
      | sketch state => exact h
  -- Disconnecting is the client's own matter.
  | disconnect =>
      show (if y.client.attached then _ else y).device.PacksValues
      split <;> exact h
  | _ => exact h

end Dialogue

/-! ### Runs on the bytes -/

/-- What a demultiplexer will report over what is on its way. -/
theorem Awaits.messages {size : DemuxSize} {d : Demux size} {flight : List UInt8}
    {queue : List Report} {line : Splitter} (h : Awaits d flight queue line) :
    (demux size).messages d flight = queue := by
  obtain ⟨s, hmodels, hconveys, -⟩ := h
  rw [(Demux.demux_simulation size).messages hmodels, hconveys.queue]

namespace Carry

variable {x : Wired sz σ} {y : Dialogue sz σ}

/-- The same responses are on the line on both levels. -/
theorem onLine (h : Carry x y) : x.onLine = y.onLine := by
  obtain ⟨line, hqueue⟩ := h.toDevice
  rw [Wired.onLine, h.toClient.messages, hqueue.messages]
  rfl

/-- With buffers of these sizes the level of messages is orderly. -/
theorem orderly (h : Carry x y) (hwide : sz.kFrameMax ≤ hostDemuxSize.frameMax)
    (hroom : 32 ≤ sz.bufSize) (hpacks : y.device.PacksValues) : y.Orderly :=
  ⟨hwide, hroom, hpacks, h.clean, h.toClient.between⟩

/-- The same requests are sent in both. -/
theorem issuedBy (h : Carry x y) {move move' : Wired.Move sz σ} (halike : move.Alike move') :
    Wired.issuedBy x.client move = Wired.issuedBy y.client move' := by
  rw [h.client]
  cases halike with
  | same move => cases move <;> rfl
  | pump bytes reports => rfl
  | poll bytes reports => rfl

end Carry

/-- A move that packs values does so on both levels. -/
theorem alike_packs {move move' : Wired.Move sz σ} (h : move.Alike move') (hpacks : move.Packs) :
    move'.Packs := by
  cases h with
  | same move => exact hpacks
  | pump bytes reports => trivial
  | poll bytes reports => trivial

/-- A whole run. -/
theorem run_conserves (hwide : sz.kFrameMax ≤ hostDemuxSize.frameMax) (hroom : 32 ≤ sz.bufSize)
    {x : Wired sz σ} {y : Dialogue sz σ} (h : Carry x y) (hpacks : y.device.PacksValues)
    {moves : List (Wired.Move sz σ)} (hpermits : x.PermitsAll moves)
    (hmoves : ∀ move ∈ moves, move.Packs) :
    replyIds (x.toldIn moves) ++ (x.run moves).onLine = x.onLine ++ x.issuedIn moves := by
  -- By induction on the moves, each carried to the level of messages.
  induction moves generalizing x y with
  | nil =>
      show [] ++ x.onLine = x.onLine ++ []
      rw [List.nil_append, List.append_nil]
  | cons move moves ih =>
      obtain ⟨hmove, hlater⟩ := hpermits
      obtain ⟨hpack, hpackLater⟩ := List.forall_mem_cons.mp hmoves
      obtain ⟨move', halike, hmove', htold, hstep⟩ := step_refines hwide h hmove
      have horderly := h.orderly hwide hroom hpacks
      have hconserves := Dialogue.step_conserves horderly hmove'
      have hpacks' := Dialogue.step_packs hpacks hmove'.timely (alike_packs halike hpack)
      have hrest := ih hstep hpacks' hlater hpackLater
      rw [← htold, ← h.onLine, ← hstep.onLine, ← h.issuedBy halike] at hconserves
      -- The replies told now, those told later, and those still on the line.
      calc replyIds (x.told move ++ (x.step move).toldIn moves) ++ ((x.step move).run moves).onLine
          = replyIds (x.told move)
              ++ (replyIds ((x.step move).toldIn moves) ++ ((x.step move).run moves).onLine) := by
            rw [replyIds, List.filterMap_append, List.append_assoc]
            rfl
        _ = replyIds (x.told move) ++ ((x.step move).onLine ++ (x.step move).issuedIn moves) := by
            rw [hrest]
        _ = x.onLine ++ Wired.issuedBy x.client move ++ (x.step move).issuedIn moves := by
            rw [← List.append_assoc, hconserves]
        _ = x.onLine ++ (Wired.issuedBy x.client move ++ (x.step move).issuedIn moves) :=
            List.append_assoc _ _ _

/-- Nothing is on the line at the start. -/
theorem start_onLine (client : RPC) (device : Server sz σ) :
    (Wired.start client device).onLine = [] := rfl

/-- The board that answers 7 packs one value. -/
theorem answering_packs : Server.answering.PacksValues := by
  intro entry hentry s args _
  obtain rfl := List.mem_singleton.mp hentry
  have hseven : Object [0x07] := Object.of_header (t := .int 7) (by decide) rfl rfl
  exact Or.inr hseven

/-- The moves of one call bind nothing. -/
theorem sevenMoves_packs : ∀ move ∈ sevenMoves, move.Packs := by
  intro move hmove
  simp only [sevenMoves, List.mem_cons, List.not_mem_nil, or_false] at hmove
  rcases hmove with rfl | rfl | rfl | rfl | rfl | rfl <;> trivial

/-- What is read as a response has its id. -/
theorem responseIdOf_response {payload : List UInt8} {msgid : Nat} {isError : Bool}
    {error result : Value} (h : readMessage payload = .response msgid isError error result) :
    responseIdOf payload = some msgid := by
  rw [readMessage] at h
  -- Only the branch of a response makes a response.
  cases hhead : responseHead payload with
  | none =>
      simp only [hhead] at h
      split at h
      · split at h <;> cases h
      · cases h
  | some head =>
      obtain ⟨found, k⟩ := head
      simp only [hhead] at h
      split at h
      · cases h
        rw [responseIdOf, hhead]
        rfl
      · cases h

namespace RPC

/-- A response that is handled is there for the call that waits for it. -/
theorem handleReport_ready {c : RPC} {msgid : Nat} (hpending : c.pendingMsgid = some msgid)
    {report : Report} (hcaught : reportThrows (some report) = false)
    (hnot : (c.handleReport (some report)).1.pendingResponseReady = false) :
    c.pendingResponseReady = false ∧ report.responseId ≠ some msgid := by
  cases report with
  | textLine line truncated =>
      refine ⟨?_, by rintro ⟨⟩⟩
      unfold handleReport at hnot
      dsimp only at hnot
      split at hnot <;> exact hnot
  | frame payload =>
      have hframe : (c.take (readMessage payload)).1.pendingResponseReady = false := by
        rw [← handleFrame_eq]
        exact hnot
      rw [reportThrows] at hcaught
      show _ ∧ responseIdOf payload ≠ some msgid
      cases hread : readMessage payload with
      | undecodable e =>
          rw [hread] at hcaught
          cases hcaught
      | other =>
          rw [hread] at hframe
          refine ⟨hframe, fun hid => ?_⟩
          -- The head of a response is a response or undecodable.
          obtain ⟨⟨msgid', k⟩, hhead, -⟩ := Option.map_eq_some_iff.mp hid
          rw [readMessage] at hread
          simp only [hhead] at hread
          split at hread <;> cases hread
      | notification method args =>
          rw [hread, take] at hframe
          obtain ⟨calls, -, htook⟩ := takeNotification_eq c method args
          rw [htook] at hframe
          refine ⟨hframe, fun hid => ?_⟩
          obtain ⟨⟨msgid', k⟩, hhead, -⟩ := Option.map_eq_some_iff.mp hid
          rw [readMessage] at hread
          simp only [hhead] at hread
          split at hread <;> cases hread
      | response msgid' isError error result =>
          rw [hread, take] at hframe
          have hsame := responseIdOf_response hread
          unfold takeResponse at hframe
          split at hframe
          · cases hframe
          · rename_i hother
            refine ⟨hframe, fun hid => hother ?_⟩
            rw [hpending, ← hid, hsame]

/-- The same of several reports. -/
theorem handleReports_ready {c : RPC} {msgid : Nat} (hpending : c.pendingMsgid = some msgid)
    {reports : List Report} (hcaught : ∀ report ∈ reports, reportThrows (some report) = false)
    (hnot : (c.handleReports reports).pendingResponseReady = false) :
    c.pendingResponseReady = false ∧ msgid ∉ replyIds reports := by
  -- By induction on the reports: had one of them completed the call, it would have stayed complete.
  induction reports generalizing c with
  | nil => exact ⟨hnot, List.not_mem_nil⟩
  | cons report reports ih =>
      obtain ⟨hfirst, hlater⟩ := List.forall_mem_cons.mp hcaught
      have hpending' : (c.handleReport (some report)).1.pendingMsgid = some msgid :=
        (handleReport_keeps c (some report)).pendingMsgid.trans hpending
      obtain ⟨hready, hrest⟩ := ih hpending' hlater hnot
      obtain ⟨hready', hdiffers⟩ := handleReport_ready hpending hfirst hready
      refine ⟨hready', fun hmem => ?_⟩
      obtain ⟨other, hother, hid⟩ := List.mem_filterMap.mp hmem
      rcases List.mem_cons.mp hother with rfl | hother
      · exact hdiffers hid
      · exact hrest (List.mem_filterMap.mpr ⟨other, hother, hid⟩)

end RPC

namespace Dialogue

/-- The request or the response of the call that waits is on the line. -/
def Attended (y : Dialogue sz σ) : Prop :=
  ∀ msgid, y.client.pendingMsgid = some msgid → y.client.pendingResponseReady = false →
    msgid ∈ y.onLine

variable {y : Dialogue sz σ}

/-- A call that starts has put its request on the line, or it does not wait. -/
theorem started_attended (h : y.Orderly) (hidle : y.client.pendingMsgid = none)
    {method : List UInt8} {args : List Value} {started : RPC × List UInt8 × Option HostError}
    (hheard : sz.Hears y.client.opts.maxFrame (requestPayload y.client.nextMsgid method args))
    (hstarted : RPC.Started y.client RPC.writesAll method args started) :
    (y.clientSends started.1 (requestPayload y.client.nextMsgid method args)).Attended := by
  intro msgid hpending hready
  obtain ⟨rfl, -, hfits⟩ := hstarted.pending_sent hidle hpending
  rw [requests_onLine h _ hheard, if_pos hfits]
  exact List.mem_append_right _ (List.mem_singleton.mpr rfl)

/-- **One move** leaves the call that waits attended. -/
theorem step_attends (h : y.Orderly) (hattended : y.Attended) (hsized : y.client.Sized)
    {move : Wired.Move sz σ} (hpermits : y.Permits move) : (y.step move).Attended := by
  have hconserves := step_conserves h hpermits
  have idle {y' : Dialogue sz σ} (hidle : y'.client.pendingMsgid = none) : y'.Attended := by
    intro msgid hpending
    rw [hidle] at hpending
    cases hpending
  -- The device moves on, and the client does not.
  have along (htold : y.told move = []) (hissued : Wired.issuedBy y.client move = [])
      (hclient : (y.step move).client = y.client) : (y.step move).Attended := by
    intro msgid hpending hready
    rw [htold, hissued, List.append_nil] at hconserves
    have hsame : (y.step move).onLine = y.onLine := hconserves
    rw [hclient] at hpending hready
    rw [hsame]
    exact hattended msgid hpending hready
  cases move with
  | notify method args =>
      exact idle ((y.client.notifyValues_pending RPC.writesAll method args).2.msgid.trans
        hpermits.timely)
  | call method args =>
      exact started_attended h hpermits.timely (hpermits.heard _ rfl)
        (RPC.startCall_started hsized RPC.writesAll method args)
  | probe method =>
      exact started_attended h hpermits.timely (hpermits.heard _ rfl)
        (RPC.startTry_started hsized RPC.writesAll method)
  | disconnect =>
      have hidle : y.client.pendingMsgid = none := hpermits.timely
      have hsent := (y.client.notifyValues_pending RPC.writesAll (text "rpc.detach") []).2.msgid
      refine idle ?_
      show (if y.client.attached then _ else y).client.pendingMsgid = none
      split
      · rename_i hattached
        show (y.client.disconnect RPC.writesAll).1.pendingMsgid = none
        unfold RPC.disconnect
        rw [if_pos hattached]
        generalize y.client.notifyValues RPC.writesAll (text "rpc.detach") [] = sent at *
        obtain ⟨c, bytes, _ | e⟩ := sent <;> exact hsent.trans hidle
      · exact hidle
  | pump n =>
      intro msgid hpending hready
      have hpending' : y.client.pendingMsgid = some msgid :=
        (RPC.handleReports_keeps y.client (y.toClient.take n)).pendingMsgid.symm.trans hpending
      obtain ⟨hready', hnot⟩ := RPC.handleReports_ready hpending' (hpermits.caught n rfl) hready
      have hmem := hattended msgid hpending' hready'
      have hline : replyIds (y.toClient.take n) ++ (y.step (.pump n)).onLine = y.onLine :=
        hconserves.trans (List.append_nil _)
      rw [← hline] at hmem
      exact (List.mem_append.mp hmem).resolve_left hnot
  | poll n => exact along rfl rfl rfl
  | sketch event => exact along rfl rfl rfl
  | returns => exact idle rfl
  | expires => exact idle rfl
  | replied => exact idle rfl
  | givesUp => exact idle rfl
  | attached => exact idle rfl

end Dialogue

/-- A whole run. -/
theorem run_attends (hwide : sz.kFrameMax ≤ hostDemuxSize.frameMax) (hroom : 32 ≤ sz.bufSize)
    {x : Wired sz σ} {y : Dialogue sz σ} (h : Carry x y) (hpacks : y.device.PacksValues)
    (hattended : y.Attended) {moves : List (Wired.Move sz σ)} (hpermits : x.PermitsAll moves)
    (hmoves : ∀ move ∈ moves, move.Packs) :
    ∃ y' : Dialogue sz σ, Carry (x.run moves) y' ∧ y'.Attended := by
  induction moves generalizing x y with
  | nil => exact ⟨y, h, hattended⟩
  | cons move moves ih =>
      obtain ⟨hmove, hlater⟩ := hpermits
      obtain ⟨hpack, hpackLater⟩ := List.forall_mem_cons.mp hmoves
      obtain ⟨move', halike, hmove', -, hstep⟩ := step_refines hwide h hmove
      have horderly := h.orderly hwide hroom hpacks
      exact ih hstep (Dialogue.step_packs hpacks hmove'.timely (alike_packs halike hpack))
        (Dialogue.step_attends horderly hattended h.sized hmove') hlater hpackLater

end SerialRpc
