import SerialRpc.Proofs.Device.Requests
import SerialRpc.Lib.Channel

/-!
# `SerialRpc.Proofs.Device.Transport`: the server behind its demultiplexer

Only the loop of `poll` feeds the demultiplexer. Everything else of a server neither reads nor
changes it, so it may be exchanged in front of a call or behind it (`handleReport_withDemux`,
`checkAttachTimeout_withDemux`). With that, `poll` is the reports of the demultiplexer, handled
one after the other (`polled_eq`).
-/

set_option autoImplicit false

namespace SerialRpc

namespace Server

variable {sz : ServerSize} {σ : Type}

/-- With another demultiplexer. -/
def withDemux (s : Server sz σ) (d : Demux sz.demuxSize) : Server sz σ := { s with demux := d }

variable (s : Server sz σ) (d : Demux sz.demuxSize)

/-- The receiver put in is the receiver read back. -/
@[simp] theorem withDemux_demux : (s.withDemux d).demux = d := rfl

/-- Putting a server's own receiver back changes nothing. -/
@[simp] theorem withDemux_self : s.withDemux s.demux = s := rfl

/-- The last receiver put in is the one that counts. -/
@[simp] theorem withDemux_withDemux (d' : Demux sz.demuxSize) :
    (s.withDemux d).withDemux d' = s.withDemux d' := rfl

/-- Another receiver leaves what was sent alone. -/
@[simp] theorem withDemux_sent : (s.withDemux d).sent = s.sent := rfl

/-- The same change to the answer of a function. -/
def withDemuxFst {α : Type} (answer : Server sz σ × α) (d : Demux sz.demuxSize) :
    Server sz σ × α :=
  (answer.1.withDemux d, answer.2)

/-- Sending a frame does not read the receiver. -/
theorem sendFrame_withDemux (payload : List UInt8) :
    (s.withDemux d).sendFrame payload = (s.sendFrame payload).withDemux d := by
  by_cases hempty : (frameEncode payload s.txBuf s.txBuf.length).2 = 0
  · have hempty' : (frameEncode payload (s.withDemux d).txBuf (s.withDemux d).txBuf.length).2 = 0 :=
      hempty
    unfold sendFrame
    rw [if_pos hempty, if_pos hempty']
    rfl
  · have hempty' :
        ¬ (frameEncode payload (s.withDemux d).txBuf (s.withDemux d).txBuf.length).2 = 0 := hempty
    unfold sendFrame
    rw [if_neg hempty, if_neg hempty']
    rfl

/-- `_payload_buf` after packing. -/
private def packed (ops : List PackOp) : Server sz σ :=
  { s with
      payloadBuf := ((Writer.new s.payloadBuf s.payloadBuf.length).packAll ops).buf
      payloadBuf_length := (Writer.packAll_buf_length _ ops).trans s.payloadBuf_length }

/-- A notification does not read the receiver. -/
theorem notify_withDemux (name : List UInt8) (args : List (List PackOp)) :
    (s.withDemux d).notify name args = withDemuxFst (s.notify name args) d := by
  -- Detached, nothing is sent either way.
  by_cases hattached : s.attached = false
  · have hattached' : (s.withDemux d).attached = false := hattached
    rw [notify, notify, if_pos hattached, if_pos hattached']
    rfl
  · have hattached' : ¬ (s.withDemux d).attached = false := hattached
    rw [notify, notify, if_neg hattached, if_neg hattached']
    -- Attached, the notification fits the buffer or it does not.
    by_cases hfull : ((Writer.new s.payloadBuf s.payloadBuf.length).packAll
        (packNotification name args)).overflow = true
    · have hfull' : ((Writer.new (s.withDemux d).payloadBuf
          (s.withDemux d).payloadBuf.length).packAll
            (packNotification name args)).overflow = true := hfull
      dsimp only
      rw [if_pos hfull, if_pos hfull']
      rfl
    · have hfull' : ¬ ((Writer.new (s.withDemux d).payloadBuf
          (s.withDemux d).payloadBuf.length).packAll
            (packNotification name args)).overflow = true := hfull
      dsimp only
      rw [if_neg hfull, if_neg hfull']
      exact congrArg (·, true) (sendFrame_withDemux (s.packed (packNotification name args)) d _)

/-- Emitting a log line does not read the receiver. -/
theorem emitLogLine_withDemux (level : UInt8) (line : List UInt8) :
    (s.withDemux d).emitLogLine level line = (s.emitLogLine level line).withDemux d := by
  by_cases hattached : s.attached = true
  · have hattached' : (s.withDemux d).attached = true := hattached
    rw [emitLogLine, emitLogLine, if_pos hattached, if_pos hattached', notify_withDemux]
    rfl
  · have hattached' : ¬ (s.withDemux d).attached = true := hattached
    rw [emitLogLine, emitLogLine, if_neg hattached, if_neg hattached']
    rfl

/-- Flushing the log buffer does not read the receiver. -/
theorem flushLog_withDemux : (s.withDemux d).flushLog = s.flushLog.withDemux d := by
  unfold flushLog
  rw [show (s.withDemux d).logLevel = s.logLevel from rfl,
    show (s.withDemux d).logBuf = s.logBuf from rfl, emitLogLine_withDemux]
  rfl

/-- Logging a byte does not read the receiver. -/
theorem logByte_withDemux (b : UInt8) :
    (s.withDemux d).logByte b = (s.logByte b).withDemux d := by
  unfold logByte
  rw [flushLog_withDemux]
  -- The four kinds of byte are told apart without a look at the receiver.
  by_cases hcr : b = cr
  · rw [if_pos hcr, if_pos hcr]
  by_cases hlf : b = lf
  · rw [if_neg hcr, if_neg hcr, if_pos hlf, if_pos hlf]
  rw [if_neg hcr, if_neg hcr, if_neg hlf, if_neg hlf]
  by_cases hfull : sz.logBufSize ≤ s.logBuf.length + 1
  · have hfull' : sz.logBufSize ≤ (s.withDemux d).logBuf.length + 1 := hfull
    rw [if_pos hfull, if_pos hfull']
    rfl
  · have hfull' : ¬ sz.logBufSize ≤ (s.withDemux d).logBuf.length + 1 := hfull
    rw [if_neg hfull, if_neg hfull']
    rfl

/-- Logging any number of bytes does not read the receiver. -/
theorem log_withDemux (bytes : List UInt8) :
    bytes.foldl logByte (s.withDemux d) = (bytes.foldl logByte s).withDemux d := by
  induction bytes generalizing s with
  | nil => rfl
  | cons b bytes ih => rw [List.foldl_cons, List.foldl_cons, logByte_withDemux, ih]

/-- Code of the sketch cannot see the demultiplexer. -/
theorem run_withDemux {α : Type} (script : Script α) :
    (s.withDemux d).run script = withDemuxFst (s.run script) d := by
  induction script generalizing s with
  | done a => rfl
  | notify name args next ih =>
      rw [run, run, notify_withDemux]
      exact ih _ _
  | log bytes next ih =>
      rw [run, run, log_withDemux]
      exact ih _
  | logAt level next ih => exact ih { s with logLevel := level }
  | attached next ih => exact ih _ _

/-- Neither does a hook, whose script only logs, notifies and writes its own state. -/
theorem runHook_withDemux (hook : Option (Hook σ)) :
    (s.withDemux d).runHook hook = (s.runHook hook).withDemux d := by
  cases hook with
  | none => rfl
  | some hook =>
      unfold runHook
      dsimp only
      rw [show (s.withDemux d).sketch = s.sketch from rfl, run_withDemux]
      rfl

/-- Neither does a handler. -/
theorem invoke_withDemux (fn : Handler sz.sizeT σ) (args : Args sz.sizeT) (reply : Reply) :
    (s.withDemux d).invoke fn args reply = withDemuxFst (s.invoke fn args reply) d := by
  unfold invoke
  rw [show (s.withDemux d).sketch = s.sketch from rfl, run_withDemux]
  rfl

/-- Packing a page of `rpc.list` does not read the receiver. -/
theorem packRpcListResult_withDemux (reply : Reply) (start : Nat) :
    (s.withDemux d).packRpcListResult reply start
      = withDemuxFst (s.packRpcListResult reply start) d := by
  unfold packRpcListResult
  rw [show (s.withDemux d).handlers = s.handlers from rfl]
  dsimp only
  split
  · rfl
  · split
    · rfl
    · split <;> rfl

/-- `attach` with its hook does not read the receiver. -/
theorem attach_withDemux (timeoutMs : Nat) (reply : Reply) :
    (s.withDemux d).attach timeoutMs reply = withDemuxFst (s.attach timeoutMs reply) d := by
  have hhook := runHook_withDemux
    { s with
      attached := true
      attachHasTimeout := decide (0 < timeoutMs)
      attachTimeoutMs := UInt32.ofNat timeoutMs
      readings := s.readings + 1
      lastFrameMs := s.clock s.readings } d s.onAttach
  exact congrArg (fun t : Server sz σ => (t, { reply with
    writer := reply.writer.packAll
      [.array 2, .int kProtocolVersion, .uint (UInt32.ofNat t.handlers.length).toUInt64] })) hhook

/-- `detach` with its hook does not read the receiver. -/
theorem detach_withDemux : (s.withDemux d).detach = s.detach.withDemux d := by
  have hhook := runHook_withDemux { s with attached := false, attachHasTimeout := false } d
    s.onDetach
  unfold detach
  rw [show (s.withDemux d).attached = s.attached from rfl]
  dsimp only
  split
  · exact hhook
  · rfl

/-- Counting a failed call does not read the receiver. -/
theorem countFailure_withDemux (answer : Server sz σ × Reply) :
    countFailure (withDemuxFst answer d) = withDemuxFst (countFailure answer) d := by
  unfold countFailure
  rw [show (withDemuxFst answer d).2 = answer.2 from rfl]
  split <;> rfl

/-- The builtin methods do not read the receiver, and are found whatever it holds. -/
theorem dispatchBuiltin_withDemux (method : List UInt8) (args : Args sz.sizeT) (reply : Reply) :
    (s.withDemux d).dispatchBuiltin method args reply
      = (s.dispatchBuiltin method args reply).map (withDemuxFst · d) := by
  unfold dispatchBuiltin
  rw [detach_withDemux]
  dsimp only
  -- The four builtin methods, and none of them.
  split
  · rfl
  split
  · cases readOptional args with
    | none => rfl
    | some start => exact congrArg some (packRpcListResult_withDemux s d reply start)
  split
  · cases readOptional args with
    | none => rfl
    | some timeoutMs => exact congrArg some (attach_withDemux s d timeoutMs reply)
  split <;> rfl

/-- The bound handlers do not read the receiver, and are found whatever it holds. -/
theorem dispatchUser_withDemux (method : List UInt8) (args : Args sz.sizeT) (reply : Reply) :
    (s.withDemux d).dispatchUser method args reply
      = (s.dispatchUser method args reply).map (withDemuxFst · d) := by
  unfold dispatchUser
  rw [show (s.withDemux d).handlers = s.handlers from rfl, Option.map_map]
  exact congrArg (Option.map · _) (funext fun entry => invoke_withDemux s d entry.fn args reply)

/-- A whole dispatch does not read the receiver. -/
theorem dispatch_withDemux (method : List UInt8) (args : Args sz.sizeT) (reply : Reply) :
    (s.withDemux d).dispatch method args reply = withDemuxFst (s.dispatch method args reply) d := by
  unfold dispatch
  rw [dispatchBuiltin_withDemux, dispatchUser_withDemux]
  cases s.dispatchBuiltin method args reply with
  | some answer => exact countFailure_withDemux d answer
  | none =>
      cases s.dispatchUser method args reply with
      | some answer => exact countFailure_withDemux d answer
      | none => rfl

/-- Sending a response does not read the receiver. -/
theorem sendResponse_withDemux (msgid : UInt32) (reply : Reply) :
    (s.withDemux d).sendResponse msgid reply = (s.sendResponse msgid reply).withDemux d :=
  sendFrame_withDemux
    { s with
      payloadBuf := (buildResponse s.payloadBuf msgid reply).1
      payloadBuf_length := (buildResponse_length s.payloadBuf msgid reply
        (s.payloadBuf_length ▸ sz.header_fits)).trans s.payloadBuf_length
      responseOverflowErrors := if (buildResponse s.payloadBuf msgid reply).2.2 then
        s.responseOverflowErrors + 1 else s.responseOverflowErrors } d _

/-- Answering a parsed message does not read the receiver. -/
theorem receive_withDemux (incoming : Incoming sz.sizeT) :
    (s.withDemux d).receive incoming = (s.receive incoming).withDemux d := by
  cases incoming with
  | request msgid method args =>
      rw [receive, dispatch_withDemux]
      exact sendResponse_withDemux _ d _ _
  | notification method args =>
      rw [receive, dispatch_withDemux]
      rfl
  | malformed => rfl

/-- Answering a frame, well formed or not, does not read the receiver. -/
theorem handleFrame_withDemux (payload : List UInt8) :
    (s.withDemux d).handleFrame payload = (s.handleFrame payload).withDemux d := by
  rw [handleFrame_eq, handleFrame_eq]
  exact receive_withDemux s.stamped d _

/-- A report is handled alike, whatever is in the demultiplexer. -/
theorem handleReport_withDemux (report : Option Report) :
    (s.withDemux d).handleReport report = (s.handleReport report).withDemux d := by
  cases report with
  | none => rfl
  | some report =>
      cases report with
      | frame payload => exact handleFrame_withDemux s d payload
      | textLine line truncated => exact runHook_withDemux s d _

/-- Reports are handled in order. -/
def handleReports (s : Server sz σ) (reports : List Report) : Server sz σ :=
  reports.foldl (fun s report => s.handleReport (some report)) s

/-- Reports are handled in order: a run of them may be cut anywhere. -/
theorem handleReports_append (reports reports' : List Report) :
    s.handleReports (reports ++ reports') = (s.handleReports reports).handleReports reports' :=
  List.foldl_append

/-- So no handling of reports reads the receiver, however many there are. -/
theorem handleReports_withDemux (reports : List Report) :
    (s.withDemux d).handleReports reports = (s.handleReports reports).withDemux d := by
  induction reports generalizing s with
  | nil => rfl
  | cons report reports ih =>
      rw [handleReports, List.foldl_cons, handleReport_withDemux]
      exact ih _

/-- The attach timeout does not read the receiver. -/
theorem checkAttachTimeout_withDemux :
    (s.withDemux d).checkAttachTimeout = s.checkAttachTimeout.withDemux d := by
  have hhook := runHook_withDemux
    { s with readings := s.readings + 1, attached := false, attachHasTimeout := false } d s.onDetach
  unfold checkAttachTimeout
  rw [show (s.withDemux d).attached = s.attached from rfl,
    show (s.withDemux d).attachHasTimeout = s.attachHasTimeout from rfl]
  -- The clock is read in both cases, and the receiver is not.
  split
  · dsimp only [nowMs]
    by_cases hpassed : s.attachTimeoutMs ≤ s.clock s.readings - s.lastFrameMs
    · have hpassed' : (s.withDemux d).attachTimeoutMs
          ≤ (s.withDemux d).clock (s.withDemux d).readings - (s.withDemux d).lastFrameMs := hpassed
      rw [if_pos hpassed, if_pos hpassed']
      exact hhook
    · have hpassed' : ¬ (s.withDemux d).attachTimeoutMs
          ≤ (s.withDemux d).clock (s.withDemux d).readings - (s.withDemux d).lastFrameMs := hpassed
      rw [if_neg hpassed, if_neg hpassed']
      rfl
  · rfl

/-! ### The loop of `poll` -/

/-- The bytes are reports of the demultiplexer. They are handled in order, as if it had read all of
them before. -/
theorem polled_eq (bytes : List UInt8) :
    bytes.foldl pollByte s
      = (s.handleReports ((SerialRpc.demux sz.demuxSize).messages s.demux bytes)).withDemux
          ((SerialRpc.demux sz.demuxSize).final s.demux bytes) := by
  induction bytes generalizing s with
  | nil => rfl
  | cons b bytes ih =>
      have hstep : s.pollByte b
          = (s.handleReport ((SerialRpc.demux sz.demuxSize).step s.demux b).2).withDemux
              ((SerialRpc.demux sz.demuxSize).step s.demux b).1 :=
        handleReport_withDemux s _ _
      rw [List.foldl_cons, ih, hstep, withDemux_demux, handleReports_withDemux,
        withDemux_withDemux, Mealy.messages, Mealy.messages, Mealy.outputs_cons, Mealy.final_cons]
      -- A byte that reports nothing leaves the server alone.
      cases ((SerialRpc.demux sz.demuxSize).step s.demux b).2 with
      | none => rfl
      | some report => rfl

end Server

end SerialRpc
