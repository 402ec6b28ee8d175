import SerialRpc.Proofs.Host.Pumping
import SerialRpc.Proofs.Host.Listening
import SerialRpc.Lib.Channel

/-!
# `SerialRpc.Proofs.Host.Transport`: the client behind its demultiplexer

Only the loop of `pump_bytes_` feeds the demultiplexer of the client, as on the device. So it may be
exchanged in front of a call or behind it, and a read that does not throw is the reports of the
demultiplexer, handled one after the other (`pumped_eq`).
-/

set_option autoImplicit false

namespace SerialRpc

namespace RPC

/-- With another demultiplexer. -/
def withDemux (c : RPC) (d : Demux hostDemuxSize) : RPC := { c with demux := d }

variable (c : RPC) (d : Demux hostDemuxSize)

/-- The receiver put in is the receiver read back. -/
@[simp] theorem withDemux_demux : (c.withDemux d).demux = d := rfl

/-- Putting a client's own receiver back changes nothing. -/
@[simp] theorem withDemux_self : c.withDemux c.demux = c := rfl

/-- The last receiver put in is the one that counts. -/
@[simp] theorem withDemux_withDemux (d' : Demux hostDemuxSize) :
    (c.withDemux d).withDemux d' = c.withDemux d' := rfl

/-! ### Sending -/

/-- Writing a frame does not read the receiver. -/
theorem writeFrame_withDemux (write : Nat → Int) (payload : List UInt8) :
    (c.withDemux d).writeFrame write payload
      = ((c.writeFrame write payload).1.withDemux d, (c.writeFrame write payload).2) := by
  unfold writeFrame
  rw [show (c.withDemux d).txFrame = c.txFrame from rfl]
  dsimp only
  split
  · rfl
  · split <;> rfl

/-- Neither does packing and sending. -/
theorem sendPacked_withDemux (write : Nat → Int) (pack : Writer → Writer)
    (overflow : ProtocolError) :
    (c.withDemux d).sendPacked write pack overflow
      = ((c.sendPacked write pack overflow).1.withDemux d,
          (c.sendPacked write pack overflow).2) := by
  unfold sendPacked
  rw [show (c.withDemux d).txPayload = c.txPayload from rfl]
  dsimp only
  split
  · rfl
  · exact writeFrame_withDemux
      { c with txPayload := (pack (Writer.new c.txPayload c.txPayload.length)).buf } d write _

/-- A notification does not read the receiver. -/
theorem notifyValues_withDemux (write : Nat → Int) (method : List UInt8) (args : List Value) :
    (c.withDemux d).notifyValues write method args
      = ((c.notifyValues write method args).1.withDemux d,
          (c.notifyValues write method args).2) := by
  unfold notifyValues
  rw [sendPacked_withDemux]
  generalize c.sendPacked write (packNotify method args)
    ⟨"serial_rpc: notification payload exceeds max_frame"⟩ = sent
  obtain ⟨c', bytes, _ | e⟩ := sent <;> rfl

/-- Neither does the start of a call. -/
theorem startCall_withDemux (write : Nat → Int) (method : List UInt8) (args : List Value) :
    (c.withDemux d).startCall write method args
      = ((c.startCall write method args).1.withDemux d,
          (c.startCall write method args).2) := by
  have hsend := sendPacked_withDemux { c with nextMsgid := c.nextMsgid + 1 } d write
    (packRequest c.nextMsgid method args) ⟨"serial_rpc: request payload exceeds max_frame"⟩
  unfold startCall sendRequest
  rw [show (c.withDemux d).nextMsgid = c.nextMsgid from rfl]
  dsimp only
  rw [show ({ c.withDemux d with nextMsgid := c.nextMsgid + 1 } : RPC)
    = { c with nextMsgid := c.nextMsgid + 1 }.withDemux d from rfl, hsend]
  generalize { c with nextMsgid := c.nextMsgid + 1 }.sendPacked write
    (packRequest c.nextMsgid method args)
    ⟨"serial_rpc: request payload exceeds max_frame"⟩ = sent
  obtain ⟨c', bytes, _ | e⟩ := sent <;> rfl

/-- Neither does the start of a ping. -/
theorem startTry_withDemux (write : Nat → Int) (method : List UInt8) :
    (c.withDemux d).startTry write method
      = ((c.startTry write method).1.withDemux d, (c.startTry write method).2) := by
  have hsend := sendPacked_withDemux { c with nextMsgid := c.nextMsgid + 1 } d write
    (packRequest c.nextMsgid method []) ⟨"serial_rpc: request payload exceeds max_frame"⟩
  unfold startTry sendRequest
  rw [show (c.withDemux d).nextMsgid = c.nextMsgid from rfl]
  dsimp only
  rw [show ({ c.withDemux d with nextMsgid := c.nextMsgid + 1 } : RPC)
    = { c with nextMsgid := c.nextMsgid + 1 }.withDemux d from rfl, hsend]
  generalize { c with nextMsgid := c.nextMsgid + 1 }.sendPacked write
    (packRequest c.nextMsgid method [])
    ⟨"serial_rpc: request payload exceeds max_frame"⟩ = sent
  obtain ⟨c', bytes, _ | e⟩ := sent <;> rfl

/-- Disconnecting does not read the receiver. -/
theorem disconnect_withDemux (write : Nat → Int) :
    (c.withDemux d).disconnect write
      = ((c.disconnect write).1.withDemux d, (c.disconnect write).2) := by
  unfold disconnect
  rw [show (c.withDemux d).attached = c.attached from rfl, notifyValues_withDemux]
  split
  · generalize c.notifyValues write (text "rpc.detach") [] = sent
    obtain ⟨c', bytes, _ | e⟩ := sent <;> rfl
  · rfl

/-! ### Messages -/

/-- Dispatching a log line does not read the receiver. -/
theorem dispatchLog_withDemux (args : Value) :
    (c.withDemux d).dispatchLog args = (c.dispatchLog args).withDemux d := by
  unfold dispatchLog
  rw [show (c.withDemux d).onLog = c.onLog from rfl]
  split
  · split <;> rfl
  · rfl

/-- Neither does the callback for any notification. -/
theorem recordAny_withDemux (onAny : Option Nat) (method : List UInt8) (args : Value) :
    (match onAny with
      | some callback => (c.withDemux d).record (.any callback method args)
      | none => c.withDemux d)
      = (match onAny with
        | some callback => c.record (.any callback method args)
        | none => c).withDemux d := by
  cases onAny <;> rfl

/-- Dispatching a notification does not read the receiver. -/
theorem dispatchNotification_withDemux (method : List UInt8) (args : Value) :
    (c.withDemux d).dispatchNotification method args
      = (c.dispatchNotification method args).withDemux d := by
  unfold dispatchNotification
  rw [show (c.withDemux d).handlers = c.handlers from rfl]
  cases c.handlers.lookup method with
  | none => exact recordAny_withDemux c d c.onAny method args
  | some callback =>
      exact recordAny_withDemux (c.record (.notification callback args)) d c.onAny method args

/-- Taking a message in does not read the receiver. -/
theorem take_withDemux (m : Message) :
    (c.withDemux d).take m = ((c.take m).1.withDemux d, (c.take m).2) := by
  cases m with
  | response msgid isError error result =>
      unfold take takeResponse
      rw [show (c.withDemux d).pendingMsgid = c.pendingMsgid from rfl]
      dsimp only
      split <;> rfl
  | notification method args =>
      unfold take takeNotification
      dsimp only
      split
      · exact congrArg (·, none) (dispatchLog_withDemux
          { c with stats := { c.stats with logsRecv := c.stats.logsRecv + 1 } } d args)
      · exact congrArg (·, none) (dispatchNotification_withDemux
          { c with stats :=
              { c.stats with notificationsRecv := c.stats.notificationsRecv + 1 } } d method args)
  | undecodable e => rfl
  | other => rfl

/-- A report is handled alike, whatever is in the demultiplexer. -/
theorem handleReport_withDemux (report : Option Report) :
    (c.withDemux d).handleReport report
      = ((c.handleReport report).1.withDemux d, (c.handleReport report).2) := by
  cases report with
  | none => rfl
  | some report =>
      cases report with
      | frame payload =>
          show (c.withDemux d).handleFrame payload = (_, _)
          rw [handleFrame_eq, take_withDemux]
          show _ = ((c.handleFrame payload).1.withDemux d, (c.handleFrame payload).2)
          rw [handleFrame_eq]
      | textLine line truncated =>
          unfold handleReport
          rw [show (c.withDemux d).onText = c.onText from rfl]
          dsimp only
          cases c.onText <;> rfl

/-- Reports are handled in order, and an exception is passed over. -/
def handleReports (c : RPC) (reports : List Report) : RPC :=
  reports.foldl (fun c report => (c.handleReport (some report)).1) c

/-- So no handling of reports reads it, however many there are. -/
theorem handleReports_withDemux (reports : List Report) :
    (c.withDemux d).handleReports reports = (c.handleReports reports).withDemux d := by
  induction reports generalizing c with
  | nil => rfl
  | cons report reports ih =>
      rw [handleReports, List.foldl_cons, handleReport_withDemux]
      exact ih _

/-- What reports leave alone. -/
theorem handleReports_keeps (reports : List Report) : Keeps c (c.handleReports reports) := by
  induction reports generalizing c with
  | nil => exact Keeps.refl c
  | cons report reports ih => exact (c.handleReport_keeps (some report)).trans (ih _)

/-- A read that does not throw is the reports of the demultiplexer. They are handled in order, as
if it had read all of the bytes before. -/
theorem pumped_eq (bytes : List UInt8) (hthrown : (c.feedBytes bytes).2 = none) :
    (c.feedBytes bytes).1
      = (c.handleReports ((SerialRpc.demux hostDemuxSize).messages c.demux bytes)).withDemux
          ((SerialRpc.demux hostDemuxSize).final c.demux bytes) := by
  -- By induction on the bytes. Handling a report leaves the receiver alone, so the two may be
  -- swapped.
  induction bytes generalizing c with
  | nil => rfl
  | cons b bytes ih =>
      have hstep : c.feedByte b
          = ((c.handleReport ((SerialRpc.demux hostDemuxSize).step c.demux b).2).1.withDemux
                ((SerialRpc.demux hostDemuxSize).step c.demux b).1,
              (c.handleReport ((SerialRpc.demux hostDemuxSize).step c.demux b).2).2.map
                .protocol) :=
        congrArg (fun after => (after.1, after.2.map HostError.protocol))
          (handleReport_withDemux c _ _)
      rw [feedBytes, hstep] at hthrown ⊢
      rw [Mealy.messages, Mealy.outputs_cons, Mealy.final_cons]
      cases hanswer : c.handleReport ((SerialRpc.demux hostDemuxSize).step c.demux b).2 with
      | mk c' thrown =>
          rw [hanswer] at hthrown
          cases thrown with
          | some e => cases hthrown
          | none =>
              show (feedBytes (c'.withDemux _) bytes).1 = _
              rw [ih _ hthrown, withDemux_demux, handleReports_withDemux, withDemux_withDemux]
              cases hreport : ((SerialRpc.demux hostDemuxSize).step c.demux b).2 with
              | none =>
                  rw [hreport] at hanswer
                  rw [show c' = c from (congrArg Prod.fst hanswer).symm]
                  rfl
              | some report =>
                  rw [hreport] at hanswer
                  rw [List.reduceOption_cons_of_some, handleReports, handleReports, List.foldl_cons,
                    hanswer]
                  rfl

/-- A read that does not throw completes no frame that throws. -/
theorem feedBytes_caught (bytes : List UInt8) (hthrown : (c.feedBytes bytes).2 = none) :
    ∀ report ∈ (SerialRpc.demux hostDemuxSize).messages c.demux bytes,
      reportThrows (some report) = false := by
  -- By induction on the bytes: the report is that of the first byte, or one behind it.
  induction bytes generalizing c with
  | nil => rintro report ⟨⟩
  | cons b bytes ih =>
      intro report hreport
      rw [Mealy.mem_messages, Mealy.outputs_cons, List.mem_cons] at hreport
      rw [feedBytes] at hthrown
      have hdemux := feedByte_demux c b
      have hfirst : (c.feedByte b).2 = none →
          reportThrows ((SerialRpc.demux hostDemuxSize).step c.demux b).2 = false := by
        intro hnone
        rw [← thrownAt_isSome, ← feedByte_thrown, hnone]
        rfl
      cases hfeed : c.feedByte b with
      | mk c' thrown =>
          rw [hfeed] at hthrown hdemux hfirst
          cases thrown with
          | some e => cases hthrown
          | none =>
              rcases hreport with hreport | hreport
              · rw [hreport]
                exact hfirst rfl
              · refine ih c' hthrown report ?_
                rw [Mealy.mem_messages, hdemux]
                exact hreport

end RPC

end SerialRpc
