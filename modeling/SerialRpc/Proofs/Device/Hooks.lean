import SerialRpc.Device.Typed
import SerialRpc.Proofs.Device.Signals

/-!
# `SerialRpc.Proofs.Device.Hooks`: how often the attachment hooks run

`journal` puts a journal beside the state of the sketch. The hook of `on_attach` adds a mark to
it when it runs, and so does the hook of `on_detach`. All other code leaves it alone, and
nothing reads it, so a server with a journal does what it does without. Each function of the
server has a lemma that says so, together with the marks that it adds.

* `fires`: the marks of an event, read off its signal and `attached()` before and after.
* `act_journaled` and `run_journaled`: what the journal of a run holds.
-/

set_option autoImplicit false

namespace SerialRpc

variable {w : SizeT} {sz : ServerSize} {σ : Type}

/-- A hook of the attachment that ran. -/
inductive Fired where
  | onAttach
  | onDetach
deriving DecidableEq

/-- A hook that adds some marks to the journal when it runs. -/
def markedHook (marks : List Fired) (hook : Hook σ) : Hook (σ × List Fired) := fun sketch =>
  (hook sketch.1).map fun state => (state, sketch.2 ++ marks)

/-- An `on_text` callback beside the journal. -/
def journaledText (hook : TextHook σ) : TextHook (σ × List Fired) := fun line =>
  markedHook [] (hook line)

/-- A handler beside the journal. -/
def journaledHandler (fn : Handler w σ) : Handler w (σ × List Fired) := fun args sketch =>
  (fn args sketch.1).map fun result => (result.1, result.2, sketch.2)

/-- A bound handler beside the journal. -/
def Entry.journaled (entry : Entry w σ) : Entry w (σ × List Fired) where
  name := entry.name
  fn := journaledHandler entry.fn
  writeSig := entry.writeSig

/-- The marks of a hook that is called: none if it is not set. -/
def hookMarks (hook : Option (Hook σ)) (mark : Fired) : List Fired :=
  if hook.isSome then [mark] else []

/-! ### The table of handlers -/

/-- Rebinding finds the same entry with and without the journal. -/
theorem replaceEntry_journaled (entry : Entry w σ) (entries : List (Entry w σ)) :
    replaceEntry entry.journaled (entries.map Entry.journaled)
      = (replaceEntry entry entries).map (List.map Entry.journaled) := by
  induction entries with
  | nil => rfl
  | cons first entries ih =>
      rw [List.map_cons, replaceEntry, replaceEntry]
      by_cases hname : first.name = entry.name
      · rw [if_pos hname]
        exact if_pos hname
      · rw [if_neg hname, ih]
        refine (if_neg hname).trans ?_
        cases replaceEntry entry entries with
        | none => rfl
        | some entries' => rfl

/-- So does `add_handler_` on the vector. -/
theorem addHandlerStl_journaled (handlers : List (Entry w σ)) (entry : Entry w σ) :
    addHandlerStl (handlers.map Entry.journaled) entry.journaled
      = (addHandlerStl handlers entry).map Entry.journaled := by
  unfold addHandlerStl
  rw [replaceEntry_journaled]
  cases replaceEntry entry handlers with
  | none =>
      show handlers.map Entry.journaled ++ [entry].map Entry.journaled = _
      rw [← List.map_append]
  | some handlers' => rfl

/-- And on the fixed table. -/
theorem addHandlerFixed_journaled (maxHandlers : Nat) (handlers : List (Entry w σ))
    (entry : Entry w σ) :
    addHandlerFixed maxHandlers (handlers.map Entry.journaled) entry.journaled
      = (addHandlerFixed maxHandlers handlers entry).map (List.map Entry.journaled) := by
  unfold addHandlerFixed
  rw [replaceEntry_journaled, List.length_map]
  cases replaceEntry entry handlers with
  | some handlers' => rfl
  | none =>
      dsimp only [Option.map_none]
      by_cases hroom : handlers.length < maxHandlers
      · rw [if_pos hroom, if_pos hroom, Option.map_some, List.map_append]
        rfl
      · rw [if_neg hroom, if_neg hroom]
        rfl

/-- A call finds the same handler. -/
theorem findHandler_journaled (handlers : List (Entry w σ)) (method : List UInt8) :
    findHandler (handlers.map Entry.journaled) method
      = (findHandler handlers method).map Entry.journaled := by
  unfold findHandler
  rw [List.find?_map]
  rfl

namespace Server

/-- The journal is no part of what `rpc.list` reads. -/
theorem listEntries_journaled (scratch : Nat) (raw : List UInt8) (written count : Nat)
    (entries : List (Entry sz.sizeT σ)) :
    listEntries scratch raw written count (entries.map Entry.journaled)
      = listEntries scratch raw written count entries := by
  induction entries generalizing raw written count with
  | nil => rfl
  | cons entry entries ih =>
      rw [List.map_cons, listEntries, listEntries]
      show (if scratch < written + listEntrySize entry.name.length (signature entry).length then _
        else _) = _
      split
      · rfl
      · exact ih _ _ _

/-! ### A server with a journal -/

/-- The server with a journal. -/
def journal (s : Server sz σ) (marks : List Fired) : Server sz (σ × List Fired) where
  demux := s.demux
  payloadBuf := s.payloadBuf
  payloadBuf_length := s.payloadBuf_length
  txBuf := s.txBuf
  txBuf_length := s.txBuf_length
  handlers := s.handlers.map Entry.journaled
  attached := s.attached
  attachHasTimeout := s.attachHasTimeout
  attachTimeoutMs := s.attachTimeoutMs
  lastFrameMs := s.lastFrameMs
  onText := s.onText.map journaledText
  onAttach := s.onAttach.map (markedHook [.onAttach])
  onDetach := s.onDetach.map (markedHook [.onDetach])
  unknownMethodErrors := s.unknownMethodErrors
  handlerErrorCount := s.handlerErrorCount
  malformedErrors := s.malformedErrors
  responseOverflowErrors := s.responseOverflowErrors
  logBuf := s.logBuf
  logLevel := s.logLevel
  sketch := (s.sketch, marks)
  clock := s.clock
  readings := s.readings
  sent := s.sent
  attachedAt := s.attachedAt
  invoked := s.invoked.map fun run => ⟨journaledHandler run.handler, run.args, run.answer⟩

/-- An event beside the journal. What the sketch computes leaves the journal alone. -/
def Event.journaled (marks : List Fired) : Event sz σ → Event sz (σ × List Fired)
  | .byte b => .byte b
  | .pollEnd => .pollEnd
  | .notify name args => .notify name args
  | .log b => .log b
  | .logAt level => .logAt level
  | .begin => .begin
  | .bind entry => .bind entry.journaled
  | .onText hook => .onText (hook.map journaledText)
  | .onAttach hook => .onAttach (hook.map (markedHook [.onAttach]))
  | .onDetach hook => .onDetach (hook.map (markedHook [.onDetach]))
  | .sketch state => .sketch (state, marks)

variable (s : Server sz σ) (marks : List Fired)

/-- What a function of the server answers, with the journal put beside the server. -/
def beside {α : Type} (marks : List Fired) (answer : Server sz σ × α) :
    Server sz (σ × List Fired) × α :=
  (answer.1.journal marks, answer.2)

/-! ### Sending -/

/-- A frame is written alike, beside the journal. -/
theorem sendFrame_journal (payload : List UInt8) :
    (s.journal marks).sendFrame payload = (s.sendFrame payload).journal marks := by
  unfold sendFrame
  dsimp only
  rw [apply_ite fun t => journal t marks]
  rfl

/-- So is a notification. -/
theorem notify_journal (name : List UInt8) (args : List (List PackOp)) :
    (s.journal marks).notify name args = beside marks (s.notify name args) := by
  unfold notify
  dsimp only
  rw [apply_ite (beside marks), apply_ite (beside marks)]
  refine ite_congr rfl (fun _ => rfl) fun _ => ite_congr rfl (fun _ => rfl) fun _ => ?_
  -- The notification is packed into the payload buffer before it is sent.
  let w := (Writer.new s.payloadBuf s.payloadBuf.length).packAll (packNotification name args)
  let packed : Server sz σ :=
    { s with
        payloadBuf := w.buf
        payloadBuf_length := (Writer.packAll_buf_length _ _).trans s.payloadBuf_length }
  exact congrArg (fun t => (t, true)) (packed.sendFrame_journal marks w.data)

/-- So is a log line. -/
theorem emitLogLine_journal (level : UInt8) (line : List UInt8) :
    (s.journal marks).emitLogLine level line = (s.emitLogLine level line).journal marks := by
  unfold emitLogLine
  rw [apply_ite fun t => journal t marks]
  refine ite_congr rfl (fun _ => ?_) fun _ => rfl
  exact congrArg Prod.fst (s.notify_journal marks _ _)

/-- So is what `flush` writes. -/
theorem flushLog_journal : (s.journal marks).flushLog = s.flushLog.journal marks := by
  unfold flushLog
  show { (s.journal marks).emitLogLine s.logLevel s.logBuf with logBuf := [] } = _
  rw [emitLogLine_journal]
  rfl

/-- A byte of the log does the same. -/
theorem logByte_journal (b : UInt8) :
    (s.journal marks).logByte b = (s.logByte b).journal marks := by
  unfold logByte
  dsimp only
  rw [apply_ite fun t => journal t marks, apply_ite fun t => journal t marks]
  refine ite_congr rfl (fun _ => rfl) fun _ => ite_congr rfl (fun _ => ?_) fun _ => ?_
  · exact s.flushLog_journal marks
  · have hflushed : (if sz.logBufSize ≤ (s.journal marks).logBuf.length + 1
          then (s.journal marks).flushLog else s.journal marks)
        = (if sz.logBufSize ≤ s.logBuf.length + 1 then s.flushLog else s).journal marks := by
      rw [apply_ite fun t => journal t marks, flushLog_journal]
      rfl
    rw [hflushed]
    rfl

/-! ### Code of the sketch -/

/-- So do several. -/
theorem logBytes_journal (bytes : List UInt8) :
    bytes.foldl logByte (s.journal marks) = (bytes.foldl logByte s).journal marks := by
  induction bytes generalizing s with
  | nil => rfl
  | cons b bytes ih =>
      rw [List.foldl_cons, List.foldl_cons, logByte_journal]
      exact ih (s.logByte b)

/-- Code of the sketch runs the same, whatever is made of its result. -/
theorem run_journal {α β : Type} (f : α → β) (script : Script α) :
    (s.journal marks).run (script.map f)
      = ((s.run script).1.journal marks, f (s.run script).2) := by
  induction script generalizing s with
  | done a => rfl
  | notify name args next ih =>
      rw [Script.map, run, run, notify_journal]
      exact ih _ _
  | log bytes next ih =>
      rw [Script.map, run, run, logBytes_journal]
      exact ih _
  | logAt level next ih => exact ih { s with logLevel := level }
  | attached next ih => exact ih s.attached s

/-- A hook that runs adds its marks. -/
theorem runHook_marked (hook : Option (Hook σ)) (new : List Fired) :
    (s.journal marks).runHook (hook.map (markedHook new))
      = (s.runHook hook).journal (marks ++ if hook.isSome then new else []) := by
  cases hook with
  | none =>
      rw [Option.isSome_none, if_neg Bool.false_ne_true, List.append_nil]
      rfl
  | some hook =>
      have hrun := s.run_journal marks (fun state => (state, marks ++ new)) (hook s.sketch)
      exact congrArg (fun ran => { ran.1 with sketch := ran.2 }) hrun

/-- The hook for text leaves no mark. -/
theorem runHook_text (hook : Option (TextHook σ)) (line : List UInt8) :
    (s.journal marks).runHook ((hook.map journaledText).map fun hook => hook line)
      = (s.runHook (hook.map fun hook => hook line)).journal marks := by
  have hrun := s.runHook_marked marks (hook.map fun hook => hook line) []
  rw [ite_self, List.append_nil] at hrun
  rw [← hrun, Option.map_map, Option.map_map]
  rfl

/-- A handler does the same. -/
theorem invoke_journal (fn : Handler sz.sizeT σ) (args : Args sz.sizeT) (reply : Reply) :
    (s.journal marks).invoke (journaledHandler fn) args reply
      = beside marks (s.invoke fn args reply) := by
  have hrun := s.run_journal marks (fun result => (result.1, result.2, marks)) (fn args s.sketch)
  refine (congrArg (fun ran : Server sz (σ × List Fired) × Answer × σ × List Fired =>
    ({ ran.1 with
        sketch := ran.2.2
        invoked := ran.1.invoked ++ [Invocation.mk (journaledHandler fn) args ran.2.1] },
      { reply with writer := reply.writer.packAll ran.2.1.packed, error := ran.2.1.error }))
    hrun).trans ?_
  unfold beside journal invoke
  dsimp only
  rw [List.map_append]
  rfl

/-! ### The built-in methods -/

/-- So does a page of `rpc.list`. -/
theorem packRpcListResult_journal (reply : Reply) (start : Nat) :
    (s.journal marks).packRpcListResult reply start
      = beside marks (s.packRpcListResult reply start) := by
  have htotal : (s.journal marks).handlers.length = s.handlers.length := List.length_map _
  have hentries (raw : List UInt8) (index : Nat) :
      listEntries sz.kResultScratch raw 3 0 ((s.journal marks).handlers.drop index)
        = listEntries sz.kResultScratch raw 3 0 (s.handlers.drop index) := by
    show listEntries _ _ _ _ ((s.handlers.map Entry.journaled).drop index) = _
    rw [← List.map_drop, listEntries_journaled]
  unfold packRpcListResult
  dsimp only
  rw [htotal, hentries, apply_ite (beside marks), apply_ite (beside marks)]
  refine ite_congr rfl (fun _ => rfl) fun _ => ite_congr rfl (fun _ => rfl) fun _ => ?_
  cases listEntries sz.kResultScratch reply.writer.buf 3 0
      (s.handlers.drop (startIndex s.handlers.length start)) with
  | none => rfl
  | some listed => rfl

/-- `rpc.attach` before its hook runs. -/
def attaching (timeoutMs : Nat) : Server sz σ :=
  { s with
      attached := true
      attachHasTimeout := decide (0 < timeoutMs)
      attachTimeoutMs := UInt32.ofNat timeoutMs
      lastFrameMs := s.clock s.readings
      readings := s.readings + 1 }

/-- The answer to `rpc.attach`. -/
def attachReply (reply : Reply) (handlerCount : Nat) : Reply :=
  let count := UInt32.ofNat handlerCount
  { reply with
      writer := reply.writer.packAll [.array 2, .int kProtocolVersion, .uint count.toUInt64] }

/-- `attach` is the new attachment, the hook and the reply. -/
theorem attach_eq (timeoutMs : Nat) (reply : Reply) :
    s.attach timeoutMs reply
      = ((s.attaching timeoutMs).runHook s.onAttach,
          attachReply reply ((s.attaching timeoutMs).runHook s.onAttach).handlers.length) := rfl

/-- `rpc.attach` runs the hook of `on_attach`. -/
theorem attach_journal (timeoutMs : Nat) (reply : Reply) :
    (s.journal marks).attach timeoutMs reply
      = beside (marks ++ hookMarks s.onAttach .onAttach) (s.attach timeoutMs reply) := by
  -- The journal is beside the state in front of the hook, and the hook adds its mark.
  have hhook : ((s.journal marks).attaching timeoutMs).runHook (s.journal marks).onAttach
      = ((s.attaching timeoutMs).runHook s.onAttach).journal
          (marks ++ hookMarks s.onAttach .onAttach) :=
    (s.attaching timeoutMs).runHook_marked marks s.onAttach [.onAttach]
  have hcount (t : Server sz σ) (marks : List Fired) :
      (t.journal marks).handlers.length = t.handlers.length := List.length_map _
  rw [attach_eq, attach_eq, hhook, hcount]
  rfl

/-- The device is detached, and the hook has not run. -/
def detaching : Server sz σ := { s with attached := false, attachHasTimeout := false }

/-- The hook of `on_detach` runs. -/
theorem detaching_journal :
    (s.journal marks).detaching.runHook (s.journal marks).onDetach
      = (s.detaching.runHook s.onDetach).journal (marks ++ hookMarks s.onDetach .onDetach) :=
  s.detaching.runHook_marked marks s.onDetach [.onDetach]

/-- `rpc.detach` runs the hook of `on_detach` if the device was attached. -/
theorem detach_journal :
    (s.journal marks).detach
      = s.detach.journal (marks ++ if s.attached then hookMarks s.onDetach .onDetach else []) := by
  by_cases hattached : s.attached = true
  · have hplain : s.detach = s.detaching.runHook s.onDetach := if_pos hattached
    rw [hplain, if_pos hattached, ← detaching_journal]
    exact if_pos hattached
  · have hplain : s.detach = s.detaching := if_neg hattached
    rw [hplain, if_neg hattached, List.append_nil]
    exact if_neg hattached

/-- A failure is counted alike. -/
theorem countFailure_journal (answer : Server sz σ × Reply) :
    countFailure (beside marks answer) = beside marks (countFailure answer) := by
  unfold countFailure
  rw [apply_ite (beside marks)]
  rfl

/-! ### Dispatch -/

/-- The marks that a call adds. -/
def callMarks : Lease.Signal → List Fired
  | .grant _ => hookMarks s.onAttach .onAttach
  | .release => if s.attached then hookMarks s.onDetach .onDetach else []
  | _ => []

/-- **A built-in method** leaves the marks of its signal. -/
theorem dispatchBuiltin_journal (method : List UInt8) (args : Args sz.sizeT) (reply : Reply) :
    (s.journal marks).dispatchBuiltin method args reply
      = (s.dispatchBuiltin method args reply).map
          (beside (marks ++ s.callMarks (callSignal method args))) := by
  have hquiet : marks ++ s.callMarks .renew = marks := List.append_nil marks
  -- The builtin methods in the order in which they are compared.
  unfold dispatchBuiltin
  dsimp only
  by_cases hping : method = SerialRpc.text "rpc.ping"
  · subst hping
    rw [callSignal_ping, hquiet, if_pos rfl, if_pos rfl]
    rfl
  · rw [if_neg hping, if_neg hping]
    by_cases hlist : method = SerialRpc.text "rpc.list"
    · subst hlist
      rw [callSignal_list, hquiet, if_pos rfl, if_pos rfl]
      -- A parameter of another type is refused, and starts nothing.
      cases readOptional args with
      | none => rfl
      | some start => exact congrArg some (s.packRpcListResult_journal marks reply start)
    · rw [if_neg hlist, if_neg hlist]
      by_cases hattach : method = SerialRpc.text "rpc.attach"
      · subst hattach
        rw [callSignal_attach, if_pos rfl, if_pos rfl]
        -- The hook runs only when the parameter is read.
        cases readOptional args with
        | none =>
            show _ = some (beside (marks ++ []) _)
            rw [List.append_nil]
            rfl
        | some timeoutMs => exact congrArg some (s.attach_journal marks timeoutMs reply)
      · rw [if_neg hattach, if_neg hattach]
        by_cases hdetach : method = SerialRpc.text "rpc.detach"
        · subst hdetach
          rw [callSignal_detach, if_pos rfl, if_pos rfl]
          exact congrArg (fun t => some (t, reply)) (s.detach_journal marks)
        · rw [if_neg hdetach, if_neg hdetach]
          rfl

/-- A handler of the sketch leaves none. -/
theorem dispatchUser_journal (method : List UInt8) (args : Args sz.sizeT) (reply : Reply) :
    (s.journal marks).dispatchUser method args reply
      = (s.dispatchUser method args reply).map (beside marks) := by
  unfold dispatchUser
  show (findHandler (s.handlers.map Entry.journaled) method).map _ = _
  rw [findHandler_journaled]
  cases findHandler s.handlers method with
  | none => rfl
  | some entry => exact congrArg some (s.invoke_journal marks entry.fn args reply)

/-- So a call leaves the marks of its signal. -/
theorem dispatch_journal (method : List UInt8) (args : Args sz.sizeT) (reply : Reply) :
    (s.journal marks).dispatch method args reply
      = beside (marks ++ s.callMarks (callSignal method args)) (s.dispatch method args reply) := by
  unfold dispatch
  rw [dispatchBuiltin_journal]
  cases hbuiltin : s.dispatchBuiltin method args reply with
  | some answer => exact countFailure_journal _ answer
  | none =>
      rw [callSignal_of_not_builtin hbuiltin, show marks ++ s.callMarks .renew = marks from
        List.append_nil marks, dispatchUser_journal]
      cases s.dispatchUser method args reply with
      | none => rfl
      | some answer => exact countFailure_journal marks answer

/-! ### The main loop -/

/-- A response leaves none. -/
theorem sendResponse_journal (msgid : UInt32) (reply : Reply) :
    (s.journal marks).sendResponse msgid reply = (s.sendResponse msgid reply).journal marks := by
  let built := buildResponse s.payloadBuf msgid reply
  let packed : Server sz σ :=
    { s with
        payloadBuf := built.1
        payloadBuf_length :=
          (buildResponse_length s.payloadBuf msgid reply
            (s.payloadBuf_length ▸ sz.header_fits)).trans s.payloadBuf_length
        responseOverflowErrors :=
          if built.2.2 then s.responseOverflowErrors + 1 else s.responseOverflowErrors }
  exact packed.sendFrame_journal marks (built.1.take built.2.1)

/-- A frame leaves the marks of its call. -/
theorem handleFrame_journal (payload : List UInt8) :
    (s.journal marks).handleFrame payload
      = (s.handleFrame payload).journal (marks ++ s.callMarks (payloadSignal sz payload)) := by
  rw [handleFrame_eq, handleFrame_eq, show (s.journal marks).stamped = s.stamped.journal marks
    from rfl]
  unfold receive payloadSignal
  cases readIncoming sz payload with
  | request msgid method args =>
      dsimp only
      rw [dispatch_journal]
      exact sendResponse_journal _ _ _ _
  | notification method args => exact congrArg Prod.fst (s.stamped.dispatch_journal marks _ _ _)
  | malformed =>
      -- No call, and no mark.
      show s.stamped.malformed.journal marks = s.stamped.malformed.journal (marks ++ [])
      rw [List.append_nil]

/-- So does a report. -/
theorem handleReport_journal (report : Option Report) :
    (s.journal marks).handleReport report
      = (s.handleReport report).journal (marks ++ s.callMarks (reportSignal sz report)) := by
  cases report with
  | none =>
      show s.journal marks = s.journal (marks ++ [])
      rw [List.append_nil]
  | some report =>
      cases report with
      | frame payload => exact s.handleFrame_journal marks payload
      | textLine line truncated =>
          show (s.journal marks).runHook _ = Server.journal _ (marks ++ [])
          rw [List.append_nil]
          exact s.runHook_text marks s.onText (cstr line)

/-- The closing check runs the hook of `on_detach` if it detaches the device. -/
theorem checkAttachTimeout_journal :
    (s.journal marks).checkAttachTimeout
      = s.checkAttachTimeout.journal (marks ++
          if s.attached = true ∧ s.checkAttachTimeout.attached = false
            then hookMarks s.onDetach .onDetach else []) := by
  -- The server behind the reading of the clock.
  let read := s.nowMs.2
  by_cases htimed : (s.attached && s.attachHasTimeout) = true
  · obtain ⟨hattached, -⟩ := Bool.and_eq_true_iff.mp htimed
    by_cases hpassed : s.attachTimeoutMs ≤ s.clock s.readings - s.lastFrameMs
    · have hplain : s.checkAttachTimeout = read.detaching.runHook s.onDetach :=
        (if_pos htimed).trans (if_pos hpassed)
      have hdetached : (read.detaching.runHook s.onDetach).attached = false :=
        congrArg Attachment.attached (read.detaching.runHook_attachment s.onDetach)
      rw [hplain, if_pos ⟨hattached, hdetached⟩]
      exact ((if_pos htimed).trans (if_pos hpassed)).trans (read.detaching_journal marks)
    · have hplain : s.checkAttachTimeout = read := (if_pos htimed).trans (if_neg hpassed)
      have hstays : ¬ (s.attached = true ∧ read.attached = false) := by
        rintro ⟨-, hdetached⟩
        exact Bool.noConfusion (hattached.symm.trans hdetached)
      rw [hplain, if_neg hstays, List.append_nil]
      exact (if_pos htimed).trans (if_neg hpassed)
  · have hplain : s.checkAttachTimeout = s := if_neg htimed
    have hstays : ¬ (s.attached = true ∧ s.attached = false) := by
      rintro ⟨hattached, hdetached⟩
      exact Bool.noConfusion (hattached.symm.trans hdetached)
    rw [hplain, if_neg hstays, List.append_nil]
    exact if_neg htimed

/-- Binding leaves none. -/
theorem bind_journal (entry : Entry sz.sizeT σ) :
    (s.journal marks).bind entry.journaled = (s.bind entry).journal marks := by
  have hhandlers : (s.journal marks).handlers = s.handlers.map Entry.journaled := rfl
  unfold bind
  rw [apply_ite fun t => journal t marks, hhandlers, addHandlerStl_journaled,
    addHandlerFixed_journaled]
  refine ite_congr rfl (fun _ => rfl) fun _ => ?_
  cases addHandlerFixed sz.maxHandlers s.handlers entry with
  | none => rfl
  | some handlers => rfl

/-! ### Runs -/

/-- The marks of an event: one for a successful `rpc.attach`, and one when `rpc.detach` or the
timeout detaches a device that was attached, each if the hook is set. -/
def fires (x : Nat × Event sz σ) : List Fired :=
  match s.signal x.2 with
  | .grant _ => hookMarks s.onAttach .onAttach
  | .release | .check =>
      if s.attached = true ∧ (s.actAt x).attached = false then hookMarks s.onDetach .onDetach
      else []
  | _ => []

/-- The marks of a run. -/
def firings (s : Server sz σ) : List (Nat × Event sz σ) → List Fired
  | [] => []
  | x :: run => s.fires x ++ (s.actAt x).firings run

/-- A byte is no check. -/
theorem signal_byte_ne_check (b : UInt8) : s.signal (.byte b) ≠ .check := by
  have hcall (method : List UInt8) (args : Args sz.sizeT) : callSignal method args ≠ .check := by
    unfold callSignal
    split
    · split <;> exact Lease.Signal.noConfusion
    · split <;> exact Lease.Signal.noConfusion
  show reportSignal sz _ ≠ .check
  unfold reportSignal payloadSignal
  split
  · split
    · exact hcall _ _
    · exact hcall _ _
    · exact Lease.Signal.noConfusion
  · exact Lease.Signal.noConfusion

/-- A byte adds the marks of the call that it completes. -/
theorem fires_byte (t : Nat) (b : UInt8) :
    s.fires (t, .byte b) = s.callMarks (s.signal (.byte b)) := by
  have hact := congrArg Attachment.attached (s.attachment_act (t, .byte b))
  unfold fires callMarks
  dsimp only at hact ⊢
  cases hsignal : s.signal (.byte b) with
  | check => exact absurd hsignal (s.signal_byte_ne_check b)
  | release =>
      -- After `rpc.detach` the device is detached.
      rw [hsignal] at hact
      have hdetached : (s.actAt (t, .byte b)).attached = false := hact
      simp only [hdetached, and_true]
  | _ => rfl

/-- **One event** adds its marks to the journal, and does the same otherwise. -/
theorem act_journaled (x : Nat × Event sz σ) :
    (s.journal marks).actAt (x.1, x.2.journaled marks)
      = (s.actAt x).journal (marks ++ s.fires x) := by
  obtain ⟨t, event⟩ := x
  let timed : Server sz σ := { s with clock := fun _ => UInt32.ofNat t }
  -- An event fires nothing but through a byte, which may end a frame, or through the timeout.
  cases event with
  | byte b =>
      let fed : Server sz σ :=
        { timed with demux := ((SerialRpc.demux sz.demuxSize).step s.demux b).1 }
      rw [fires_byte]
      exact fed.handleReport_journal marks _
  | pollEnd => exact timed.checkAttachTimeout_journal marks
  | notify name args =>
      show _ = (s.actAt (t, .notify name args)).journal (marks ++ [])
      rw [List.append_nil]
      exact congrArg Prod.fst (timed.notify_journal marks name args)
  | log b =>
      show _ = (s.actAt (t, .log b)).journal (marks ++ [])
      rw [List.append_nil]
      exact timed.logByte_journal marks b
  | bind entry =>
      show _ = (s.actAt (t, .bind entry)).journal (marks ++ [])
      rw [List.append_nil]
      exact timed.bind_journal marks entry
  | _ =>
      show _ = Server.journal _ (marks ++ [])
      rw [List.append_nil]
      rfl

/-- A run of a server with a journal. -/
def runJournaled (s : Server sz (σ × List Fired)) (run : List (Nat × Event sz σ)) :
    Server sz (σ × List Fired) :=
  run.foldl (fun s x => s.actAt (x.1, x.2.journaled s.sketch.2)) s

/-- **The journal of a run** holds the marks of its events. -/
theorem run_journaled (run : List (Nat × Event sz σ)) :
    runJournaled (s.journal marks) run
      = (s.runAt run).journal (marks ++ s.firings run) := by
  induction run generalizing s marks with
  | nil =>
      show s.journal marks = s.journal (marks ++ [])
      rw [List.append_nil]
  | cons x run ih =>
      show runJournaled ((s.journal marks).actAt (x.1, x.2.journaled marks)) run = _
      rw [act_journaled, ih, List.append_assoc]
      rfl

end Server

end SerialRpc
