import SerialRpc.Proofs.Device.Attachment
import SerialRpc.Proofs.Device.Calls
import SerialRpc.Proofs.Device.Table
import SerialRpc.Proofs.Device.Transport

/-!
# `SerialRpc.Proofs.Device.Wire`: the device writes frames and lines of text

Whatever a device does between two calls of `begin`, its writes are frames of payloads that fit the
buffer, and text without zeros (`Sent.OnWire`), as long as the sketch logs no zero byte (`Clean`).
Each function of the server keeps this (`Cleanly`), and so does every event (`act_cleanly`).
-/

set_option autoImplicit false

namespace SerialRpc

/-- The frame of a payload that fits, or text without zeros. -/
def Sent.OnWire (sz : ServerSize) : Sent → Prop
  | .frame payload bytes => bytes = frameBytes payload ∧ payload.length ≤ sz.bufSize
  | .text bytes => 0 ∉ bytes

/-- A callback that logs no zero byte. -/
def Hook.Clean {σ : Type} (hook : Hook σ) : Prop := ∀ state, (hook state).Logs (· ≠ 0)

namespace Server

variable {sz : ServerSize} {σ : Type}

/-- There is no zero in the unfinished log line, and the sketch logs none. -/
structure Clean (s : Server sz σ) : Prop where
  line : 0 ∉ s.logBuf
  onText : ∀ hook ∈ s.onText, ∀ line, Hook.Clean (hook line)
  onAttach : ∀ hook ∈ s.onAttach, Hook.Clean hook
  onDetach : ∀ hook ∈ s.onDetach, Hook.Clean hook
  handlers : ∀ entry ∈ s.handlers, ∀ args state, (entry.fn args state).Logs (· ≠ 0)

/-- A new server is clean: its log buffer is empty, and it has no hook or handler yet. -/
theorem new_clean (sz : ServerSize) (sketch : σ) (clock : Nat → UInt32) :
    (new sz sketch clock).Clean where
  line := List.not_mem_nil
  onText := by rintro hook ⟨⟩
  onAttach := by rintro hook ⟨⟩
  onDetach := by rintro hook ⟨⟩
  handlers := by rintro entry ⟨⟩

/-- From a clean device to a clean one, with writes as they should be on the wire. -/
def Cleanly (s s' : Server sz σ) : Prop := s.Clean → s'.Clean ∧ Sends (Sent.OnWire sz) s s'

variable {s s' s'' : Server sz σ}

/-- Doing nothing keeps the log buffer clean and sends nothing. -/
theorem Cleanly.refl (s : Server sz σ) : Cleanly s s := fun h => ⟨h, Sends.of_eq rfl⟩

/-- Two clean steps are one. -/
theorem Cleanly.trans (h : Cleanly s s') (h' : Cleanly s' s'') : Cleanly s s'' := by
  intro hclean
  obtain ⟨hclean', hsends⟩ := h hclean
  obtain ⟨hclean'', hsends'⟩ := h' hclean'
  exact ⟨hclean'', hsends.trans hsends'⟩

/-- What only outputs happened to is clean, if its log line is. -/
theorem Outputs.cleanly (h : Outputs (Sent.OnWire sz) s s') (hline : 0 ∉ s.logBuf → 0 ∉ s'.logBuf) :
    Cleanly s s' := by
  intro hclean
  refine ⟨?_, h.sent⟩
  obtain ⟨line, onText, onAttach, onDetach, handlers⟩ := hclean
  have hlogBuf := hline line
  rw [h.eq] at hlogBuf ⊢
  exact ⟨hlogBuf, onText, onAttach, onDetach, handlers⟩

/-- Neither the log line nor the callbacks nor the table changed, and nothing was written. -/
theorem Cleanly.of_eq (hline : s'.logBuf = s.logBuf) (honText : s'.onText = s.onText)
    (honAttach : s'.onAttach = s.onAttach) (honDetach : s'.onDetach = s.onDetach)
    (hhandlers : s'.handlers = s.handlers) (hsent : s'.sent = s.sent) : Cleanly s s' := by
  rintro ⟨line, onText, onAttach, onDetach, handlers⟩
  exact ⟨⟨hline ▸ line, honText ▸ onText, honAttach ▸ onAttach, honDetach ▸ onDetach,
    hhandlers ▸ handlers⟩, Sends.of_eq hsent⟩

/-! ### Sending -/

/-- A payload within the buffer goes on the wire as a frame the receiver can take. -/
theorem sendFrame_wire (s : Server sz σ) {payload : List UInt8}
    (hfits : payload.length ≤ sz.bufSize) :
    Outputs (Sent.OnWire sz) s (s.sendFrame payload) :=
  s.sendFrame_outputs hfits ⟨rfl, hfits⟩

/-- A notification that is sent fits the buffer, so it is such a frame. -/
theorem notify_wire (s : Server sz σ) (name : List UInt8) (args : List (List PackOp)) :
    Outputs (Sent.OnWire sz) s (s.notify name args).1 := by
  unfold notify
  split
  · -- A detached server sends nothing.
    exact Outputs.refl s
  have hholds := Writer.packAll_holds s.payloadBuf s.payloadBuf.length le_rfl
    (packNotification name args)
  dsimp only
  -- Nor does it send a notification that does not fit the payload buffer.
  split
  · exact Outputs.of_silent rfl rfl
  · rename_i hfit
    obtain ⟨hdata, hlength⟩ := hholds.data_of_fits (by simpa using hfit)
    rw [s.payloadBuf_length] at hlength
    refine Outputs.trans ?_ (sendFrame_wire _ (by rwa [hdata]))
    exact Outputs.of_silent rfl rfl

/-- A log line without a zero byte goes out as text or as a notification, both well formed. -/
theorem emitLogLine_wire (s : Server sz σ) (level : UInt8) {line : List UInt8} (hline : 0 ∉ line) :
    Outputs (Sent.OnWire sz) s (s.emitLogLine level line) := by
  unfold emitLogLine
  split
  · exact s.notify_wire _ _
  · have hlf : Sent.OnWire sz (.text [lf]) := by
      show 0 ∉ [lf]
      decide
    exact (s.writeText_outputs (show Sent.OnWire sz (.text line) from hline)).trans
      (writeText_outputs _ hlf)

/-- Logging a byte that is not zero keeps the buffer clean. -/
theorem logByte_cleanly (s : Server sz σ) {b : UInt8} (hb : b ≠ 0) : Cleanly s (s.logByte b) := by
  intro hclean
  have houtputs := s.logByte_outputs b (s.emitLogLine_wire s.logLevel hclean.line)
  refine houtputs.cleanly (fun hline hzero => ?_) hclean
  rcases mem_logByte hzero with hzero | hzero
  · exact hline hzero
  · exact hb hzero.symm

/-! ### Code of the sketch -/

/-- A notification leaves the log buffer alone. -/
theorem notify_logBuf (s : Server sz σ) (name : List UInt8) (args : List (List PackOp)) :
    (s.notify name args).1.logBuf = s.logBuf := by
  unfold notify
  split
  · rfl
  · dsimp only
    split
    · rfl
    · unfold sendFrame
      dsimp only
      split <;> rfl

/-- A notification is a clean step. -/
theorem notify_cleanly (s : Server sz σ) (name : List UInt8) (args : List (List PackOp)) :
    Cleanly s (s.notify name args).1 :=
  (s.notify_wire name args).cleanly fun hline => (s.notify_logBuf name args).symm ▸ hline

/-- A script that logs no zero byte is one, whatever else it does. -/
theorem run_cleanly {α : Type} {script : Script α} (hlogs : script.Logs (· ≠ 0))
    (s : Server sz σ) : Cleanly s (s.run script).1 := by
  refine run_induction Cleanly.refl Cleanly.trans notify_cleanly (fun s b => s.logByte_cleanly) ?_
    hlogs s
  intro s level
  exact Cleanly.of_eq rfl rfl rfl rfl rfl rfl

/-- So is a hook that logs no zero byte. -/
theorem runHook_cleanly {hook : Option (Hook σ)} (hlogs : ∀ h ∈ hook, Hook.Clean h)
    (s : Server sz σ) : Cleanly s (s.runHook hook) := by
  cases hook with
  | none => exact Cleanly.refl s
  | some hook =>
      exact (run_cleanly (hlogs hook rfl s.sketch) s).trans (Cleanly.of_eq rfl rfl rfl rfl rfl rfl)

/-- A callback of the device runs behind something else. -/
theorem runHook_behind {t : Server sz σ} {hook : Option (Hook σ)} (h : Cleanly s t)
    (hlogs : s.Clean → ∀ h ∈ hook, Hook.Clean h) : Cleanly s (t.runHook hook) :=
  fun hclean => (h.trans (runHook_cleanly (hlogs hclean) t)) hclean

/-! ### Dispatch -/

/-- So is a handler that logs no zero byte. -/
theorem invoke_cleanly {fn : Handler sz.sizeT σ}
    (hlogs : ∀ args state, (fn args state).Logs (· ≠ 0))
    (s : Server sz σ) (args : Args sz.sizeT) (reply : Reply) :
    Cleanly s (s.invoke fn args reply).1 :=
  (run_cleanly (hlogs args s.sketch) s).trans (Cleanly.of_eq rfl rfl rfl rfl rfl rfl)

/-- Packing a page of `rpc.list` sends nothing. -/
theorem packRpcListResult_cleanly (s : Server sz σ) (reply : Reply) (start : Nat) :
    Cleanly s (s.packRpcListResult reply start).1 := by
  rcases packRpcListResult_server s reply start with heq | heq
  · rw [heq]
    exact Cleanly.refl s
  · rw [heq]
    exact Cleanly.of_eq rfl rfl rfl rfl rfl rfl

/-- `attach` runs a clean hook. -/
theorem attach_cleanly (s : Server sz σ) (timeoutMs : Nat) (reply : Reply) :
    Cleanly s (s.attach timeoutMs reply).1 :=
  runHook_behind (Cleanly.of_eq rfl rfl rfl rfl rfl rfl) Clean.onAttach

/-- So does `detach`, where there was a host attached. -/
theorem detach_cleanly (s : Server sz σ) : Cleanly s s.detach := by
  unfold detach
  dsimp only
  split
  · exact runHook_behind (Cleanly.of_eq rfl rfl rfl rfl rfl rfl) Clean.onDetach
  · exact Cleanly.of_eq rfl rfl rfl rfl rfl rfl

/-- Counting a failed call sends nothing. -/
theorem countFailure_cleanly {answer : Server sz σ × Reply} (h : Cleanly s answer.1) :
    Cleanly s (countFailure answer).1 := by
  unfold countFailure
  split
  · exact h.trans (Cleanly.of_eq rfl rfl rfl rfl rfl rfl)
  · exact h

/-- Every builtin method is a clean step. -/
theorem AnswersBuiltin.cleanly {method : List UInt8} {args : Args sz.sizeT} {reply : Reply}
    {answer : Server sz σ × Reply} (h : AnswersBuiltin s args reply method answer) :
    Cleanly s answer.1 := by
  cases h with
  | ping => exact Cleanly.refl s
  | rejected => exact Cleanly.refl s
  | list => exact s.packRpcListResult_cleanly _ _
  | attach => exact s.attach_cleanly _ _
  | detach => exact s.detach_cleanly

/-- A dispatch is a clean step, whichever method it reaches. -/
theorem dispatch_cleanly (s : Server sz σ) (method : List UInt8) (args : Args sz.sizeT)
    (reply : Reply) : Cleanly s (s.dispatch method args reply).1 := by
  intro hclean
  rcases s.dispatch_cases method args reply with ⟨answer, hbuiltin, hdispatch⟩ |
    ⟨entry, -, hfind, hdispatch⟩ | ⟨-, -, hdispatch⟩
  · rw [hdispatch]
    exact countFailure_cleanly hbuiltin.cleanly hclean
  · rw [hdispatch]
    exact countFailure_cleanly
      (s.invoke_cleanly (hclean.handlers entry (mem_of_findHandler hfind)) args reply) hclean
  · rw [hdispatch]
    have hcounted : Cleanly s { s with unknownMethodErrors := s.unknownMethodErrors + 1 } :=
      Cleanly.of_eq rfl rfl rfl rfl rfl rfl
    exact hcounted hclean

/-! ### Messages -/

/-- A response is sent only where it fits, so sending one is a clean step. -/
theorem sendResponse_cleanly (s : Server sz σ) (msgid : UInt32) (reply : Reply) :
    Cleanly s (s.sendResponse msgid reply) := by
  have hlength : (buildResponse s.payloadBuf msgid reply).1.length = sz.bufSize :=
    (buildResponse_length s.payloadBuf msgid reply (s.payloadBuf_length ▸ sz.header_fits)).trans
      s.payloadBuf_length
  -- Whatever the response was, what is sent is a part of the payload buffer.
  have hfits : ((buildResponse s.payloadBuf msgid reply).1.take
      (buildResponse s.payloadBuf msgid reply).2.1).length ≤ sz.bufSize := by
    rw [List.length_take, hlength]
    exact Nat.min_le_right _ _
  unfold sendResponse
  dsimp only
  refine Cleanly.trans ?_ ((sendFrame_wire _ hfits).cleanly fun hline => ?_)
  · exact Cleanly.of_eq rfl rfl rfl rfl rfl rfl
  · rw [sendFrame_eq _ hfits]
    exact hline

/-- Answering a parsed message is a clean step. -/
theorem receive_cleanly (s : Server sz σ) (incoming : Incoming sz.sizeT) :
    Cleanly s (s.receive incoming) := by
  cases incoming with
  | request msgid method args =>
      exact (s.dispatch_cleanly method args _).trans (sendResponse_cleanly _ _ _)
  | notification method args => exact s.dispatch_cleanly method args _
  | malformed => exact Cleanly.of_eq rfl rfl rfl rfl rfl rfl

/-- One report of the receiver is answered cleanly: only a frame is answered at all. -/
theorem handleReport_cleanly (s : Server sz σ) (report : Option Report) :
    Cleanly s (s.handleReport report) := by
  intro hclean
  cases report with
  | none => exact Cleanly.refl s hclean
  -- A frame stamps the time and is answered. A line of text runs its hook.
  | some report =>
      cases report with
      | frame payload =>
          show (s.handleFrame payload).Clean ∧ Sends (Sent.OnWire sz) s (s.handleFrame payload)
          have hstamped : Cleanly s s.stamped := Cleanly.of_eq rfl rfl rfl rfl rfl rfl
          rw [handleFrame_eq]
          exact (hstamped.trans (s.stamped.receive_cleanly _)) hclean
      | textLine line truncated =>
          refine runHook_cleanly (fun hook hmem => ?_) s hclean
          obtain ⟨text, htext, rfl⟩ := Option.map_eq_some_iff.mp hmem
          exact hclean.onText text htext (cstr line)

/-- So is any number of them, by induction on the reports. -/
theorem handleReports_cleanly (s : Server sz σ) (reports : List Report) :
    Cleanly s (s.handleReports reports) := by
  induction reports generalizing s with
  | nil => exact Cleanly.refl s
  | cons report reports ih => exact (s.handleReport_cleanly (some report)).trans (ih _)

/-- The attach timeout is a clean step: all it can run is `detach`. -/
theorem checkAttachTimeout_cleanly (s : Server sz σ) : Cleanly s s.checkAttachTimeout := by
  unfold checkAttachTimeout
  split
  · dsimp only [nowMs]
    split
    · exact runHook_behind (Cleanly.of_eq rfl rfl rfl rfl rfl rfl) Clean.onDetach
    · exact Cleanly.of_eq rfl rfl rfl rfl rfl rfl
  · exact Cleanly.refl s

/-! ### Events -/

/-- What the sketch may do in its main loop, apart from `poll` and `begin`, when it logs no zero
byte. -/
def Event.Clean : Event sz σ → Prop
  | .byte _ => False
  | .pollEnd => False
  | .begin => False
  | .log b => b ≠ 0
  | .bind entry => ∀ args state, (entry.fn args state).Logs (· ≠ 0)
  | .onText hook => ∀ h ∈ hook, ∀ line, Hook.Clean (h line)
  | .onAttach hook => ∀ h ∈ hook, Hook.Clean h
  | .onDetach hook => ∀ h ∈ hook, Hook.Clean h
  | .notify _ _ => True
  | .logAt _ => True
  | .sketch _ => True

/-- Binding a handler that logs no zero byte sends nothing and keeps the buffer clean. -/
theorem bind_cleanly {entry : Entry sz.sizeT σ}
    (hlogs : ∀ args state, (entry.fn args state).Logs (· ≠ 0)) (s : Server sz σ) :
    Cleanly s (s.bind entry) := by
  intro hclean
  have hentry : ∀ e ∈ [entry], ∀ args state, (e.fn args state).Logs (· ≠ 0) := by
    intro e hmem
    rwa [List.mem_singleton.mp hmem]
  -- The handler that is new logs no zero byte, and the others are those of before.
  have hhandlers : ∀ e ∈ (s.bind entry).handlers, ∀ args state, (e.fn args state).Logs (· ≠ 0) :=
    binds_forall (p := fun fn => ∀ args state, (fn args state).Logs (· ≠ 0)) hentry hclean.handlers
  have hsame : (s.bind entry).logBuf = s.logBuf ∧ (s.bind entry).onText = s.onText ∧
      (s.bind entry).onAttach = s.onAttach ∧ (s.bind entry).onDetach = s.onDetach ∧
      (s.bind entry).sent = s.sent := by
    unfold bind
    split
    · exact ⟨rfl, rfl, rfl, rfl, rfl⟩
    · split <;> exact ⟨rfl, rfl, rfl, rfl, rfl⟩
  obtain ⟨hline, honText, honAttach, honDetach, hsent⟩ := hsame
  exact ⟨⟨hline ▸ hclean.line, honText ▸ hclean.onText, honAttach ▸ hclean.onAttach,
    honDetach ▸ hclean.onDetach, hhandlers⟩, Sends.of_eq hsent⟩

/-- Binding a handler does not read the receiver. -/
theorem bind_withDemux (s : Server sz σ) (d : Demux sz.demuxSize) (entry : Entry sz.sizeT σ) :
    (s.withDemux d).bind entry = (s.bind entry).withDemux d := by
  unfold bind
  rw [show (s.withDemux d).handlers = s.handlers from rfl]
  split
  · rfl
  · split <;> rfl

/-- The sketch cannot see the demultiplexer. -/
theorem act_withDemux {event : Event sz σ} (h : event.Clean) (s : Server sz σ)
    (d : Demux sz.demuxSize) : (s.withDemux d).act event = (s.act event).withDemux d := by
  cases event with
  | byte b => exact h.elim
  | pollEnd => exact h.elim
  | begin => exact h.elim
  | notify name args => exact congrArg Prod.fst (s.notify_withDemux d name args)
  | log b => exact s.logByte_withDemux d b
  | bind entry => exact bind_withDemux s d entry
  | logAt level => rfl
  | onText hook => rfl
  | onAttach hook => rfl
  | onDetach hook => rfl
  | sketch state => rfl

/-- What the sketch does in its main loop keeps the device clean. -/
theorem act_cleanly {event : Event sz σ} (h : event.Clean) (s : Server sz σ) :
    Cleanly s (s.act event) := by
  -- Bytes and the end of a poll are no events of the sketch.
  cases event with
  | byte b => exact h.elim
  | pollEnd => exact h.elim
  | begin => exact h.elim
  | notify name args => exact s.notify_cleanly name args
  | log b => exact s.logByte_cleanly h
  | logAt level => exact Cleanly.of_eq rfl rfl rfl rfl rfl rfl
  | bind entry => exact bind_cleanly h s
  | onText hook =>
      rintro ⟨line, -, onAttach, onDetach, handlers⟩
      exact ⟨⟨line, h, onAttach, onDetach, handlers⟩, Sends.of_eq rfl⟩
  | onAttach hook =>
      rintro ⟨line, onText, -, onDetach, handlers⟩
      exact ⟨⟨line, onText, h, onDetach, handlers⟩, Sends.of_eq rfl⟩
  | onDetach hook =>
      rintro ⟨line, onText, onAttach, -, handlers⟩
      exact ⟨⟨line, onText, onAttach, h, handlers⟩, Sends.of_eq rfl⟩
  | sketch state => exact Cleanly.of_eq rfl rfl rfl rfl rfl rfl

end Server

end SerialRpc
