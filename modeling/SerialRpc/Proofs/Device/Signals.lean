import SerialRpc.Lib.Lease
import SerialRpc.Proofs.Device.Attachment

/-!
# `SerialRpc.Proofs.Device.Signals`: what an event is to the attachment

An attachment with a timeout is a lease (`SerialRpc.Lib.Lease`). A successful `rpc.attach`
grants it, every frame that the demultiplexer reports renews it, `rpc.detach` gives it back,
`begin` withdraws it, and the end of a `poll` checks it.

* `payloadSignal_grant` and `payloadSignal_release` say on the wire format which frames attach
  and detach. An `rpc.attach` whose parameter is rejected is a frame like any other.
* `attachment_act` is what one event at the true time `t` does to `attached()` and the members
  beside it, and the only place that looks into the events. `Attachment.hear` is this step.
-/

set_option autoImplicit false

namespace SerialRpc

open MsgPack Reader
open Server (SaysOptional readOptional_eq_some)

variable {sz : ServerSize} {σ : Type}

/-! ### On the wire -/

/-- The payload calls `method`, in a request or in a notification. -/
def CallsMethod (sz : ServerSize) (method : List UInt8) (count : Nat)
    (params payload : List UInt8) : Prop :=
  (∃ msgid, Request sz.sizeT msgid method count params payload) ∨
    Notification sz.sizeT method count params payload

/-! ### The signal of a frame -/

/-- What a call is to the attachment. -/
def callSignal (method : List UInt8) (args : Args sz.sizeT) : Lease.Signal :=
  if method = text "rpc.attach" then
    match Server.readOptional args with
    | some timeoutMs => .grant timeoutMs
    | none => .renew
  else if method = text "rpc.detach" then .release
  else .renew

/-- What a frame is to the attachment. -/
def payloadSignal (sz : ServerSize) (payload : List UInt8) : Lease.Signal :=
  match readIncoming sz payload with
  | .request _ method args => callSignal method args
  | .notification method args => callSignal method args
  | .malformed => .renew

/-- What a report of the demultiplexer is to the attachment. -/
def reportSignal (sz : ServerSize) : Option Report → Lease.Signal
  | some (.frame payload) => payloadSignal sz payload
  | _ => .idle

/-- A call of `rpc.attach` grants, if its parameter is accepted. -/
theorem callSignal_attach (args : Args sz.sizeT) :
    callSignal (text "rpc.attach") args
      = match Server.readOptional args with
        | some timeoutMs => .grant timeoutMs
        | none => .renew := if_pos rfl

/-- A call of `rpc.detach` gives back. -/
theorem callSignal_detach (args : Args sz.sizeT) :
    callSignal (text "rpc.detach") args = .release := by
  have hother : text "rpc.detach" ≠ text "rpc.attach" := by decide +kernel
  rw [callSignal, if_neg hother, if_pos rfl]

/-- Any other call renews. -/
theorem callSignal_other {method : List UInt8} (hattach : method ≠ text "rpc.attach")
    (hdetach : method ≠ text "rpc.detach") (args : Args sz.sizeT) :
    callSignal method args = .renew := by
  rw [callSignal, if_neg hattach, if_neg hdetach]

/-- `rpc.ping` and `rpc.list` are frames like any other. -/
theorem callSignal_ping (args : Args sz.sizeT) : callSignal (text "rpc.ping") args = .renew :=
  callSignal_other (by decide +kernel) (by decide +kernel) args

/-- So does one of `rpc.list`. -/
theorem callSignal_list (args : Args sz.sizeT) : callSignal (text "rpc.list") args = .renew :=
  callSignal_other (by decide +kernel) (by decide +kernel) args

/-- A call has the signal of its method and its parameters. -/
theorem payloadSignal_call {method params payload : List UInt8} {count : Nat}
    (h : CallsMethod sz method count params payload) :
    ∃ pos, payload.drop pos = params ∧
      payloadSignal sz payload = callSignal method (argsAt sz.sizeT payload pos count) := by
  rcases h with ⟨msgid, hrequest⟩ | hnotification
  · obtain ⟨pos, hread, hdrop⟩ := readIncoming_request hrequest
    exact ⟨pos, hdrop, by rw [payloadSignal, hread]⟩
  · obtain ⟨pos, hread, hdrop⟩ := readIncoming_notification hnotification
    exact ⟨pos, hdrop, by rw [payloadSignal, hread]⟩

/-- A frame that calls nothing is a sign of life all the same. -/
theorem payloadSignal_malformed {payload : List UInt8}
    (h : ∀ method count params, ¬ CallsMethod sz method count params payload) :
    payloadSignal sz payload = .renew := by
  have hread : readIncoming sz payload = .malformed := by
    refine readIncoming_malformed ?_ ?_
    · intro msgid method count params hrequest
      exact h method count params (Or.inl ⟨msgid, hrequest⟩)
    · intro method count params hnotification
      exact h method count params (Or.inr hnotification)
  rw [payloadSignal, hread]

/-- An `rpc.attach` grants what its parameters say. -/
theorem payloadSignal_attach {params payload : List UInt8} {count timeoutMs : Nat}
    (h : CallsMethod sz (text "rpc.attach") count params payload) :
    payloadSignal sz payload = .grant timeoutMs ↔ SaysOptional count params timeoutMs := by
  obtain ⟨pos, rfl, hsignal⟩ := payloadSignal_call h
  rw [hsignal, callSignal_attach, ← readOptional_eq_some]
  cases Server.readOptional (argsAt sz.sizeT payload pos count) with
  | none => simp
  | some answer => simp

/-- An `rpc.attach` whose parameter is rejected only renews. -/
theorem payloadSignal_rejected {params payload : List UInt8} {count : Nat}
    (h : CallsMethod sz (text "rpc.attach") count params payload)
    (hrejected : ∀ timeoutMs, ¬ SaysOptional count params timeoutMs) :
    payloadSignal sz payload = .renew := by
  obtain ⟨pos, rfl, hsignal⟩ := payloadSignal_call h
  rw [hsignal, callSignal_attach]
  cases hread : Server.readOptional (argsAt sz.sizeT payload pos count) with
  | none => rfl
  | some timeoutMs => exact absurd (readOptional_eq_some.mp hread) (hrejected timeoutMs)

/-- **The frames that attach** are the calls of `rpc.attach` whose parameters say a timeout. -/
theorem payloadSignal_grant {payload : List UInt8} {timeoutMs : Nat} :
    payloadSignal sz payload = .grant timeoutMs ↔
      ∃ count params, CallsMethod sz (text "rpc.attach") count params payload ∧
        SaysOptional count params timeoutMs := by
  constructor
  · intro hsignal
    by_cases hcalls : ∃ method count params, CallsMethod sz method count params payload
    · obtain ⟨method, count, params, hcall⟩ := hcalls
      by_cases hattach : method = text "rpc.attach"
      · subst hattach
        exact ⟨count, params, hcall, (payloadSignal_attach hcall).mp hsignal⟩
      · -- No other method grants.
        obtain ⟨pos, -, hother⟩ := payloadSignal_call hcall
        rw [hother, callSignal, if_neg hattach] at hsignal
        split at hsignal <;> cases hsignal
    · have hmalformed := payloadSignal_malformed fun method count params hcall =>
        hcalls ⟨method, count, params, hcall⟩
      rw [hmalformed] at hsignal
      cases hsignal
  · rintro ⟨count, params, hcall, hsays⟩
    exact (payloadSignal_attach hcall).mpr hsays

/-- **The frames that detach** are the calls of `rpc.detach`. -/
theorem payloadSignal_release {payload : List UInt8} :
    payloadSignal sz payload = .release ↔
      ∃ count params, CallsMethod sz (text "rpc.detach") count params payload := by
  constructor
  · -- A frame that releases calls something, and what it calls is `rpc.detach`.
    intro hsignal
    by_cases hcalls : ∃ method count params, CallsMethod sz method count params payload
    · obtain ⟨method, count, params, hcall⟩ := hcalls
      obtain ⟨pos, -, hmethod⟩ := payloadSignal_call hcall
      by_cases hdetach : method = text "rpc.detach"
      · subst hdetach
        exact ⟨count, params, hcall⟩
      · rw [hmethod, callSignal, if_neg hdetach] at hsignal
        split at hsignal
        · split at hsignal <;> cases hsignal
        · cases hsignal
    · have hmalformed := payloadSignal_malformed fun method count params hcall =>
        hcalls ⟨method, count, params, hcall⟩
      rw [hmalformed] at hsignal
      cases hsignal
  · -- And a call of `rpc.detach` releases.
    rintro ⟨count, params, hcall⟩
    obtain ⟨pos, -, hsignal⟩ := payloadSignal_call hcall
    rw [hsignal, callSignal_detach]

/-! ### The members of the attachment -/

/-- The members behind `attached()` and the timeout. -/
structure Attachment where
  attached : Bool
  hasTimeout : Bool
  timeoutMs : UInt32
  lastFrameMs : UInt32
deriving DecidableEq

/-- What a signal does to them at a reading of the clock. -/
def Attachment.hear (a : Attachment) (now : UInt32) : Lease.Signal → Attachment
  | .grant timeoutMs => ⟨true, decide (0 < timeoutMs), UInt32.ofNat timeoutMs, now⟩
  | .renew => { a with lastFrameMs := now }
  | .release => ⟨false, false, a.timeoutMs, now⟩
  | .withdraw => { a with attached := false, hasTimeout := false }
  | .check =>
      if a.attached ∧ a.hasTimeout ∧ a.timeoutMs ≤ now - a.lastFrameMs then
        { a with attached := false, hasTimeout := false }
      else a
  | .idle => a

/-- A call renews before it does anything else. -/
theorem hear_callSignal (a : Attachment) (now : UInt32) (method : List UInt8)
    (args : Args sz.sizeT) :
    (a.hear now .renew).hear now (callSignal method args)
      = a.hear now (callSignal method args) := by
  unfold callSignal
  split
  · split <;> rfl
  · split <;> rfl

namespace Server

/-- The members of the attachment. -/
def attachment (s : Server sz σ) : Attachment :=
  ⟨s.attached, s.attachHasTimeout, s.attachTimeoutMs, s.lastFrameMs⟩

/-- What an event is to the attachment. -/
def signal (s : Server sz σ) : Event sz σ → Lease.Signal
  | .byte b => reportSignal sz ((SerialRpc.demux sz.demuxSize).step s.demux b).2
  | .pollEnd => .check
  | .begin => .withdraw
  | _ => .idle

/-- An event at the true time `x.1`. As long as it lasts the clock reads this time modulo
`2 ^ 32`. -/
def actAt (s : Server sz σ) (x : Nat × Event sz σ) : Server sz σ :=
  { s with clock := fun _ => UInt32.ofNat x.1 }.act x.2

/-! ### What leaves the attachment alone -/

/-- What only writes leaves the attachment alone. -/
theorem Outputs.attachment {p : Sent → Prop} {s s' : Server sz σ} (h : Outputs p s s') :
    s'.attachment = s.attachment := by
  rw [h.eq]
  rfl

/-- So does a hook: the sketch cannot attach. -/
theorem runHook_attachment (s : Server sz σ) (hook : Option (Hook σ)) :
    (s.runHook hook).attachment = s.attachment := by
  unfold runHook
  cases hook with
  | none => rfl
  | some hook => exact (s.run_outputs (hook s.sketch)).attachment

/-- So does a handler. -/
theorem invoke_attachment (s : Server sz σ) (fn : Handler sz.sizeT σ) (args : Args sz.sizeT)
    (reply : Reply) : (s.invoke fn args reply).1.attachment = s.attachment :=
  (s.run_outputs (fn args s.sketch)).attachment

/-- So does a page of `rpc.list`. -/
theorem packRpcListResult_attachment (s : Server sz σ) (reply : Reply) (start : Nat) :
    (s.packRpcListResult reply start).1.attachment = s.attachment := by
  rcases s.packRpcListResult_server reply start with hsame | hcounted
  · rw [hsame]
  · rw [hcounted]
    rfl

/-- So does counting a failure. -/
theorem countFailure_attachment (answer : Server sz σ × Reply) :
    (countFailure answer).1.attachment = answer.1.attachment := by
  unfold countFailure
  split <;> rfl

/-- So does a response. -/
theorem sendResponse_attachment (s : Server sz σ) (msgid : UInt32) (reply : Reply) :
    (s.sendResponse msgid reply).attachment = s.attachment := by
  unfold sendResponse sendFrame
  dsimp only
  split <;> rfl

/-! ### One event -/

/-- `rpc.attach` starts over with the timeout. -/
theorem attach_attachment (s : Server sz σ) (timeoutMs : Nat) (reply : Reply) :
    (s.attach timeoutMs reply).1.attachment
      = s.attachment.hear (s.clock s.readings) (.grant timeoutMs) :=
  runHook_attachment _ s.onAttach

/-- `detach` gives the attachment back, and then runs its hook. -/
theorem detach_attachment (s : Server sz σ) :
    s.detach.attachment = s.attachment.hear s.lastFrameMs .release := by
  unfold detach
  dsimp only
  split
  · exact runHook_attachment _ s.onDetach
  · rfl

/-- `rpc.attach` and `rpc.detach` are built in. -/
theorem callSignal_of_not_builtin {s : Server sz σ} {method : List UInt8} {args : Args sz.sizeT}
    {reply : Reply} (h : s.dispatchBuiltin method args reply = none) :
    callSignal method args = .renew := by
  unfold dispatchBuiltin at h
  dsimp only at h
  split at h
  · cases h
  · split at h
    · split at h <;> cases h
    · split at h
      · split at h <;> cases h
      · rename_i hattach
        split at h
        · cases h
        · rename_i hdetach
          exact callSignal_other hattach hdetach args

/-- A built-in method, right after the last-frame time was stamped. -/
theorem AnswersBuiltin.attachment {s : Server sz σ} {now : UInt32} (hclock : ∀ k, s.clock k = now)
    (hlast : s.lastFrameMs = now) {method : List UInt8} {args : Args sz.sizeT} {reply : Reply}
    {answer : Server sz σ × Reply} (h : AnswersBuiltin s args reply method answer) :
    answer.1.attachment = s.attachment.hear now (callSignal method args) := by
  have hrenewed : s.attachment.hear now .renew = s.attachment := by
    rw [← hlast]
    rfl
  cases h with
  | ping => rw [callSignal_ping, hrenewed]
  | rejected hoptional hunread =>
      -- `rpc.list` never attaches, and this `rpc.attach` does not.
      have hsignal : callSignal method args = .renew := by
        rcases hoptional with rfl | rfl
        · exact callSignal_list args
        · rw [callSignal_attach, hunread]
      rw [hsignal, hrenewed]
  | list =>
      rw [callSignal_list, hrenewed]
      exact s.packRpcListResult_attachment reply _
  | attach hread =>
      rw [callSignal_attach, hread, ← hclock s.readings]
      exact s.attach_attachment _ reply
  | detach =>
      rw [callSignal_detach, ← hlast]
      exact s.detach_attachment

/-- So does every dispatch. -/
theorem dispatch_attachment (s : Server sz σ) {now : UInt32} (hclock : ∀ k, s.clock k = now)
    (hlast : s.lastFrameMs = now) (method : List UInt8) (args : Args sz.sizeT) (reply : Reply) :
    (s.dispatch method args reply).1.attachment
      = s.attachment.hear now (callSignal method args) := by
  have hrenewed : s.attachment.hear now .renew = s.attachment := by
    rw [← hlast]
    rfl
  rcases s.dispatch_cases method args reply with ⟨answer, hbuiltin, hdispatch⟩ |
    ⟨entry, hnone, -, hdispatch⟩ | ⟨hnone, -, hdispatch⟩
  · rw [hdispatch, countFailure_attachment]
    exact hbuiltin.attachment hclock hlast
  · -- A handler of the sketch cannot attach or detach.
    rw [hdispatch, countFailure_attachment, callSignal_of_not_builtin hnone, hrenewed]
    exact s.invoke_attachment entry.fn args reply
  · rw [hdispatch, callSignal_of_not_builtin hnone, hrenewed]
    rfl

/-- A frame is handled. -/
theorem handleFrame_attachment (s : Server sz σ) {now : UInt32} (hclock : ∀ k, s.clock k = now)
    (payload : List UInt8) :
    (s.handleFrame payload).attachment = s.attachment.hear now (payloadSignal sz payload) := by
  have hstamped : s.stamped.attachment = s.attachment.hear now .renew := by
    rw [← hclock s.readings]
    rfl
  -- The stamp is what the signal of the call does to the last-frame time.
  have hcall (method : List UInt8) (args : Args sz.sizeT) :
      (s.stamped.dispatch method args (newReply sz)).1.attachment
        = s.attachment.hear now (callSignal method args) := by
    rw [s.stamped.dispatch_attachment hclock (hclock s.readings), hstamped]
    exact hear_callSignal s.attachment now method args
  rw [handleFrame_eq]
  unfold receive payloadSignal
  cases readIncoming sz payload with
  | request msgid method args => exact (sendResponse_attachment _ _ _).trans (hcall method args)
  | notification method args => exact hcall method args
  | malformed => exact hstamped

/-- **What a report does to the attachment** is what its signal says. -/
theorem handleReport_attachment (s : Server sz σ) {now : UInt32} (hclock : ∀ k, s.clock k = now)
    (report : Option Report) :
    (s.handleReport report).attachment = s.attachment.hear now (reportSignal sz report) := by
  cases report with
  | none => rfl
  | some report =>
      cases report with
      | frame payload => exact s.handleFrame_attachment hclock payload
      | textLine line truncated => exact runHook_attachment s _

/-- The closing check of `poll`. -/
theorem checkAttachTimeout_attachment (s : Server sz σ) {now : UInt32}
    (hclock : ∀ k, s.clock k = now) :
    s.checkAttachTimeout.attachment = s.attachment.hear now .check := by
  unfold checkAttachTimeout nowMs Attachment.hear
  dsimp only
  rw [hclock]
  -- The timeout is on, or the check does nothing.
  by_cases htimed : (s.attached && s.attachHasTimeout) = true
  · rw [if_pos htimed]
    obtain ⟨hattached, hhas⟩ := Bool.and_eq_true_iff.mp htimed
    -- It has passed since the last frame, or not yet.
    by_cases hpassed : s.attachTimeoutMs ≤ now - s.lastFrameMs
    · have hall : s.attachment.attached = true ∧ s.attachment.hasTimeout = true ∧
          s.attachment.timeoutMs ≤ now - s.attachment.lastFrameMs := ⟨hattached, hhas, hpassed⟩
      rw [if_pos hpassed, if_pos hall]
      -- The hook does not touch the attachment.
      exact runHook_attachment _ s.onDetach
    · have hnot : ¬ (s.attachment.attached = true ∧ s.attachment.hasTimeout = true ∧
          s.attachment.timeoutMs ≤ now - s.attachment.lastFrameMs) := fun h => hpassed h.2.2
      rw [if_neg hpassed, if_neg hnot]
      rfl
  · have hnot : ¬ (s.attachment.attached = true ∧ s.attachment.hasTimeout = true ∧
        s.attachment.timeoutMs ≤ now - s.attachment.lastFrameMs) := by
      intro h
      exact htimed (Bool.and_eq_true_iff.mpr ⟨h.1, h.2.1⟩)
    rw [if_neg htimed, if_neg hnot]

/-- A notification leaves the attachment alone. -/
theorem notify_attachment (s : Server sz σ) (name : List UInt8) (args : List (List PackOp)) :
    (s.notify name args).1.attachment = s.attachment :=
  (s.notify_outputs (p := fun _ => True) name args fun _ _ => trivial).attachment

/-- So does a byte of the log. -/
theorem logByte_attachment (s : Server sz σ) (b : UInt8) :
    (s.logByte b).attachment = s.attachment := by
  have hline : Outputs (fun _ => True) s (s.emitLogLine s.logLevel s.logBuf) :=
    s.emitLogLine_outputs _ _ (fun _ _ => trivial) fun _ => ⟨trivial, trivial⟩
  exact (s.logByte_outputs b hline).attachment

/-- So does `bind`. -/
theorem bind_attachment (s : Server sz σ) (entry : Entry sz.sizeT σ) :
    (s.bind entry).attachment = s.attachment := by
  unfold bind
  split
  · rfl
  · split <;> rfl

/-- **One event** does to the attachment what its signal says. -/
theorem attachment_act (s : Server sz σ) (x : Nat × Event sz σ) :
    (s.actAt x).attachment = s.attachment.hear (UInt32.ofNat x.1) (s.signal x.2) := by
  obtain ⟨t, event⟩ := x
  let timed : Server sz σ := { s with clock := fun _ => UInt32.ofNat t }
  cases event with
  | byte b =>
      let fed : Server sz σ :=
        { timed with demux := ((SerialRpc.demux sz.demuxSize).step s.demux b).1 }
      exact fed.handleReport_attachment (fun _ => rfl) _
  | pollEnd => exact timed.checkAttachTimeout_attachment fun _ => rfl
  | notify name args => exact timed.notify_attachment name args
  | log b => exact timed.logByte_attachment b
  | bind entry => exact timed.bind_attachment entry
  | _ => rfl

/-! ### Runs -/

/-- The events of a run, each with its true time. -/
def runAt (s : Server sz σ) (run : List (Nat × Event sz σ)) : Server sz σ := run.foldl actAt s

/-- What a run is to the attachment. -/
def signals (s : Server sz σ) : List (Nat × Event sz σ) → List (Nat × Lease.Signal)
  | [] => []
  | x :: run => (x.1, s.signal x.2) :: (s.actAt x).signals run

/-- Every event has its signal, at its time. -/
theorem signals_times (s : Server sz σ) (run : List (Nat × Event sz σ)) :
    (s.signals run).map Prod.fst = run.map Prod.fst := by
  induction run generalizing s with
  | nil => rfl
  | cons x run ih => exact congrArg (x.1 :: ·) (ih (s.actAt x))

/-- **A run** does to the attachment what its signals say. -/
theorem attachment_run (s : Server sz σ) (run : List (Nat × Event sz σ)) :
    (s.runAt run).attachment
      = (s.signals run).foldl (fun a x => a.hear (UInt32.ofNat x.1) x.2) s.attachment := by
  induction run generalizing s with
  | nil => rfl
  | cons x run ih =>
      show ((s.actAt x).runAt run).attachment = _
      rw [ih, attachment_act]
      rfl

/-- A timeout is 32 bits wide. -/
theorem signal_grant_lt {s : Server sz σ} {event : Event sz σ} {timeoutMs : Nat}
    (h : s.signal event = .grant timeoutMs) : timeoutMs < 2 ^ 32 := by
  cases event with
  | byte b =>
      change reportSignal sz _ = .grant timeoutMs at h
      unfold reportSignal at h
      split at h
      · obtain ⟨count, params, -, hsays⟩ := payloadSignal_grant.mp h
        cases hsays with
        | absent => exact Nat.two_pow_pos 32
        | given _ _ _ hfits => exact hfits
      · cases h
  | _ => cases h

/-- A signal of a run is the signal of an event. -/
theorem signals_grant_lt (s : Server sz σ) (run : List (Nat × Event sz σ)) {t timeoutMs : Nat}
    (h : (t, .grant timeoutMs) ∈ s.signals run) : timeoutMs < 2 ^ 32 := by
  induction run generalizing s with
  | nil => cases h
  | cons x run ih =>
      rcases List.mem_cons.mp h with hfirst | hlater
      · have hsignal : s.signal x.2 = .grant timeoutMs := (congrArg Prod.snd hfirst).symm
        exact signal_grant_lt hsignal
      · exact ih (s.actAt x) hlater

end Server

end SerialRpc
