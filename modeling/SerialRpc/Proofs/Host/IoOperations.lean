import SerialRpc.Proofs.Host.Exceptions
import SerialRpc.Proofs.Host.IoWorker

/-!
# `SerialRpc.Proofs.Host.IoOperations`: what the operations of the worker leave behind

Every command keeps `Sound`, whatever it meets and however it ends (`execute_continues`). As to
exceptions, the handlers differ. `executeNotify_handles` and its likes hold on every input, the one
of `attach_` under the condition `Contains` only, and those of a call and of the poll where the
memory is enough (`Affords`, `AffordsPoll`). Otherwise an exception comes through
(`attach_escapes`, `executeCall_escapes`, `pollTurn_escapes`).
-/

set_option autoImplicit false

namespace SerialRpc

/-! ### What an operation leaves behind -/

namespace IoWorker

/-- The port and the client come and go together, the client is one that `makeRpc` made, a worker
that says it is attached has a client that says so, too, and the last failure to open was shown. -/
structure Sound (w : IoWorker) : Prop where
  port : w.port = w.rpc.isSome
  client : ∀ c ∈ w.rpc, c.Sized ∧ c.opts.maxFrame = Options.default.maxFrame
  attached : w.attached = true → ∃ c ∈ w.rpc, c.attached = true
  shown : w.lastOpenError = [] ∨ .openFailed w.lastOpenError ∈ w.emitted

/-- An operation leaves a sound state, and keeps the flag of the port right. -/
structure Continues (w w' : IoWorker) : Prop where
  sound : w'.Sound
  connected : w.connected = w.port → w'.connected = w'.port

/-- Doing nothing continues. -/
theorem Continues.refl {w : IoWorker} (h : w.Sound) : Continues w w := ⟨h, id⟩

/-- Two operations in a row are one. -/
theorem Continues.trans {w w' w'' : IoWorker} (h : Continues w w') (h' : Continues w' w'') :
    Continues w w'' where
  sound := h'.sound
  connected hflag := h'.connected (h.connected hflag)

section

variable {w : IoWorker} {c : RPC}

/-- The thread starts in a sound state. -/
theorem start_sound (callTimeout : Nat) : (start callTimeout).Sound where
  port := rfl
  client := by rintro c ⟨⟩
  attached := by rintro ⟨⟩
  shown := Or.inl rfl

/-- Showing something continues. -/
theorem emit_continues (h : w.Sound) (x : Emission) : Continues w (w.emit x) where
  sound :=
    ⟨h.port, h.client, h.attached, h.shown.imp id fun hmem => List.mem_append_left _ hmem⟩
  connected := id

/-- The client was used. -/
theorem used_continues (h : w.Sound) (hrpc : w.rpc = some c) {c' : RPC} (hsized : c'.Sized)
    (hopts : c'.opts = c.opts) (hattached : c'.attached = c.attached) (bytes : List UInt8) :
    Continues w (w.used c' bytes) where
  sound := by
    refine ⟨h.port.trans (by rw [hrpc]; rfl), ?_, ?_, h.shown⟩
    · intro c'' hc''
      obtain rfl := Option.some.inj hc''
      exact ⟨hsized, hopts ▸ (h.client c hrpc).2⟩
    · intro hflag
      obtain ⟨c'', hc'', hclient⟩ := h.attached hflag
      obtain rfl := Option.some.inj (hrpc.symm.trans hc'')
      exact ⟨c', rfl, hattached.trans hclient⟩
  connected := id

/-- The port was closed, with all flags. -/
theorem handleIoError_continues (w : IoWorker) (what : String) :
    Continues w (w.handleIoError what) where
  sound :=
    { port := rfl
      client := by rintro c ⟨⟩
      attached := by rintro ⟨⟩
      shown := Or.inl rfl }
  connected _ := rfl

/-- A client that has sent something and kept its options is put back. -/
theorem sent_continues (h : w.Sound) (hrpc : w.rpc = some c) {c' : RPC} (hsized : c'.Sized)
    (hopts : c'.opts = c.opts) (hattached : c'.attached = c.attached) (bytes : List UInt8)
    (thrown : Option HostError) : Continues w (w.sent c' bytes thrown) := by
  have hused := used_continues h hrpc hsized hopts hattached bytes
  cases thrown with
  | none => exact hused
  | some e =>
      -- The message first, and behind an `IoError` the port is closed, too.
      have hshown := hused.trans (emit_continues hused.sound (.error e))
      cases e with
      | io what => exact hshown.trans (handleIoError_continues _ what)
      | _ => exact hshown

/-- A call leaves the thread sound, whatever it ends with. -/
theorem executeCall_continues (h : w.Sound) (method : List UInt8) (args : List Value)
    (exchange : RPC.Exchange) (memory : Memory) :
    Continues w (w.executeCall method args exchange memory).1 := by
  rw [executeCall]
  -- Without a client the call is refused, and the refusal is shown.
  cases hrpc : w.rpc with
  | none => exact emit_continues h _
  | some c =>
      have hlater := RPC.callValues_later (h.client c hrpc).1 exchange.write method args
        exchange.start exchange.attempts memory
      have hstarted := emit_continues h (.call method args)
      simp only
      rcases hcall : c.callValues exchange.write method args exchange.start exchange.attempts
        memory with ⟨c', bytes, outcome⟩
      rw [hcall] at hlater
      have hused := hstarted.trans
        (used_continues hstarted.sound hrpc hlater.sized hlater.opts hlater.attached bytes)
      -- What the call ended with is shown, and behind an `IoError` the port is closed.
      cases outcome with
      | returned v => exact hused.trans (emit_continues hused.sound _)
      | waiting => exact hused
      | threw e =>
          have hshown := hused.trans (emit_continues hused.sound (.error e))
          cases e with
          | io what => exact hshown.trans (handleIoError_continues _ what)
          | badAlloc => exact hused
          | _ => exact hshown

/-- So does a notification. -/
theorem executeNotify_continues (h : w.Sound) (method : List UInt8) (args : List Value)
    (write : Nat → Int) : Continues w (w.executeNotify method args write).1 := by
  rw [executeNotify]
  cases hrpc : w.rpc with
  | none => exact emit_continues h _
  | some c =>
      have hlater := RPC.notifyValues_later (h.client c hrpc).1 write method args
      have hstarted := emit_continues h (.notify method args)
      exact hstarted.trans
        (sent_continues hstarted.sound hrpc hlater.sized hlater.opts hlater.attached _ _)

/-- So does a line of text. -/
theorem executeSendText_continues (h : w.Sound) (line : List UInt8) (write : Nat → Int) :
    Continues w (w.executeSendText line write).1 := by
  rw [executeSendText]
  cases hrpc : w.rpc with
  | none => exact emit_continues h _
  | some c =>
      have hstarted := emit_continues h (.text line)
      exact hstarted.trans
        (sent_continues hstarted.sound hrpc (h.client c hrpc).1 rfl rfl _ _)

/-- So does the listing of the methods. -/
theorem refreshMethods_continues (h : w.Sound) (print : Bool) (pages : List RPC.Exchange)
    (memory : Memory) : Continues w (w.refreshMethods print pages memory).1 := by
  rw [refreshMethods]
  cases hrpc : w.rpc with
  | none => exact Continues.refl h
  | some c =>
      obtain ⟨count, hlater⟩ := RPC.list_later (h.client c hrpc).1 pages memory
      simp only
      rcases hlist : c.list pages memory with ⟨l, outcome⟩
      rw [hlist] at hlater
      have hused := used_continues h hrpc hlater.sized hlater.opts hlater.attached
        l.requests.flatten
      -- The table is printed when it was asked for, and the methods are passed on in any case.
      cases outcome with
      | returned methods =>
          cases print with
          | true =>
              have hprinted := hused.trans (emit_continues hused.sound (.table methods))
              exact hprinted.trans (emit_continues hprinted.sound _)
          | false => exact hused.trans (emit_continues hused.sound _)
      | threw e => exact hused.trans (emit_continues hused.sound _)
      | waiting => exact hused

/-- An attached client, and the flag that says so. -/
theorem attached_continues (h : w.Sound) (hrpc : w.rpc = some c) {c' : RPC} (hsized : c'.Sized)
    (hopts : c'.opts = c.opts) (hattached : c'.attached = true) (bytes : List UInt8) :
    Continues w { w.used c' bytes with attached := true } where
  sound := by
    refine ⟨h.port.trans (by rw [hrpc]; rfl), ?_, fun _ => ⟨c', rfl, hattached⟩, h.shown⟩
    intro c'' hc''
    obtain rfl := Option.some.inj hc''
    exact ⟨hsized, hopts ▸ (h.client c hrpc).2⟩
  connected := id

/-- A client that may be another, and the flag that says that it is not attached. -/
theorem detached_continues (h : w.Sound) (hrpc : w.rpc = some c) {c' : RPC} (hsized : c'.Sized)
    (hopts : c'.opts.maxFrame = c.opts.maxFrame) (bytes : List UInt8) (callTimeout : Nat) :
    Continues w { w.used c' bytes with callTimeout := callTimeout, attached := false } where
  sound := by
    refine ⟨h.port.trans (by rw [hrpc]; rfl), ?_, by rintro ⟨⟩, h.shown⟩
    intro c'' hc''
    obtain rfl := Option.some.inj hc''
    exact ⟨hsized, hopts.trans (h.client c hrpc).2⟩
  connected := id

/-- So does an attach, with the flush, the listing and the roll-back it may take. -/
theorem attach_continues (h : w.Sound) (env : Attaching) (memory : Memory) :
    Continues w (w.attach env memory).1 := by
  rw [attach]
  cases hrpc : w.rpc with
  | none =>
      cases env.flush <;> exact emit_continues h _
  | some c =>
      have hsized := (h.client c hrpc).1
      cases env.flush with
      | some what =>
          -- The exception comes behind the reset of the demultiplexer.
          have hreset : RPC.Sized { c with demux := c.demux.reset } :=
            ⟨hsized.payload, hsized.frame⟩
          have hused := used_continues h hrpc hreset rfl rfl []
          rwa [used, List.append_nil] at hused
      | none =>
          obtain ⟨hsized', hopts, hconnected, hfailed⟩ := RPC.connect_kept hsized
            temporaryCallback env.deadline env.probes env.exchange memory
          simp only
          rcases hconnect : c.connect temporaryCallback env.deadline env.probes env.exchange memory
            with ⟨c', bytes, outcome⟩
          rw [hconnect] at hsized' hopts hconnected hfailed
          cases outcome with
          | connected =>
              -- The client says it is attached before the worker does.
              have hattached := attached_continues h hrpc hsized' hopts (hconnected rfl) bytes
              have hshown := hattached.trans (emit_continues hattached.sound .attached)
              exact hshown.trans (refreshMethods_continues hshown.sound false env.pages memory)
          | waiting => exact used_continues h hrpc hsized' hopts (hfailed (by rintro ⟨⟩)) bytes
          | threw e =>
              have hused := used_continues h hrpc hsized' hopts (hfailed (by rintro ⟨⟩)) bytes
              cases e with
              | timeout what => exact hused.trans (emit_continues hused.sound _)
              | io what => exact hused.trans (handleIoError_continues _ what)
              | _ => exact hused

/-- So does a detach. -/
theorem executeDetach_continues (h : w.Sound) (write : Nat → Int) :
    Continues w (w.executeDetach write).1 := by
  rw [executeDetach]
  cases hrpc : w.rpc with
  | none => exact emit_continues h _
  | some c =>
      obtain ⟨hsized, hopts, hattached⟩ := RPC.disconnect_kept (h.client c hrpc).1 write
      simp only
      rcases hdisconnect : c.disconnect write with ⟨c', bytes, thrown⟩
      rw [hdisconnect] at hsized hopts hattached
      cases thrown with
      | none =>
          -- The flag follows the client.
          have hdetached := detached_continues h hrpc hsized (congrArg Options.maxFrame hopts) bytes
            w.callTimeout
          exact hdetached.trans (emit_continues hdetached.sound _)
      | some e =>
          have hused := used_continues h hrpc hsized hopts (hattached (by rintro ⟨⟩)) bytes
          cases e with
          | io what =>
              have hshown := hused.trans (emit_continues hused.sound (.error (.io what)))
              exact hshown.trans (handleIoError_continues _ what)
          | _ => exact hused

/-- So does the command that lists the methods. -/
theorem executeList_continues (h : w.Sound) (pages : List RPC.Exchange) (memory : Memory) :
    Continues w (w.executeList pages memory).1 := by
  rw [executeList]
  cases w.rpc with
  | none => exact emit_continues h _
  | some c => exact refreshMethods_continues h true pages memory

/-- So does the replacement of the client by one with another timeout. -/
theorem rebuild_continues (h : w.Sound) (hrpc : w.rpc = some c) (value : Nat)
    (write : Nat → Int) : Continues w (w.rebuild c value write) :=
  detached_continues h hrpc (makeRpc_sized value) (h.client c hrpc).2.symm _ value

/-- So does the command that sets the timeout. -/
theorem executeSetTimeout_continues (h : w.Sound) (value : Nat) (write : Nat → Int)
    (env : Attaching) (memory : Memory) :
    Continues w (w.executeSetTimeout value write env memory).1 := by
  rw [executeSetTimeout]
  -- Without a client the value is only noted. With one it takes a new client, and perhaps an
  -- attach.
  cases hrpc : w.rpc with
  | none =>
      have hnoted : Continues w { w with callTimeout := value } :=
        ⟨⟨h.port, h.client, h.attached, h.shown⟩, id⟩
      have hshown := hnoted.trans (emit_continues hnoted.sound (.timeoutNoted value))
      rwa [hrpc] at hshown
  | some c =>
      have hrebuilt := rebuild_continues h hrpc value write
      have hshown := hrebuilt.trans (emit_continues hrebuilt.sound (.timeoutSet value))
      cases hattached : w.attached with
      | false => exact hshown
      | true => exact hshown.trans (attach_continues hshown.sound env memory)

/-- So does a turn of polling. -/
theorem pollTurn_continues (h : w.Sound) (deadline : Nat) (turns : List RPC.PollTurn)
    (memory : Memory) : Continues w (w.pollTurn deadline turns memory).1 := by
  rw [pollTurn]
  cases hrpc : w.rpc with
  | none => exact Continues.refl h
  | some c =>
      have hlater := RPC.poll_later (h.client c hrpc).1 deadline turns memory
      simp only
      rcases hpoll : c.poll deadline turns memory with ⟨c', outcome⟩
      rw [hpoll] at hlater
      have hused := used_continues h hrpc hlater.sized hlater.opts hlater.attached []
      cases outcome with
      | returned events => exact hused
      | waiting => exact hused
      -- An `IoError` closes the port. The other errors are shown or go on.
      | threw e =>
          cases e with
          | io what => exact hused.trans (handleIoError_continues _ what)
          | protocol e => exact hused.trans (emit_continues hused.sound _)
          | _ => exact hused

/-- Closing leaves a sound state, without port and client. -/
theorem close_continues (h : w.Sound) (env : Closing) : Continues w (w.close env) where
  sound :=
    { port := rfl
      client := by rintro c ⟨⟩
      attached := by rintro ⟨⟩
      shown := h.shown }
  connected _ := rfl

/-- So does a reset, soft or hard. -/
theorem executeReset_continues (h : w.Sound) (settings : Settings) (hard : Bool)
    (env : Resetting) (memory : Memory) :
    Continues w (w.executeReset settings hard env memory).1 := by
  rw [executeReset]
  -- A hard reset closes the port whatever the touch does. A soft one attaches again if it may.
  cases hard with
  | true =>
      have htouching := emit_continues h .touching
      have hclosed := htouching.trans (close_continues htouching.sound env.closing)
      simp only [if_true]
      cases env.touch with
      | none => exact hclosed
      | some what => exact hclosed.trans (emit_continues hclosed.sound _)
  | false =>
      simp only [Bool.false_eq_true, if_false]
      split
      · cases env.dtr with
        | some what => exact Continues.refl h
        | none =>
            have hpulsed := emit_continues h .dtrPulsed
            simp only
            split
            · exact hpulsed.trans (attach_continues hpulsed.sound env.attaching memory)
            · exact hpulsed
      · exact emit_continues h _

/-- Whatever a command does. -/
theorem execute_continues (h : w.Sound) (settings : Settings) (command : Command)
    (memory : Memory) : Continues w (w.execute settings command memory).1 := by
  cases command with
  | call method args exchange => exact executeCall_continues h method args exchange memory
  | notify method args write => exact executeNotify_continues h method args write
  | sendText line write => exact executeSendText_continues h line write
  | attach env => exact attach_continues h env memory
  | detach write => exact executeDetach_continues h write
  | list pages => exact executeList_continues h pages memory
  | reset hard env => exact executeReset_continues h settings hard env memory
  | reconnect env =>
      have hclosed := close_continues h env
      exact hclosed.trans (emit_continues hclosed.sound .reconnecting)
  | setTimeout value write env => exact executeSetTimeout_continues h value write env memory

end

/-! ### Failures, and what is shown of them -/

/-- An exception that `attach_` catches. -/
def attachCatches : HostError → Bool
  | .timeout _ => true
  | .io _ => true
  | _ => false

/-- `attach_` with this client lets nothing through: `flush_input` does not fail, and what comes
of the pings and of `rpc.attach` is no exception but a timeout or an `IoError`. -/
def Contains (c : RPC) (env : Attaching) (memory : Memory := .unlimited) : Prop :=
  env.flush = none ∧
    ∀ e, RPC.hearConnect c.opts env.deadline c.nextMsgid c.demux.reset env.probes env.exchange
      memory = .threw e → attachCatches e = true

/-- The memory is enough for what a call with this client reads. -/
def Affords (c : RPC) (method : List UInt8) (args : List Value) (exchange : RPC.Exchange)
    (memory : Memory) : Prop :=
  (RPC.hearRequest c.opts.maxFrame exchange.write c.nextMsgid method args
    (exchange.start + c.opts.timeout) c.demux exchange.attempts memory).ending ≠ .failed .badAlloc

/-- The memory is enough for what `poll` reads. -/
def AffordsPoll (c : RPC) (deadline : Nat) (turns : List RPC.PollTurn) (memory : Memory) : Prop :=
  RPC.hearPoll deadline c.demux turns memory ≠ some .badAlloc

/-- The failure of an operation of the client, if there is one. -/
def callFailure (outcome : RPC.CallOutcome) : Option Thrown :=
  match outcome with
  | .threw e => some (.host e)
  | _ => none

def listFailure (outcome : ListOutcome) : Option Thrown :=
  match outcome with
  | .threw e => some (.host e)
  | _ => none

def pollFailure (outcome : RPC.PollOutcome) : Option Thrown :=
  match outcome with
  | .threw e => some (.host e)
  | _ => none

/-- What fails in `attach_` with this client. -/
def attachFailure (c : RPC) (env : Attaching) (memory : Memory := .unlimited) : Option Thrown :=
  match env.flush with
  | some what => some (.system what)
  | none =>
      match c.connect temporaryCallback env.deadline env.probes env.exchange memory with
      | (c, _, .connected) => listFailure (c.list env.pages memory).2
      | (_, _, .threw e) => some (.host e)
      | (_, _, .waiting) => none

/-- What is shown says what failed. -/
inductive Tells (g17 : UInt64 → List UInt8) : Emission → Thrown → Prop where
  | error (e : HostError) : Tells g17 (.error e) (.host e)
  | attachFailed (what : List UInt8) : Tells g17 (.attachFailed what) (.host (.timeout what))
  | ioError (what : String) : Tells g17 (.ioError what) (.host (.io what))
  | listFailed (e : HostError) : Tells g17 (.listFailed e) (.host e)
  | protocolError (e : ProtocolError) : Tells g17 (.protocolError e) (.host (.protocol e))
  | openFailed (e : Thrown) : Tells g17 (.openFailed (e.what g17)) e
  | touchFailed (e : Thrown) : Tells g17 (.touchFailed (e.what g17)) e

/-- Something new is shown, and it says what failed. -/
def Shows (g17 : UInt64 → List UInt8) (w w' : IoWorker) (e : Thrown) : Prop :=
  ∃ more, w'.emitted = w.emitted ++ more ∧ ∃ x ∈ more, Tells g17 x e

/-- An operation lets no exception through, and of its failure, if there is one, something is
shown, and the thread goes on. -/
structure Handles (g17 : UInt64 → List UInt8) (w : IoWorker) (result : IoWorker × Ended)
    (failure : Option Thrown) : Prop where
  contained : ∀ e, result.2 ≠ .threw e
  shown : ∀ e ∈ failure, result.2 = .returned ∧ Shows g17 w result.1 e

section

variable {g17 : UInt64 → List UInt8} {w w' : IoWorker} {c : RPC}

/-- Nothing failed. -/
theorem Handles.returned : Handles g17 w (w', .returned) none where
  contained := by rintro e ⟨⟩
  shown := by rintro e ⟨⟩

/-- Nothing failed so far. -/
theorem Handles.waiting : Handles g17 w (w', .waiting) none where
  contained := by rintro e ⟨⟩
  shown := by rintro e ⟨⟩

/-- What is shown between `before` and `after` says what failed. -/
theorem Handles.told {e : Thrown} (before : List Emission) {x : Emission}
    (htells : Tells g17 x e) (after : List Emission)
    (hemitted : w'.emitted = w.emitted ++ (before ++ x :: after)) :
    Handles g17 w (w', .returned) (some e) where
  contained := by rintro e ⟨⟩
  shown := by
    intro e' he'
    obtain rfl := Option.some.inj he'
    exact ⟨rfl, _, hemitted, x, List.mem_append_right _ List.mem_cons_self, htells⟩

/-- Something else was shown before. -/
theorem Handles.after {result : IoWorker × Ended} {failure : Option Thrown}
    (h : Handles g17 w' result failure) (first : List Emission)
    (hfirst : w'.emitted = w.emitted ++ first) : Handles g17 w result failure where
  contained := h.contained
  shown := by
    intro e he
    obtain ⟨hreturned, more, hmore, x, hx, htells⟩ := h.shown e he
    exact ⟨hreturned, first ++ more, by rw [hmore, hfirst, List.append_assoc], x,
      List.mem_append_right _ hx, htells⟩

/-- A call throws `std::bad_alloc` when the memory is not enough for what it reads. -/
theorem callValues_badAlloc_iff (h : c.Sized) (method : List UInt8) (args : List Value)
    (exchange : RPC.Exchange) (memory : Memory) :
    (c.callValues exchange.write method args exchange.start exchange.attempts memory).2.2
        = .threw .badAlloc ↔ ¬ Affords c method args exchange memory := by
  rw [RPC.callValues_hear h _ _ _ _ _ memory, Affords, not_not]
  generalize (RPC.hearRequest c.opts.maxFrame exchange.write c.nextMsgid method args
    (exchange.start + c.opts.timeout) c.demux exchange.attempts memory).ending = ending
  cases ending with
  | answered isError value => cases isError <;> simp [Ending.callOutcome]
  | _ => simp [Ending.callOutcome]

/-- A call whose memory suffices handles its failure. -/
theorem executeCall_handles (h : w.Sound) (method : List UInt8) (args : List Value)
    (exchange : RPC.Exchange) {memory : Memory}
    (hroom : ∀ c ∈ w.rpc, Affords c method args exchange memory) :
    Handles g17 w (w.executeCall method args exchange memory)
      (w.rpc.bind fun c =>
        callFailure (c.callValues exchange.write method args exchange.start exchange.attempts
          memory).2.2) := by
  rw [executeCall]
  cases hrpc : w.rpc with
  | none => exact .returned
  | some c =>
      have hfine := (callValues_badAlloc_iff (h.client c hrpc).1 method args exchange
        memory).not.mpr (not_not.mpr (hroom c hrpc))
      simp only [Option.bind_some]
      rcases hcall : c.callValues exchange.write method args exchange.start exchange.attempts
        memory with ⟨c', bytes, v | e | _⟩ <;> rw [hcall] at hfine
      · exact .returned
      · -- The other four kinds are caught.
        cases e with
        | io what =>
            exact .told [.call method args] (.error (.io what)) [.ioError what]
              (by simp [emit, used, handleIoError])
        | badAlloc => exact absurd rfl hfine
        | _ => exact .told [.call method args] (.error _) [] (by simp [emit, used])
      · exact .waiting

/-- A call that reads more than the memory is enough for ends the thread. -/
theorem executeCall_escapes (h : w.Sound) (hrpc : w.rpc = some c) (method : List UInt8)
    (args : List Value) (exchange : RPC.Exchange) {memory : Memory}
    (hlacks : ¬ Affords c method args exchange memory) :
    (w.executeCall method args exchange memory).2 = .threw (.host .badAlloc) := by
  have hbad := (callValues_badAlloc_iff (h.client c hrpc).1 method args exchange memory).mpr hlacks
  rw [executeCall, hrpc]
  simp only
  rcases hcall : c.callValues exchange.write method args exchange.start exchange.attempts memory
    with ⟨c', bytes, outcome⟩
  rw [hcall] at hbad
  obtain rfl : outcome = .threw .badAlloc := hbad
  rfl

/-- The worker after an operation without a result. -/
theorem sent_handles (c' : RPC) (bytes : List UInt8) (thrown : Option HostError) :
    Handles g17 w (w.sent c' bytes thrown, .returned) (thrown.map .host) := by
  cases thrown with
  | none => exact .returned
  | some e =>
      cases e with
      | io what =>
          exact .told [] (.error (.io what)) [.ioError what]
            (by simp [sent, emit, used, handleIoError])
      | _ => exact .told [] (.error _) [] (by simp [sent, emit, used])

/-- A notification handles its failure. -/
theorem executeNotify_handles (method : List UInt8) (args : List Value) (write : Nat → Int) :
    Handles g17 w (w.executeNotify method args write)
      (w.rpc.bind fun c => (c.notifyValues write method args).2.2.map .host) := by
  rw [executeNotify]
  cases hrpc : w.rpc with
  | none => exact .returned
  | some c => exact (sent_handles _ _ _).after [_] rfl

/-- A line of text handles its failure. -/
theorem executeSendText_handles (line : List UInt8) (write : Nat → Int) :
    Handles g17 w (w.executeSendText line write)
      (w.rpc.bind fun _ => (RPC.sendText write line).2.map .host) := by
  rw [executeSendText]
  cases hrpc : w.rpc with
  | none => exact .returned
  | some c => exact (sent_handles _ _ _).after [_] rfl

/-- The listing of the methods handles its failure. -/
theorem refreshMethods_handles (hrpc : w.rpc = some c) (print : Bool)
    (pages : List RPC.Exchange) (memory : Memory) :
    Handles g17 w (w.refreshMethods print pages memory)
      (listFailure (c.list pages memory).2) := by
  rw [refreshMethods, hrpc]
  simp only
  rcases c.list pages memory with ⟨l, methods | e | _⟩
  · exact .returned
  · exact .told [] (.listFailed e) [] (by simp [emit, used])
  · exact .waiting

/-- The command that lists the methods handles its failure, and does nothing on a closed port. -/
theorem executeList_handles (pages : List RPC.Exchange) (memory : Memory) :
    Handles g17 w (w.executeList pages memory)
      (w.rpc.bind fun c => listFailure (c.list pages memory).2) := by
  rw [executeList]
  cases hrpc : w.rpc with
  | none => exact .returned
  | some c => exact refreshMethods_handles hrpc true pages memory

/-- A detach handles its failure. -/
theorem executeDetach_handles (h : w.Sound) (write : Nat → Int) :
    Handles g17 w (w.executeDetach write)
      (w.rpc.bind fun c => (c.disconnect write).2.2.map .host) := by
  rw [executeDetach]
  cases hrpc : w.rpc with
  | none => exact .returned
  | some c =>
      obtain ⟨hsized, hmaxFrame⟩ := h.client c hrpc
      simp only [Option.bind_some]
      rcases hdisconnect : c.disconnect write with ⟨c', bytes, _ | e⟩
      · exact .returned
      · -- No `ProtocolError`: the handler would not catch it.
        obtain ⟨what, rfl⟩ := RPC.disconnect_threw hsized hmaxFrame
          (congrArg (fun result => result.2.2) hdisconnect)
        exact .told [] (.error (.io what)) [.ioError what]
          (by simp [emit, used, handleIoError])

/-- A turn of polling whose memory suffices handles its failure. -/
theorem pollTurn_handles (deadline : Nat) (turns : List RPC.PollTurn) {memory : Memory}
    (hroom : ∀ c ∈ w.rpc, AffordsPoll c deadline turns memory) :
    Handles g17 w (w.pollTurn deadline turns memory)
      (w.rpc.bind fun c => pollFailure (c.poll deadline turns memory).2) := by
  rw [pollTurn]
  cases hrpc : w.rpc with
  | none => exact .returned
  | some c =>
      simp only [Option.bind_some]
      rcases hpoll : c.poll deadline turns memory with ⟨c', events | e | _⟩
      · exact .returned
      · -- The two kinds that the main loop catches.
        have hthrew := (RPC.poll_hear c deadline turns memory e).mp (congrArg Prod.snd hpoll)
        rcases RPC.hearPoll_errors hthrew with ⟨what, rfl⟩ | rfl | ⟨p, rfl⟩
        · exact .told [] (.ioError what) [] (by simp [emit, used, handleIoError])
        · exact absurd hthrew (hroom c hrpc)
        · exact .told [] (.protocolError p) [] (by simp [emit, used])
      · exact .waiting

/-- A poll that reads more than the memory is enough for ends the thread. -/
theorem pollTurn_escapes (hrpc : w.rpc = some c) (deadline : Nat) (turns : List RPC.PollTurn)
    {memory : Memory} (hlacks : ¬ AffordsPoll c deadline turns memory) :
    (w.pollTurn deadline turns memory).2 = .threw (.host .badAlloc) := by
  have hbad := (RPC.poll_hear c deadline turns memory .badAlloc).mpr (not_not.mp hlacks)
  rw [pollTurn, hrpc]
  simp only
  rcases hpoll : c.poll deadline turns memory with ⟨c', outcome⟩
  rw [hpoll] at hbad
  obtain rfl : outcome = .threw .badAlloc := hbad
  rfl

/-- `attach_` handles whatever fails, under the condition. -/
theorem attach_handles (h : w.Sound) (hrpc : w.rpc = some c) {env : Attaching} {memory : Memory}
    (hcontains : Contains c env memory) :
    Handles g17 w (w.attach env memory) (attachFailure c env memory) := by
  -- The condition is about what arrives, and so about what `connect` throws.
  obtain ⟨hflush, hcaught⟩ := hcontains
  rw [← RPC.connect_hear (h.client c hrpc).1 temporaryCallback _ _ _ memory] at hcaught
  rw [attach, attachFailure, hrpc, hflush]
  simp only
  rcases hconnect : c.connect temporaryCallback env.deadline env.probes env.exchange memory with
    ⟨c', bytes, _ | e | _⟩ <;> rw [hconnect] at hcaught
  · exact (refreshMethods_handles rfl false env.pages memory).after [.attached]
      (by simp [emit, used])
  · have he := hcaught e rfl
    cases e with
    | timeout what =>
        exact .told [] (.attachFailed what) [] (by simp [emit, used])
    | io what =>
        exact .told [] (.ioError what) [] (by simp [emit, used, handleIoError])
    | protocol p => cases he
    | remote method v => cases he
    | badAlloc => cases he
  · exact .waiting

/-- Otherwise an exception comes through, and it has a text. The flags are as they were. -/
theorem attach_escapes (h : w.Sound) (hrpc : w.rpc = some c) {env : Attaching} {memory : Memory}
    (hcontains : ¬ Contains c env memory) :
    ∃ e c' bytes, w.attach env memory = (w.used c' bytes, .threw e) ∧ e.HasText ∧
      attachFailure c env memory = some e := by
  rw [attach, attachFailure, hrpc]
  -- The flush throws before anything is sent, and `attach_` catches nothing there.
  cases hflush : env.flush with
  | some what =>
      refine ⟨.system what, { c with demux := c.demux.reset }, [], ?_,
        Thrown.system_hasText what, rfl⟩
      rw [used, List.append_nil]
  | none =>
      have hconnect := RPC.connect_hear (h.client c hrpc).1 temporaryCallback env.deadline
        env.probes env.exchange memory
      rw [Contains] at hcontains
      push Not at hcontains
      -- Else `connect` throws, and what it throws is one of the two that `attach_` lets through.
      obtain ⟨e, he, huncaught⟩ := hcontains hflush
      rcases hresult : c.connect temporaryCallback env.deadline env.probes env.exchange memory with
        ⟨c', bytes, outcome⟩
      rw [hresult, he] at hconnect
      obtain rfl : outcome = .threw e := hconnect
      simp only [hresult]
      refine ⟨.host e, c', bytes, ?_, RPC.hearConnect_hasText he, rfl⟩
      -- Timeouts and I/O errors are caught, so it is not one of these.
      cases e with
      | timeout what => exact absurd rfl huncaught
      | io what => exact absurd rfl huncaught
      | protocol p => rfl
      | remote method v => rfl
      | badAlloc => rfl

end

end IoWorker

end SerialRpc
