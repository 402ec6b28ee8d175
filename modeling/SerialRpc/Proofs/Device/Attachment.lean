import SerialRpc.Proofs.Device.Requests

/-!
# `SerialRpc.Proofs.Device.Attachment`: a detached device does not speak unasked

A frame leaves the device in `notify`, which checks `attached()`, and at the end of the
dispatch of a request. `Unasked` is what may be written at any other moment, and
`Writes Unasked` is what every piece of the code keeps: code of the sketch, hooks, the
built-in methods, the timeout and `begin`, whichever of them changes the attachment.

`Event` is what happens to a device, at the grain of one byte: `poll` is a run of it
(`poll_eq`).

* `frames_unasked`: over every run, a frame that was written is a notification of a moment
  when the device was attached, or the one response to the request that was just completed.
  While detached `notify` does nothing, and a log is text.
-/

set_option autoImplicit false

namespace SerialRpc

open MsgPack

/-- The payload of a notification. -/
def IsNotification (payload : List UInt8) : Prop :=
  ∃ name args, payload = PackOp.encodings (Server.packNotification name args)

/-- What a device may write without a request: a notification while it is attached, and
text. -/
def Unasked (attached : Bool) : Sent → Prop
  | .frame payload _ => attached = true ∧ IsNotification payload
  | .text _ => True

namespace Server

variable {sz : ServerSize} {σ : Type}

/-! ### Writes and their moments -/

/-- From `s` to `s'` more was written, and `p` holds of each write and of `attached()` at
it. -/
def Writes (p : Bool → Sent → Prop) (s s' : Server sz σ) : Prop :=
  ∃ during : List (Sent × Bool), s'.sent = s.sent ++ during.map Prod.fst ∧
    s'.attachedAt = s.attachedAt ++ during.map Prod.snd ∧ ∀ w ∈ during, p w.2 w.1

variable {p : Bool → Sent → Prop} {s s' s'' : Server sz σ}

/-- Nothing was written. -/
theorem Writes.of_eq (hsent : s'.sent = s.sent) (hattached : s'.attachedAt = s.attachedAt) :
    Writes p s s' :=
  ⟨[], by simpa using hsent, by simpa using hattached, by simp⟩

/-- Not on the way to the same state, either. -/
theorem Writes.refl (s : Server sz σ) : Writes p s s := Writes.of_eq rfl rfl

/-- What was written over two stretches. -/
theorem Writes.trans (h : Writes p s s') (h' : Writes p s' s'') : Writes p s s'' := by
  obtain ⟨before, hbefore, hat, hp⟩ := h
  obtain ⟨after, hafter, hat', hp'⟩ := h'
  refine ⟨before ++ after, by simp [hafter, hbefore], by simp [hat', hat], ?_⟩
  intro w hw
  rcases List.mem_append.mp hw with hw | hw
  · exact hp w hw
  · exact hp' w hw

/-- One write. -/
theorem Writes.of_write {x : Sent} {attached : Bool} (hsent : s'.sent = s.sent ++ [x])
    (hattached : s'.attachedAt = s.attachedAt ++ [attached]) (hx : p attached x) :
    Writes p s s' :=
  ⟨[(x, attached)], hsent, hattached, by simpa using hx⟩

/-- Each write has its moment. -/
def Timed (s : Server sz σ) : Prop := s.attachedAt.length = s.sent.length

/-- Every write still has its entry in `attachedAt`. -/
theorem Writes.timed (h : Writes p s s') (htimed : s.Timed) : s'.Timed := by
  obtain ⟨during, hsent, hat, -⟩ := h
  rw [Timed, hsent, hat, List.length_append, List.length_append, htimed, List.length_map,
    List.length_map]

/-- A write is an earlier one, or satisfies `p` with its moment. -/
theorem Writes.cases (h : Writes p s s') (htimed : s.Timed) {k : Nat} {x : Sent}
    (hx : s'.sent[k]? = some x) :
    (s.sent[k]? = some x ∧ s'.attachedAt[k]? = s.attachedAt[k]?) ∨
      s.sent.length ≤ k ∧ ∃ attached, s'.attachedAt[k]? = some attached ∧ p attached x := by
  obtain ⟨during, hsent, hat, hp⟩ := h
  rw [hsent] at hx
  rw [hat]
  rcases Nat.lt_or_ge k s.sent.length with hk | hk
  · rw [List.getElem?_append_left hk] at hx
    exact Or.inl ⟨hx, List.getElem?_append_left (htimed ▸ hk)⟩
  · rw [List.getElem?_append_right hk, List.getElem?_map, Option.map_eq_some_iff] at hx
    obtain ⟨w, hw, rfl⟩ := hx
    refine Or.inr ⟨hk, w.2, ?_, hp w (List.mem_of_getElem? hw)⟩
    rw [List.getElem?_append_right (htimed ▸ hk), htimed, List.getElem?_map, hw]
    rfl

/-- `p` allows what may be written unasked. -/
structure Permits (sz : ServerSize) (p : Bool → Sent → Prop) : Prop where
  text : ∀ attached bytes, p attached (.text bytes)
  notification : ∀ payload, payload.length ≤ sz.bufSize → IsNotification payload →
    p true (.frame payload (frameBytes payload))

/-- A notification of an attached device, and text of a detached one, are unasked writes. -/
theorem unasked_permits (sz : ServerSize) : Permits sz Unasked where
  text _ _ := trivial
  notification _ _ hnotification := ⟨rfl, hnotification⟩

/-! ### What writes a frame -/

/-- `send_frame_` writes at most the frame of the payload. -/
theorem sendFrame_writes (s : Server sz σ) {payload : List UInt8}
    (hfits : payload.length ≤ sz.bufSize)
    (hp : p s.attached (.frame payload (frameBytes payload))) :
    Writes p s (s.sendFrame payload) := by
  rw [s.sendFrame_eq hfits]
  exact Writes.of_write rfl rfl hp

/-- `notify` writes when the device is attached. -/
theorem notify_writes (hp : Permits sz p) (s : Server sz σ) (name : List UInt8)
    (args : List (List PackOp)) :
    Writes p s (s.notify name args).1 := by
  unfold notify
  split
  · exact Writes.refl s
  · rename_i hattached
    have hholds := Writer.packAll_holds s.payloadBuf s.payloadBuf.length le_rfl
      (packNotification name args)
    dsimp only
    split
    · exact Writes.of_eq rfl rfl
    · rename_i hfit
      obtain ⟨hdata, hlength⟩ := hholds.data_of_fits (by simpa using hfit)
      rw [s.payloadBuf_length] at hlength
      refine (Writes.of_eq rfl rfl).trans (sendFrame_writes _ (by rwa [hdata]) ?_)
      have hpermitted := hp.notification _ (by rwa [hdata]) ⟨name, args, hdata⟩
      rwa [← Bool.not_eq_false _ |>.mp hattached] at hpermitted

/-- A finished log line is a notification while the device is attached, and text
otherwise. -/
theorem emitLogLine_writes (hp : Permits sz p) (s : Server sz σ) (level : UInt8)
    (line : List UInt8) :
    Writes p s (s.emitLogLine level line) := by
  unfold emitLogLine
  split
  · exact notify_writes hp s _ _
  · exact (Writes.of_write rfl rfl (hp.text _ _)).trans (Writes.of_write rfl rfl (hp.text _ _))

/-- A byte of the log writes what it may. -/
theorem logByte_writes (hp : Permits sz p) (s : Server sz σ) (b : UInt8) :
    Writes p s (s.logByte b) := by
  have hflush : Writes p s s.flushLog :=
    (emitLogLine_writes hp s s.logLevel s.logBuf).trans (Writes.of_eq rfl rfl)
  unfold logByte
  split
  · exact Writes.refl s
  · split
    · exact hflush
    · split
      · exact hflush.trans (Writes.of_eq rfl rfl)
      · exact Writes.of_eq rfl rfl

/-! ### Code of the sketch and the built-in methods -/

/-- So does code of the sketch, by induction on what it does. -/
theorem run_writes {α : Type} (hp : Permits sz p) (s : Server sz σ) (script : Script α) :
    Writes p s (s.run script).1 :=
  run_induction Writes.refl Writes.trans (notify_writes hp) (fun s b _ => logByte_writes hp s b)
    (fun _ _ => Writes.of_eq rfl rfl) script.logs_any s

/-- So does a hook. -/
theorem runHook_writes (hp : Permits sz p) (s : Server sz σ) (hook : Option (Hook σ)) :
    Writes p s (s.runHook hook) := by
  unfold runHook
  cases hook with
  | none => exact Writes.refl s
  | some hook => exact (run_writes hp s (hook s.sketch)).trans (Writes.of_eq rfl rfl)

/-- So does a handler. -/
theorem invoke_writes (hp : Permits sz p) (s : Server sz σ) (fn : Handler sz.sizeT σ)
    (args : Args sz.sizeT) (reply : Reply) : Writes p s (s.invoke fn args reply).1 :=
  (run_writes hp s (fn args s.sketch)).trans (Writes.of_eq rfl rfl)

/-- `rpc.list` writes nothing. -/
theorem packRpcListResult_writes (s : Server sz σ) (reply : Reply) (start : Nat) :
    Writes p s (s.packRpcListResult reply start).1 := by
  rcases s.packRpcListResult_server reply start with hsame | hcounted
  · rw [hsame]
    exact Writes.refl s
  · rw [hcounted]
    exact Writes.of_eq rfl rfl

/-- The device is attached before the callback runs. -/
theorem attach_writes (hp : Permits sz p) (s : Server sz σ) (timeoutMs : Nat) (reply : Reply) :
    Writes p s (s.attach timeoutMs reply).1 :=
  (Writes.of_eq rfl rfl).trans (runHook_writes hp _ s.onAttach)

/-- The device is detached before the callback runs. -/
theorem detach_writes (hp : Permits sz p) (s : Server sz σ) : Writes p s s.detach := by
  unfold detach
  dsimp only
  split
  · exact (Writes.of_eq rfl rfl).trans (runHook_writes hp _ s.onDetach)
  · exact Writes.of_eq rfl rfl

/-- Counting a failure writes nothing. -/
theorem countFailure_writes {answer : Server sz σ × Reply} (h : Writes p s answer.1) :
    Writes p s (countFailure answer).1 := by
  unfold countFailure
  split
  · exact h.trans (Writes.of_eq rfl rfl)
  · exact h

/-- So does a built-in method, with the hook that it runs. -/
theorem AnswersBuiltin.writes (hp : Permits sz p) {s : Server sz σ} {method : List UInt8}
    {args : Args sz.sizeT} {reply : Reply} {answer : Server sz σ × Reply}
    (h : AnswersBuiltin s args reply method answer) : Writes p s answer.1 := by
  cases h with
  | ping => exact Writes.refl s
  | rejected => exact Writes.refl s
  | list => exact s.packRpcListResult_writes reply _
  | attach => exact attach_writes hp s _ reply
  | detach => exact detach_writes hp s

/-- A dispatch leaves the response to its caller. -/
theorem dispatch_writes (hp : Permits sz p) (s : Server sz σ) (method : List UInt8)
    (args : Args sz.sizeT) (reply : Reply) : Writes p s (s.dispatch method args reply).1 := by
  rcases s.dispatch_cases method args reply with ⟨answer, hbuiltin, hdispatch⟩ |
    ⟨entry, -, -, hdispatch⟩ | ⟨-, -, hdispatch⟩
  · rw [hdispatch]
    exact countFailure_writes (hbuiltin.writes hp)
  · rw [hdispatch]
    exact countFailure_writes (invoke_writes hp s entry.fn args reply)
  · rw [hdispatch]
    exact Writes.of_eq rfl rfl

/-! ### The main loop -/

/-- The byte completes a request, and the write with the index `k` is the response to it: the
last write of this turn, and the only one that was asked for. -/
def Responds (s : Server sz σ) (b : UInt8) (k : Nat) : Prop :=
  ∃ payload msgid method count params,
    ((SerialRpc.demux sz.demuxSize).step s.demux b).2 = some (.frame payload) ∧
    Request sz.sizeT msgid method count params payload ∧
    ∃ (t : Server sz σ) (reply : Reply), Writes Unasked s t ∧ t.sent.length = k ∧
      s.pollByte b = t.sendResponse (UInt32.ofNat msgid) reply

/-- A byte that completes no frame. -/
theorem pollByte_quiet (hp : Permits sz p) (s : Server sz σ) {b : UInt8}
    (hreport : ∀ payload,
      ((SerialRpc.demux sz.demuxSize).step s.demux b).2 ≠ some (.frame payload)) :
    Writes p s (s.pollByte b) := by
  let fed : Server sz σ := { s with demux := ((SerialRpc.demux sz.demuxSize).step s.demux b).1 }
  have hfed : Writes p s fed := Writes.of_eq rfl rfl
  cases hcase : ((SerialRpc.demux sz.demuxSize).step s.demux b).2 with
  | none =>
      have hpoll : s.pollByte b = fed := by simp only [pollByte, hcase, handleReport, fed]
      rwa [hpoll]
  | some report =>
      cases report with
      | frame payload => exact absurd hcase (hreport payload)
      | textLine line truncated =>
          have hpoll : s.pollByte b
              = fed.runHook (fed.onText.map fun hook => hook (cstr line)) := by
            simp only [pollByte, hcase, handleReport, fed]
          rw [hpoll]
          exact hfed.trans (runHook_writes hp fed _)

/-- A byte that completes a frame. -/
theorem pollByte_receives (s : Server sz σ) {b : UInt8} {payload : List UInt8}
    (hreport : ((SerialRpc.demux sz.demuxSize).step s.demux b).2 = some (.frame payload)) :
    s.pollByte b
      = { s with demux := ((SerialRpc.demux sz.demuxSize).step s.demux b).1 }.stamped.receive
          (readIncoming sz payload) := by
  rw [← handleFrame_eq]
  simp only [pollByte, hreport, handleReport]

/-- One turn of the loop of `poll`: nothing is written unasked, but for the response at the
end of a request. -/
theorem pollByte_writes (s : Server sz σ) (b : UInt8) :
    Writes Unasked s (s.pollByte b) ∨ ∃ k, s.Responds b k := by
  by_cases hframe : ∃ payload,
      ((SerialRpc.demux sz.demuxSize).step s.demux b).2 = some (.frame payload)
  · obtain ⟨payload, hreport⟩ := hframe
    let fed : Server sz σ := { s with demux := ((SerialRpc.demux sz.demuxSize).step s.demux b).1 }
    have hfed : Writes Unasked s fed.stamped := Writes.of_eq rfl rfl
    have hpoll := s.pollByte_receives hreport
    by_cases hrequest : ∃ msgid method count params,
        Request sz.sizeT msgid method count params payload
    · -- A request: what the handler writes comes before the response.
      obtain ⟨msgid, method, count, params, hrequest⟩ := hrequest
      obtain ⟨pos, hread, -⟩ := readIncoming_request hrequest
      have hdispatch := hfed.trans (dispatch_writes (unasked_permits sz) fed.stamped method
        (argsAt sz.sizeT payload pos count) (newReply sz))
      rw [hread, receive] at hpoll
      exact Or.inr ⟨_, payload, msgid, method, count, params, hreport, hrequest, _, _,
        hdispatch, rfl, hpoll⟩
    · refine Or.inl ?_
      rw [hpoll]
      -- A notification: its handler writes, and no response is behind it.
      by_cases hnotification : ∃ method count params,
          Notification sz.sizeT method count params payload
      · obtain ⟨method, count, params, hnotification⟩ := hnotification
        obtain ⟨pos, hread, -⟩ := readIncoming_notification hnotification
        rw [hread, receive]
        exact hfed.trans (dispatch_writes (unasked_permits sz) _ _ _ _)
      · -- Neither: the frame is counted and dropped.
        have hread : readIncoming sz payload = .malformed :=
          readIncoming_malformed
            (fun msgid method count params h => hrequest ⟨msgid, method, count, params, h⟩)
            (fun method count params h => hnotification ⟨method, count, params, h⟩)
        rw [hread, receive]
        exact hfed.trans (Writes.of_eq rfl rfl)
  · -- No frame ends here, so only the text hook can write.
    exact Or.inl (pollByte_quiet (unasked_permits sz) s fun payload hreport =>
      hframe ⟨payload, hreport⟩)

/-- A timeout detaches the device before the callback runs. -/
theorem checkAttachTimeout_writes (hp : Permits sz p) (s : Server sz σ) :
    Writes p s s.checkAttachTimeout := by
  unfold checkAttachTimeout
  split
  · dsimp only
    split
    · exact (Writes.of_eq rfl rfl).trans (runHook_writes hp _ _)
    · exact Writes.of_eq rfl rfl
  · exact Writes.refl s

/-! ### Runs -/

/-- What happens to a device, and what the sketch does in its main loop. -/
inductive Event (sz : ServerSize) (σ : Type) where
  /-- `poll` reads a byte. -/
  | byte (b : UInt8)
  /-- `poll` finds no more bytes. -/
  | pollEnd
  | notify (name : List UInt8) (args : List (List PackOp))
  /-- A byte written to `log`. -/
  | log (b : UInt8)
  | logAt (level : UInt8)
  | begin
  | bind (entry : Entry sz.sizeT σ)
  | onText (hook : Option (TextHook σ))
  | onAttach (hook : Option (Hook σ))
  | onDetach (hook : Option (Hook σ))
  /-- The sketch computes. -/
  | sketch (state : σ)

/-- One event. -/
def act (s : Server sz σ) : Event sz σ → Server sz σ
  | .byte b => s.pollByte b
  | .pollEnd => s.checkAttachTimeout
  | .notify name args => (s.notify name args).1
  | .log b => s.logByte b
  | .logAt level => { s with logLevel := level }
  | .begin => s.begin
  | .bind entry => s.bind entry
  | .onText hook => { s with onText := hook }
  | .onAttach hook => { s with onAttach := hook }
  | .onDetach hook => { s with onDetach := hook }
  | .sketch state => { s with sketch := state }

/-- `poll` is one event for each byte, and its end. -/
theorem poll_eq (s : Server sz σ) (available : List UInt8) :
    s.poll available = (available.map Event.byte ++ [Event.pollEnd]).foldl act s := by
  rw [List.foldl_append, List.foldl_map]
  rfl

/-- Every event writes what may be written unasked, but for a byte that completes a frame. -/
theorem act_quiet (hp : Permits sz p) (s : Server sz σ) {event : Event sz σ}
    (hquiet : ∀ b, event = .byte b → ∀ payload,
      ((SerialRpc.demux sz.demuxSize).step s.demux b).2 ≠ some (.frame payload)) :
    Writes p s (s.act event) := by
  cases event with
  | byte b => exact pollByte_quiet hp s (hquiet b rfl)
  | pollEnd => exact checkAttachTimeout_writes hp s
  | notify name args => exact notify_writes hp s name args
  | log b => exact logByte_writes hp s b
  | begin => exact Writes.of_write rfl rfl (hp.text _ _)
  | bind entry =>
      show Writes p s (s.bind entry)
      unfold bind
      split
      · exact Writes.of_eq rfl rfl
      · split <;> exact Writes.of_eq rfl rfl
  | logAt level => exact Writes.of_eq rfl rfl
  | onText hook => exact Writes.of_eq rfl rfl
  | onAttach hook => exact Writes.of_eq rfl rfl
  | onDetach hook => exact Writes.of_eq rfl rfl
  | sketch state => exact Writes.of_eq rfl rfl

/-- Every event but a byte writes what may be written unasked. -/
theorem act_writes (s : Server sz σ) (event : Event sz σ) :
    Writes Unasked s (s.act event) ∨ ∃ b k, event = .byte b ∧ s.Responds b k := by
  cases event with
  | byte b =>
      rcases s.pollByte_writes b with hwrites | ⟨k, hresponds⟩
      · exact Or.inl hwrites
      · exact Or.inr ⟨b, k, rfl, hresponds⟩
  | _ => exact Or.inl (act_quiet (unasked_permits sz) s (by rintro b ⟨⟩))

/-- The write with the index `k` of the run is the response to a request of the run. -/
def RespondsAt (s : Server sz σ) (events : List (Event sz σ)) (k : Nat) : Prop :=
  ∃ earlier b later, events = earlier ++ .byte b :: later ∧ (earlier.foldl act s).Responds b k

/-- What a run has written: each write may be written unasked, or is a response. -/
structure Told (s : Server sz σ) (events : List (Event sz σ)) : Prop where
  timed : (events.foldl act s).Timed
  writes : ∀ (k : Nat) (x : Sent), (events.foldl act s).sent[k]? = some x →
    (∃ attached, (events.foldl act s).attachedAt[k]? = some attached ∧ Unasked attached x) ∨
      s.RespondsAt events k

/-- Later events do not change which request a response was for. -/
theorem RespondsAt.append {s : Server sz σ} {events : List (Event sz σ)} {k : Nat}
    (h : s.RespondsAt events k) (more : List (Event sz σ)) : s.RespondsAt (events ++ more) k := by
  obtain ⟨earlier, b, later, rfl, hresponds⟩ := h
  exact ⟨earlier, b, later ++ more, by simp, hresponds⟩

/-- One more event. -/
theorem Told.act {s : Server sz σ} {events : List (Event sz σ)} (h : s.Told events)
    (event : Event sz σ) : s.Told (events ++ [event]) := by
  have hrun : (events ++ [event]).foldl Server.act s = (events.foldl Server.act s).act event := by
    rw [List.foldl_append]
    rfl
  -- What was written before the event.
  have hbefore : ∀ (t : Server sz σ), Writes Unasked (events.foldl Server.act s) t →
      ∀ (k : Nat) (x : Sent), t.sent[k]? = some x →
        (∃ attached, t.attachedAt[k]? = some attached ∧ Unasked attached x) ∨
          s.RespondsAt (events ++ [event]) k := by
    intro t hwrites k x hx
    rcases hwrites.cases h.timed hx with ⟨hearlier, hat⟩ | ⟨-, hnew⟩
    · rcases h.writes k x hearlier with ⟨attached, hattached, hunasked⟩ | hresponds
      · exact Or.inl ⟨attached, hat.trans hattached, hunasked⟩
      · exact Or.inr (hresponds.append [event])
    · exact Or.inl hnew
  rcases (events.foldl Server.act s).act_writes event with hwrites | ⟨b, n, rfl, hresponds⟩
  · exact ⟨hrun ▸ hwrites.timed h.timed, hrun ▸ hbefore _ hwrites⟩
  · have hat : s.RespondsAt (events ++ [.byte b]) n := ⟨events, b, [], rfl, hresponds⟩
    obtain ⟨payload, msgid, method, count, params, -, -, t, reply, hwrites, hlength, hpoll⟩ :=
      hresponds
    obtain ⟨response, -, hsent, hattached⟩ := t.sendResponse_sent (UInt32.ofNat msgid) reply
    have htimed := hwrites.timed h.timed
    have hact : (events ++ [Event.byte b]).foldl Server.act s
        = t.sendResponse (UInt32.ofNat msgid) reply := hrun.trans hpoll
    constructor
    · rw [hact, Timed, hsent, hattached, List.length_append, List.length_append, htimed]
      rfl
    · intro k x hx
      rw [hact, hsent] at hx
      rw [hact, hattached]
      rcases Nat.lt_trichotomy k t.sent.length with hk | hk | hk
      · rw [List.getElem?_append_left hk] at hx
        rw [List.getElem?_append_left (htimed ▸ hk)]
        exact hbefore t hwrites k x hx
      · rw [hk, hlength]
        exact Or.inr hat
      · rw [List.getElem?_eq_none (by simp; omega)] at hx
        cases hx

/-- **Over a whole run**, from nothing written on. -/
theorem told_run (s : Server sz σ) (hsent : s.sent = []) (hattached : s.attachedAt = [])
    (events : List (Event sz σ)) : s.Told events := by
  induction events using List.reverseRecOn with
  | nil =>
      constructor
      · rw [List.foldl_nil, Timed, hsent, hattached, List.length_nil, List.length_nil]
      · intro k x hx
        rw [List.foldl_nil, hsent] at hx
        cases hx
  | append_singleton events event ih => exact ih.act event

/-- A log of a detached device is text. -/
theorem log_detached {s : Server sz σ} (h : s.attached = false) (bytes : List UInt8) :
    Sends (fun x => ∃ line, x = .text line) s (bytes.foldl logByte s) := by
  induction bytes generalizing s with
  | nil => exact Sends.of_eq rfl
  | cons b bytes ih =>
      have hbyte : Outputs (fun x => ∃ line, x = .text line) s (s.logByte b) := by
        refine s.logByte_outputs b (s.emitLogLine_outputs _ _ ?_ fun _ => ⟨⟨_, rfl⟩, ⟨_, rfl⟩⟩)
        intro hattached
        rw [h] at hattached
        cases hattached
      exact hbyte.sent.trans (ih (hbyte.attached.trans h))

/-- **A detached device does not speak unasked.** In every run, a frame that was written is a
notification, and the device was attached when it was written, or it is the response to the
request that was just completed. A detached device refuses to notify, and logs text. -/
theorem frames_unasked (sz : ServerSize) (σ : Type) (sketch : σ) (clock : Nat → UInt32)
    (events : List (Event sz σ)) :
    (∀ (k : Nat) (payload bytes : List UInt8),
      (events.foldl act (new sz sketch clock)).sent[k]? = some (.frame payload bytes) →
        ((events.foldl act (new sz sketch clock)).attachedAt[k]? = some true ∧
            IsNotification payload) ∨
          (new sz sketch clock).RespondsAt events k) ∧
      ∀ s : Server sz σ, s.attached = false →
        (∀ name args, s.notify name args = (s, false)) ∧
          ∀ bytes : List UInt8,
            Sends (fun x => ∃ line, x = .text line) s (bytes.foldl logByte s) := by
  refine ⟨?_, ?_⟩
  · intro k payload bytes h
    rcases (told_run (new sz sketch clock) rfl rfl events).writes k _ h with
      ⟨attached, hattached, rfl, hnotification⟩ | hresponds
    · exact Or.inl ⟨hattached, hnotification⟩
    · exact Or.inr hresponds
  · intro s hdetached
    refine ⟨fun name args => ?_, log_detached hdetached⟩
    rw [notify, if_pos hdetached]

end Server

end SerialRpc
