import SerialRpc.Device.Server

/-!
# `SerialRpc.Proofs.Device.Sending`: what the device puts on the wire

* `sendFrame_eq`: a payload of at most `BufSize` bytes is sent as its frame.
* `run_induction`: what `notify`, `log` and `log_at` keep, code of the sketch keeps.
* `run_outputs`: code of the sketch changes the buffers, the log line and what was sent,
  and nothing else, and what it sends is no response.
-/

set_option autoImplicit false

namespace SerialRpc

/-- Every byte the script logs satisfies `ok`, whatever the server answers. -/
def Script.Logs {α : Type} (ok : UInt8 → Prop) : Script α → Prop
  | .done _ => True
  | .notify _ _ next => ∀ sent, (next sent).Logs ok
  | .log bytes next => (∀ b ∈ bytes, ok b) ∧ next.Logs ok
  | .logAt _ next => next.Logs ok
  | .attached next => ∀ answer, (next answer).Logs ok

/-- Nothing is asked of the bytes. -/
theorem Script.logs_any {α : Type} (script : Script α) : script.Logs fun _ => True := by
  induction script with
  | done a => trivial
  | notify name args next ih => exact ih
  | log bytes next ih => exact ⟨fun _ _ => trivial, ih⟩
  | logAt lvl next ih => exact ih
  | attached next ih => exact ih

variable {sz : ServerSize} {σ : Type}

/-- A frame whose payload starts like a response: an array of four, and the type 1. -/
def Sent.IsResponse : Sent → Prop
  | .frame payload _ =>
      ∃ head type rest, payload = head ++ type ++ rest ∧ MsgPack.Spells (.array 4) head ∧
        MsgPack.Spells (.int 1) type
  | .text _ => False

/-- A notification is no response. -/
theorem not_isResponse (bs : List UInt8) :
    ¬ (Sent.frame (0x93 :: 0x02 :: bs) (frameBytes (0x93 :: 0x02 :: bs))).IsResponse := by
  rintro ⟨head, type, rest, hpayload, four, -⟩
  have hfour := MsgPack.token_append four (type ++ rest)
  rw [← List.append_assoc, ← hpayload, MsgPack.token_value
    (show MsgPack.lead 0x93 = .value (.array 3) by decide)] at hfour
  simp at hfour

namespace Server

/-! ### Frames fit -/

/-- A frame that fits is sent. -/
theorem sendFrame_eq (s : Server sz σ) {payload : List UInt8} (h : payload.length ≤ sz.bufSize) :
    s.sendFrame payload
      = { s with
          txBuf := (s.sendFrame payload).txBuf
          txBuf_length := (s.sendFrame payload).txBuf_length
          sent := s.sent ++ [.frame payload (frameBytes payload)]
          attachedAt := s.attachedAt ++ [s.attached] } := by
  obtain ⟨hsize, hbytes⟩ := frameEncode_fits h s.txBuf_length
  have hne : (frameBytes payload).length ≠ 0 := by
    rw [frameBytes_length]
    omega
  unfold sendFrame
  simp only [hsize, hbytes, hne, if_false]

/-- `send_response_` sends one frame. Its payload is a part of the payload buffer, so it
fits. -/
theorem sendResponse_sent (s : Server sz σ) (msgid : UInt32) (reply : Reply) :
    ∃ payload, payload.length ≤ sz.bufSize ∧
      (s.sendResponse msgid reply).sent = s.sent ++ [.frame payload (frameBytes payload)] ∧
      (s.sendResponse msgid reply).attachedAt = s.attachedAt ++ [s.attached] := by
  have hlength : (buildResponse s.payloadBuf msgid reply).1.length = sz.bufSize :=
    (buildResponse_length s.payloadBuf msgid reply (s.payloadBuf_length ▸ sz.header_fits)).trans
      s.payloadBuf_length
  have hfits : ((buildResponse s.payloadBuf msgid reply).1.take
      (buildResponse s.payloadBuf msgid reply).2.1).length ≤ sz.bufSize := by
    rw [List.length_take, hlength]
    exact Nat.min_le_right _ _
  unfold sendResponse
  dsimp only
  rw [sendFrame_eq _ hfits]
  exact ⟨_, hfits, rfl, rfl⟩

/-! ### Outputs -/

/-- `s` with the buffers, the log line, the sent bytes and the overflow counter of `o`. -/
def withOutput (s o : Server sz σ) : Server sz σ :=
  { s with
    payloadBuf := o.payloadBuf
    payloadBuf_length := o.payloadBuf_length
    txBuf := o.txBuf
    txBuf_length := o.txBuf_length
    responseOverflowErrors := o.responseOverflowErrors
    logBuf := o.logBuf
    logLevel := o.logLevel
    sent := o.sent
    attachedAt := o.attachedAt }

/-- From `s` to `s'` more was sent, and what was sent satisfies `p`. -/
def Sends (p : Sent → Prop) (s s' : Server sz σ) : Prop :=
  ∃ during, s'.sent = s.sent ++ during ∧ ∀ x ∈ during, p x

/-- From `s` to `s'` only outputs happened, and what was sent satisfies `p`. -/
structure Outputs (p : Sent → Prop) (s s' : Server sz σ) : Prop where
  eq : s' = s.withOutput s'
  sent : Sends p s s'

variable {p : Sent → Prop} {s s' s'' : Server sz σ}

/-- Nothing was sent. -/
theorem Sends.of_eq (h : s'.sent = s.sent) : Sends p s s' := ⟨[], by simpa using h⟩

/-- What was sent over two stretches. -/
theorem Sends.trans (h : Sends p s s') (h' : Sends p s' s'') : Sends p s s'' := by
  obtain ⟨before, hbefore, hp⟩ := h
  obtain ⟨after, hafter, hp'⟩ := h'
  refine ⟨before ++ after, by rw [hafter, hbefore, List.append_assoc], ?_⟩
  intro x hx
  rcases List.mem_append.mp hx with hx | hx
  · exact hp x hx
  · exact hp' x hx

/-- Less may be said of what was sent. -/
theorem Sends.mono {q : Sent → Prop} (h : Sends p s s') (hpq : ∀ x, p x → q x) :
    Sends q s s' := by
  obtain ⟨during, hduring, hp⟩ := h
  exact ⟨during, hduring, fun x hx => hpq x (hp x hx)⟩

namespace Outputs

/-- Nothing changes. -/
theorem refl (s : Server sz σ) : Outputs p s s where
  eq := rfl
  sent := Sends.of_eq rfl

/-- Two stretches, one behind the other. -/
theorem trans (h : Outputs p s s') (h' : Outputs p s' s'') : Outputs p s s'' where
  eq :=
    calc s'' = s'.withOutput s'' := h'.eq
      _ = (s.withOutput s').withOutput s'' := by rw [← h.eq]
      _ = s.withOutput s'' := rfl
  sent := h.sent.trans h'.sent

/-- What only outputs happened to is as it was. -/
theorem attached (h : Outputs p s s') : s'.attached = s.attached := by
  rw [h.eq]
  rfl

/-- One write. -/
theorem of_write (x : Sent) (h : s' = s.withOutput s') (hsent : s'.sent = s.sent ++ [x])
    (hx : p x) : Outputs p s s' where
  eq := h
  sent := ⟨[x], hsent, by simpa using hx⟩

/-- No write. -/
theorem of_silent (h : s' = s.withOutput s') (hsent : s'.sent = s.sent) : Outputs p s s' where
  eq := h
  sent := Sends.of_eq hsent

end Outputs

/-- A frame is one output. -/
theorem sendFrame_outputs (s : Server sz σ) {payload : List UInt8}
    (h : payload.length ≤ sz.bufSize) (hp : p (.frame payload (frameBytes payload))) :
    Outputs p s (s.sendFrame payload) := by
  have heq := s.sendFrame_eq h
  refine Outputs.of_write _ ?_ ?_ hp
  · rw [heq]
    rfl
  · rw [heq]

/-- A text is one output. -/
theorem writeText_outputs (s : Server sz σ) {bytes : List UInt8}
    (hp : p (.text bytes)) : Outputs p s (s.writeText bytes) :=
  Outputs.of_write _ rfl rfl hp

/-- The bytes of a notification. -/
theorem encodings_notification (name : List UInt8) (args : List (List PackOp)) :
    ∃ bs, PackOp.encodings (packNotification name args) = 0x93 :: 0x02 :: bs := by
  refine ⟨PackOp.encodings ([.str name, .array args.length] ++ args.flatten), ?_⟩
  rfl

/-- `notify` sends the notification while attached, if it fits. -/
theorem notify_outputs (s : Server sz σ) (name : List UInt8)
    (args : List (List PackOp))
    (hp : s.attached = true →
      ∀ bs, p (.frame (0x93 :: 0x02 :: bs) (frameBytes (0x93 :: 0x02 :: bs)))) :
    Outputs p s (s.notify name args).1 := by
  unfold notify
  split
  · -- A detached server drops the notification.
    exact Outputs.refl s
  · rename_i hattached
    have hholds := Writer.packAll_holds s.payloadBuf s.payloadBuf.length le_rfl
      (packNotification name args)
    dsimp only
    split
    · -- Nothing is sent of what does not fit.
      exact Outputs.of_silent rfl rfl
    · -- The rest goes out as one frame.
      rename_i hfit
      obtain ⟨hdata, hlength⟩ := hholds.data_of_fits (by simpa using hfit)
      obtain ⟨bs, hbs⟩ := encodings_notification name args
      rw [s.payloadBuf_length] at hlength
      refine Outputs.trans ?_ (sendFrame_outputs _ (by rwa [hdata]) ?_)
      · exact Outputs.of_silent rfl rfl
      · rw [hdata, hbs]
        exact hp (by simpa using hattached) bs

/-- A log line is a notification or two pieces of text. -/
theorem emitLogLine_outputs (s : Server sz σ) (level : UInt8)
    (line : List UInt8)
    (hp : s.attached = true →
      ∀ bs, p (.frame (0x93 :: 0x02 :: bs) (frameBytes (0x93 :: 0x02 :: bs))))
    (htext : s.attached = false → p (.text line) ∧ p (.text [lf])) :
    Outputs p s (s.emitLogLine level line) := by
  unfold emitLogLine
  split
  · exact s.notify_outputs _ _ hp
  · rename_i hattached
    obtain ⟨hline, hlf⟩ := htext (by simpa using hattached)
    exact (s.writeText_outputs hline).trans (writeText_outputs _ hlf)

/-! ### Code of the sketch -/

/-- What the calls of a script keep, the script keeps. `ok` is what holds of the bytes it
logs. -/
theorem run_induction {R : Server sz σ → Server sz σ → Prop} {ok : UInt8 → Prop}
    (refl : ∀ s, R s s) (trans : ∀ {s s' s''}, R s s' → R s' s'' → R s s'')
    (notify : ∀ s name args, R s (s.notify name args).1)
    (log : ∀ s b, ok b → R s (s.logByte b))
    (level : ∀ s level, R s { s with logLevel := level })
    {α : Type} {script : Script α} (hscript : script.Logs ok) (s : Server sz σ) :
    R s (s.run script).1 := by
  induction script generalizing s with
  | done a => exact refl s
  | notify name args next ih => exact trans (notify s name args) (ih _ (hscript _) _)
  | log bytes next ih =>
      have hbytes : R s (bytes.foldl logByte s) := by
        obtain ⟨hok, -⟩ := hscript
        clear ih
        induction bytes generalizing s with
        | nil => exact refl s
        | cons b bytes ih =>
            exact trans (log s b (hok b (by simp))) (ih _ fun b hb => hok b (by simp [hb]))
      exact trans hbytes (ih hscript.2 _)
  | logAt lvl next ih => exact trans (level s lvl) (ih hscript _)
  | attached next ih => exact ih _ (hscript _) s

/-- A byte that is logged emits at most the finished line. -/
theorem logByte_outputs (s : Server sz σ) (b : UInt8)
    (hline : Outputs p s (s.emitLogLine s.logLevel s.logBuf)) : Outputs p s (s.logByte b) := by
  have hflush : Outputs p s s.flushLog := hline.trans (Outputs.of_silent rfl rfl)
  unfold logByte
  split
  · exact Outputs.refl s
  · split
    · exact hflush
    · split
      · exact hflush.trans (Outputs.of_silent rfl rfl)
      · exact Outputs.of_silent rfl rfl

/-- Code of the sketch only outputs, and sends no response. -/
theorem run_outputs {α : Type} (s : Server sz σ) (script : Script α) :
    Outputs (¬ ·.IsResponse) s (s.run script).1 := by
  refine run_induction Outputs.refl Outputs.trans ?_ ?_ ?_ script.logs_any s
  · intro s name args
    exact s.notify_outputs name args fun _ => not_isResponse
  · intro s b _
    refine s.logByte_outputs b (s.emitLogLine_outputs _ _ (fun _ => not_isResponse) fun _ => ?_)
    exact ⟨not_false, not_false⟩
  · intro s level
    exact Outputs.of_silent rfl rfl

end Server

end SerialRpc
