import SerialRpc.Host.Rpc
import SerialRpc.Proofs.Host.Parser

/-!
# `SerialRpc.Proofs.Host.Messages`: what a payload says to the client

`readMessage` sorts payloads: a response, a notification, the head of one of these with an
object behind it that cannot be decoded, or something else. `handleFrame_eq` says what
`handle_frame_` does with each.

* `frame_accounted_iff`: a frame is accounted for exactly once, unless it is undecodable.
-/

set_option autoImplicit false

namespace SerialRpc

open MsgPack Reader

/-! ### Payloads -/

/-- One object as `Value::decode` reads it. -/
def parseObject (bs : List UInt8) : Except ProtocolError (Value × Nat) :=
  Value.parseNested (Value.kMaxDepth + 1) bs

/-- The array header and the message type, and their length. -/
def messageHead (payload : List UInt8) : Option ((Nat × Int) × Nat) :=
  (header (asArray .host64) payload).bind fun count =>
    (header (asInt (-(maxSigned 32 : Nat) - 1) (maxSigned 32)) (payload.drop count.2)).map
      fun type => ((count.1, type.1), count.2 + type.2)

/-- The head of a response, up to the error slot: the message id and the length. -/
def responseHead (payload : List UInt8) : Option (Nat × Nat) :=
  match messageHead payload with
  | some ((4, 1), k) =>
      (header (asNat (maxUnsigned 32)) (payload.drop k)).map fun msgid => (msgid.1, k + msgid.2)
  | _ => none

/-- The head of a notification, up to the parameters: the method and the length. -/
def notificationHead (payload : List UInt8) : Option (List UInt8 × Nat) :=
  match messageHead payload with
  | some ((3, 2), k) =>
      (blob (asStr .host64) (payload.drop k)).map fun sizes =>
        (((payload.drop k).drop sizes.1.1).take sizes.1.2, k + sizes.2)
  | _ => none

/-- What a payload says. -/
inductive Message where
  | response (msgid : Nat) (isError : Bool) (error result : Value)
  | notification (method : List UInt8) (args : Value)
  | undecodable (e : ProtocolError)
  | other

/-- The payload of a frame, sorted. -/
def readMessage (payload : List UInt8) : Message :=
  match responseHead payload with
  | some (msgid, k) =>
      match Value.parseEntry parseObject (payload.drop k) with
      | .ok ((error, result), _) =>
          .response msgid (decide (typeAt (payload.drop k) ≠ .nil)) error result
      | .error e => .undecodable e
  | none =>
      match notificationHead payload with
      | some (method, k) =>
          match parseObject (payload.drop k) with
          | .ok (args, _) => .notification method args
          | .error e => .undecodable e
      | none => .other

/-- What a frame cannot be decoded for. -/
theorem readMessage_errors {payload : List UInt8} {e : ProtocolError}
    (h : readMessage payload = .undecodable e) : e ∈ Value.parseErrors := by
  have hobject := Value.parseNested_errors (Value.kMaxDepth + 1)
  rw [readMessage] at h
  -- A response or a notification: the parser is called once, on what is behind the head.
  cases hresponse : responseHead payload with
  | some head =>
      simp only [hresponse] at h
      cases hslots : Value.parseEntry parseObject (payload.drop head.2) with
      | error e' =>
          rw [hslots] at h
          obtain rfl : e' = e := Message.undecodable.inj h
          exact Value.parseEntry_errors hobject _ e' hslots
      | ok slots =>
          rw [hslots] at h
          cases h
  | none =>
      simp only [hresponse] at h
      cases hnotification : notificationHead payload with
      | some head =>
          simp only [hnotification] at h
          cases hargs : parseObject (payload.drop head.2) with
          | error e' =>
              rw [hargs] at h
              obtain rfl : e' = e := Message.undecodable.inj h
              exact hobject _ e' hargs
          | ok args =>
              rw [hargs] at h
              cases h
      | none =>
          rw [hnotification] at h
          cases h

/-! ### Reads -/

/-- One byte is of type nil. -/
theorem lead_of_type_nil : ∀ b : UInt8, typeOf (lead b) = .nil → lead b = .value .nil :=
  forall_byte (by decide +kernel)

/-- An object of type nil is one byte. -/
theorem header_of_type_nil {bs : List UInt8} (h : typeAt bs = .nil) :
    header asNil bs = some ((), 1) := by
  cases bs with
  | nil => cases h
  | cons b bs =>
      rw [header_value asNil (lead_of_type_nil b h)]
      rfl

/-- Decoding at the cursor is the parser on the bytes that are left. -/
theorem decode_parseObject {r : Reader .host64} (herr : r.error = false) :
    Value.decode r = Value.atCursor r (parseObject r.rest) :=
  Value.decode_eq herr

namespace RPC

variable (c : RPC)

/-- A decoded response: it answers the pending call, or it is a stray one. -/
def takeResponse (msgid : Nat) (isError : Bool) (error result : Value) : RPC :=
  if c.pendingMsgid = some msgid then
    { c with
        pendingResponseReady := true
        pendingResponseIsError := isError
        pendingResponseValue := if isError then error else result }.record
      (.response msgid isError (if isError then error else result))
  else { c with stats := { c.stats with strayResponses := c.stats.strayResponses + 1 } }

/-- A decoded notification: a log line, or one for the handlers. -/
def takeNotification (method : List UInt8) (args : Value) : RPC :=
  if method = text "log" then
    { c with stats := { c.stats with logsRecv := c.stats.logsRecv + 1 } }.dispatchLog args
  else
    { c with stats :=
        { c.stats with notificationsRecv := c.stats.notificationsRecv + 1 } }.dispatchNotification
      method args

/-- What the client does with a message, and the exception it throws. -/
def take : Message → RPC × Option ProtocolError
  | .response msgid isError error result => (c.takeResponse msgid isError error result, none)
  | .notification method args => (c.takeNotification method args, none)
  | .undecodable e => (c, some e)
  | .other => (c.malformed, none)

/-! ### `handle_frame_` -/

/-- The error slot is decoded, or found to be nil. Either way it is one object. -/
theorem errorSlot_eq {r : Reader .host64} (herr : r.error = false) :
    (if decide (r.type ≠ .nil) then Value.decode r else .ok (.nil, r.readNil))
      = Value.atCursor r (parseObject r.rest) := by
  rw [type_eq herr]
  by_cases hnil : typeAt r.rest = .nil
  · have hheader := header_of_type_nil hnil
    rw [if_neg (by simp [hnil]), parseObject, Value.parseNested, hnil, readNil_eq]
    simp only [hheader, answerOf, Value.parseLeaf, Value.atCursor, Except.map]
  · rw [if_pos (by simp [hnil])]
    exact decode_parseObject herr

/-- A response from its error slot on. -/
theorem handleResponse_eq {r : Reader .host64} (herr : r.error = false) (msgid : Nat) :
    c.handleResponse r msgid
      = match Value.parseEntry parseObject r.rest with
        | .ok ((error, result), _) =>
            (c.takeResponse msgid (decide (typeAt r.rest ≠ .nil)) error result, none)
        | .error e => (c, some e) := by
  rw [handleResponse, errorSlot_eq herr, type_eq herr, Value.parseEntry]
  cases hfirst : parseObject r.rest with
  | error e => rfl
  | ok p =>
      have hsecond : Value.decode (r.advance p.2)
          = Value.atCursor (r.advance p.2) (parseObject (r.rest.drop p.2)) := by
        rw [decode_parseObject (show (r.advance p.2).error = false from herr), rest_advance]
      simp only [Value.atCursor, Except.map, takeResponse]
      rw [if_neg (by simp [advance, herr]), hsecond]
      cases hresult : parseObject (r.rest.drop p.2) with
      | error e => rfl
      | ok q =>
          simp only [Value.atCursor, Except.map]
          rw [if_neg (by simp [advance, herr])]
          split <;> rfl

/-- A notification from its parameters on. -/
theorem handleNotification_eq {r : Reader .host64} (herr : r.error = false)
    (method : List UInt8) :
    c.handleNotification r method
      = match parseObject r.rest with
        | .ok (args, _) => (c.takeNotification method args, none)
        | .error e => (c, some e) := by
  rw [handleNotification, decode_parseObject herr]
  cases parseObject r.rest with
  | error e => rfl
  | ok p =>
      simp only [Value.atCursor, Except.map, takeNotification]
      rw [if_neg (by simp [advance, herr])]
      split <;> rfl

/-- `handle_frame_` does what the message says. -/
theorem handleFrame_eq (payload : List UInt8) :
    c.handleFrame payload = c.take (readMessage payload) := by
  have hstart : (Reader.new .host64 payload).rest = payload := by
    simp [Reader.rest, Reader.new]
  rw [handleFrame, readArray_eq, store_answerOf, hstart]
  unfold readMessage responseHead notificationHead messageHead
  cases hcount : header (asArray .host64) payload with
  | none => rfl
  | some count =>
      obtain ⟨n, k⟩ := count
      simp only [Option.bind_some]
      rw [if_neg (by simp [advance, Reader.new]), readSigned_eq, store_answerOf,
        rest_advance, hstart]
      cases htype : header (asInt (-(maxSigned 32 : Nat) - 1) (maxSigned 32)) (payload.drop k) with
      | none => rfl
      | some type =>
          obtain ⟨type, j⟩ := type
          simp only [Option.map_some]
          rw [if_neg (by simp [advance, Reader.new]), advance_advance]
          by_cases hresponse : type = 1
          · -- A response, if the array has four elements.
            subst hresponse
            rw [if_pos rfl]
            by_cases hfour : n = 4
            · subst hfour
              rw [if_neg (by simp), readUnsigned_eq, store_answerOf, rest_advance, hstart]
              cases hmsgid : header (asNat (maxUnsigned 32)) (payload.drop (k + j)) with
              | none => simp [hmsgid, flagged, take]
              | some msgid =>
                  obtain ⟨msgid, i⟩ := msgid
                  simp only [hmsgid, Option.map_some]
                  rw [if_neg (by simp [advance, Reader.new]), advance_advance,
                    handleResponse_eq _ (by rfl), rest_advance, hstart]
                  cases Value.parseEntry parseObject (payload.drop (k + j + i)) with
                  | error e => rfl
                  | ok p => rfl
            · rw [if_pos hfour]
              simp [hfour, take]
          · rw [if_neg hresponse]
            by_cases hnotification : type = 2
            · -- A notification, if it has three.
              subst hnotification
              rw [if_pos rfl]
              by_cases hthree : n = 3
              · subst hthree
                rw [if_neg (by simp), readStr_answer, rest_advance, hstart]
                cases hmethod : blob (asStr .host64) (payload.drop (k + j)) with
                | none => simp [hmethod, flagged, take]
                | some sizes =>
                    obtain ⟨sizes, i⟩ := sizes
                    simp only [hmethod, Option.map_some]
                    rw [if_neg (by simp [advance, Reader.new]), bytes_spanAt, advance_advance,
                      handleNotification_eq _ (by rfl), rest_advance, rest_advance, hstart]
                    cases parseObject (payload.drop (k + j + i)) with
                    | error e => rfl
                    | ok p => rfl
              · rw [if_pos hthree]
                simp [hthree, take]
            · rw [if_neg hnotification]
              simp [hresponse, hnotification, take]

end RPC

/-! ### Accounting -/

/-- The ways to account for a frame. -/
inductive Account where
  | response
  | strayResponse
  | log
  | notification
  | malformed

/-- The counters after a frame was accounted for. A response to the pending call has none. -/
def Stats.count (s : Stats) : Account → Stats
  | .response => s
  | .strayResponse => { s with strayResponses := s.strayResponses + 1 }
  | .log => { s with logsRecv := s.logsRecv + 1 }
  | .notification => { s with notificationsRecv := s.notificationsRecv + 1 }
  | .malformed => { s with malformedFrames := s.malformedFrames + 1 }

/-- The state of the pending call is untouched. -/
structure SamePending (before after : RPC) : Prop where
  msgid : after.pendingMsgid = before.pendingMsgid
  ready : after.pendingResponseReady = before.pendingResponseReady
  isError : after.pendingResponseIsError = before.pendingResponseIsError
  value : after.pendingResponseValue = before.pendingResponseValue

/-- The pending call is completed, or its state is left alone. -/
def Pending (before after : RPC) : Account → Prop
  | .response =>
      before.pendingMsgid ≠ none ∧ after.pendingMsgid = before.pendingMsgid ∧
        after.pendingResponseReady = true
  | _ => SamePending before after

/-- A frame is accounted for: its counter moves by one and no other does, and only a response
to the pending call completes it. -/
structure Accounted (before after : RPC) (a : Account) : Prop where
  stats : after.stats = before.stats.count a
  pending : Pending before after a

/-- The head of a response, and an error slot or a result slot behind it that
`Value::decode` throws on. -/
def UndecodableResponse (payload : List UInt8) : Prop :=
  ∃ msgid k e, responseHead payload = some (msgid, k) ∧
    Value.decodeEntry Value.decode ⟨payload, k, false⟩ = .error e

/-- The head of a notification, and parameters behind it that `Value::decode` throws on. -/
def UndecodableNotification (payload : List UInt8) : Prop :=
  ∃ method k e, notificationHead payload = some (method, k) ∧
    Value.decode ⟨payload, k, false⟩ = .error e

/-- A payload with an object that `Value::decode` throws on. -/
def Undecodable (payload : List UInt8) : Prop :=
  UndecodableResponse payload ∨ UndecodableNotification payload

/-- A payload cannot be the head of a response and of a notification. -/
theorem notificationHead_of_responseHead {payload : List UInt8} {p : Nat × Nat}
    (h : responseHead payload = some p) : notificationHead payload = none := by
  unfold responseHead at h
  unfold notificationHead
  split at h
  · rename_i k hhead
    simp [hhead]
  · cases h

/-- An answer at a cursor is an error when the parser's answer is one. -/
theorem atCursor_eq_error_iff {α : Type} {r : Reader .host64}
    {answer : Except ProtocolError (α × Nat)} {e : ProtocolError} :
    Value.atCursor r answer = .error e ↔ answer = .error e := by
  cases answer with
  | error e' => simp [Value.atCursor, Except.map]
  | ok p => simp [Value.atCursor, Except.map]

/-- The undecodable payloads are the messages sorted so. -/
theorem undecodable_iff (payload : List UInt8) :
    Undecodable payload ↔ ∃ e, readMessage payload = .undecodable e := by
  have hobject (k : Nat) (e : ProtocolError) :
      Value.decode ⟨payload, k, false⟩ = .error e ↔ parseObject (payload.drop k) = .error e := by
    rw [decode_parseObject rfl]
    exact atCursor_eq_error_iff
  have hentry (k : Nat) (e : ProtocolError) :
      Value.decodeEntry Value.decode ⟨payload, k, false⟩ = .error e
        ↔ Value.parseEntry parseObject (payload.drop k) = .error e := by
    rw [Value.decodeEntry_follows (fun r herr => decode_parseObject herr) _ rfl]
    exact atCursor_eq_error_iff
  -- Both sides look at the same head, and then at the same parser.
  simp only [Undecodable, UndecodableResponse, UndecodableNotification, hobject, hentry]
  constructor
  · rintro (⟨msgid, k, e, hhead, herror⟩ | ⟨method, k, e, hhead, herror⟩)
    · exact ⟨e, by simp only [readMessage, hhead, herror]⟩
    · have hresponse : responseHead payload = none := by
        cases h : responseHead payload with
        | none => rfl
        | some p =>
            rw [notificationHead_of_responseHead h] at hhead
            cases hhead
      exact ⟨e, by simp only [readMessage, hresponse, hhead, herror]⟩
  · rintro ⟨e, he⟩
    unfold readMessage at he
    cases hresponse : responseHead payload with
    | some p =>
        obtain ⟨msgid, k⟩ := p
        cases hparse : Value.parseEntry parseObject (payload.drop k) with
        | error e' => exact Or.inl ⟨msgid, k, e', rfl, hparse⟩
        | ok q => simp [hresponse, hparse] at he
    | none =>
        cases hnotification : notificationHead payload with
        | some p =>
            obtain ⟨method, k⟩ := p
            cases hparse : parseObject (payload.drop k) with
            | error e' => exact Or.inr ⟨method, k, e', rfl, hparse⟩
            | ok q => simp [hresponse, hnotification, hparse] at he
        | none => simp [hresponse, hnotification] at he

/-- The head of a response or a notification, by its type, that is neither in full. -/
def Broken (payload : List UInt8) : Prop :=
  (∃ n k, messageHead payload = some ((n, 1), k) ∨ messageHead payload = some ((n, 2), k)) ∧
    (∀ msgid isError error result,
      readMessage payload ≠ .response msgid isError error result) ∧
    ∀ method args, readMessage payload ≠ .notification method args

/-- A counter that moved by one has moved. -/
theorem succ_ne_self (n : UInt64) : n + 1 ≠ n := by
  intro h
  have hnat := congrArg UInt64.toNat h
  rw [UInt64.toNat_add] at hnat
  have hlt := n.toNat_lt
  have hone : (1 : UInt64).toNat = 1 := rfl
  omega

/-- Each way to account for a frame leaves its own mark on the counters. -/
theorem Stats.count_injective (s : Stats) {a b : Account} (h : s.count a = s.count b) : a = b := by
  have hne (n : UInt64) : n ≠ n + 1 := (succ_ne_self n).symm
  cases s
  cases a <;> cases b <;> first
    | rfl
    | simp [Stats.count, hne] at h

/-- `handle_frame_` returns, and the frame is accounted for in exactly one way. A broken
response or notification counts as malformed and disturbs no pending call. -/
def RPC.AccountedOnce (c : RPC) (payload : List UInt8) : Prop :=
  (c.handleFrame payload).2 = none ∧ (∃! a, Accounted c (c.handleFrame payload).1 a) ∧
    (Broken payload → Accounted c (c.handleFrame payload).1 .malformed)

/-- A malformed frame is counted as one. -/
theorem accounted_malformed (c : RPC) : Accounted c c.malformed .malformed where
  stats := rfl
  pending := ⟨rfl, rfl, rfl, rfl⟩

/-- A response is a reply or a stray, and is accounted for as one. -/
theorem accounted_response (c : RPC) (msgid : Nat) (isError : Bool) (error result : Value) :
    ∃ a, Accounted c (c.takeResponse msgid isError error result) a := by
  unfold RPC.takeResponse
  split
  · rename_i hpending
    exact ⟨.response, rfl, by simp [hpending], rfl, rfl⟩
  · exact ⟨.strayResponse, rfl, rfl, rfl, rfl, rfl⟩

/-- A call that a frame leads to, and no line. -/
def Dispatched.FromFrame : Dispatched → Prop
  | .text _ _ => False
  | _ => True

/-- A call of a callback is recorded, and nothing else happens. -/
theorem dispatchLog_eq (c : RPC) (args : Value) :
    ∃ calls, (∀ call ∈ calls, call.FromFrame) ∧
      c.dispatchLog args = { c with dispatched := c.dispatched ++ calls } := by
  have hnone : ∃ calls, (∀ call ∈ calls, Dispatched.FromFrame call) ∧
      c = { c with dispatched := c.dispatched ++ calls } :=
    ⟨[], by rintro call ⟨⟩, by rw [List.append_nil]⟩
  unfold RPC.dispatchLog
  split
  · split
    · refine ⟨[_], ?_, rfl⟩
      simp [Dispatched.FromFrame]
    · exact hnone
  · exact hnone

/-- Dispatching a notification appends callbacks for its frame, and does nothing else. -/
theorem dispatchNotification_eq (c : RPC) (method : List UInt8) (args : Value) :
    ∃ calls, (∀ call ∈ calls, call.FromFrame) ∧
      c.dispatchNotification method args = { c with dispatched := c.dispatched ++ calls } := by
  unfold RPC.dispatchNotification
  -- The handler of the method comes first, and then the callback for any method.
  cases c.handlers.lookup method with
  | none =>
      cases hany : c.onAny with
      | none =>
          refine ⟨[], by simp, ?_⟩
          simp only [hany, List.append_nil]
          rw [← hany]
      | some callback =>
          exact ⟨[.any callback method args], by simp [Dispatched.FromFrame], by
            simp [hany, RPC.record]⟩
  | some handler =>
      cases hany : c.onAny with
      | none =>
          exact ⟨[.notification handler args], by simp [Dispatched.FromFrame], by
            simp [hany, RPC.record]⟩
      | some callback =>
          exact ⟨[.notification handler args, .any callback method args], by
            simp [Dispatched.FromFrame], by simp [hany, RPC.record]⟩

/-- A decoded notification is counted, and the callbacks it concerns are called. -/
theorem takeNotification_eq (c : RPC) (method : List UInt8) (args : Value) :
    ∃ calls, (∀ call ∈ calls, call.FromFrame) ∧
      c.takeNotification method args
        = { c with
            stats := c.stats.count (if method = text "log" then .log else .notification)
            dispatched := c.dispatched ++ calls } := by
  unfold RPC.takeNotification
  split
  · obtain ⟨calls, hcalls, heq⟩ := dispatchLog_eq
      { c with stats := { c.stats with logsRecv := c.stats.logsRecv + 1 } } args
    exact ⟨calls, hcalls, heq⟩
  · obtain ⟨calls, hcalls, heq⟩ := dispatchNotification_eq
      { c with stats := { c.stats with notificationsRecv := c.stats.notificationsRecv + 1 } }
      method args
    exact ⟨calls, hcalls, heq⟩

/-- A notification is accounted for, as a log line or as an event. -/
theorem accounted_notification (c : RPC) (method : List UInt8) (args : Value) :
    ∃ a, Accounted c (c.takeNotification method args) a := by
  obtain ⟨calls, -, heq⟩ := takeNotification_eq c method args
  rw [heq]
  refine ⟨if method = text "log" then .log else .notification, rfl, ?_⟩
  split <;> exact ⟨rfl, rfl, rfl, rfl⟩

/-- **Accounting for frames.** A frame is accounted for exactly once, unless `Value::decode`
throws on one of its objects: the exception then leaves `handle_frame_`. -/
theorem frame_accounted_iff (c : RPC) (payload : List UInt8) :
    c.AccountedOnce payload ↔ ¬ Undecodable payload := by
  rw [undecodable_iff, RPC.AccountedOnce, RPC.handleFrame_eq]
  -- The counters tell the accounts apart, so one account is the only one.
  have honce {after : RPC} (h : ∃ a, Accounted c after a) : ∃! a, Accounted c after a := by
    obtain ⟨a, ha⟩ := h
    refine ⟨a, ha, fun b hb => ?_⟩
    exact Stats.count_injective c.stats (hb.stats.symm.trans ha.stats)
  cases hmessage : readMessage payload with
  | response msgid isError error result =>
      have hwhole : ¬ Broken payload := fun h => h.2.1 _ _ _ _ hmessage
      refine iff_of_true ⟨rfl, honce (accounted_response c msgid isError error result), ?_⟩ ?_
      · exact fun h => absurd h hwhole
      · rintro ⟨e, he⟩
        cases he
  | notification method args =>
      have hwhole : ¬ Broken payload := fun h => h.2.2 _ _ hmessage
      refine iff_of_true ⟨rfl, honce (accounted_notification c method args), ?_⟩ ?_
      · exact fun h => absurd h hwhole
      · rintro ⟨e, he⟩
        cases he
  | undecodable e =>
      refine iff_of_false ?_ (not_not.mpr ⟨e, rfl⟩)
      rintro ⟨⟨⟩, -⟩
  | other =>
      refine iff_of_true ⟨rfl, honce ⟨_, accounted_malformed c⟩, fun _ => accounted_malformed c⟩ ?_
      rintro ⟨e, he⟩
      cases he

/-- A notification whose parameters are the reserved byte `0xc1` is not accounted for. -/
theorem frame_accounted_fails :
    ¬ (RPC.new .default).AccountedOnce [0x93, 0x02, 0xa1, 0x61, 0xc1] :=
  fun h => absurd h.1 (by decide +kernel)

end SerialRpc
