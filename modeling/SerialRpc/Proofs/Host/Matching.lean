import SerialRpc.Proofs.Host.Connection

/-!
# `SerialRpc.Proofs.Host.Matching`: the responses in a run of the client

`Op` is what an application does with a client, one operation after the other. Each request
takes the next message id (`requestsOf`), so no two of the first `2 ^ 32` requests share one.
A call returns what a response to its own id says that was received while it waited
(`Call.Answered`), whatever the fields of the client held before.

* `calls_matched`: all of it over every run.
-/

set_option autoImplicit false

namespace SerialRpc

open MsgPack Reader

namespace RPC

/-! ### Runs -/

/-- What an application does with a client. -/
inductive Op where
  | call (write : Nat → Int) (method : List UInt8) (args : List Value) (start : Nat)
      (attempts : List Attempt)
  | notify (write : Nat → Int) (method : List UInt8) (args : List Value)
  | poll (deadline : Nat) (turns : List PollTurn)
  | connect (temporary deadline : Nat) (probes : List Probe) (exchange : Exchange)
  /-- `on_log`, `on_text`, `on` and `on_any_notification`. -/
  | callbacks (onLog onText : Option Nat) (handlers : List (List UInt8 × Nat)) (onAny : Option Nat)

/-- One operation. -/
def act (c : RPC) : Op → RPC
  | .call write method args start attempts => (c.callValues write method args start attempts).1
  | .notify write method args => (c.notifyValues write method args).1
  | .poll deadline turns => (c.poll deadline turns).1
  | .connect temporary deadline probes exchange =>
      (c.connect temporary deadline probes exchange).1
  | .callbacks onLog onText handlers onAny =>
      { c with onLog := onLog, onText := onText, handlers := handlers, onAny := onAny }

/-- The client in the waiting loop of `connect`. -/
def probing (c : RPC) (temporary : Nat) : RPC :=
  { c with demux := c.demux.reset, onText := some temporary }

/-- The message ids of the pings of `connect`. -/
def pingIds (c : RPC) (temporary : Nat) (previous : Option Nat) (deadline : Nat) :
    List Probe → List UInt32
  | [] => []
  | probe :: probes =>
      if deadline ≤ probe.now then []
      else
        match c.tryRequest probe.write (text "rpc.ping") (min (deadline - probe.now) 250)
          probe.start probe.attempts with
        | (c', _, .nothing) =>
            c.nextMsgid ::
              if (c'.dispatched.drop c.dispatched.length).any (sawReady temporary) then []
              else pingIds (c'.handOn temporary previous c.dispatched.length) temporary previous
                deadline probes
        | _ => [c.nextMsgid]

/-- A call of `call_values`: the client before it, and the environment. -/
structure Call where
  before : RPC
  write : Nat → Int
  method : List UInt8
  args : List Value
  start : Nat
  attempts : List Attempt

/-- How the call ends. -/
def Call.outcome (call : Call) : CallOutcome :=
  (call.before.callValues call.write call.method call.args call.start call.attempts).2.2

/-- The calls of one operation. `connect` makes one for `rpc.attach`. -/
def callsIn (c : RPC) : Op → List Call
  | .call write method args start attempts => [⟨c, write, method, args, start, attempts⟩]
  | .connect temporary deadline probes exchange =>
      match (c.probing temporary).waitForDevice temporary c.onText deadline probes with
      | (c', _, .alive) =>
          [⟨{ c' with onText := c.onText }, exchange.write, text "rpc.attach", [],
            exchange.start, exchange.attempts⟩]
      | _ => []
  | _ => []

/-- The message ids that one operation takes. -/
def requestsIn (c : RPC) (op : Op) : List UInt32 :=
  (match op with
    | .connect temporary deadline probes _ =>
        (c.probing temporary).pingIds temporary c.onText deadline probes
    | _ => []) ++ (c.callsIn op).map fun call => call.before.nextMsgid

/-- The calls of a run. -/
def callsOf (c : RPC) : List Op → List Call
  | [] => []
  | op :: ops => c.callsIn op ++ callsOf (c.act op) ops

/-- The message ids of the requests of a run. -/
def requestsOf (c : RPC) : List Op → List UInt32
  | [] => []
  | op :: ops => c.requestsIn op ++ requestsOf (c.act op) ops

/-! ### Message ids -/

/-- `ids` are counted on from `first`, and `next` is the one behind them. -/
def Consecutive (first : UInt32) : List UInt32 → UInt32 → Prop
  | [], next => next = first
  | id :: ids, next => id = first ∧ Consecutive (first + 1) ids next

/-- Two stretches of ids, the second counted on from the first. -/
theorem Consecutive.append {first middle next : UInt32} {ids ids' : List UInt32}
    (h : Consecutive first ids middle) (h' : Consecutive middle ids' next) :
    Consecutive first (ids ++ ids') next := by
  induction ids generalizing first with
  | nil =>
      cases h
      exact h'
  | cons id ids ih => exact ⟨h.1, ih h.2⟩

/-- Consecutive ids are the first one plus 0, 1, 2 and so on. -/
theorem Consecutive.eq_map {first next : UInt32} {ids : List UInt32}
    (h : Consecutive first ids next) :
    ids = (List.range ids.length).map fun i => first + UInt32.ofNat i := by
  induction ids generalizing first with
  | nil => rfl
  | cons id ids ih =>
      obtain ⟨rfl, hrest⟩ := h
      rw [List.length_cons, List.range_succ_eq_map, List.map_cons, List.map_map]
      refine List.cons_eq_cons.mpr ⟨(UInt32.add_zero _).symm, ?_⟩
      conv_lhs => rw [ih hrest]
      refine List.map_congr_left fun i _ => ?_
      calc id + 1 + UInt32.ofNat i = id + (UInt32.ofNat i + 1) := by
            rw [UInt32.add_assoc, UInt32.add_comm 1]
        _ = id + UInt32.ofNat (i + 1) := by rw [UInt32.ofNat_add]; rfl

/-- Fewer than `2 ^ 32` ids in a row are different. -/
theorem Consecutive.nodup {first next : UInt32} {ids : List UInt32}
    (h : Consecutive first ids next) (hfew : ids.length < 2 ^ 32) : ids.Nodup := by
  rw [h.eq_map]
  refine List.Nodup.map_on ?_ List.nodup_range
  intro i hi j hj hsame
  have hi := List.mem_range.mp hi
  have hj := List.mem_range.mp hj
  have hsize : UInt32.size = 2 ^ 32 := rfl
  have hindex := congrArg UInt32.toNat ((UInt32.add_right_inj first).mp hsame)
  rwa [UInt32.toNat_ofNat_of_lt' (by omega), UInt32.toNat_ofNat_of_lt' (by omega)] at hindex

/-- The pings of the waiting loop take the ids that follow. -/
theorem waitForDevice_pingIds {c : RPC} (h : c.Sized) (temporary : Nat) (previous : Option Nat)
    (deadline : Nat) (probes : List Probe) :
    Consecutive c.nextMsgid (c.pingIds temporary previous deadline probes)
        (c.waitForDevice temporary previous deadline probes).1.nextMsgid ∧
      (c.waitForDevice temporary previous deadline probes).1.Sized := by
  induction probes generalizing c with
  | nil => exact ⟨rfl, h⟩
  | cons probe probes ih =>
      rw [waitForDevice, pingIds]
      by_cases hnow : deadline ≤ probe.now
      · rw [if_pos hnow, if_pos hnow]
        exact ⟨rfl, h⟩
      · rw [if_neg hnow, if_neg hnow]
        have htried := tryRequest_later h probe.write (text "rpc.ping")
          (min (deadline - probe.now) 250) probe.start probe.attempts
        rcases htry : c.tryRequest probe.write (text "rpc.ping") (min (deadline - probe.now) 250)
          probe.start probe.attempts with ⟨c', bytes, outcome⟩
        rw [htry] at htried
        -- Whatever comes of the ping, its id is used.
        have hhanded := handOn_later htried temporary previous c.dispatched.length
        have hone : Consecutive c.nextMsgid [c.nextMsgid]
            (c'.handOn temporary previous c.dispatched.length).nextMsgid :=
          ⟨rfl, hhanded.nextMsgid⟩
        cases outcome with
        | replied v => exact ⟨hone, hhanded.sized⟩
        | threw e => exact ⟨hone, hhanded.sized⟩
        | waiting => exact ⟨hone, hhanded.sized⟩
        | nothing =>
            simp only
            by_cases hready :
                (c'.dispatched.drop c.dispatched.length).any (sawReady temporary) = true
            · rw [if_pos hready, if_pos hready]
              exact ⟨hone, hhanded.sized⟩
            · -- The next ping takes the next id.
              rw [if_neg hready, if_neg hready]
              obtain ⟨hpings, hsized⟩ := ih hhanded.sized
              exact ⟨hone.append hpings, hsized⟩

/-- A notification takes no id. -/
theorem notifyValues_later {c : RPC} (h : c.Sized) (write : Nat → Int) (method : List UInt8)
    (args : List Value) : Later 0 c (c.notifyValues write method args).1 := by
  obtain ⟨txPayload, txFrame, hpayload, hframe, hsend⟩ := sendPacked_eq h write
    (packNotify_eq method args) ⟨"serial_rpc: notification payload exceeds max_frame"⟩
  unfold notifyValues
  rw [hsend]
  have hlater (stats : Stats) :
      Later 0 c { c with txPayload := txPayload, txFrame := txFrame, stats := stats } :=
    ⟨⟨hpayload, hframe⟩, rfl, (UInt32.add_zero _).symm, rfl, rfl, rfl, rfl, rfl⟩
  cases sendError c.opts.maxFrame write ⟨"serial_rpc: notification payload exceeds max_frame"⟩
      (PackOp.encodings (notifyOps method args)) with
  | some e => exact hlater c.stats
  | none => exact hlater _

/-- A poll takes no id. -/
theorem poll_later {c : RPC} (h : c.Sized) (deadline : Nat) (turns : List PollTurn)
    (memory : Memory := .unlimited) : Later 0 c (c.poll deadline turns memory).1 := by
  -- A poll sends nothing, so no turn of it moves the next id.
  have hloop : ∀ (c : RPC) (before : UInt64),
      SameSetup c (c.pollLoop before deadline turns memory).1 := by
    induction turns with
    | nil => exact fun c _ => SameSetup.refl c
    | cons turn turns ih =>
        intro c before
        have hpumped := (pumpBytes_keeps c turn.read memory).toSameSetup
        rw [pollLoop]
        rcases hpump : c.pumpBytes turn.read memory with ⟨c', _ | e⟩ <;> rw [hpump] at hpumped
        · simp only
          split
          · exact hpumped.trans (ih c' before)
          · exact hpumped
        · exact hpumped
  exact (Later.refl h).of_sameSetup (hloop c c.eventsTotal)

/-- One operation takes the ids that follow, and each of its calls has one of them. -/
theorem act_requestsIn {c : RPC} (h : c.Sized) (op : Op) :
    Consecutive c.nextMsgid (c.requestsIn op) (c.act op).nextMsgid ∧ (c.act op).Sized ∧
      ∀ call ∈ c.callsIn op, call.before.Sized := by
  cases op with
  | call write method args start attempts =>
      have hlater := callValues_later h write method args start attempts
      refine ⟨⟨rfl, hlater.nextMsgid⟩, hlater.sized, ?_⟩
      intro call hcall
      rw [callsIn, List.mem_singleton] at hcall
      rw [hcall]
      exact h
  | notify write method args =>
      have hlater := notifyValues_later h write method args
      exact ⟨hlater.nextMsgid.trans (UInt32.add_zero _), hlater.sized, by rintro call ⟨⟩⟩
  | poll deadline turns =>
      have hlater := poll_later h deadline turns
      exact ⟨hlater.nextMsgid.trans (UInt32.add_zero _), hlater.sized, by rintro call ⟨⟩⟩
  | callbacks onLog onText handlers onAny =>
      exact ⟨rfl, ⟨h.payload, h.frame⟩, by rintro call ⟨⟩⟩
  | connect temporary deadline probes exchange =>
      have hsized : (c.probing temporary).Sized := ⟨h.payload, h.frame⟩
      obtain ⟨hpings, hwaited⟩ :=
        waitForDevice_pingIds hsized temporary c.onText deadline probes
      rcases hwait : (c.probing temporary).waitForDevice temporary c.onText deadline probes with
        ⟨c', bytes, outcome⟩
      rw [hwait] at hpings hwaited
      have hconnect : RPC.waitForDevice { c with demux := c.demux.reset, onText := some temporary }
          temporary c.onText deadline probes = (c', bytes, outcome) := hwait
      have hsized' : { c' with onText := c.onText }.Sized := ⟨hwaited.payload, hwaited.frame⟩
      simp only [act, connect, requestsIn, callsIn, hwait, hconnect]
      cases outcome with
      | threw e => exact ⟨hpings.append rfl, hwaited, by rintro call ⟨⟩⟩
      | waiting => exact ⟨hpings.append rfl, hwaited, by rintro call ⟨⟩⟩
      | timedOut => exact ⟨hpings.append rfl, hsized', by rintro call ⟨⟩⟩
      | alive =>
          -- `rpc.attach` is the one call of `connect`, behind all its pings.
          obtain ⟨attached, hattach⟩ := attach_later hsized' exchange
          refine ⟨hpings.append ⟨rfl, hattach.nextMsgid⟩, hattach.sized, ?_⟩
          intro call hcall
          rw [List.mem_singleton] at hcall
          rw [hcall]
          exact hsized'

/-- The requests of a run of operations have consecutive ids. -/
theorem requestsOf_consecutive {c : RPC} (h : c.Sized) (ops : List Op) :
    ∃ next, Consecutive c.nextMsgid (c.requestsOf ops) next := by
  induction ops generalizing c with
  | nil => exact ⟨c.nextMsgid, rfl⟩
  | cons op ops ih =>
      obtain ⟨hids, hsized, -⟩ := act_requestsIn h op
      obtain ⟨next, hrest⟩ := ih hsized
      exact ⟨next, hids.append hrest⟩

/-- Each call of a run takes one of the ids. -/
theorem callsOf_sized {c : RPC} (h : c.Sized) (ops : List Op) :
    ∀ call ∈ c.callsOf ops,
      call.before.Sized ∧ call.before.nextMsgid ∈ c.requestsOf ops := by
  induction ops generalizing c with
  | nil => rintro call ⟨⟩
  | cons op ops ih =>
      obtain ⟨-, hsized, hcalls⟩ := act_requestsIn h op
      intro call hcall
      rcases List.mem_append.mp hcall with hcall | hcall
      · exact ⟨hcalls call hcall, List.mem_append_left _
          (List.mem_append_right _ (List.mem_map_of_mem hcall))⟩
      · obtain ⟨hbefore, hid⟩ := ih hsized call hcall
        exact ⟨hbefore, List.mem_append_right _ hid⟩

/-! ### Answers -/

/-- A response to the call's own id, received in one of its reads while it waited, holds `v` in
its error slot or in its result slot. -/
def Call.Answered (call : Call) (isError : Bool) (v : Value) : Prop :=
  ∃ earlier attempt later bytes before payload after error result,
    call.attempts = earlier ++ attempt :: later ∧ attempt.read = some bytes ∧
    { call with attempts := earlier }.outcome = .waiting ∧
    (SerialRpc.demux hostDemuxSize).outputs
        ((SerialRpc.demux hostDemuxSize).final call.before.demux (received earlier)) bytes
      = before ++ some (.frame payload) :: after ∧
    readMessage payload = .response call.before.nextMsgid.toNat isError error result ∧
    v = if isError then error else result

/-- A call that is answered found its answer in one of its reads. -/
theorem Call.answered_of_hear {call : Call} (h : call.before.Sized) {isError : Bool} {v : Value}
    (hheard : (hearRequest call.before.opts.maxFrame call.write call.before.nextMsgid call.method
      call.args (call.start + call.before.opts.timeout) call.before.demux call.attempts).ending
        = .answered isError v) : call.Answered isError v := by
  rw [hearRequest] at hheard
  cases herror : requestError call.before.opts.maxFrame call.write call.before.nextMsgid call.method
      call.args with
  | some e =>
      simp only [herror] at hheard
      cases hheard
  | none =>
      simp only [herror] at hheard
      -- The reply was heard in one of the reads, and all that came before left the call waiting.
      obtain ⟨earlier, attempt, later, bytes, hattempts, hread, hwaiting, hreply⟩ :=
        hear_answered hheard
      obtain ⟨before, payload, after, error, result, hreports, hmessage, hvalue⟩ :=
        heard_reply hreply
      refine ⟨earlier, attempt, later, bytes, before, payload, after, error, result,
        hattempts, hread, ?_, hreports, hmessage, hvalue⟩
      rw [Call.outcome, callValues_hear h, hearRequest, herror]
      simp only [hwaiting, Ending.callOutcome]

/-- A call returns a value exactly if that value was answered without an error. -/
theorem returned_iff {ending : Ending} {method : List UInt8} {v : Value} :
    ending.callOutcome method = .returned v ↔ ending = .answered false v := by
  cases ending with
  | answered isError value => cases isError <;> simp [Ending.callOutcome]
  | expired => simp [Ending.callOutcome]
  | failed e => simp [Ending.callOutcome]
  | waiting => simp [Ending.callOutcome]

/-- An exception of the loop itself is no `RemoteError`. -/
theorem not_remote_of_hear {msgid deadline : Nat} {d : Demux hostDemuxSize}
    {attempts : List Attempt} {e : HostError}
    (h : (hear msgid deadline d attempts).ending = .failed e) (method : List UInt8) (v : Value) :
    e ≠ .remote method v := by
  rcases hear_errors h with rfl | rfl | ⟨p, -, rfl⟩
  · rintro ⟨⟩
  · rintro ⟨⟩
  · rintro ⟨⟩

/-- Nor is one of the sending. -/
theorem not_remote_of_hearRequest {maxFrame : Nat} {write : Nat → Int} {msgid : UInt32}
    {method : List UInt8} {args : List Value} {deadline : Nat} {d : Demux hostDemuxSize}
    {attempts : List Attempt} {e : HostError}
    (h : (hearRequest maxFrame write msgid method args deadline d attempts).ending = .failed e)
    (method' : List UInt8) (v : Value) : e ≠ .remote method' v := by
  rw [hearRequest] at h
  split at h
  · rename_i e' herror
    obtain rfl := Ending.failed.inj h
    exact requestError_not_remote herror method' v
  · exact not_remote_of_hear h method' v

/-- **Responses are matched.** Over every run: fewer than `2 ^ 32` requests have different ids.
A call that returns, or throws `RemoteError`, does so with the slot of a response to its own
id that it received. A response to another id is counted, and changes nothing else. -/
theorem calls_matched {c : RPC} (h : c.Sized) (ops : List Op)
    (hfew : (c.requestsOf ops).length < 2 ^ 32) :
    (c.requestsOf ops).Nodup ∧
    (∀ call ∈ c.callsOf ops, call.before.nextMsgid ∈ c.requestsOf ops ∧
      (∀ v, call.outcome = .returned v → call.Answered false v) ∧
      ∀ method v, call.outcome = .threw (.remote method v) →
        method = call.method ∧ call.Answered true v) ∧
    ∀ (s : RPC) (payload : List UInt8) (msgid : Nat) (isError : Bool) (error result : Value),
      readMessage payload = .response msgid isError error result → s.pendingMsgid ≠ some msgid →
      s.handleFrame payload
        = ({ s with stats := { s.stats with strayResponses := s.stats.strayResponses + 1 } },
            none) := by
  refine ⟨?_, ?_, ?_⟩
  · -- The ids are consecutive, so they are distinct as long as they do not wrap around.
    obtain ⟨next, hids⟩ := requestsOf_consecutive h ops
    exact hids.nodup hfew
  · intro call hcall
    obtain ⟨hsized, hid⟩ := callsOf_sized h ops call hcall
    refine ⟨hid, ?_, ?_⟩
    · -- What a call returns was answered under its own id, and so was the error that it throws.
      intro v hreturned
      rw [Call.outcome, callValues_hear hsized, returned_iff] at hreturned
      exact Call.answered_of_hear hsized hreturned
    · intro method v hthrew
      rw [Call.outcome, callValues_hear hsized] at hthrew
      -- Of the ends of the wait, only an answer throws a remote error.
      cases hending : (hearRequest call.before.opts.maxFrame call.write call.before.nextMsgid
          call.method call.args (call.start + call.before.opts.timeout) call.before.demux
          call.attempts).ending with
      | expired =>
          rw [hending] at hthrew
          cases hthrew
      | waiting =>
          rw [hending] at hthrew
          cases hthrew
      | failed e =>
          rw [hending] at hthrew
          obtain rfl := CallOutcome.threw.inj hthrew
          exact absurd rfl (not_remote_of_hearRequest hending method v)
      | answered isError value =>
          rw [hending] at hthrew
          cases isError <;> cases hthrew
          exact ⟨rfl, Call.answered_of_hear hsized hending⟩
  · -- A response to any other id is a stray, and only its counter moves.
    intro s payload msgid isError error result hmessage hother
    rw [handleFrame_eq, hmessage, take, takeResponse, if_neg hother]

/-- The number that a call has returned. -/
def CallOutcome.number : CallOutcome → Option UInt64
  | .returned (.uint n) => some n
  | _ => none

/-- An outcome with a number is a call that returned it. -/
theorem CallOutcome.returned_of_number {outcome : CallOutcome} {n : UInt64}
    (h : outcome.number = some n) : outcome = .returned (.uint n) := by
  unfold CallOutcome.number at h
  split at h
  · cases h
    rfl
  · cases h

/-- The response 7 to the first call comes in two reads, behind a line of text. The second call
waits. -/
def twoCalls : List Op :=
  [.call writesAll [0x66] [.uint 5] 0 [⟨3, some [0x68, 0x0a, 0x00, 0x08, 0x94]⟩,
      ⟨4, some [0x01, 0x01, 0xc0, 0x07, 0x99, 0xb7, 0x00]⟩],
    .call writesAll [0x67] [] 5 []]

/-- The first call returns its response. A second response to it, behind both calls, is counted. -/
theorem calls_matched_two :
    ((RPC.new .default).requestsOf twoCalls).Nodup ∧
      (∃ call ∈ (RPC.new .default).callsOf twoCalls,
        call.outcome = .returned (.uint 7) ∧ call.Answered false (.uint 7)) ∧
      ((RPC.new .default).handleFrame ([0x94] ++ ([0x01] ++ ([0x01] ++ (kNil :: [0x07]))))).1.stats
        = { (RPC.new .default).stats with strayResponses := 1 } := by
  obtain ⟨hnodup, hcalls, hstray⟩ :=
    calls_matched (new_sized .default) twoCalls (by decide +kernel)
  refine ⟨hnodup, ⟨_, List.mem_cons_self, ?_⟩, ?_⟩
  · -- The response to the first call comes in two parts, and it returns the 7 in it.
    have hreturned : Call.outcome ⟨RPC.new .default, writesAll, [0x66], [.uint 5], 0,
        [⟨3, some [0x68, 0x0a, 0x00, 0x08, 0x94]⟩,
          ⟨4, some [0x01, 0x01, 0xc0, 0x07, 0x99, 0xb7, 0x00]⟩]⟩ = .returned (.uint 7) :=
      CallOutcome.returned_of_number (by decide +kernel)
    exact ⟨hreturned, (hcalls _ List.mem_cons_self).2.1 _ hreturned⟩
  · -- The same response, read when no call is pending, is a stray.
    have hslots : Value.parseEntry parseObject (kNil :: [0x07]) = .ok ((.nil, .uint 7), 2) := by
      rfl
    have hmessage : readMessage ([0x94] ++ ([0x01] ++ ([0x01] ++ (kNil :: [0x07]))))
        = .response 1 false .nil (.uint 7) := by
      rw [readMessage_response (by decide) (by decide)
        (by decide : Spells (.int (1 : Nat)) [0x01]) (by decide), hslots]
      rfl
    rw [hstray (RPC.new .default) _ 1 false .nil (.uint 7) hmessage (by rintro ⟨⟩)]
    rfl

end RPC

end SerialRpc
