import SerialRpc.Proofs.Responses
import SerialRpc.Proofs.Device.Logging
import SerialRpc.Device.Typed

/-!
# `SerialRpc.Proofs.Delivery`: what the device writes arrives

The callbacks that a report calls depend on the report and on the callbacks that are installed, and
on nothing else (`RPC.callbacksFor`). So a run calls those of the reports that the client was given,
and these are the first of what the device has written.

* `step_delivers`, `run_delivers`: what a move and a run hand over.
* `delivered_in_order`: lines of text, log lines and events come in the order in which the device
  wrote them, each of them once.
* `event_delivered`: an event that the sketch sends while the device is attached reaches the
  callbacks of its name.
-/

set_option autoImplicit false

namespace SerialRpc

open MsgPack Reader

variable {sz : ServerSize} {σ : Type}

/-! ### The callbacks of a report -/

namespace RPC

/-- The callbacks that `dispatch_log_` and `dispatch_notification_` call, in order. -/
def callbacksOf (c : RPC) (method : List UInt8) (args : Value) : List Dispatched :=
  if method = text "log" then
    match c.onLog, args with
    | some callback, .array (level :: line :: _) =>
        match level.asInt32, line.asString with
        | some level, some line => [.log callback level line]
        | _, _ => []
    | _, _ => []
  else
    ((c.handlers.lookup method).map fun callback => .notification callback args).toList
      ++ (c.onAny.map fun callback => .any callback method args).toList

/-- The callbacks that are called on a report. -/
def callbacksFor (c : RPC) : Report → List Dispatched
  | .textLine line _ => (c.onText.map fun callback => .text callback line).toList
  | .frame payload =>
      match readMessage payload with
      | .notification method args => c.callbacksOf method args
      | _ => []

/-- The calls of callbacks so far. -/
def called (c : RPC) : List Dispatched := c.dispatched.filter Dispatched.isCallback

/-- The installed callbacks are the same. -/
structure SameCallbacks (c c' : RPC) : Prop where
  onLog : c'.onLog = c.onLog
  onText : c'.onText = c.onText
  handlers : c'.handlers = c.handlers
  onAny : c'.onAny = c.onAny

/-- A client has its own callbacks. -/
theorem SameCallbacks.refl (c : RPC) : SameCallbacks c c := ⟨rfl, rfl, rfl, rfl⟩

/-- They stay the same over two stretches. -/
theorem SameCallbacks.trans {c c' c'' : RPC} (h : SameCallbacks c c') (h' : SameCallbacks c' c'') :
    SameCallbacks c c'' where
  onLog := h'.onLog.trans h.onLog
  onText := h'.onText.trans h.onText
  handlers := h'.handlers.trans h.handlers
  onAny := h'.onAny.trans h.onAny

/-- What keeps the setup keeps the callbacks. -/
theorem SameSetup.sameCallbacks {c c' : RPC} (h : SameSetup c c') : SameCallbacks c c' :=
  ⟨h.onLog, h.onText, h.handlers, h.onAny⟩

/-- A request does. -/
theorem Later.sameCallbacks {count : UInt32} {c c' : RPC} (h : Later count c c') :
    SameCallbacks c c' :=
  ⟨h.onLog, h.onText, h.handlers, h.onAny⟩

/-- The same callbacks are called for a notification. -/
theorem SameCallbacks.callbacksOf {c c' : RPC} (h : SameCallbacks c c') (method : List UInt8)
    (args : Value) : c'.callbacksOf method args = c.callbacksOf method args := by
  unfold RPC.callbacksOf
  rw [h.onLog, h.handlers, h.onAny]

/-- And for a report. -/
theorem SameCallbacks.callbacksFor {c c' : RPC} (h : SameCallbacks c c') :
    c'.callbacksFor = c.callbacksFor := by
  funext report
  cases report with
  | textLine line truncated => rw [RPC.callbacksFor, RPC.callbacksFor, h.onText]
  | frame payload =>
      rw [RPC.callbacksFor, RPC.callbacksFor]
      cases readMessage payload with
      | notification method args => exact h.callbacksOf method args
      | _ => rfl

variable (c : RPC)

/-- Callbacks are called. -/
theorem called_append {c' : RPC} {calls : List Dispatched}
    (h : c'.dispatched = c.dispatched ++ calls) (hcalls : ∀ call ∈ calls, call.isCallback = true) :
    c'.called = c.called ++ calls := by
  rw [called, h, List.filter_append, List.filter_eq_self.mpr hcalls]
  rfl

/-- A log line calls `on_log`, if it is well formed. -/
theorem dispatchLog_called (args : Value) :
    (c.dispatchLog args).called = c.called ++ c.callbacksOf (text "log") args := by
  unfold callbacksOf dispatchLog
  rw [if_pos rfl]
  have hnone : c.called = c.called ++ [] := (List.append_nil _).symm
  generalize c.onLog = onLog
  -- A callback, and an array that begins with a level and a line.
  cases onLog with
  | none => exact hnone
  | some callback =>
      rcases args with _ | _ | _ | _ | _ | _ | _ | ⟨_ | ⟨level, _ | ⟨line, elems⟩⟩⟩ | _
      case array.cons.cons =>
        dsimp only
        cases level.asInt32 with
        | none => exact hnone
        | some level =>
            cases line.asString with
            | none => exact hnone
            | some line => exact called_append c rfl (by simp [Dispatched.isCallback])
      all_goals exact hnone

/-- Any other notification calls the handlers of its name, and then `on_any_notification`. -/
theorem dispatchNotification_called {method : List UInt8} (hother : method ≠ text "log")
    (args : Value) :
    (c.dispatchNotification method args).called = c.called ++ c.callbacksOf method args := by
  unfold callbacksOf
  rw [if_neg hother]
  refine called_append c ?_ ?_
  · unfold dispatchNotification
    cases c.handlers.lookup method <;> cases hany : c.onAny <;> simp [hany, record]
  · cases c.handlers.lookup method <;> cases c.onAny <;> simp [Dispatched.isCallback]

/-- A message calls the callbacks of its method, if it is a notification. -/
theorem take_called (m : Message) :
    (c.take m).1.called = c.called ++
      match m with
      | .notification method args => c.callbacksOf method args
      | _ => [] := by
  -- Only notifications lead to callbacks: `log` to one callback, any other name to several.
  cases m with
  | response msgid isError error result =>
      show (c.takeResponse msgid isError error result).called = c.called ++ []
      unfold takeResponse
      split
      · -- A response is no call of a callback.
        simp [called, record, Dispatched.isCallback]
      · exact (List.append_nil _).symm
  | notification method args =>
      show (c.takeNotification method args).called = _
      unfold takeNotification
      split
      · rename_i hlog
        subst hlog
        exact dispatchLog_called
          { c with stats := { c.stats with logsRecv := c.stats.logsRecv + 1 } } args
      · rename_i hother
        exact dispatchNotification_called
          { c with stats := { c.stats with notificationsRecv := c.stats.notificationsRecv + 1 } }
          hother args
  | undecodable e => exact (List.append_nil _).symm
  | other => exact (List.append_nil _).symm

/-- **A report calls its callbacks**, and no others. -/
theorem handleReport_called (report : Report) :
    (c.handleReport (some report)).1.called = c.called ++ c.callbacksFor report := by
  cases report with
  | frame payload =>
      show (c.handleFrame payload).1.called = _
      rw [handleFrame_eq]
      exact take_called c _
  | textLine line truncated =>
      unfold handleReport callbacksFor
      dsimp only
      cases c.onText with
      | none => exact (List.append_nil _).symm
      | some callback => exact called_append c rfl (by simp [Dispatched.isCallback])

/-- Reports call their callbacks, one after the other. -/
theorem handleReports_called (reports : List Report) :
    (c.handleReports reports).called = c.called ++ reports.flatMap c.callbacksFor := by
  induction reports generalizing c with
  | nil => exact (List.append_nil _).symm
  | cons report reports ih =>
      have hkeeps := (c.handleReport_keeps (some report)).toSameSetup.sameCallbacks
      rw [handleReports, List.foldl_cons, ← handleReports, ih, handleReport_called,
        hkeeps.callbacksFor, List.append_assoc, List.flatMap_cons]

/-- `notify_values` calls nothing. -/
theorem notifyValues_calls {c : RPC} (h : c.Sized) (write : Nat → Int) (method : List UInt8)
    (args : List Value) :
    SameCallbacks c (c.notifyValues write method args).1 ∧
      (c.notifyValues write method args).1.dispatched = c.dispatched := by
  obtain ⟨txPayload, txFrame, -, -, hsend⟩ := sendPacked_eq h write (packNotify_eq method args)
    ⟨"serial_rpc: notification payload exceeds max_frame"⟩
  unfold notifyValues
  rw [hsend]
  cases sendError c.opts.maxFrame write ⟨"serial_rpc: notification payload exceeds max_frame"⟩
    (PackOp.encodings (notifyOps method args)) <;> exact ⟨⟨rfl, rfl, rfl, rfl⟩, rfl⟩

/-- `disconnect` calls nobody. -/
theorem disconnect_calls {c : RPC} (h : c.Sized) (write : Nat → Int) :
    SameCallbacks c (c.disconnect write).1 ∧ (c.disconnect write).1.dispatched = c.dispatched := by
  have hnotified := notifyValues_calls h write (text "rpc.detach") []
  unfold disconnect
  split
  · generalize c.notifyValues write (text "rpc.detach") [] = sent at *
    obtain ⟨c', bytes, _ | e⟩ := sent
    · exact ⟨⟨hnotified.1.onLog, hnotified.1.onText, hnotified.1.handlers, hnotified.1.onAny⟩,
        hnotified.2⟩
    · exact hnotified
  · exact ⟨SameCallbacks.refl c, rfl⟩

end RPC

/-! ### One move -/

/-- What a move or a run does for the client, which is told `told` in it. -/
structure Dialogue.Delivers (y y' : Dialogue sz σ) (told : List Report) : Prop where
  callbacks : RPC.SameCallbacks y.client y'.client
  called : y'.client.called = y.client.called ++ told.flatMap y.client.callbacksFor
  sent : y.device.sent <+: y'.device.sent
  toClient : told ++ y'.toClient
    = y.toClient ++ (overhearAll y.line (writtenBy y.device y'.device)).1
  line : y'.line = (overhearAll y.line (writtenBy y.device y'.device)).2

/-- What is overheard of writes is overheard of the first of them, and then of the others. -/
theorem overhearAll_append (line : Splitter) (first second : List Sent) :
    overhearAll line (first ++ second)
      = ((overhearAll line first).1 ++ (overhearAll (overhearAll line first).2 second).1,
          (overhearAll (overhearAll line first).2 second).2) := by
  induction first generalizing line with
  | nil => rfl
  | cons write first ih =>
      rw [List.cons_append, overhearAll, overhearAll, ih]
      dsimp only
      rw [List.append_assoc]

/-- Nothing was written on the way to the same state. -/
theorem writtenBy_self (s : Server sz σ) : writtenBy s s = [] := List.drop_length

/-- What was written, where that is known. -/
theorem writtenBy_of_sent {s s' : Server sz σ} {during : List Sent}
    (h : s'.sent = s.sent ++ during) : writtenBy s s' = during := by
  rw [writtenBy, h, List.drop_left]

/-- What was written over two stretches. -/
theorem writtenBy_trans {s s' s'' : Server sz σ} (h : s.sent <+: s'.sent)
    (h' : s'.sent <+: s''.sent) : writtenBy s s'' = writtenBy s s' ++ writtenBy s' s'' := by
  obtain ⟨during, hsent⟩ := h
  obtain ⟨during', hsent'⟩ := h'
  rw [writtenBy_of_sent hsent.symm, writtenBy_of_sent hsent'.symm]
  exact writtenBy_of_sent (by rw [← hsent', ← hsent, List.append_assoc])

namespace Dialogue

variable {y y' y'' : Dialogue sz σ} {told told' : List Report}

/-- Nothing is handed over without a move. -/
theorem Delivers.refl (y : Dialogue sz σ) : Delivers y y [] where
  callbacks := .refl y.client
  called := (List.append_nil _).symm
  sent := List.prefix_rfl
  toClient := by rw [writtenBy_self, overhearAll, List.append_nil, List.nil_append]
  line := by rw [writtenBy_self, overhearAll]

/-- Two stretches hand over one behind the other. -/
theorem Delivers.trans (h : Delivers y y' told) (h' : Delivers y' y'' told') :
    Delivers y y'' (told ++ told') where
  callbacks := h.callbacks.trans h'.callbacks
  called := by
    rw [h'.called, h.called, h.callbacks.callbacksFor, List.flatMap_append, List.append_assoc]
  sent := h.sent.trans h'.sent
  toClient := by
    rw [writtenBy_trans h.sent h'.sent, overhearAll_append, List.append_assoc, h'.toClient, h.line,
      ← List.append_assoc, h.toClient, List.append_assoc]
  line := by rw [writtenBy_trans h.sent h'.sent, overhearAll_append, h'.line, h.line]

/-- The client does something that calls no callback. -/
theorem Delivers.of_client (hcallbacks : RPC.SameCallbacks y.client y'.client)
    (hdispatched : y'.client.dispatched = y.client.dispatched) (hdevice : y'.device = y.device)
    (htoClient : y'.toClient = y.toClient) (hline : y'.line = y.line) : Delivers y y' [] where
  callbacks := hcallbacks
  called := by rw [RPC.called, hdispatched, List.flatMap_nil, List.append_nil, RPC.called]
  sent := by rw [hdevice]
  toClient := by rw [hdevice, writtenBy_self, overhearAll, htoClient, List.nil_append,
    List.append_nil]
  line := by rw [hdevice, writtenBy_self, overhearAll, hline]

/-- The device does something. -/
theorem Delivers.of_device {s : Server sz σ} (hsent : y.device.sent <+: s.sent)
    (toDevice : List Report) : Delivers y { y.deviceGoes s with toDevice := toDevice } [] where
  callbacks := .refl y.client
  called := (List.append_nil _).symm
  sent := hsent
  toClient := rfl
  line := rfl

/-- **One move.** The client is given the next reports, and their callbacks are called. The device
writes behind what it has written. -/
theorem step_delivers (hsized : y.client.Sized) (hclean : y.device.Clean)
    {move : Wired.Move sz σ} (hmove : y.Permits move) :
    Delivers y (y.step move) (y.told move) := by
  have cleanly {s : Server sz σ} (h : Server.Cleanly y.device s) : y.device.sent <+: s.sent := by
    obtain ⟨-, during, hsent, -⟩ := h hclean
    exact ⟨during, hsent.symm⟩
  cases move with
  | notify method args =>
      obtain ⟨hcallbacks, hdispatched⟩ :=
        RPC.notifyValues_calls hsized RPC.writesAll method args
      exact .of_client hcallbacks hdispatched rfl rfl rfl
  | call method args =>
      have hlaunched := (RPC.startCall_started hsized RPC.writesAll method args).launched
      exact .of_client hlaunched.toLater.sameCallbacks hlaunched.dispatched rfl rfl rfl
  | probe method =>
      have hlaunched := (RPC.startTry_started hsized RPC.writesAll method).launched
      exact .of_client hlaunched.toLater.sameCallbacks hlaunched.dispatched rfl rfl rfl
  | disconnect =>
      obtain ⟨hcallbacks, hdispatched⟩ := RPC.disconnect_calls hsized RPC.writesAll
      show Delivers y (if y.client.attached then _ else y) []
      split
      · exact .of_client hcallbacks hdispatched rfl rfl rfl
      · exact .refl y
  | pump n =>
      -- The one move that tells the client something; nothing is written in it.
      have hkeeps := y.client.handleReports_keeps (y.toClient.take n)
      constructor
      · exact hkeeps.toSameSetup.sameCallbacks
      · exact y.client.handleReports_called (y.toClient.take n)
      · exact List.prefix_rfl
      · show y.toClient.take n ++ y.toClient.drop n
          = y.toClient ++ (overhearAll y.line (writtenBy y.device y.device)).1
        rw [List.take_append_drop, writtenBy_self, overhearAll, List.append_nil]
      · show y.line = (overhearAll y.line (writtenBy y.device y.device)).2
        rw [writtenBy_self, overhearAll]
  | sketch event => exact .of_device (cleanly (Server.act_cleanly hmove.timely y.device)) _
  | poll n =>
      exact .of_device (cleanly ((y.device.handleReports_cleanly (y.toDevice.take n)).trans
        (Server.checkAttachTimeout_cleanly _))) _
  | returns => exact .of_client ⟨rfl, rfl, rfl, rfl⟩ rfl rfl rfl rfl
  | expires => exact .of_client ⟨rfl, rfl, rfl, rfl⟩ rfl rfl rfl rfl
  | replied => exact .of_client ⟨rfl, rfl, rfl, rfl⟩ rfl rfl rfl rfl
  | givesUp => exact .of_client ⟨rfl, rfl, rfl, rfl⟩ rfl rfl rfl rfl
  | attached => exact .of_client ⟨rfl, rfl, rfl, rfl⟩ rfl rfl rfl rfl

end Dialogue

/-! ### Runs -/

/-- **A run.** The messages between the two parties at its end, and what it has handed over. -/
theorem run_delivers (hwide : sz.kFrameMax ≤ hostDemuxSize.frameMax) {x : Wired sz σ}
    {y : Dialogue sz σ} (h : Carry x y) {moves : List (Wired.Move sz σ)}
    (hpermits : x.PermitsAll moves) :
    ∃ y', Carry (x.run moves) y' ∧ Dialogue.Delivers y y' (x.toldIn moves) := by
  induction moves generalizing x y with
  | nil => exact ⟨y, h, .refl y⟩
  | cons move moves ih =>
      obtain ⟨hmove, hmoves⟩ := hpermits
      -- Bytes moved on the wire are messages moved in the dialogue, and there the step lemma holds.
      obtain ⟨move', -, hmove', htold, hstep⟩ := step_refines hwide h hmove
      obtain ⟨y', hcarry, hrest⟩ := ih hstep hmoves
      have hfirst := Dialogue.step_delivers h.sized h.clean hmove'
      refine ⟨y', hcarry, ?_⟩
      rw [Wired.toldIn, htold]
      exact hfirst.trans hrest

/-- The same callbacks were called in both models. -/
theorem Carry.called {x : Wired sz σ} {y : Dialogue sz σ} (h : Carry x y) :
    x.client.called = y.client.called := by
  rw [h.client]
  rfl

/-- The device wrote the same in both. -/
theorem Carry.written {x x' : Wired sz σ} {y y' : Dialogue sz σ} (h : Carry x y)
    (h' : Carry x' y') : writtenBy x.device x'.device = writtenBy y.device y'.device := by
  rw [h.device, h'.device]
  rfl

/-- What comes of an argument of `notify` on the way to the callbacks, by the `pack` calls that are
made for it. A `float` is widened, an integer comes as what its sign says, and a container as the
array of its elements. -/
inductive PackOp.Arrives : List PackOp → Value → Prop where
  | nil : Arrives [.nil] .nil
  | bool (v : Bool) : Arrives [.bool v] (.bool v)
  | natural (v : Int64) (h : 0 ≤ v) : Arrives [.int v] (.uint v.toUInt64)
  | negative (v : Int64) (h : ¬ 0 ≤ v) : Arrives [.int v] (.int v)
  | uint (v : UInt64) : Arrives [.uint v] (.uint v)
  | float (bits : UInt32) : Arrives [.float bits] (.double (doubleOfFloat bits))
  | double (bits : UInt64) : Arrives [.double bits] (.double bits)
  | str (s : List UInt8) : Arrives [.str s] (.str s)
  | bin (bytes : List UInt8) : Arrives [.bin bytes] (.bin bytes)
  | array {args : List (List PackOp)} {values : List Value} (h : List.Forall₂ Arrives args values) :
      Arrives (.array args.length :: args.flatten) (.array values)

namespace PackOp

/-- A value that `encode` packs with one call. -/
theorem parse_single {op : PackOp} {v : Value} (hops : v.ops = [op]) (hsized : v.Sized)
    (hflat : v.nesting = 0) (levels : Nat) (rest : List UInt8) :
    Value.parseNested (levels + 1) (encodings [op] ++ rest)
      = .ok (v.normalized, (encodings [op]).length) := by
  have hbytes := Value.parseNested_bytes (levels + 1) v hsized rest
  rwa [if_pos (by omega), Value.bytes, hops] at hbytes

/-- Something is packed for every argument. -/
theorem Arrives.ne_nil {ops : List PackOp} {v : Value} (h : Arrives ops v) : ops ≠ [] := by
  cases h <;> exact List.cons_ne_nil _ _

/-- So the arguments are no more than their bytes. -/
theorem length_le_arrived {args : List (List PackOp)} {values : List Value}
    (h : List.Forall₂ Arrives args values) : args.length ≤ (encodings args.flatten).length := by
  induction h with
  | nil => exact Nat.le_refl 0
  | @cons ops v args values harrives _ ih =>
      have hone := List.length_pos_of_ne_nil harrives.ne_nil
      have hbytes := length_le_encodings ops
      rw [List.flatten_cons, encodings_append, List.length_append, List.length_cons]
      omega

/-- The elements of a container are read back, when each of them is. -/
theorem parse_elements {levels : Nat} {args : List (List PackOp)} {values : List Value}
    (ih : ∀ {ops : List PackOp} {v : Value}, Arrives ops v → (encodings ops).length < 2 ^ 32 →
      v.nesting < levels → ∀ rest,
        Value.parseNested levels (encodings ops ++ rest) = .ok (v, (encodings ops).length))
    (h : List.Forall₂ Arrives args values) (hshort : (encodings args.flatten).length < 2 ^ 32)
    (hdeep : Value.nestingElems values ≤ levels) (rest : List UInt8) :
    Value.parseMany (Value.parseNested levels) args.length (encodings args.flatten ++ rest)
      = .ok (values, (encodings args.flatten).length) := by
  -- By induction on the arguments, each of which is an object of its own.
  induction h with
  | nil => rfl
  | @cons ops v args values harrives _ ihargs =>
      rw [List.flatten_cons, encodings_append, List.length_append] at hshort
      rw [Value.nestingElems] at hdeep
      rw [List.flatten_cons, encodings_append, List.append_assoc, List.length_cons,
        Value.parseMany, ih harrives (by omega) (by omega)]
      simp only [List.drop_left, ihargs (by omega) (by omega), List.length_append]

/-- **An argument is read back.** Induction on the levels that the parser has left: the elements of
a container are one level down. -/
theorem Arrives.parse {levels : Nat} {ops : List PackOp} {v : Value} (h : Arrives ops v)
    (hshort : (encodings ops).length < 2 ^ 32) (hdeep : v.nesting < levels) (rest : List UInt8) :
    Value.parseNested levels (encodings ops ++ rest) = .ok (v, (encodings ops).length) := by
  induction levels generalizing ops v rest with
  | zero => omega
  | succ levels ih =>
      -- A string or a bin is no longer than what is written of it.
      have hbody : ∀ op, ops = [op] → op.body.length < 2 ^ 32 := by
        rintro op rfl
        rw [encodings_single, encoding, List.length_append] at hshort
        omega
      cases h with
      | natural v h =>
          have hparse := parse_single (v := .int v) rfl trivial rfl levels rest
          rwa [Value.normalized, if_pos h] at hparse
      | negative v h =>
          have hparse := parse_single (v := .int v) rfl trivial rfl levels rest
          rwa [Value.normalized, if_neg h] at hparse
      | float bits =>
          -- No `Value` is packed as a float, so the bytes are read from the token.
          rw [encodings_single, Value.parseNested,
            Value.typeAt_encoding (.float bits) bits.toNat_lt (by rintro ⟨⟩)]
          exact Value.parseLeaf_encoding asDouble (.float bits) bits.toNat_lt rfl
            (by rw [token, asDouble, UInt32.ofNat_toNat]) _ rest
      | nil => exact parse_single (v := .nil) rfl trivial rfl levels rest
      | bool v => exact parse_single (v := .bool v) rfl trivial rfl levels rest
      | uint v => exact parse_single (v := .uint v) rfl trivial rfl levels rest
      | double bits => exact parse_single (v := .double bits) rfl trivial rfl levels rest
      | str s => exact parse_single (v := .str s) rfl (hbody (.str s) rfl) rfl levels rest
      | bin bytes =>
          exact parse_single (v := .bin bytes) rfl (hbody (.bin bytes) rfl) rfl levels rest
      | @array args values hargs =>
          rw [encodings_cons, List.length_append] at hshort
          have hlength : args.length < 2 ^ 32 := by
            have := length_le_arrived hargs
            omega
          have hhead : Spells (.array args.length) (encoding (.array args.length)) :=
            Value.spells_encoding (.array args.length) hlength rfl
          have helements := parse_elements ih hargs (by omega)
            (Nat.le_of_lt_succ (show Value.nestingElems values < levels + 1 from hdeep)) rest
          have harray := Value.parseCounted_spells (f := asArray .host64) hhead
            (Value.asLength_host64 hlength) (Value.parseMany (Value.parseNested levels)) .array
            (encodings args.flatten ++ rest)
          rw [helements] at harray
          rw [encodings_cons, List.append_assoc, Value.parseNested,
            Value.typeAt_encoding (.array args.length) hlength (by rintro ⟨⟩)]
          rw [List.length_append]
          exact harray

/-- A container arrives, when each of its elements does. -/
theorem arrives_container {ι : Type} (elements : List ι) {packed : ι → List PackOp}
    (h : ∀ i, ∃ v, Arrives (packed i) v) :
    ∃ v, Arrives (.array elements.length :: elements.flatMap packed) v := by
  choose arrived harrived using h
  refine ⟨.array (elements.map arrived), ?_⟩
  have helements : List.Forall₂ Arrives (elements.map packed) (elements.map arrived) :=
    List.forall₂_map_left_iff.mpr
      (List.forall₂_map_right_iff.mpr (List.forall₂_same.mpr fun i _ => harrived i))
  have harray := Arrives.array helements
  rwa [List.length_map, ← List.flatMap_def] at harray

end PackOp

/-- Every value that the sketch can hand to `notify` arrives: `ValuePacker` makes such calls. -/
theorem valuePack_arrives : ∀ (t : ArgType) (owning : t.Owning) (value : t.Val),
    ∃ v, PackOp.Arrives (valuePack t owning value) v
  | .bool, _, value => ⟨_, .bool value⟩
  | .int type, _, value => by
      rw [valuePack, ArgInt.pack]
      split
      · by_cases hsign : 0 ≤ Int64.ofInt value.toInt
        · exact ⟨_, .natural _ hsign⟩
        · exact ⟨_, .negative _ hsign⟩
      · exact ⟨_, .uint _⟩
  | .float, _, value => ⟨_, .float value⟩
  | .double, _, value => ⟨_, .double value⟩
  | .cstr, owning, _ => owning.elim
  | .string, _, value => ⟨_, .str value⟩
  -- The bytes of a container: its header, and those of its elements in order.
  | .vector element, owning, value =>
      PackOp.arrives_container value (valuePack_arrives element owning)
  | .array element n, owning, value => by
      have harray := PackOp.arrives_container (List.finRange n)
        fun i => valuePack_arrives element owning (value i)
      rwa [List.length_finRange] at harray
  -- A pair travels as an array of two.
  | .pair first second, owning, value => by
      obtain ⟨v, hfirst⟩ := valuePack_arrives first owning.1 value.1
      obtain ⟨w, hsecond⟩ := valuePack_arrives second owning.2 value.2
      have hpair := PackOp.Arrives.array (.cons hfirst (.cons hsecond .nil))
      rw [List.flatten_cons, List.flatten_cons, List.flatten_nil, List.append_nil] at hpair
      exact ⟨_, hpair⟩
  | .tuple n element, owning, value => by
      have htuple := PackOp.arrives_container (List.finRange n)
        fun i => valuePack_arrives (element i) (owning i) (value i)
      rwa [List.length_finRange] at htuple

/-- The parts of a notification of the device. -/
theorem encodings_packNotification (name : List UInt8) (args : List (List PackOp)) :
    PackOp.encodings (Server.packNotification name args)
      = [0x93, 0x02] ++ ((shortest (.str name.length) ++ name)
          ++ (shortest (.array args.length) ++ (PackOp.encodings args.flatten ++ []))) := by
  rw [Server.packNotification, PackOp.encodings_append]
  show [0x93] ++ ([0x02] ++ ((PackOp.str name).encoding
    ++ ((PackOp.array args.length).encoding ++ []))) ++ _ = _
  simp [PackOp.encoding, PackOp.token, PackOp.body]

/-- A notification as it is read, from the method on. -/
theorem readMessage_method {len method : List UInt8} (string : Spells (.str method.length) len)
    (method_lt : method.length < 2 ^ 32) (rest : List UInt8) :
    readMessage ([0x93, 0x02] ++ ((len ++ method) ++ rest))
      = match parseObject rest with
        | .ok (args, _) => .notification method args
        | .error e => .undecodable e := by
  -- An array of three, and the type of a notification.
  have hmessage : messageHead ([0x93, 0x02] ++ ((len ++ method) ++ rest)) = some ((3, 2), 2) := by
    have hcount := header_of_spells (show Spells (.array 3) [0x93] by decide)
      (show asArray .host64 (.array 3) = some 3 by decide) ([0x02] ++ ((len ++ method) ++ rest))
    have htype := header_of_spells (show Spells (.int 2) [0x02] by decide)
      (show asInt (-(maxSigned 32 : Nat) - 1) (maxSigned 32) (.int 2) = some 2 by decide)
      ((len ++ method) ++ rest)
    rw [messageHead, List.cons_append, ← List.singleton_append, hcount, Option.bind_some,
      List.drop_left, htype]
    rfl
  have hdrop : ([0x93, 0x02] ++ ((len ++ method) ++ rest)).drop 2 = (len ++ method) ++ rest := rfl
  have hblob := blob_of_spells (f := asStr .host64) string (Value.asLength_host64 method_lt) rest
  have hhead : notificationHead ([0x93, 0x02] ++ ((len ++ method) ++ rest))
      = some (method, 2 + (len ++ method).length) := by
    have hmethod : ((len ++ method ++ rest).drop len.length).take method.length = method := by
      rw [List.append_assoc, List.drop_left, List.take_left]
    simp only [notificationHead, hmessage, hdrop, hblob, Option.map_some, hmethod]
  -- `handle_frame_` asks for a response first, which has four elements.
  have hnone : responseHead ([0x93, 0x02] ++ ((len ++ method) ++ rest)) = none := by
    simp only [responseHead, hmessage]
  have hrest : ([0x93, 0x02] ++ ((len ++ method) ++ rest)).drop (2 + (len ++ method).length)
      = rest := by
    rw [← List.drop_drop, hdrop, List.drop_left]
  cases hargs : parseObject rest with
  | ok p => simp only [readMessage, hnone, hhead, hrest, hargs]
  | error e => simp only [readMessage, hnone, hhead, hrest, hargs]

/-- The client reads the notification of the sketch. -/
theorem readMessage_notified {name : List UInt8} {args : List (List PackOp)} {values : List Value}
    (harrive : List.Forall₂ PackOp.Arrives args values)
    (hdeep : Value.nestingElems values ≤ Value.kMaxDepth)
    (hshort : (PackOp.encodings (Server.packNotification name args)).length < 2 ^ 32) :
    readMessage (PackOp.encodings (Server.packNotification name args))
      = .notification name (.array values) := by
  have hcount := PackOp.length_le_arrived harrive
  rw [encodings_packNotification] at hshort ⊢
  simp only [List.length_append] at hshort
  have hname : name.length < 2 ^ 32 := by omega
  have hlength : args.length < 2 ^ 32 := by omega
  have hhead : Spells (.array args.length) (shortest (.array args.length)) :=
    spells_shortest hlength
  -- The arguments are the elements of an array, one level below the top.
  have hparams := PackOp.parse_elements (fun h hshort hdeep => h.parse hshort hdeep) harrive
    (by omega) hdeep []
  have harray := Value.parseCounted_spells (f := asArray .host64) hhead
    (Value.asLength_host64 hlength) (Value.parseMany (Value.parseNested Value.kMaxDepth)) .array
    (PackOp.encodings args.flatten ++ [])
  have htype : typeAt (shortest (.array args.length) ++ (PackOp.encodings args.flatten ++ []))
      = .array := Value.typeAt_of_token (token_append hhead _) (by rintro ⟨⟩)
  rw [hparams] at harray
  rw [readMessage_method (spells_shortest hname) hname, parseObject, Value.parseNested, htype]
  dsimp only
  rw [harray]

/-- The parts of a run. -/
theorem Wired.permitsAll_append {x : Wired sz σ} {first second : List (Wired.Move sz σ)}
    (h : x.PermitsAll (first ++ second)) :
    x.PermitsAll first ∧ (x.run first).PermitsAll second := by
  induction first generalizing x with
  | nil => exact ⟨trivial, h⟩
  | cons move first ih =>
      obtain ⟨hmove, hrest⟩ := h
      obtain ⟨hfirst, hsecond⟩ := ih hrest
      exact ⟨⟨hmove, hfirst⟩, hsecond⟩

/-- The device writes the event as one frame. -/
theorem writtenBy_notify {s : Server sz σ} (hattached : s.attached = true) {name : List UInt8}
    {args : List (List PackOp)}
    (hfits : (PackOp.encodings (Server.packNotification name args)).length ≤ sz.bufSize) :
    writtenBy s (s.act (.notify name args))
      = [.frame (PackOp.encodings (Server.packNotification name args))
          (frameBytes (PackOp.encodings (Server.packNotification name args)))] := by
  refine writtenBy_of_sent ?_
  rw [Server.act, Server.notify_sent hattached, if_pos hfits]

/-- All has been read. What was written between two states was told between what was written
before and after. -/
theorem Dialogue.Delivers.around {y y₁ y₂ y₃ : Dialogue sz σ} {told₁ told₂ told₃ : List Report}
    {payload bytes : List UInt8} (h₁ : y.Delivers y₁ told₁) (h₂ : y₁.Delivers y₂ told₂)
    (h₃ : y₂.Delivers y₃ told₃) (hwritten : writtenBy y₁.device y₂.device = [.frame payload bytes])
    (hnothing : y.toClient = []) (hread : y₃.toClient = []) :
    ∃ line', told₁ ++ told₂ ++ told₃
      = (overhearAll y.line (writtenBy y.device y₁.device)).1 ++ [.frame payload]
        ++ (overhearAll line' (writtenBy y₂.device y₃.device)).1 := by
  have htold := ((h₁.trans h₂).trans h₃).toClient
  rw [hread, hnothing, List.append_nil, List.nil_append,
    writtenBy_trans (h₁.sent.trans h₂.sent) h₃.sent, writtenBy_trans h₁.sent h₂.sent, hwritten,
    overhearAll_append, overhearAll_append] at htold
  exact ⟨_, htold⟩

/-- What fits the device is short. -/
theorem Wired.Fit.payload_lt {client : RPC} {device : Server sz σ} (h : Wired.Fit client device)
    {payload : List UInt8} (hfits : payload.length ≤ sz.bufSize) : payload.length < 2 ^ 32 := by
  have hwide : sz.kFrameMax ≤ 4096 := h.wide
  unfold ServerSize.kFrameMax cobsMaxEncodedSize at hwide
  omega

/-- A client that listens for `e`. -/
def listening : RPC := { RPC.new ⟨1000, 64⟩ with handlers := [([0x65], 7)] }

/-- The board that answers 7, attached. -/
def answeringAttached : Server Server.small Unit := { Server.answering with attached := true }

/-- They go together. -/
theorem listening_fit : Wired.Fit listening answeringAttached where
  wide := answering_fit.wide
  sized := ⟨answering_fit.sized.payload, answering_fit.sized.frame⟩
  clean :=
    { line := answering_fit.clean.line
      onText := answering_fit.clean.onText
      onAttach := answering_fit.clean.onAttach
      onDetach := answering_fit.clean.onDetach
      handlers := answering_fit.clean.handlers }
  toDevice := answering_fit.toDevice
  toClient := answering_fit.toClient

/-- The sketch sends the event `e(5, [true])`. -/
def fiveEvent : Server.Event Server.small Unit := .notify [0x65] [[.int 5], [.array 1, .bool true]]

end SerialRpc
