import SerialRpc.Proofs.Device.Calls
import SerialRpc.Proofs.Device.Table
import SerialRpc.Proofs.Host.Calls

/-!
# `SerialRpc.Proofs.EndToEnd`: one call, to the handler and back

`call_values` on a fresh client, a fresh device, and a link that may add text but changes
nothing (`Link`). The request runs the handler that was bound last, once, on the bytes of
the arguments (`Server.polls_answered`), and the call ends as the response says
(`RPC.callValues_eq`). Between them `responsePayload_endsAs` says what the client makes
of the response.

* `callValues_runs`: all of it together.
-/

set_option autoImplicit false

namespace SerialRpc

open MsgPack Reader

/-! ### The link -/

/-- What arrives of `writes`: each of them, in order and unaltered, and text in between. -/
inductive Carries : List (List UInt8) → List UInt8 → Prop where
  | nil : Carries [] []
  | text {writes : List (List UInt8)} {stream : List UInt8} (line : List UInt8) (h : 0 ∉ line)
      (rest : Carries writes stream) : Carries writes (line ++ stream)
  | write {writes : List (List UInt8)} {stream : List UInt8} (bytes : List UInt8)
      (rest : Carries writes stream) : Carries (bytes :: writes) (bytes ++ stream)

namespace Carries

/-- Of text without zeros nothing else arrives. -/
theorem zeroFree {writes : List (List UInt8)} {stream : List UInt8} (h : Carries writes stream)
    (hwrites : ∀ bytes ∈ writes, 0 ∉ bytes) : 0 ∉ stream := by
  induction h with
  | nil => exact List.not_mem_nil
  | text line hline rest ih =>
      intro hzero
      rcases List.mem_append.mp hzero with hzero | hzero
      · exact hline hzero
      · exact ih hwrites hzero
  | write bytes rest ih =>
      obtain ⟨hbytes, hrest⟩ := List.forall_mem_cons.mp hwrites
      intro hzero
      rcases List.mem_append.mp hzero with hzero | hzero
      · exact hbytes hzero
      · exact ih hrest hzero

/-- One write, found in what arrives. -/
theorem split {before after : List (List UInt8)} {bytes stream : List UInt8}
    (h : Carries (before ++ bytes :: after) stream) :
    ∃ front back, stream = front ++ (bytes ++ back) ∧ Carries before front ∧
      Carries after back := by
  generalize hwrites : before ++ bytes :: after = writes at h
  induction h generalizing before with
  | nil => simp at hwrites
  | text line hline rest ih =>
      obtain ⟨front, back, rfl, hfront, hback⟩ := ih hwrites
      exact ⟨line ++ front, back, by simp, .text line hline hfront, hback⟩
  | write bytes' rest ih =>
      cases before with
      | nil =>
          cases hwrites
          exact ⟨[], _, rfl, .nil, rest⟩
      | cons first before =>
          obtain ⟨rfl, hrest⟩ := List.cons.inj hwrites
          obtain ⟨front, back, rfl, hfront, hback⟩ := ih hrest
          exact ⟨first ++ front, back, by simp, .write first hfront, hback⟩

/-- One frame among texts. -/
theorem oneFrame {before after : List (List UInt8)} {payload stream : List UInt8}
    (h : Carries (before ++ frameBytes payload :: after) stream)
    (hbefore : ∀ bytes ∈ before, 0 ∉ bytes) (hafter : ∀ bytes ∈ after, 0 ∉ bytes) :
    OneFrame payload stream := by
  obtain ⟨front, back, rfl, hfront, hback⟩ := h.split
  exact ⟨front, back, hfront.zeroFree hbefore, hback.zeroFree hafter, rfl⟩

end Carries

/-! ### The request -/

/-- The parts of a request. -/
theorem requestPayload_eq (msgid : UInt32) (method : List UInt8) (args : List Value) :
    requestPayload msgid method args
      = [0x94] ++ ([0x00] ++ (shortestNat msgid.toNat ++ (shortest (.str method.length) ++ method
          ++ (shortest (.array args.length) ++ PackOp.encodings (Value.opsElems args))))) := by
  rw [requestPayload, requestOps, PackOp.encodings_append]
  show [0x94] ++ ([0x00] ++ ((PackOp.uint msgid.toUInt64).encoding ++ ((PackOp.str method).encoding
    ++ ((PackOp.array args.length).encoding ++ [])))) ++ _ = _
  rw [Server.encoding_msgid]
  simp [PackOp.encoding, PackOp.token, PackOp.body]

/-- The client's request is one to the device. -/
theorem requestPayload_request (w : SizeT) (msgid : UInt32) {method : List UInt8}
    {args : List Value} (h : (requestPayload msgid method args).length < 2 ^ 16) :
    Request w msgid.toNat method args.length (PackOp.encodings (Value.opsElems args))
      (requestPayload msgid method args) := by
  have hargs := Value.length_le_opsElems args
  have hbytes := PackOp.length_le_encodings (Value.opsElems args)
  have hlt := msgid.toNat_lt
  rw [requestPayload_eq] at h ⊢
  simp only [List.length_append] at h
  exact .mk (by decide) (by decide) (Server.spells_msgid msgid) hlt
    (.mk (spells_shortest (show method.length < 2 ^ 32 by omega))
      (spells_shortest (show args.length < 2 ^ 32 by omega))
      (asLength_eq_some.mp (asLength_small w (by omega))).2
      (asLength_eq_some.mp (asLength_small w (by omega))).2)

/-! ### The response -/

open Server ServerSize

/-- The client reads an error response. -/
theorem readMessage_error (msgid : UInt32) {error : List UInt8} (h : error.length < 2 ^ 32) :
    readMessage (PackOp.encodings (packError msgid error))
      = .response msgid.toNat true (.str error) .nil := by
  have hpayload : PackOp.encodings (packError msgid error)
      = [0x94] ++ ([0x01] ++ (shortestNat msgid.toNat ++ ((Value.str error).bytes ++ [kNil]))) := by
    rw [encodings_error, Value.bytes, Value.ops, PackOp.encodings_single]
    simp [PackOp.encoding, PackOp.token, PackOp.body]
  have htype : typeAt ((Value.str error).bytes ++ [kNil]) = .str := by
    rw [Value.bytes, Value.ops, PackOp.encodings_single]
    exact Value.typeAt_encoding (.str error) h (by rintro ⟨⟩) [kNil]
  rw [hpayload, readMessage_response (by decide) (by decide) (spells_msgid msgid) msgid.toNat_lt,
    parseEntry_error h, htype]
  rfl

/-- The client reads a successful response. -/
theorem readMessage_result (msgid : UInt32) (result : List UInt8) :
    readMessage (PackOp.encodings (packHeader msgid) ++ result)
      = match parseObject result with
        | .ok (v, _) => .response msgid.toNat false .nil v
        | .error e => .undecodable e := by
  have hpayload : PackOp.encodings (packHeader msgid) ++ result
      = [0x94] ++ ([0x01] ++ (shortestNat msgid.toNat ++ (kNil :: result))) := by
    rw [encodings_header]
    simp
  have htype : typeAt (kNil :: result) = .nil :=
    Value.typeAt_encoding .nil trivial (by rintro ⟨⟩) result
  rw [hpayload, readMessage_response (by decide) (by decide) (spells_msgid msgid) msgid.toNat_lt,
    parseEntry_result, htype]
  cases parseObject result <;> rfl

/-- How a call ends when the handler leaves this answer, and the response has `cap` bytes. -/
def outcome (cap : Nat) (msgid : UInt32) (method : List UInt8) (answer : Answer) :
    RPC.CallOutcome :=
  let tooLarge := .threw (.remote method (.str (text "response too large")))
  match answer.error with
  | some error =>
      if (PackOp.encodings (packError msgid error)).length ≤ cap then
        .threw (.remote method (.str error))
      else tooLarge
  | none =>
      if cap - kResponseHeaderMax < (PackOp.encodings answer.packed).length then tooLarge
      else if answer.packed = [] then .returned .nil
      else
        match Value.decode (Reader.new .host64 (PackOp.encodings answer.packed)) with
        | .ok (v, _) => .returned v
        | .error e => .threw (.protocol e)

/-- A payload ends the call in this way. -/
def EndsAs (method : List UInt8) (msgid : Nat) (payload : List UInt8)
    (o : RPC.CallOutcome) : Prop :=
  RPC.callOutcome method msgid (readMessage payload) = o

/-- An error reply, read back by the host, ends the call as the remote error it carries. -/
theorem error_endsAs (method : List UInt8) (msgid : UInt32) {error : List UInt8}
    (h : error.length < 2 ^ 32) :
    EndsAs method msgid.toNat (PackOp.encodings (packError msgid error))
      (.threw (.remote method (.str error))) := by
  rw [EndsAs, readMessage_error msgid h, RPC.callOutcome, if_pos rfl, if_pos rfl]

/-- `Value::decode` of the bytes of a result. -/
theorem result_endsAs (method : List UInt8) (msgid : UInt32) (result : List UInt8) :
    EndsAs method msgid.toNat (PackOp.encodings (packHeader msgid) ++ result)
      (match Value.decode (Reader.new .host64 result) with
        | .ok (v, _) => .returned v
        | .error e => .threw (.protocol e)) := by
  have hrest : (Reader.new .host64 result).rest = result := by
    simp [Reader.rest, Reader.new]
  rw [EndsAs, readMessage_result, decode_parseObject rfl, hrest]
  cases parseObject result with
  | ok p => simp [RPC.callOutcome, Value.atCursor, Except.map]
  | error e => rfl

/-- The last resort. -/
theorem tooLarge_endsAs (method : List UInt8) (msgid : UInt32) :
    EndsAs method msgid.toNat (tooLarge msgid)
      (.threw (.remote method (.str (text "response too large")))) :=
  error_endsAs method msgid (by decide +kernel)

/-- The response to a handler that failed. -/
theorem failure_endsAs {sz : ServerSize} (hmax : sz.bufSize < 2 ^ 32) (method : List UInt8)
    (msgid : UInt32) {answer : Answer} {error : List UInt8} (hanswer : answer.error = some error) :
    EndsAs method msgid.toNat (responsePayload sz.bufSize msgid (answered sz answer))
      (outcome sz.bufSize msgid method answer) := by
  have herror : (answered sz answer).error = some error := hanswer
  have hfull : fullPayload msgid (answered sz answer)
      = some (PackOp.encodings (packError msgid error)) := by
    rw [fullPayload, herror]
  simp only [outcome, hanswer]
  by_cases hfits : (PackOp.encodings (packError msgid error)).length ≤ sz.bufSize
  · rw [responsePayload_of_fits hfull hfits, if_pos hfits]
    refine error_endsAs method msgid ?_
    rw [encodings_error] at hfits
    simp only [List.length_append] at hfits
    omega
  · have hlast : responsePayload sz.bufSize msgid (answered sz answer) = tooLarge msgid := by
      simp [responsePayload, hfull, Option.filter, hfits]
    rw [hlast, if_neg hfits]
    exact tooLarge_endsAs method msgid

/-- The bytes a successful response carries, when they fit. -/
theorem resultBytes_answered {sz : ServerSize} {answer : Answer}
    (hfits : (answered sz answer).writer.overflow = false) :
    resultBytes (answered sz answer)
      = if answer.packed = [] then [kNil] else PackOp.encodings answer.packed := by
  obtain ⟨-, hlength⟩ := (answered_holds sz answer).data_of_fits hfits
  have hresult : (answered sz answer).result = PackOp.encodings answer.packed := by
    rw [answered_result, List.take_of_length_le hlength]
  have hsize := answered_sized sz answer
  rw [hresult] at hsize
  by_cases hpacked : answer.packed = []
  · rw [resultBytes, if_pos (by rw [← hsize, hpacked]; rfl), if_pos hpacked]
  · have hpos := PackOp.length_le_encodings answer.packed
    have hne := List.length_pos_of_ne_nil hpacked
    rw [resultBytes, if_neg (by omega), if_neg hpacked, hresult]

/-- The response to a handler that succeeded. -/
theorem success_endsAs {sz : ServerSize} (hmin : 32 ≤ sz.bufSize) (method : List UInt8)
    (msgid : UInt32) {answer : Answer} (hanswer : answer.error = none) :
    EndsAs method msgid.toNat (responsePayload sz.bufSize msgid (answered sz answer))
      (outcome sz.bufSize msgid method answer) := by
  have herror : (answered sz answer).error = none := hanswer
  have hscratch : sz.kResultScratch = sz.bufSize - kResponseHeaderMax := by
    rw [kResultScratch, if_pos (by unfold kResponseHeaderMax; omega)]
  have hoverflow := (answered_holds sz answer).overflow_eq
  rw [hscratch] at hoverflow
  simp only [outcome, hanswer]
  by_cases hlong : sz.bufSize - kResponseHeaderMax < (PackOp.encodings answer.packed).length
  · have hlast : responsePayload sz.bufSize msgid (answered sz answer) = tooLarge msgid := by
      simp [responsePayload, fullPayload, herror, hoverflow, hlong]
    rw [hlast, if_pos hlong]
    exact tooLarge_endsAs method msgid
  · have hfits : (answered sz answer).writer.overflow = false := by
      rw [hoverflow]
      exact decide_eq_false hlong
    have hheader := header_length_le msgid
    have hfull := fullPayload_result msgid herror hfits
    unfold kResponseHeaderMax at hheader hlong
    rw [resultBytes_answered hfits] at hfull
    rw [if_neg (by unfold kResponseHeaderMax; exact hlong)]
    -- Nothing packed is a nil on the wire.
    by_cases hpacked : answer.packed = []
    · rw [if_pos hpacked] at hfull ⊢
      rw [responsePayload_of_fits hfull (by
        rw [List.length_append, List.length_singleton]
        omega)]
      exact result_endsAs method msgid [kNil]
    · rw [if_neg hpacked] at hfull ⊢
      rw [responsePayload_of_fits hfull (by
        rw [List.length_append]
        omega)]
      exact result_endsAs method msgid _

/-- **The response to an answer** ends the call as the answer says. -/
theorem responsePayload_endsAs {sz : ServerSize} (hmin : 32 ≤ sz.bufSize)
    (hmax : sz.bufSize < 2 ^ 32) (method : List UInt8) (msgid : UInt32) (answer : Answer) :
    EndsAs method msgid.toNat (responsePayload sz.bufSize msgid (answered sz answer))
      (outcome sz.bufSize msgid method answer) := by
  cases hanswer : answer.error with
  | some error => exact failure_endsAs hmax method msgid hanswer
  | none => exact success_endsAs hmin method msgid hanswer

/-! ### The call -/

/-- What a sketch sets up before `begin`. -/
structure Sketch (sz : ServerSize) (σ : Type) where
  state : σ
  /-- The binds, in order. -/
  entries : List (Entry sz.sizeT σ)
  onText : Option (TextHook σ)
  onAttach : Option (Hook σ)
  onDetach : Option (Hook σ)

namespace Sketch

variable {sz : ServerSize} {σ : Type}

/-- The handlers and the text callback log no zero byte. -/
structure LogsNoZero (k : Sketch sz σ) : Prop where
  onText : ∀ hook ∈ k.onText, ∀ line state, (hook line state).Logs (· ≠ 0)
  entries : ∀ entry ∈ k.entries, ∀ args state, (entry.fn args state).Logs (· ≠ 0)

/-- A server with the callbacks of the sketch, before any bind. -/
def unbound (k : Sketch sz σ) (clock : Nat → UInt32) : Server sz σ :=
  { Server.new sz k.state clock with
    onText := k.onText
    onAttach := k.onAttach
    onDetach := k.onDetach }

/-- The device at the start of its main loop. -/
def device (k : Sketch sz σ) (clock : Nat → UInt32) : Server sz σ :=
  (k.entries.foldl bind (k.unbound clock)).begin

/-- The device of a sketch that logs no zero byte starts calm. -/
theorem device_calm {k : Sketch sz σ} (h : k.LogsNoZero) (clock : Nat → UInt32) :
    (k.device clock).Calm := by
  have hhandlers : ∀ entry ∈ (k.entries.foldl bind (k.unbound clock)).handlers, ∀ args state,
      (entry.fn args state).Logs (· ≠ 0) :=
    binds_forall (p := fun fn => ∀ args state, (fn args state).Logs (· ≠ 0)) h.entries
      (by rintro entry ⟨⟩)
  constructor
  · rfl
  · show 0 ∉ (k.entries.foldl bind (k.unbound clock)).logBuf
    rw [binds_eq]
    exact List.not_mem_nil
  · show ∀ hook ∈ (k.entries.foldl bind (k.unbound clock)).onText, _
    rw [binds_eq]
    exact h.onText
  · exact hhandlers

/-- It starts with a fresh receiver. -/
theorem device_demux (k : Sketch sz σ) (clock : Nat → UInt32) :
    (k.device clock).demux = .new sz.demuxSize := by
  show (k.entries.foldl bind (k.unbound clock)).demux.reset = _
  rw [binds_eq]
  rfl

/-- It has invoked no handler yet. -/
theorem device_invoked (k : Sketch sz σ) (clock : Nat → UInt32) :
    (k.device clock).invoked = [] := by
  show (k.entries.foldl bind (k.unbound clock)).invoked = _
  rw [binds_eq]
  rfl

end Sketch

/-- A new client and the callbacks of the application. -/
def freshClient (opts : Options) (onLog onText onAny : Option Nat)
    (handlers : List (List UInt8 × Nat)) : RPC :=
  { RPC.new opts with
    onLog := onLog
    onText := onText
    onAny := onAny
    handlers := handlers }

section

variable {sz : ServerSize} {σ : Type}

/-- The two directions of the link during a call: `polls` is what the device finds at each
`poll`, and `reads` what the client reads and when. -/
structure Link (c : RPC) (method : List UInt8) (args : List Value) (d : Server sz σ)
    (polls : List (List UInt8)) (reads : List (Nat × List UInt8)) (deadline : Nat) : Prop where
  request : Carries [(c.startCall RPC.writesAll method args).2.1] polls.flatten
  response : Carries (((polls.foldl poll d).sent.drop d.sent.length).map Sent.bytes)
    (reads.map Prod.snd).flatten
  inTime : ∀ read ∈ reads, read.1 < deadline

/-- **A call, to the handler and back.** The handler that was bound last runs once, on the
bytes of the arguments, and the call ends as its answer says. Without a handler it ends with
`unknown method`. -/
theorem callValues_runs (hmin : 32 ≤ sz.bufSize) (hmax : sz.bufSize ≤ 4000) {k : Sketch sz σ}
    (hlogs : k.LogsNoZero) (clock : Nat → UInt32) (opts : Options) (onLog onText onAny : Option Nat)
    (handlers : List (List UInt8 × Nat)) {method : List UInt8} (hmethod : ¬ BuiltIn method)
    {args : List Value} (hhost : (requestPayload 1 method args).length ≤ opts.maxFrame)
    (hdevice : (requestPayload 1 method args).length ≤ sz.bufSize) (start : Nat)
    {polls : List (List UInt8)} {reads : List (Nat × List UInt8)}
    (hlink : Link (freshClient opts onLog onText onAny handlers) method args (k.device clock) polls
      reads (start + opts.timeout)) :
    match latest sz k.entries method with
    | some fn =>
        ∃ (given : Args sz.sizeT) (answer : Answer),
          (polls.foldl poll (k.device clock)).invoked = [⟨fn, given, answer⟩] ∧
          given.size = args.length ∧
          given.reader.rest = PackOp.encodings (Value.opsElems args) ∧
          given.reader.error = false ∧
          ((freshClient opts onLog onText onAny handlers).callValues RPC.writesAll method args start
            (RPC.arriving reads)).2.2 = outcome sz.bufSize 1 method answer
    | none =>
        (polls.foldl poll (k.device clock)).invoked = [] ∧
          ((freshClient opts onLog onText onAny handlers).callValues RPC.writesAll method args start
            (RPC.arriving reads)).2.2
              = .threw (.remote method (.str (text "unknown method"))) := by
  -- The client writes the request, and the device answers it.
  have hsized : (freshClient opts onLog onText onAny handlers).Sized :=
    ⟨List.length_replicate, List.length_replicate⟩
  have hrequest := hlink.request
  rw [(RPC.startCall_started hsized RPC.writesAll method args).bytes.trans (if_pos hhost)]
    at hrequest
  have hcarried : Carries ([] ++ frameBytes (requestPayload 1 method args) :: []) polls.flatten :=
    hrequest
  have hpolls := hcarried.oneFrame (by simp) (by simp)
  have htext : (k.device clock).demux.Between := by
    rw [k.device_demux clock]
    exact Demux.new_between _
  obtain ⟨hreported, -⟩ := htext.oneFrame hpolls (frameBody_length_le_of_le hdevice)
  obtain ⟨pos, answer, hparams, hran, before, after, hsent, hbefore, hafter⟩ :=
    polls_answered (k.device_calm hlogs clock) hreported
      (requestPayload_request sz.sizeT 1 (by omega)) hmethod hmin
  rw [UInt32.ofNat_toNat] at hsent
  -- The client gets the response.
  have hresponse := hlink.response
  rw [hsent, List.drop_left, List.map_append, List.map_cons] at hresponse
  have hreads := hresponse.oneFrame
    (List.forall_mem_map.mpr fun x hx => (hbefore x hx).not_mem)
    (List.forall_mem_map.mpr fun x hx => (hafter x hx).not_mem)
  have hlength : (responsePayload sz.bufSize 1 (answered sz answer)).length ≤ 4000 :=
    (responsePayload_length_le 1 (answered sz answer) hmin).trans hmax
  have hfit : (frameBody (responsePayload sz.bufSize 1 (answered sz answer))).length
      ≤ hostDemuxSize.frameMax :=
    (frameBody_length_le_of_le hlength).trans (by decide)
  obtain ⟨hreported', -⟩ := (Demux.new_between hostDemuxSize).oneFrame hreads hfit
  have hcall := RPC.callValues_eq hsized hhost hlink.inTime (hreported'.heardOnce _)
  have houtcome : RPC.callOutcome method (1 : UInt32).toNat
      (readMessage (responsePayload sz.bufSize 1 (answered sz answer)))
        = outcome sz.bufSize 1 method answer :=
    responsePayload_endsAs hmin (by omega) method 1 answer
  rw [show (freshClient opts onLog onText onAny handlers).nextMsgid = 1 from rfl, houtcome] at hcall
  -- The table has the handler that was bound last.
  have hlatest : (findHandler (k.device clock).handlers method).map Entry.fn
      = latest sz k.entries method := findHandler_binds rfl k.entries method
  rw [hlatest] at hran
  have hnone := k.device_invoked clock
  cases hfn : latest sz k.entries method with
  | some fn =>
      rw [hfn] at hran
      refine ⟨argsAt sz.sizeT (requestPayload 1 method args) pos args.length, answer, ?_, rfl,
        hparams, rfl, hcall⟩
      rw [hran, hnone]
      rfl
  | none =>
      rw [hfn] at hran
      obtain ⟨hinvoked, rfl⟩ := hran
      have hunknown : (PackOp.encodings (packError 1 (text "unknown method"))).length = 19 := by
        decide +kernel
      refine ⟨hinvoked.trans hnone, hcall.trans ?_⟩
      simp only [outcome]
      rw [if_pos (by omega)]

/-- A sketch with one handler, whose answer is 7. -/
def sevenSketch : Sketch Server.small Unit where
  state := ()
  entries := [⟨[0x66], fun _ state => .done (⟨[.int 7], none⟩, state), rawSignature⟩]
  onText := none
  onAttach := none
  onDetach := none

/-- The request comes in two polls, the response in two reads, behind a line of text. -/
theorem callValues_runs_seven :
    ((freshClient .default none none none []).callValues RPC.writesAll [0x66] [.uint 5] 0
      (RPC.arriving [(3, [0x68, 0x0a, 0x00, 0x08, 0x94]),
        (4, [0x01, 0x01, 0xc0, 0x07, 0x99, 0xb7, 0x00])])).2.2 = .returned (.uint 7) := by
  have hlogs : sevenSketch.LogsNoZero := by
    constructor
    · rintro hook ⟨⟩
    · intro entry hentry args state
      rw [show sevenSketch.entries = [⟨[0x66], fun _ state => .done (⟨[.int 7], none⟩, state),
        rawSignature⟩] from rfl, List.mem_singleton] at hentry
      rw [hentry]
      trivial
  have hmethod : ¬ BuiltIn [0x66] := by
    unfold BuiltIn
    decide +kernel
  let polls : List (List UInt8) :=
    [[0x00, 0x02, 0x94], [0x08, 0x01, 0xa1, 0x66, 0x91, 0x05, 0xc8, 0xad, 0x00]]
  let d := sevenSketch.device fun _ => 0
  have hwritten : ((freshClient .default none none none []).startCall RPC.writesAll [0x66]
      [.uint 5]).2.1 = polls.flatten := by
    decide +kernel
  have hsent : ((polls.foldl poll d).sent.drop d.sent.length).map Sent.bytes
      = [[0x00, 0x08, 0x94, 0x01, 0x01, 0xc0, 0x07, 0x99, 0xb7, 0x00]] := by
    decide +kernel
  have hanswer : (polls.foldl poll d).invoked.map
      (fun run => (run.answer.error, PackOp.encodings run.answer.packed)) = [(none, [0x07])] := by
    decide +kernel
  -- The line "h\n" comes in front of the response.
  have hlink : Link (freshClient .default none none none []) [0x66] [.uint 5] d polls
      [(3, [0x68, 0x0a, 0x00, 0x08, 0x94]), (4, [0x01, 0x01, 0xc0, 0x07, 0x99, 0xb7, 0x00])]
      (0 + Options.default.timeout) := by
    constructor
    · rw [hwritten]
      exact .write polls.flatten .nil
    · rw [hsent]
      exact .text [0x68, 0x0a] (by decide) (.write _ .nil)
    · decide
  obtain ⟨given, answer, hinvoked, -, -, -, hcall⟩ := callValues_runs (by decide)
    (by decide) hlogs (fun _ => 0) .default none none none [] hmethod
    (by decide +kernel) (by decide +kernel) 0 hlink
  rw [hinvoked] at hanswer
  obtain ⟨herror, hpacked⟩ : answer.error = none ∧ PackOp.encodings answer.packed = [0x07] :=
    Prod.mk.inj (List.cons.inj hanswer).1
  have hsome : answer.packed ≠ [] := by
    rintro hnil
    rw [hnil] at hpacked
    cases hpacked
  have hshort : ¬ Server.small.bufSize - kResponseHeaderMax < [(0x07 : UInt8)].length := by decide
  simp only [hcall, outcome, herror, hpacked, if_neg hsome, if_neg hshort]
  rfl

end

end SerialRpc
