import SerialRpc.Proofs.Device.Requests
import SerialRpc.Proofs.Framing.OneFrame

/-!
# `SerialRpc.Proofs.Device.Calls`: the device, from a request to its response

A device that nobody is attached to sends text and nothing else, until a request comes.
`Calm` is what it keeps, `Idle` what happens over bytes without a frame, and
`polls_answered` what a stream with one request in it does: one handler runs once, and one
response is sent, with text around it.
-/

set_option autoImplicit false

namespace SerialRpc

/-- A text without zeros. -/
def Sent.ZeroFree : Sent → Prop
  | .frame _ _ => False
  | .text bytes => 0 ∉ bytes

/-- A write without zeros has none. -/
theorem Sent.ZeroFree.not_mem {x : Sent} (h : x.ZeroFree) : 0 ∉ x.bytes := by
  cases x with
  | frame payload bytes => exact h.elim
  | text bytes => exact h

/-- The method is one of the server's own. -/
def BuiltIn (method : List UInt8) : Prop :=
  method ∈ ["rpc.ping", "rpc.list", "rpc.attach", "rpc.detach"].map text

namespace Server

variable {sz : ServerSize} {σ : Type}

/-! ### Detached -/

/-- Nobody is attached, there is no zero in the unfinished log line, and the sketch logs
none. -/
structure Calm (s : Server sz σ) : Prop where
  detached : s.attached = false
  line : 0 ∉ s.logBuf
  onText : ∀ hook ∈ s.onText, ∀ line sketch, (hook line sketch).Logs (· ≠ 0)
  handlers : ∀ entry ∈ s.handlers, ∀ args sketch, (entry.fn args sketch).Logs (· ≠ 0)

variable {s s' s'' : Server sz σ}

/-- Outputs leave the device calm, but for the log line. -/
theorem Calm.of_outputs {p : Sent → Prop} (h : s.Calm) (houtputs : Outputs p s s')
    (hline : 0 ∉ s'.logBuf) : s'.Calm := by
  obtain ⟨detached, -, onText, handlers⟩ := h
  rw [houtputs.eq] at hline ⊢
  exact ⟨detached, hline, onText, handlers⟩

/-- The log line holds what it held and the new byte, at most. -/
theorem mem_logByte {x b : UInt8} (h : x ∈ (s.logByte b).logBuf) : x ∈ s.logBuf ∨ x = b := by
  unfold logByte at h
  split at h
  · exact Or.inl h
  · split at h
    · cases h
    · rcases List.mem_append.mp h with h | h
      · split at h
        · cases h
        · exact Or.inl h
      · exact Or.inr (List.mem_singleton.mp h)

/-- Code of the sketch sends text without zeros. -/
theorem run_calm {α : Type} {script : Script α} (hlogs : script.Logs (· ≠ 0)) (h : s.Calm) :
    (s.run script).1.Calm ∧ Outputs Sent.ZeroFree s (s.run script).1 := by
  refine run_induction (R := fun s s' => s.Calm → s'.Calm ∧ Outputs Sent.ZeroFree s s')
    (fun s h => ⟨h, Outputs.refl s⟩) ?_ ?_ ?_ ?_ hlogs s h
  · -- Two steps in a row.
    intro s s' s'' hfirst hsecond h
    obtain ⟨h', houtputs⟩ := hfirst h
    obtain ⟨h'', houtputs'⟩ := hsecond h'
    exact ⟨h'', houtputs.trans houtputs'⟩
  · -- A detached device drops the notification.
    intro s name args h
    rw [notify, if_pos h.detached]
    exact ⟨h, Outputs.refl s⟩
  · -- A byte of the log: a detached device writes it as text, or keeps it.
    intro s b hb h
    have houtputs : Outputs Sent.ZeroFree s (s.logByte b) := by
      refine s.logByte_outputs b (s.emitLogLine_outputs _ _ ?_ fun _ => ⟨h.line, ?_⟩)
      · intro hattached
        rw [h.detached] at hattached
        cases hattached
      · show 0 ∉ [lf]
        decide
    refine ⟨h.of_outputs houtputs fun hzero => ?_, houtputs⟩
    rcases mem_logByte hzero with hzero | hzero
    · exact h.line hzero
    · exact hb hzero.symm
  · -- The level of the log is not read here.
    intro s level h
    exact ⟨⟨h.detached, h.line, h.onText, h.handlers⟩, Outputs.of_silent rfl rfl⟩

/-! ### Bytes without a frame -/

/-- Over `bytes` the device sent text at most, and can be called as before. -/
structure Idle (bytes : List UInt8) (s s' : Server sz σ) : Prop where
  calm : s'.Calm
  demux : s'.demux = (SerialRpc.demux sz.demuxSize).final s.demux bytes
  sent : Sends Sent.ZeroFree s s'
  handlers : s'.handlers = s.handlers
  invoked : s'.invoked = s.invoked

/-- A device that does nothing is idle. -/
theorem Idle.refl (h : s.Calm) : Idle [] s s where
  calm := h
  demux := rfl
  sent := Sends.of_eq rfl
  handlers := rfl
  invoked := rfl

/-- Two idle stretches, one behind the other. -/
theorem Idle.append {bytes bytes' : List UInt8} (h : Idle bytes s s') (h' : Idle bytes' s' s'') :
    Idle (bytes ++ bytes') s s'' where
  calm := h'.calm
  demux := by rw [h'.demux, h.demux, Mealy.final_append]
  sent := h.sent.trans h'.sent
  handlers := h'.handlers.trans h.handlers
  invoked := h'.invoked.trans h.invoked

/-- What only logs is idle. -/
theorem Idle.of_outputs (h : s'.Calm) (houtputs : Outputs Sent.ZeroFree s s') : Idle [] s s' where
  calm := h
  demux := by
    rw [houtputs.eq]
    rfl
  sent := houtputs.sent
  handlers := by
    rw [houtputs.eq]
    rfl
  invoked := by
    rw [houtputs.eq]
    rfl

/-- A callback that logs no zero. -/
theorem runHook_idle (h : s.Calm) {hook : Option (Hook σ)}
    (hlogs : ∀ hook' ∈ hook, ∀ sketch, (hook' sketch).Logs (· ≠ 0)) :
    Idle [] s (s.runHook hook) := by
  cases hook with
  | none => exact Idle.refl h
  | some hook =>
      obtain ⟨hcalm, houtputs⟩ := run_calm (hlogs hook rfl s.sketch) h
      have hrun := Idle.of_outputs hcalm houtputs
      exact ⟨⟨hcalm.detached, hcalm.line, hcalm.onText, hcalm.handlers⟩, hrun.demux, hrun.sent,
        hrun.handlers, hrun.invoked⟩

/-- A byte that completes no frame. -/
theorem pollByte_idle (h : s.Calm) {b : UInt8}
    (hreport : ∀ payload,
      ((SerialRpc.demux sz.demuxSize).step s.demux b).2 ≠ some (.frame payload)) :
    Idle [b] s (s.pollByte b) := by
  unfold pollByte
  have hfed : Idle [b] s { s with demux := ((SerialRpc.demux sz.demuxSize).step s.demux b).1 } :=
    ⟨⟨h.detached, h.line, h.onText, h.handlers⟩, rfl, Sends.of_eq rfl, rfl, rfl⟩
  dsimp only
  cases hcase : ((SerialRpc.demux sz.demuxSize).step s.demux b).2 with
  | none => exact hfed
  | some report =>
      cases report with
      | frame payload => exact absurd hcase (hreport payload)
      | textLine line truncated =>
          refine hfed.append (runHook_idle hfed.calm ?_)
          intro hook hmem sketch
          obtain ⟨onText, honText, rfl⟩ := Option.map_eq_some_iff.mp hmem
          exact h.onText onText honText (cstr line) sketch

/-- Bytes without a frame leave the device idle. -/
theorem bytes_idle (h : s.Calm) (bytes : List UInt8)
    (hframeless : Frameless ((SerialRpc.demux sz.demuxSize).outputs s.demux bytes)) :
    Idle bytes s (bytes.foldl pollByte s) := by
  induction bytes generalizing s with
  | nil => exact Idle.refl h
  | cons b bytes ih =>
      rw [Mealy.outputs_cons] at hframeless
      obtain ⟨hfirst, hrest⟩ := hframeless.of_cons
      have hbyte : Idle [b] s (s.pollByte b) := pollByte_idle h hfirst
      refine hbyte.append (ih hbyte.calm ?_)
      rw [hbyte.demux]
      exact hrest

/-- While nobody is attached no timeout is checked. -/
theorem poll_detached {bytes : List UInt8} (h : (bytes.foldl pollByte s).attached = false) :
    s.poll bytes = bytes.foldl pollByte s := by
  simp [poll, checkAttachTimeout, h]

/-- So do polls of them. -/
theorem polls_idle (h : s.Calm) (polls : List (List UInt8))
    (hframeless : Frameless ((SerialRpc.demux sz.demuxSize).outputs s.demux polls.flatten)) :
    Idle polls.flatten s (polls.foldl poll s) := by
  induction polls generalizing s with
  | nil => exact Idle.refl h
  | cons bytes polls ih =>
      rw [List.flatten_cons, Mealy.outputs_append] at hframeless
      have hbytes : Idle bytes s (s.poll bytes) := by
        have hbytes := bytes_idle h bytes fun payload hmem =>
          hframeless payload (List.mem_append_left _ hmem)
        rwa [poll_detached hbytes.calm.detached]
      refine hbytes.append (ih hbytes.calm fun payload hmem => ?_)
      rw [hbytes.demux] at hmem
      exact hframeless payload (List.mem_append_right _ hmem)

/-! ### The request -/

/-- What came of a call: the handler ran once, or there was none. -/
def Ran (fn : Option (Handler sz.sizeT σ)) (args : Args sz.sizeT) (answer : Answer)
    (s s' : Server sz σ) : Prop :=
  match fn with
  | some fn => s'.invoked = s.invoked ++ [⟨fn, args, answer⟩]
  | none =>
      s'.invoked = s.invoked ∧ answer = ⟨[], some (SerialRpc.text "unknown method")⟩

/-- The response was sent once, with text around it. -/
def SendsOnce (response : List UInt8) (s s' : Server sz σ) : Prop :=
  ∃ before after, s'.sent = s.sent ++ (before ++ .frame response (frameBytes response) :: after) ∧
    (∀ x ∈ before, x.ZeroFree) ∧ ∀ x ∈ after, x.ZeroFree

/-- A call was handled, and its answer sent. -/
structure Answered (fn : Option (Handler sz.sizeT σ)) (args : Args sz.sizeT) (msgid : UInt32)
    (answer : Answer) (s s' : Server sz σ) : Prop where
  ran : Ran fn args answer s s'
  sent : SendsOnce (responsePayload sz.bufSize msgid (answered sz answer)) s s'

section

variable {fn : Option (Handler sz.sizeT σ)} {args : Args sz.sizeT} {msgid : UInt32}
  {answer : Answer} {bytes : List UInt8}

/-- An idle stretch in front of an answer. -/
theorem Answered.after_idle (h : Idle bytes s s') (h' : Answered fn args msgid answer s' s'') :
    Answered fn args msgid answer s s'' := by
  obtain ⟨hran, before, after, hsent, hbefore, hafter⟩ := h'
  obtain ⟨earlier, hearlier, hzeroFree⟩ := h.sent
  constructor
  · unfold Ran at hran ⊢
    rwa [h.invoked] at hran
  · refine ⟨earlier ++ before, after, ?_, ?_, hafter⟩
    · rw [hsent, hearlier]
      simp
    · intro x hx
      rcases List.mem_append.mp hx with hx | hx
      · exact hzeroFree x hx
      · exact hbefore x hx

/-- And one behind it. -/
theorem Answered.before_idle (h : Answered fn args msgid answer s s') (h' : Idle bytes s' s'') :
    Answered fn args msgid answer s s'' := by
  obtain ⟨hran, before, after, hsent, hbefore, hafter⟩ := h
  obtain ⟨later, hlater, hzeroFree⟩ := h'.sent
  constructor
  · unfold Ran at hran ⊢
    rwa [h'.invoked]
  · refine ⟨before, after ++ later, ?_, hbefore, ?_⟩
    · rw [hlater, hsent]
      simp
    · intro x hx
      rcases List.mem_append.mp hx with hx | hx
      · exact hafter x hx
      · exact hzeroFree x hx

end

/-- A method that is not built in is looked up in the table. -/
theorem dispatchBuiltin_none {method : List UInt8} (hmethod : ¬ BuiltIn method)
    (args : Args sz.sizeT) (reply : Reply) : s.dispatchBuiltin method args reply = none := by
  simp only [BuiltIn, List.map_cons, List.map_nil, List.mem_cons, List.not_mem_nil, or_false,
    not_or] at hmethod
  obtain ⟨hping, hlist, hattach, hdetach⟩ := hmethod
  simp [dispatchBuiltin, hping, hlist, hattach, hdetach]

/-- `dispatch_` of such a method runs its handler, or answers `unknown method`. -/
theorem dispatch_ran (h : s.Calm) {method : List UInt8} (hmethod : ¬ BuiltIn method)
    (args : Args sz.sizeT) :
    ∃ answer, (s.dispatch method args (newReply sz)).2 = answered sz answer ∧
      Ran ((findHandler s.handlers method).map Entry.fn) args answer s
        (s.dispatch method args (newReply sz)).1 ∧
      (s.dispatch method args (newReply sz)).1.Calm ∧
      (s.dispatch method args (newReply sz)).1.demux = s.demux ∧
      Sends Sent.ZeroFree s (s.dispatch method args (newReply sz)).1 := by
  simp only [dispatch, dispatchBuiltin_none hmethod, dispatchUser]
  -- The table decides: no entry and no call, or one call of the handler found.
  cases hfind : findHandler s.handlers method with
  | none =>
      exact ⟨⟨[], some (SerialRpc.text "unknown method")⟩, rfl, ⟨rfl, rfl⟩,
        ⟨h.detached, h.line, h.onText, h.handlers⟩, rfl, Sends.of_eq rfl⟩
  | some entry =>
      have hlogs := h.handlers entry (mem_of_findHandler hfind) args s.sketch
      obtain ⟨hcalm, houtputs⟩ := run_calm hlogs h
      have hrun := Idle.of_outputs hcalm houtputs
      have hcount (answer : Server sz σ × Reply) : ∃ count,
          countFailure answer = ({ answer.1 with handlerErrorCount := count }, answer.2) := by
        unfold countFailure
        split <;> exact ⟨_, rfl⟩
      obtain ⟨count, heq⟩ := hcount (s.invoke entry.fn args (newReply sz))
      simp only [Option.map_some, heq]
      refine ⟨(s.run (entry.fn args s.sketch)).2.1, rfl, ?_,
        ⟨hcalm.detached, hcalm.line, hcalm.onText, hcalm.handlers⟩, hrun.demux, hrun.sent⟩
      exact congrArg (· ++ [_]) hrun.invoked

/-- The byte that completes a request. -/
theorem pollByte_answered (h : s.Calm) {b : UInt8} {msgid count : Nat}
    {method params payload : List UInt8}
    (hreport : ((SerialRpc.demux sz.demuxSize).step s.demux b).2 = some (.frame payload))
    (hrequest : Request sz.sizeT msgid method count params payload) (hmethod : ¬ BuiltIn method)
    (hroom : 32 ≤ sz.bufSize) :
    ∃ pos answer, payload.drop pos = params ∧ (s.pollByte b).Calm ∧
      (s.pollByte b).demux = (SerialRpc.demux sz.demuxSize).final s.demux [b] ∧
      Answered ((findHandler s.handlers method).map Entry.fn) (argsAt sz.sizeT payload pos count)
        (UInt32.ofNat msgid) answer s (s.pollByte b) := by
  -- The byte ends the frame of the request, which is read back as it was packed.
  obtain ⟨pos, hread, hparams⟩ := readIncoming_request hrequest
  let fed : Server sz σ := { s with demux := ((SerialRpc.demux sz.demuxSize).step s.demux b).1 }
  have hpoll : s.pollByte b = fed.stamped.receive (readIncoming sz payload) := by
    rw [← handleFrame_eq]
    simp only [pollByte, hreport]
    rfl
  rw [hpoll, hread, receive]
  have hcalm : fed.stamped.Calm := ⟨h.detached, h.line, h.onText, h.handlers⟩
  -- The handler runs, and its answer becomes the response.
  obtain ⟨answer, hreply, hran, hcalm', hdemux, hsends⟩ :=
    dispatch_ran hcalm hmethod (argsAt sz.sizeT payload pos count)
  rw [hreply]
  generalize
    (fed.stamped.dispatch method (argsAt sz.sizeT payload pos count) (newReply sz)).1 = t at *
  obtain ⟨hresponse, hsent⟩ := t.sendResponse_eq (UInt32.ofNat msgid)
    (answered_sized sz answer) hroom
  refine ⟨pos, answer, hparams, ?_, ?_, ?_, ?_⟩
  · -- A response does not touch the line that `rpc.log` collects.
    have hline : (t.sendResponse (UInt32.ofNat msgid) (answered sz answer)).logBuf = t.logBuf := by
      unfold sendResponse sendFrame
      dsimp only
      split <;> rfl
    rw [hresponse]
    exact ⟨hcalm'.detached, hline ▸ hcalm'.line, hcalm'.onText, hcalm'.handlers⟩
  · -- The receiver has only read the byte.
    rw [hresponse]
    exact hdemux
  · rw [hresponse]
    exact hran
  · -- The response comes behind whatever the handler has sent.
    obtain ⟨before, hbefore, hzeroFree⟩ := hsends
    refine ⟨before, [], ?_, hzeroFree, fun x hx => absurd hx List.not_mem_nil⟩
    rw [hsent, hbefore, List.append_assoc]
    rfl

/-- A stream with one frame in it, for what the byte that completes the frame does. -/
theorem polls_oneReport (h : s.Calm) {polls : List (List UInt8)} {payload : List UInt8}
    (hreport : OneReport payload ((SerialRpc.demux sz.demuxSize).outputs s.demux polls.flatten))
    {R : Server sz σ → Server sz σ → Prop}
    (hframe : ∀ (t : Server sz σ) (b : UInt8), t.Calm → t.handlers = s.handlers →
      ((SerialRpc.demux sz.demuxSize).step t.demux b).2 = some (.frame payload) →
      (t.pollByte b).Calm ∧
        (t.pollByte b).demux = (SerialRpc.demux sz.demuxSize).final t.demux [b] ∧
        R t (t.pollByte b)) :
    ∃ (t t' : Server sz σ) (front back : List UInt8), Idle front s t ∧ R t t' ∧
      Idle back t' (polls.foldl poll s) ∧
      (polls.foldl poll s).demux = (SerialRpc.demux sz.demuxSize).final s.demux polls.flatten := by
  obtain ⟨earlier, front, b, back, later, rfl, hbefore, hcompleted, hafter⟩ := hreport.chunk
  rw [Mealy.outputs_append] at hbefore hafter
  -- The polls before the frame, and the bytes before it in its poll.
  have hearlier := polls_idle h earlier hbefore.of_append.1
  have hfront := bytes_idle hearlier.calm front (hearlier.demux ▸ hbefore.of_append.2)
  have hidle := hearlier.append hfront
  rw [← hidle.demux] at hcompleted
  obtain ⟨hcalm, hdemux, hR⟩ := hframe _ b hidle.calm hidle.handlers hcompleted
  rw [hidle.demux, ← Mealy.final_append] at hdemux
  -- The bytes behind it, and the polls after.
  have hback := bytes_idle hcalm back (hdemux ▸ hafter.of_append.1)
  have hlater := polls_idle hback.calm later (by rw [hback.demux, hdemux]; exact hafter.of_append.2)
  have hrest := hback.append hlater
  have hpoll : (earlier.foldl poll s).poll (front ++ b :: back)
      = back.foldl pollByte ((front.foldl pollByte (earlier.foldl poll s)).pollByte b) := by
    have hbytes : (front ++ b :: back).foldl pollByte (earlier.foldl poll s)
        = back.foldl pollByte ((front.foldl pollByte (earlier.foldl poll s)).pollByte b) := by
      rw [List.foldl_append, List.foldl_cons]
    rw [poll_detached (hbytes ▸ hback.calm.detached), hbytes]
  rw [List.foldl_append, List.foldl_cons, hpoll]
  refine ⟨_, _, _, _, hidle, hR, hrest, ?_⟩
  rw [hrest.demux, hdemux, ← Mealy.final_append]
  simp only [List.flatten_append, List.flatten_cons, List.append_assoc, List.cons_append,
    List.nil_append]

/-- **A stream with one request in it.** The handler the table has for the method runs once,
on the parameters of the request, and one response is sent, with text around it. -/
theorem polls_answered (h : s.Calm) {polls : List (List UInt8)} {msgid count : Nat}
    {method params payload : List UInt8}
    (hreport : OneReport payload ((SerialRpc.demux sz.demuxSize).outputs s.demux polls.flatten))
    (hrequest : Request sz.sizeT msgid method count params payload) (hmethod : ¬ BuiltIn method)
    (hroom : 32 ≤ sz.bufSize) :
    ∃ pos answer, payload.drop pos = params ∧
      Answered ((findHandler s.handlers method).map Entry.fn) (argsAt sz.sizeT payload pos count)
        (UInt32.ofNat msgid) answer s (polls.foldl poll s) := by
  obtain ⟨t, t', front, back, hfront, ⟨pos, answer, hparams, hanswered⟩, hback, -⟩ :=
    polls_oneReport (R := fun t t' => ∃ pos answer, payload.drop pos = params ∧
        Answered ((findHandler t.handlers method).map Entry.fn)
          (argsAt sz.sizeT payload pos count) (UInt32.ofNat msgid) answer t t')
      h hreport fun t b hcalm _ hcompleted => by
        obtain ⟨pos, answer, hparams, hcalm', hdemux, hanswered⟩ :=
          pollByte_answered hcalm hcompleted hrequest hmethod hroom
        exact ⟨hcalm', hdemux, pos, answer, hparams, hanswered⟩
  rw [hfront.handlers] at hanswered
  exact ⟨pos, answer, hparams, (Answered.after_idle hfront hanswered).before_idle hback⟩

end Server

end SerialRpc
