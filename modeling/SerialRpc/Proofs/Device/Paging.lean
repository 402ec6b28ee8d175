import SerialRpc.Proofs.Device.Attachment
import SerialRpc.Proofs.Framing.OneFrame

/-!
# `SerialRpc.Proofs.Device.Paging`: the device, from an `rpc.list` request to a page

* `packRpcListResult_paged`: when every entry fits a page by itself, the answer is the page
  that starts where the request asks for.
* `events_quiet`: events that complete no frame leave the table and write nothing but text
  and notifications.
* `events_paged`: events with one `rpc.list` request in their bytes write one response more,
  the page.
-/

set_option autoImplicit false

namespace SerialRpc

open MsgPack Reader

/-- A text, or a notification in a frame that fits. -/
def Aside (bufSize : Nat) : Sent → Prop
  | .frame payload bytes =>
      IsNotification payload ∧ bytes = frameBytes payload ∧ payload.length ≤ bufSize
  | .text _ => True

namespace Server

open ServerSize

variable {sz : ServerSize} {σ : Type}

/-- Texts and notifications may be written aside. -/
theorem aside_permits (sz : ServerSize) : Permits sz fun _ x => Aside sz.bufSize x where
  text _ _ := trivial
  notification _ hfits hnotification := ⟨hnotification, rfl, hfits⟩

/-! ### The page -/

/-- Every entry fits a page by itself. -/
def EntriesFit (sz : ServerSize) (entries : List (Entry sz.sizeT σ)) : Prop :=
  ∀ entry ∈ entries, 3 + (entryBytes entry).length ≤ sz.kResultScratch

/-- A name is a part of its entry. -/
theorem name_length_le (entry : Entry sz.sizeT σ) :
    entry.name.length ≤ (entryBytes entry).length := by
  simp only [entryBytes_eq, List.length_append]
  omega

/-- The computed size of an entry that fits is right. -/
theorem EntriesFit.size_eq {entries : List (Entry sz.sizeT σ)} (h : EntriesFit sz entries)
    (hsmall : sz.kResultScratch < 2 ^ 16) {entry : Entry sz.sizeT σ} (hentry : entry ∈ entries) :
    entrySize entry = (entryBytes entry).length := by
  have hname := name_length_le entry
  have hfits := h entry hentry
  exact (entryBytes_length (by omega)).symm

/-- A page has an entry as long as there are any. -/
theorem EntriesFit.page_ne_nil {entries : List (Entry sz.sizeT σ)} (h : EntriesFit sz entries)
    (hsmall : sz.kResultScratch < 2 ^ 16) (hne : entries ≠ []) :
    page (sz.kResultScratch - 3) entries ≠ [] := by
  cases entries with
  | nil => exact absurd rfl hne
  | cons entry entries =>
      have hsize := h.size_eq hsmall List.mem_cons_self
      have hfits := h entry List.mem_cons_self
      rw [page, if_neg (by omega)]
      exact List.cons_ne_nil _ _

/-- The reply to `rpc.list`: an array of the entries of the page. -/
structure Paged (entries : List (Entry sz.sizeT σ)) (reply : Reply) : Prop where
  error : reply.error = none
  overflow : reply.writer.overflow = false
  sized : reply.result.length = reply.resultSize
  fits : reply.resultSize ≤ sz.kResultScratch
  result : ∃ head, Spells (.array entries.length) head ∧ reply.result = head ++ pageBytes entries

/-- **A page is given.** It starts at `start`, and it is empty behind the end of the table. -/
theorem packRpcListResult_paged {s : Server sz σ} (hfits : EntriesFit sz s.handlers)
    (hsmall : sz.kResultScratch < 2 ^ 16) (hcount : s.handlers.length < 2 ^ 32) (start : Nat) :
    ∃ reply, s.packRpcListResult (newReply sz) start = (s, reply) ∧
      Paged (page (sz.kResultScratch - 3) (s.handlers.drop start)) reply := by
  have hheaders : s.HeadersFit := Or.inl hsmall
  have hstart : s.handlers.drop (startIndex s.handlers.length start) = s.handlers.drop start := by
    rw [startIndex, Nat.mod_eq_of_lt hcount]
    split
    · rfl
    · rw [List.drop_length, List.drop_eq_nil_of_le (by omega)]
  have hcases := packRpcListResult_cases (hheaders.measured (startIndex s.handlers.length start))
  rw [hstart] at hcases
  have hrest : EntriesFit sz (s.handlers.drop start) := fun entry hentry =>
    hfits entry (List.mem_of_mem_drop hentry)
  -- An entry behind `start` fits a page, so the loop does not fail on the first one.
  have hsome : startIndex s.handlers.length start < s.handlers.length →
      ∃ entry, entry ∈ s.handlers.drop start := by
    intro hless
    rw [← hstart]
    refine List.exists_mem_of_ne_nil _ fun hnil => ?_
    exact absurd (List.drop_eq_nil_iff.mp hnil) (by omega)
  rcases hcases with ⟨hempty, hpacked⟩ | ⟨hless, hnone, -⟩ | ⟨hless, -, reply, hpacked, hlisted⟩
  · -- The empty array.
    have hnil : s.handlers.drop start = [] := by
      rw [← hstart]
      exact List.drop_eq_nil_of_le hempty
    have hroom : 1 ≤ sz.kResultScratch := by
      rw [kResultScratch]
      split <;> omega
    have hbytes : PackOp.encodings [.array 0] = [0x90] := rfl
    have hfit : (answered sz ⟨[.array 0], none⟩).writer.overflow = false := by
      rw [(answered_holds sz ⟨[.array 0], none⟩).overflow_eq, hbytes]
      exact decide_eq_false (by rw [List.length_singleton]; omega)
    have hresult : (answered sz ⟨[.array 0], none⟩).result = [0x90] := by
      rw [answered_result]
      show (PackOp.encodings [.array 0]).take _ = _
      rw [hbytes, List.take_of_length_le hroom]
    have hsized := answered_sized sz ⟨[.array 0], none⟩
    refine ⟨_, hpacked, rfl, hfit, hsized, ?_, [0x90], ?_, ?_⟩
    · rwa [← hsized, hresult, List.length_singleton]
    · rw [hnil]
      exact (by decide : Spells (.array 0) [0x90])
    · rw [hresult, hnil]
      rfl
  · -- There is an entry, and it fits.
    obtain ⟨entry, hentry⟩ := hsome hless
    have hroom := hrest entry hentry
    rcases hnone with hscratch | hpage
    · omega
    · exact absurd hpage (hrest.page_ne_nil hsmall (List.ne_nil_of_mem hentry))
  · -- The header and the entries of the page.
    obtain ⟨entry, hentry⟩ := hsome hless
    have hroom := hrest entry hentry
    have hmeasured := hheaders.measured (startIndex s.handlers.length start)
    rw [hstart] at hmeasured
    obtain ⟨-, -, hbytes⟩ := pageBytes_sequence (hmeasured.mono (Nat.sub_le _ 3))
    refine ⟨reply, hpacked, hlisted.error, hlisted.overflow, hlisted.sized, ?_, _, ?_,
      hlisted.result⟩
    · rw [hlisted.size]
      omega
    · rw [← hstart]
      exact spells_arrayHeader (hheaders.count_lt _)

/-! ### Events without a frame -/

/-- The event binds nothing, and does not begin anew. -/
def Event.Steady : Event sz σ → Prop
  | .bind _ => False
  | .begin => False
  | _ => True

/-- The byte that `poll` reads. -/
def Event.bytes : Event sz σ → List UInt8
  | .byte b => [b]
  | _ => []

/-- The bytes that `poll` reads during some events. -/
def bytesOf (events : List (Event sz σ)) : List UInt8 := events.flatMap Event.bytes

/-- Over `bytes` the device kept its table and wrote what `p` allows. -/
structure Quiet (p : Bool → Sent → Prop) (bytes : List UInt8) (s s' : Server sz σ) : Prop where
  writes : Writes p s s'
  handlers : s'.handlers = s.handlers
  demux : s'.demux = (SerialRpc.demux sz.demuxSize).final s.demux bytes

variable {p : Bool → Sent → Prop} {s s' s'' : Server sz σ}

/-- Nothing happens. -/
theorem Quiet.refl (s : Server sz σ) : Quiet p [] s s := ⟨Writes.refl s, rfl, rfl⟩

/-- Two quiet stretches, one behind the other. -/
theorem Quiet.append {bytes bytes' : List UInt8} (h : Quiet p bytes s s')
    (h' : Quiet p bytes' s' s'') : Quiet p (bytes ++ bytes') s s'' where
  writes := h.writes.trans h'.writes
  handlers := h'.handlers.trans h.handlers
  demux := by rw [h'.demux, h.demux, Mealy.final_append]

/-- Code of the sketch has no hold on the table. -/
theorem run_keeps {α : Type} (s : Server sz σ) (script : Script α) :
    (s.run script).1.handlers = s.handlers ∧ (s.run script).1.demux = s.demux := by
  rw [(s.run_outputs script).eq]
  exact ⟨rfl, rfl⟩

/-- A hook leaves the table and the demultiplexer alone. -/
theorem runHook_keeps (s : Server sz σ) (hook : Option (Hook σ)) :
    (s.runHook hook).handlers = s.handlers ∧ (s.runHook hook).demux = s.demux := by
  cases hook with
  | none => exact ⟨rfl, rfl⟩
  | some hook => exact s.run_keeps (hook s.sketch)

/-- So does the timeout of the attachment. -/
theorem checkAttachTimeout_keeps (s : Server sz σ) :
    s.checkAttachTimeout.handlers = s.handlers ∧ s.checkAttachTimeout.demux = s.demux := by
  unfold checkAttachTimeout
  split
  · dsimp only
    split
    · exact runHook_keeps _ _
    · exact ⟨rfl, rfl⟩
  · exact ⟨rfl, rfl⟩

/-- A byte that completes no frame. -/
theorem pollByte_keeps {b : UInt8}
    (hreport : ∀ payload,
      ((SerialRpc.demux sz.demuxSize).step s.demux b).2 ≠ some (.frame payload)) :
    (s.pollByte b).handlers = s.handlers ∧
      (s.pollByte b).demux = (SerialRpc.demux sz.demuxSize).final s.demux [b] := by
  unfold pollByte
  dsimp only
  cases hcase : ((SerialRpc.demux sz.demuxSize).step s.demux b).2 with
  | none => exact ⟨rfl, rfl⟩
  | some report =>
      cases report with
      | frame payload => exact absurd hcase (hreport payload)
      | textLine line truncated => exact runHook_keeps _ _

/-- A steady event that completes no frame. -/
theorem act_steady (hp : Permits sz p) {event : Event sz σ} (hsteady : event.Steady)
    (hframeless : Frameless ((SerialRpc.demux sz.demuxSize).outputs s.demux event.bytes)) :
    Quiet p event.bytes s (s.act event) := by
  have hquiet : ∀ b, event = .byte b → ∀ payload,
      ((SerialRpc.demux sz.demuxSize).step s.demux b).2 ≠ some (.frame payload) := by
    rintro b rfl
    exact hframeless.of_cons.1
  have hkeeps : (s.act event).handlers = s.handlers ∧
      (s.act event).demux = (SerialRpc.demux sz.demuxSize).final s.demux event.bytes := by
    cases event with
    | byte b => exact pollByte_keeps (hquiet b rfl)
    | pollEnd => exact s.checkAttachTimeout_keeps
    | notify name args => exact s.run_keeps (.notify name args fun _ => .done ())
    | log b => exact s.run_keeps (.log [b] (.done ()))
    | bind entry => exact hsteady.elim
    | begin => exact hsteady.elim
    | _ => exact ⟨rfl, rfl⟩
  exact ⟨act_quiet hp s hquiet, hkeeps.1, hkeeps.2⟩

/-- **Steady events that complete no frame.** -/
theorem events_quiet (hp : Permits sz p) {events : List (Event sz σ)}
    (hsteady : ∀ event ∈ events, event.Steady)
    (hframeless : Frameless ((SerialRpc.demux sz.demuxSize).outputs s.demux (bytesOf events))) :
    Quiet p (bytesOf events) s (events.foldl act s) := by
  induction events generalizing s with
  | nil => exact Quiet.refl s
  | cons event events ih =>
      obtain ⟨hfirst, hrest⟩ := List.forall_mem_cons.mp hsteady
      rw [bytesOf, List.flatMap_cons, Mealy.outputs_append] at hframeless
      have hact : Quiet p event.bytes s (s.act event) := act_steady hp hfirst hframeless.of_append.1
      refine hact.append (ih hrest ?_)
      rw [hact.demux]
      exact hframeless.of_append.2

/-- The event that reads one byte of many. -/
theorem exists_byte {events : List (Event sz σ)} {front back : List UInt8} {b : UInt8}
    (h : bytesOf events = front ++ b :: back) :
    ∃ earlier later, events = earlier ++ .byte b :: later ∧ bytesOf earlier = front ∧
      bytesOf later = back := by
  -- By induction on the events, of which only some bring a byte.
  induction events generalizing front with
  | nil => cases front <;> cases h
  | cons event events ih =>
      rw [bytesOf, List.flatMap_cons] at h
      by_cases hbyte : ∃ b', event = .byte b'
      · obtain ⟨b', rfl⟩ := hbyte
        cases front with
        -- It is the byte that was asked for, or one before it.
        | nil =>
            obtain ⟨rfl, hrest⟩ := List.cons.inj h
            exact ⟨[], events, rfl, rfl, hrest⟩
        | cons b'' front =>
            obtain ⟨rfl, hrest⟩ := List.cons.inj h
            obtain ⟨earlier, later, rfl, rfl, rfl⟩ := ih hrest
            exact ⟨.byte b' :: earlier, later, rfl, rfl, rfl⟩
      · -- An event without a byte goes to the earlier ones.
        have hnone : event.bytes = [] := by
          cases event with
          | byte b' => exact absurd ⟨b', rfl⟩ hbyte
          | _ => rfl
        rw [hnone] at h
        obtain ⟨earlier, later, rfl, hfront, hback⟩ := ih h
        refine ⟨event :: earlier, later, rfl, ?_, hback⟩
        rw [bytesOf, List.flatMap_cons, hnone]
        exact hfront

/-! ### The request -/

/-- The parameter of `rpc.list`. -/
theorem readOptional_start {payload params : List UInt8} {pos start : Nat}
    (hdrop : payload.drop pos = params) (hparams : Spells (.int start) params)
    (hstart : start < 2 ^ 32) :
    readOptional (argsAt sz.sizeT payload pos 1) = some start :=
  readOptional_eq_some.mpr
    (.given (Nat.le_refl 1) (hdrop.trans (List.append_nil params).symm) hparams hstart)

/-- The byte that completes a request for a page. -/
theorem pollByte_paged {b : UInt8} {msgid start : Nat} {params payload : List UInt8}
    (hreport : ((SerialRpc.demux sz.demuxSize).step s.demux b).2 = some (.frame payload))
    (hrequest : Request sz.sizeT msgid (SerialRpc.text "rpc.list") 1 params payload)
    (hparams : Spells (.int start) params) (hstart : start < 2 ^ 32)
    (hfits : EntriesFit sz s.handlers) (hcount : s.handlers.length < 2 ^ 32)
    (hsmall : sz.kResultScratch < 2 ^ 16) (hroom : 32 ≤ sz.bufSize) :
    ∃ reply, Paged (page (sz.kResultScratch - 3) (s.handlers.drop start)) reply ∧
      (s.pollByte b).sent = s.sent ++
        [.frame (responsePayload sz.bufSize (UInt32.ofNat msgid) reply)
          (frameBytes (responsePayload sz.bufSize (UInt32.ofNat msgid) reply))] ∧
      (s.pollByte b).handlers = s.handlers ∧
      (s.pollByte b).demux = (SerialRpc.demux sz.demuxSize).final s.demux [b] := by
  let fed : Server sz σ := { s with demux := ((SerialRpc.demux sz.demuxSize).step s.demux b).1 }
  -- The frame is a request for a page, so `dispatch` packs one.
  obtain ⟨pos, hread, hdrop⟩ := readIncoming_request hrequest
  obtain ⟨reply, hpacked, hpaged⟩ :=
    packRpcListResult_paged (s := fed.stamped) hfits hsmall hcount start
  have hdispatch : fed.stamped.dispatch (SerialRpc.text "rpc.list") (argsAt sz.sizeT payload pos 1)
      (newReply sz) = (fed.stamped, reply) := by
    rw [dispatch_list _ (readOptional_start hdrop hparams hstart), hpacked]
    exact countFailure_success hpaged.error
  -- A page fits, and so does the response with it.
  obtain ⟨hresponse, hsent⟩ :=
    fed.stamped.sendResponse_eq (UInt32.ofNat msgid) hpaged.sized hroom
  refine ⟨reply, hpaged, ?_⟩
  rw [s.pollByte_receives hreport, hread, receive, hdispatch]
  refine ⟨hsent, ?_, ?_⟩
  · rw [hresponse]
    rfl
  · rw [hresponse]
    rfl

/-- **Events with one request for a page in them.** The page is sent, with text and
notifications around it. -/
theorem events_paged {events : List (Event sz σ)} (hsteady : ∀ event ∈ events, event.Steady)
    {msgid start : Nat} {params payload : List UInt8}
    (hreport : OneReport payload ((SerialRpc.demux sz.demuxSize).outputs s.demux (bytesOf events)))
    (hrequest : Request sz.sizeT msgid (SerialRpc.text "rpc.list") 1 params payload)
    (hparams : Spells (.int start) params) (hstart : start < 2 ^ 32)
    (hfits : EntriesFit sz s.handlers) (hcount : s.handlers.length < 2 ^ 32)
    (hsmall : sz.kResultScratch < 2 ^ 16) (hroom : 32 ≤ sz.bufSize) :
    ∃ reply before after, Paged (page (sz.kResultScratch - 3) (s.handlers.drop start)) reply ∧
      (events.foldl act s).sent = s.sent ++ (before ++
        .frame (responsePayload sz.bufSize (UInt32.ofNat msgid) reply)
          (frameBytes (responsePayload sz.bufSize (UInt32.ofNat msgid) reply)) :: after) ∧
      (∀ x ∈ before, Aside sz.bufSize x) ∧ (∀ x ∈ after, Aside sz.bufSize x) ∧
      (events.foldl act s).handlers = s.handlers ∧
      (events.foldl act s).demux
        = (SerialRpc.demux sz.demuxSize).final s.demux (bytesOf events) := by
  obtain ⟨outputsBefore, outputsAfter, hsplit, hbefore, hafter⟩ := hreport
  obtain ⟨front, b, back, hbytes, rfl, hcompleted, rfl⟩ :=
    (SerialRpc.demux sz.demuxSize).outputs_split s.demux _ hsplit
  obtain ⟨earlier, later, rfl, rfl, rfl⟩ := exists_byte hbytes
  rw [List.forall_mem_append, List.forall_mem_cons] at hsteady
  obtain ⟨hsteadyEarlier, -, hsteadyLater⟩ := hsteady
  -- Up to the last byte of the request.
  have hearlier := events_quiet (aside_permits sz) hsteadyEarlier hbefore
  rw [← hearlier.demux] at hcompleted hafter
  rw [← hearlier.handlers] at hfits hcount ⊢
  obtain ⟨reply, hpaged, hsent, hhandlers, hdemux⟩ :=
    pollByte_paged hcompleted hrequest hparams hstart hfits hcount hsmall hroom
  -- And behind it.
  have hlater := events_quiet (aside_permits sz) hsteadyLater
    (s := (earlier.foldl act s).pollByte b)
    (by rw [hdemux]; exact hafter)
  obtain ⟨before, hsentEarlier, -, haside⟩ := hearlier.writes
  obtain ⟨after, hsentLater, -, haside'⟩ := hlater.writes
  have hrun : (earlier ++ .byte b :: later).foldl act s
      = later.foldl act ((earlier.foldl act s).pollByte b) := by
    rw [List.foldl_append, List.foldl_cons]
    rfl
  refine ⟨reply, before.map Prod.fst, after.map Prod.fst, hpaged, ?_, ?_, ?_, ?_, ?_⟩
  · rw [hrun, hsentLater, hsent, hsentEarlier]
    simp only [List.append_assoc, List.singleton_append]
  · exact List.forall_mem_map.mpr haside
  · exact List.forall_mem_map.mpr haside'
  · rw [hrun, hlater.handlers, hhandlers]
  · rw [hrun, hlater.demux, hdemux, hearlier.demux, hbytes, ← Mealy.final_append,
      ← Mealy.final_append]
    rfl

end Server

end SerialRpc
