import SerialRpc.Proofs.Device.Paging
import SerialRpc.Proofs.EndToEnd
import SerialRpc.Proofs.Host.Paging

/-!
# `SerialRpc.Proofs.Paging`: the whole table, page by page

`RPC::list` against a device, with any text and notifications around the pages. The device
chooses how long a page is, and the client asks for the next one behind the names it has.
Both count entries of the same table, so the pages lie end to end.

* `call_page`: one call returns the page that starts where it asks for.
* `list_returns`: `list` returns the table, with one request more than there are pages at
  most.
-/

set_option autoImplicit false

namespace SerialRpc

open MsgPack Reader Server ServerSize

variable {sz : ServerSize} {σ : Type}

/-! ### The table as a list of methods -/

/-- What the client should get for an entry. -/
def methodInfo (entry : Entry sz.sizeT σ) : MethodInfo := ⟨entry.name, signature entry⟩

/-- The bytes of a page are those of its methods. -/
theorem pageBytes_value (entries : List (Entry sz.sizeT σ)) :
    pageBytes entries
      = PackOp.encodings (Value.opsElems ((entries.map methodInfo).map MethodInfo.value)) := by
  induction entries with
  | nil => rfl
  | cons entry entries ih =>
      rw [pageBytes_cons, ih, List.map_cons, List.map_cons, Value.opsElems,
        PackOp.encodings_append]
      rfl

/-- The names and signatures of entries that fit are short. -/
theorem entriesFit_short {entries : List (Entry sz.sizeT σ)} (h : EntriesFit sz entries)
    (hsmall : sz.kResultScratch < 2 ^ 16) : ∀ mi ∈ entries.map methodInfo, mi.Short := by
  refine List.forall_mem_map.mpr fun entry hentry => ⟨?_, ?_⟩
  · have hname := name_length_le entry
    have hfits := h entry hentry
    exact show entry.name.length < 2 ^ 32 by omega
  · have hsignature := signature_length entry
    unfold kSigBufSize at hsignature
    exact show (signature entry).length < 2 ^ 32 by omega

/-- What is left of the table behind `n` pages. -/
def afterPages (room : Nat) : Nat → List (Entry sz.sizeT σ) → List (Entry sz.sizeT σ)
  | 0, entries => entries
  | n + 1, entries => afterPages room n (entries.drop (page room entries).length)

/-- `n` pages hold `n * room` entries at most. -/
theorem length_le_of_afterPages {room : Nat} (n : Nat) {entries : List (Entry sz.sizeT σ)}
    (hmeasured : Measured room entries) (h : afterPages room n entries = []) :
    entries.length ≤ n * room := by
  induction n generalizing entries with
  | zero =>
      rw [show entries = [] from h]
      exact Nat.zero_le _
  | succ n ih =>
      obtain ⟨-, hthree, hbytes⟩ := pageBytes_sequence hmeasured
      have hrest := ih (fun entry hentry => hmeasured entry (List.mem_of_mem_drop hentry)) h
      rw [List.length_drop] at hrest
      rw [Nat.succ_mul]
      omega

/-! ### The request -/

/-- The bytes of the parameter. -/
theorem encodings_start {start : Nat} (h : start < 2 ^ 32) :
    PackOp.encodings (Value.opsElems [.int (Int64.ofNat start)]) = shortestNat start := by
  have hint : (Int64.ofNat start).toInt = start :=
    Int64.toInt_ofNat_of_lt (by omega)
  show shortestInt (Int64.ofNat start).toInt ++ [] ++ [] = _
  rw [hint, shortestInt, if_pos (Int.natCast_nonneg start)]
  simp

/-- A request for a page is short. -/
theorem listPayload_length_le (msgid : UInt32) {start : Nat} (h : start < 2 ^ 32) :
    (requestPayload msgid (text "rpc.list") [.int (Int64.ofNat start)]).length ≤ 22 := by
  have hstart := shortestNat_length_le (UInt32.ofNat start)
  rw [UInt32.toNat_ofNat_of_lt' h] at hstart
  have hmsgid := shortestNat_length_le msgid
  have hname : (shortest (.str (text "rpc.list").length) ++ text "rpc.list").length = 9 := by
    decide +kernel
  have harray : (shortest (.array 1)).length = 1 := rfl
  rw [requestPayload_eq, encodings_start h]
  simp only [List.length_append, List.length_singleton] at hname ⊢
  omega

/-- The request for the page behind `start` entries. -/
theorem listPayload_request (w : SizeT) (msgid : UInt32) {start : Nat} (h : start < 2 ^ 32) :
    Request w msgid.toNat (text "rpc.list") 1 (shortestNat start)
      (requestPayload msgid (text "rpc.list") [.int (Int64.ofNat start)]) := by
  have hlength : (requestPayload msgid (text "rpc.list") [.int (Int64.ofNat start)]).length
      < 2 ^ 16 := (listPayload_length_le msgid h).trans_lt (by decide)
  rw [← encodings_start h]
  exact requestPayload_request w msgid hlength

/-- The index a page starts at is spelled as the shortest integer. -/
theorem spells_start {start : Nat} (h : start < 2 ^ 32) :
    Spells (.int start) (shortestNat start) := by
  have hspells := spells_msgid (UInt32.ofNat start)
  rwa [UInt32.toNat_ofNat_of_lt' h] at hspells

/-! ### The response -/

/-- The response to a request for a page. -/
theorem readMessage_paged {entries : List (Entry sz.sizeT σ)} {reply : Reply}
    (h : Paged entries reply) (hfits : EntriesFit sz entries) (hmin : 32 ≤ sz.bufSize)
    (hsmall : sz.kResultScratch < 2 ^ 16) (hlength : entries.length < 2 ^ 32) (msgid : UInt32) :
    readMessage (responsePayload sz.bufSize msgid reply)
      = .response msgid.toNat false .nil
          (.array ((entries.map methodInfo).map MethodInfo.value)) := by
  -- The result is the array header and the entries.
  obtain ⟨head, hhead, hresult⟩ := h.result
  have hpos : 0 < reply.resultSize := by
    have hcount : 0 < head.length := by
      refine List.length_pos_of_ne_nil ?_
      rintro rfl
      cases hhead
    rw [← h.sized, hresult, List.length_append]
    omega
  have hbytes : resultBytes reply = head ++ pageBytes entries := by
    rw [resultBytes, if_neg (by omega), hresult]
  have hscratch : sz.kResultScratch = sz.bufSize - kResponseHeaderMax := by
    rw [kResultScratch, if_pos (by unfold kResponseHeaderMax; omega)]
  -- So the response fits: the scratch was chosen to leave room for the header.
  have hroom : (PackOp.encodings (packHeader msgid) ++ resultBytes reply).length ≤ sz.bufSize := by
    have hheader := header_length_le msgid
    have hresultFits := h.fits
    unfold kResponseHeaderMax at hheader hscratch
    rw [List.length_append, hbytes, ← hresult, h.sized]
    omega
  -- And reads back as the array of the methods.
  rw [responsePayload_of_fits (fullPayload_result msgid h.error h.overflow) hroom,
    readMessage_result, hbytes, pageBytes_value]
  rw [← List.length_map methodInfo] at hhead hlength
  rw [parseObject_page hhead hlength (entriesFit_short hfits hsmall)]

/-! ### Between the pages -/

/-- Text without zeros, or a frame that the client can decode. -/
def Sent.Legible : Sent → Prop
  | .text bytes => 0 ∉ bytes
  | .frame payload _ => ∀ e, readMessage payload ≠ .undecodable e

/-- The bytes of some writes. -/
def sentBytes (writes : List Sent) : List UInt8 := writes.flatMap Sent.bytes

/-- The bytes of two stretches of writes. -/
theorem sentBytes_append (writes writes' : List Sent) :
    sentBytes (writes ++ writes') = sentBytes writes ++ sentBytes writes' :=
  List.flatMap_append

/-- A text or a notification that does not disturb the client. -/
def Harmless (bufSize : Nat) (x : Sent) : Prop := Aside bufSize x ∧ x.Legible

/-- A notification is not heard. -/
theorem heardAt_notification {payload : List UInt8} (h : IsNotification payload)
    (hlegible : ∀ e, readMessage payload ≠ .undecodable e) (msgid : Nat) :
    heardAt msgid (some (.frame payload)) = .nothing := by
  obtain ⟨name, args, rfl⟩ := h
  obtain ⟨bs, hbs⟩ := encodings_notification name args
  rw [hbs] at hlegible ⊢
  rw [heardAt_frame]
  cases hmessage : readMessage (0x93 :: 0x02 :: bs) with
  | response msgid' isError error result => exact absurd hmessage readMessage_notification
  | undecodable e => exact absurd hmessage (hlegible e)
  | notification method args => rfl
  | other => rfl

/-- The client passes over texts and notifications. -/
theorem harmless_unheard {bufSize : Nat} (hmax : bufSize ≤ 4000) (msgid : Nat)
    {writes : List Sent} (h : ∀ x ∈ writes, Harmless bufSize x) {d : Demux hostDemuxSize}
    (hbetween : d.Between) :
    Unheard msgid ((demux hostDemuxSize).outputs d (sentBytes writes)) ∧
      ((demux hostDemuxSize).final d (sentBytes writes)).Between := by
  induction writes generalizing d with
  | nil => exact ⟨fun r hr => absurd hr List.not_mem_nil, hbetween⟩
  | cons x writes ih =>
      obtain ⟨⟨haside, hlegible⟩, hrest⟩ := List.forall_mem_cons.mp h
      have hone : Unheard msgid ((demux hostDemuxSize).outputs d x.bytes) ∧
          ((demux hostDemuxSize).final d x.bytes).Between := by
        cases x with
        | text bytes =>
            obtain ⟨hframeless, hfinal⟩ := hbetween.text hlegible
            exact ⟨hframeless.unheard msgid, hfinal⟩
        | frame payload bytes =>
            -- The host has room for every frame of the device.
            obtain ⟨hnotification, rfl, hfits⟩ := haside
            have hfit : (frameBody payload).length ≤ hostDemuxSize.frameMax :=
              (frameBody_length_le_of_le (hfits.trans hmax)).trans (by decide)
            obtain ⟨hreport, hfinal⟩ := hbetween.oneFrame (oneFrame_frameBytes payload) hfit
            exact ⟨hreport.unheard (heardAt_notification hnotification hlegible msgid), hfinal⟩
      obtain ⟨hunheard, hfinal⟩ := ih hrest hone.2
      rw [sentBytes, List.flatMap_cons, Mealy.outputs_append, Mealy.final_append]
      exact ⟨hone.1.append hunheard, hfinal⟩

/-- The client has read a part of some texts and notifications, and `unread` is the rest. -/
def Midway (bufSize : Nat) (d : Demux hostDemuxSize) (unread : List UInt8) : Prop :=
  ∃ (d₀ : Demux hostDemuxSize) (writes : List Sent) (read : List UInt8), d₀.Between ∧
    (∀ x ∈ writes, Harmless bufSize x) ∧ sentBytes writes = read ++ unread ∧
    d = (demux hostDemuxSize).final d₀ read

/-- The rest is not heard either. -/
theorem Midway.unheard {bufSize : Nat} {d : Demux hostDemuxSize} {unread : List UInt8}
    (h : Midway bufSize d unread) (hmax : bufSize ≤ 4000) (msgid : Nat) {writes : List Sent}
    (hwrites : ∀ x ∈ writes, Harmless bufSize x) :
    Unheard msgid ((demux hostDemuxSize).outputs d (unread ++ sentBytes writes)) ∧
      ((demux hostDemuxSize).final d (unread ++ sentBytes writes)).Between := by
  obtain ⟨d₀, begun, read, hbetween, hbegun, hbytes, rfl⟩ := h
  have hharmless : ∀ x ∈ begun ++ writes, Harmless bufSize x :=
    List.forall_mem_append.mpr ⟨hbegun, hwrites⟩
  have hall := harmless_unheard hmax msgid hharmless hbetween
  rw [sentBytes_append, hbytes, List.append_assoc, Mealy.outputs_append, Mealy.final_append] at hall
  exact ⟨hall.1.of_append.2, hall.2⟩

/-- **One response among texts and notifications.** It is heard, and the client is midway
through what comes behind it. -/
theorem Midway.heardOnce {bufSize : Nat} {d : Demux hostDemuxSize} {unread : List UInt8}
    (h : Midway bufSize d unread) (hmax : bufSize ≤ 4000) (msgid : Nat) {before after : List Sent}
    (hbefore : ∀ x ∈ before, Harmless bufSize x) (hafter : ∀ x ∈ after, Harmless bufSize x)
    {payload : List UInt8} (hfits : payload.length ≤ bufSize) {front back : List UInt8}
    (hsplit : sentBytes after = front ++ back) :
    HeardOnce msgid payload ((demux hostDemuxSize).outputs d
        (unread ++ sentBytes before ++ (frameBytes payload ++ front))) ∧
      Midway bufSize ((demux hostDemuxSize).final d
        (unread ++ sentBytes before ++ (frameBytes payload ++ front))) back := by
  obtain ⟨hunheard, hbetween⟩ := h.unheard hmax msgid hbefore
  have hfit : (frameBody payload).length ≤ hostDemuxSize.frameMax :=
    (frameBody_length_le_of_le (hfits.trans hmax)).trans (by decide)
  obtain ⟨hreport, hbehind⟩ := hbetween.oneFrame (oneFrame_frameBytes payload) hfit
  have hlater := (harmless_unheard hmax msgid hafter hbehind).1
  rw [hsplit, Mealy.outputs_append] at hlater
  obtain ⟨earlier, later, hsingle, hearlier, hrest⟩ := hreport.heardOnce msgid
  -- The rest of the last hop, and what comes in front of the response.
  generalize unread ++ sentBytes before = bytes at *
  rw [Mealy.outputs_append, Mealy.outputs_append, Mealy.final_append, Mealy.final_append, hsingle]
  refine ⟨⟨_, _, ?_, hunheard.append hearlier, hrest.append hlater.of_append.1⟩, ?_⟩
  · simp only [List.append_assoc, List.cons_append]
  · exact ⟨_, after, front, hbehind, hafter, hsplit, rfl⟩

/-! ### One call -/

/-- One call of `list`: what happens on the device from the call before it up to its end, what
the clock of the client reads once the request is out, and what the client reads and when. -/
structure Hop (sz : ServerSize) (σ : Type) where
  events : List (Event sz σ)
  start : Nat
  reads : List (Nat × List UInt8)

/-- The bytes that the client reads. -/
def Hop.received (hop : Hop sz σ) : List UInt8 := (hop.reads.map Prod.snd).flatten

/-- The environment of the call. -/
def Hop.exchange (hop : Hop sz σ) : RPC.Exchange :=
  ⟨RPC.writesAll, hop.start, RPC.arriving hop.reads⟩

/-- Client and device, and what the device wrote and the client has not read yet. -/
structure System (sz : ServerSize) (σ : Type) where
  client : RPC
  device : Server sz σ
  unread : List UInt8

namespace System

/-- `call("rpc.list", names)` with the first reads of a hop. -/
def call (sys : System sz σ) (names : Nat) (hop : Hop sz σ) (reads : List (Nat × List UInt8)) :
    RPC × List UInt8 × RPC.CallOutcome :=
  sys.client.callValues RPC.writesAll (text "rpc.list") [.int (Int64.ofNat names)] hop.start
    (RPC.arriving reads)

/-- What the device writes meanwhile. -/
def writes (sys : System sz σ) (hop : Hop sz σ) : List Sent :=
  (hop.events.foldl act sys.device).sent.drop sys.device.sent.length

/-- What the client could read. -/
def stream (sys : System sz σ) (hop : Hop sz σ) : List UInt8 :=
  sys.unread ++ sentBytes (sys.writes hop)

/-- The system after a hop. -/
def after (sys : System sz σ) (names : Nat) (hop : Hop sz σ) : System sz σ where
  client := (sys.call names hop hop.reads).1
  device := hop.events.foldl act sys.device
  unread := (sys.stream hop).drop hop.received.length

/-- The link is faithful during a hop: the device reads the request and nothing else, and the
client what the device writes. A response gets there before the deadline. -/
structure Faithful (sys : System sz σ) (names : Nat) (hop : Hop sz σ) : Prop where
  /-- The sketch leaves the table alone. -/
  steady : ∀ event ∈ hop.events, event.Steady
  request : bytesOf hop.events = (sys.client.startCall RPC.writesAll (text "rpc.list")
    [.int (Int64.ofNat names)]).2.1
  inOrder : hop.received <+: sys.stream hop
  complete : ∀ before x after, sys.writes hop = before ++ x :: after → ¬ Aside sz.bufSize x →
    sys.unread ++ sentBytes (before ++ [x]) <+: hop.received
  inTime : ∀ read ∈ hop.reads, read.1 < hop.start + sys.client.opts.timeout
  /-- Each read was made, so the call was not over before it. -/
  made : ∀ earlier last, hop.reads = earlier ++ [last] →
    (sys.call names hop earlier).2.2 = .waiting
  legible : ∀ x ∈ sys.writes hop, Aside sz.bufSize x → x.Legible

/-- What every hop keeps. -/
structure Ready (sys : System sz σ) : Prop where
  sized : sys.client.Sized
  /-- There is room for a request. -/
  room : 22 ≤ sys.client.opts.maxFrame
  client : Midway sz.bufSize sys.client.demux sys.unread
  device : sys.device.demux.Between

/-- The device writes the page that starts behind `names` entries. -/
theorem Faithful.answered {sys : System sz σ} {names : Nat} {hop : Hop sz σ}
    (h : sys.Faithful names hop) (hready : sys.Ready) (hmin : 32 ≤ sz.bufSize)
    (hsmall : sz.kResultScratch < 2 ^ 16) (hfits : EntriesFit sz sys.device.handlers)
    (hcount : sys.device.handlers.length < 2 ^ 32) (hnames : names < 2 ^ 32) :
    ∃ reply before after,
      Paged (page (sz.kResultScratch - 3) (sys.device.handlers.drop names)) reply ∧
      sys.writes hop = before ++
        .frame (responsePayload sz.bufSize sys.client.nextMsgid reply)
          (frameBytes (responsePayload sz.bufSize sys.client.nextMsgid reply)) :: after ∧
      (∀ x ∈ before, Harmless sz.bufSize x) ∧ (∀ x ∈ after, Harmless sz.bufSize x) ∧
      (sys.after names hop).device.handlers = sys.device.handlers ∧
      (sys.after names hop).device.demux.Between := by
  -- The device reads one frame, the request, and the byte that completes it sends the page.
  have hlength := listPayload_length_le sys.client.nextMsgid hnames
  have hroom := hready.room
  have hrequest := h.request
  rw [(RPC.startCall_started hready.sized RPC.writesAll _ _).bytes, RPC.written,
    if_pos (by omega)] at hrequest
  obtain ⟨hreport, hbetween⟩ := hready.device.oneFrame (oneFrame_frameBytes _)
    (frameBody_length_le_of_le (by omega : (requestPayload sys.client.nextMsgid (text "rpc.list")
      [.int (Int64.ofNat names)]).length ≤ sz.bufSize))
  rw [← hrequest] at hreport hbetween
  obtain ⟨reply, before, after, hpaged, hsent, hbefore, hafter, hhandlers, hdemux⟩ :=
    events_paged h.steady hreport (listPayload_request sz.sizeT sys.client.nextMsgid hnames)
      (spells_start hnames) hnames hfits hcount hsmall hmin
  rw [UInt32.ofNat_toNat] at hsent
  have hwrites : sys.writes hop = before ++
      .frame (responsePayload sz.bufSize sys.client.nextMsgid reply)
        (frameBytes (responsePayload sz.bufSize sys.client.nextMsgid reply)) :: after := by
    rw [writes, hsent, List.drop_left]
  have hlegible := h.legible
  rw [hwrites] at hlegible
  refine ⟨reply, before, after, hpaged, hwrites, ?_, ?_, hhandlers, ?_⟩
  · intro x hx
    exact ⟨hbefore x hx, hlegible x (List.mem_append_left _ hx) (hbefore x hx)⟩
  · intro x hx
    exact ⟨hafter x hx, hlegible x (List.mem_append_right _ (List.mem_cons_of_mem _ hx))
      (hafter x hx)⟩
  · show (hop.events.foldl act sys.device).demux.Between
    rwa [hdemux]

/-- What the client reads, around a response. -/
theorem Faithful.received_eq {sys : System sz σ} {names : Nat} {hop : Hop sz σ}
    (h : sys.Faithful names hop) {before after : List Sent} {payload bytes : List UInt8}
    (hwrites : sys.writes hop = before ++ .frame payload bytes :: after)
    (hresponse : ¬ IsNotification payload) :
    ∃ front, hop.received = sys.unread ++ sentBytes before ++ (bytes ++ front) ∧
      sentBytes after = front ++ (sys.after names hop).unread := by
  -- What is received before the response is a front of what was on its way.
  obtain ⟨front, hfront⟩ :=
    h.complete before (.frame payload bytes) after hwrites fun haside => hresponse haside.1
  obtain ⟨back, hback⟩ := h.inOrder
  have hreceived : hop.received = sys.unread ++ sentBytes before ++ (bytes ++ front) := by
    rw [← hfront, sentBytes_append]
    simp [sentBytes, Sent.bytes]
  refine ⟨front, hreceived, ?_⟩
  -- What is not read stays on its way.
  have hunread : (sys.after names hop).unread = back := by
    show (sys.stream hop).drop hop.received.length = back
    rw [← hback, List.drop_left]
  -- The two ways to write the stream differ only in where the response ends.
  have hstream : sys.stream hop
      = sys.unread ++ sentBytes before ++ (bytes ++ sentBytes after) := by
    rw [stream, hwrites, sentBytes_append]
    simp [sentBytes, Sent.bytes]
  rw [hstream, hreceived] at hback
  simp only [List.append_assoc, List.append_cancel_left_eq] at hback
  rw [hunread, hback]

/-- **One call returns one page**, and the system is ready for the next. -/
theorem call_page {sys : System sz σ} (hready : sys.Ready) (hmin : 32 ≤ sz.bufSize)
    (hmax : sz.bufSize ≤ 4000) (hfits : EntriesFit sz sys.device.handlers)
    (hcount : sys.device.handlers.length < 2 ^ 32) {names : Nat} (hnames : names < 2 ^ 32)
    {hop : Hop sz σ} (h : sys.Faithful names hop) :
    (sys.call names hop hop.reads).2.2
        = .returned (.array (((page (sz.kResultScratch - 3)
            (sys.device.handlers.drop names)).map methodInfo).map MethodInfo.value)) ∧
      (sys.after names hop).Ready ∧
      (sys.after names hop).device.handlers = sys.device.handlers := by
  have hsmall : sz.kResultScratch < 2 ^ 16 := by
    rw [kResultScratch]
    split <;> omega
  obtain ⟨reply, before, after, hpaged, hwrites, hbefore, hafter, hhandlers, hdevice⟩ :=
    h.answered hready hmin hsmall hfits hcount hnames
  have hpage := page_front (sz.kResultScratch - 3) (sys.device.handlers.drop names)
  generalize page (sz.kResultScratch - 3) (sys.device.handlers.drop names) = entries at *
  have hentries : EntriesFit sz entries := fun entry hentry =>
    hfits entry (List.mem_of_mem_drop (hpage.subset hentry))
  have hlength : entries.length < 2 ^ 32 := by
    have hle := hpage.length_le
    rw [List.length_drop] at hle
    omega
  have hmessage := readMessage_paged hpaged hentries hmin hsmall hlength sys.client.nextMsgid
  have hresponse : ¬ IsNotification (responsePayload sz.bufSize sys.client.nextMsgid reply) := by
    rintro ⟨name, args, hnotification⟩
    obtain ⟨bs, hbs⟩ := encodings_notification name args
    rw [hnotification, hbs] at hmessage
    exact readMessage_notification hmessage
  -- The response is heard, and nothing else.
  obtain ⟨front, hreceived, hrest⟩ := h.received_eq hwrites hresponse
  obtain ⟨hheard, hmidway⟩ := hready.client.heardOnce hmax sys.client.nextMsgid.toNat hbefore hafter
    (responsePayload_length_le sys.client.nextMsgid reply hmin) hrest
  rw [← hreceived] at hheard hmidway
  have hroom : (requestPayload sys.client.nextMsgid (text "rpc.list")
      [.int (Int64.ofNat names)]).length ≤ sys.client.opts.maxFrame :=
    (listPayload_length_le sys.client.nextMsgid hnames).trans hready.room
  have hlater := RPC.callValues_later hready.sized RPC.writesAll (text "rpc.list")
    [.int (Int64.ofNat names)] hop.start (RPC.arriving hop.reads)
  refine ⟨?_, ⟨hlater.sized, ?_, ?_, hdevice⟩, hhandlers⟩
  · rw [call, RPC.callValues_eq hready.sized hroom h.inTime hheard, hmessage, RPC.callOutcome,
      if_pos rfl, if_neg Bool.false_ne_true]
  · show 22 ≤ (sys.call names hop hop.reads).1.opts.maxFrame
    rw [call, hlater.opts]
    exact hready.room
  · -- The response came in the last read.
    have hending := hear_once h.inTime hheard
    rw [heardAt_frame] at hending
    simp only [hmessage, if_true] at hending
    rcases List.eq_nil_or_concat hop.reads with hnone | ⟨earlier, last, hreads⟩
    · rw [Hop.received, hnone] at hreceived
      have hempty := congrArg List.length hreceived
      simp [frameBytes_length] at hempty
      omega
    · rw [List.concat_eq_append] at hreads
      have hdemux := RPC.callValues_demux hready.sized hroom (h.made earlier last hreads)
        (by rw [← hreads]; exact hending)
      show Midway sz.bufSize (sys.call names hop hop.reads).1.demux _
      rw [call, hreads, hdemux, ← hreads]
      exact hmidway

end System

/-! ### The whole table -/

/-- The link is faithful during each hop, as long as the pages are not empty. -/
def Linked (sys : System sz σ) (out : List MethodInfo) : List (Hop sz σ) → Prop
  | [] => True
  | hop :: hops =>
      sys.Faithful out.length hop ∧
        ∀ value page, (sys.call out.length hop hop.reads).2.2 = .returned value →
          parseRpcList value = .ok page → page ≠ [] →
          Linked (sys.after out.length hop) (addPage out 0 page).1 hops

/-- A call that returns a page, in the loop. -/
theorem fetchPage_returned {sys : System sz σ} {names : Nat} {hop : Hop sz σ}
    (hops : List (Hop sz σ)) (requests : List (List UInt8)) {page : List MethodInfo}
    (h : (sys.call names hop hop.reads).2.2 = .returned (.array (page.map MethodInfo.value))) :
    RPC.fetchPage .unlimited ⟨sys.client, (hop :: hops).map Hop.exchange, requests⟩ names
      = (⟨(sys.after names hop).client, hops.map Hop.exchange,
          requests ++ [(sys.call names hop hop.reads).2.1]⟩, .page page) := by
  rcases hended : sys.call names hop hop.reads with ⟨client, bytes, outcome⟩
  rw [hended] at h
  have hcall : sys.client.callValues hop.exchange.write (text "rpc.list")
      [.int (Int64.ofNat names)] hop.exchange.start hop.exchange.attempts
        = (client, bytes, outcome) := hended
  have hafter : (sys.after names hop).client = client := congrArg Prod.fst hended
  obtain rfl : outcome = .returned (.array (page.map MethodInfo.value)) := h
  rw [List.map_cons, RPC.fetchPage, hafter]
  simp only [hcall, parseRpcList_page]

/-- The loop of `list`, with the first entries of the table in `out` and the rest on `pages`
pages. -/
theorem collectFrom_returns (hmin : 32 ≤ sz.bufSize) (hmax : sz.bufSize ≤ 4000)
    {table : List (Entry sz.sizeT σ)} (hfits : EntriesFit sz table)
    (hnodup : (table.map Entry.name).Nodup) (hcount : table.length < 2 ^ 32) (iters : Nat)
    {sys : System sz σ} (hready : sys.Ready) (htable : sys.device.handlers = table)
    {names pages : Nat} (hnames : names ≤ table.length)
    (hpages : afterPages (sz.kResultScratch - 3) pages (table.drop names) = [])
    (henough : pages ≤ iters) {hops : List (Hop sz σ)} (hhops : min iters (pages + 1) ≤ hops.length)
    (hlinked : Linked sys ((table.take names).map methodInfo) hops) (requests : List (List UInt8)) :
    (collectFrom (RPC.fetchPage .unlimited) iters ((table.take names).map methodInfo)
        ⟨sys.client, hops.map Hop.exchange, requests⟩).2 = .returned (table.map methodInfo) ∧
      (collectFrom (RPC.fetchPage .unlimited) iters ((table.take names).map methodInfo)
        ⟨sys.client, hops.map Hop.exchange, requests⟩).1.requests.length
          ≤ requests.length + (pages + 1) := by
  have hsmall : sz.kResultScratch < 2 ^ 16 := by
    rw [kResultScratch]
    split <;> omega
  induction iters generalizing sys names pages hops requests with
  | zero =>
      -- No turn is left, and no page.
      obtain rfl : pages = 0 := by omega
      have hnone : table.drop names = [] := hpages
      rw [List.take_of_length_le (List.drop_eq_nil_iff.mp hnone)]
      exact ⟨rfl, Nat.le_add_right _ _⟩
  | succ iters ih =>
      cases hops with
      | nil =>
          rw [List.length_nil] at hhops
          omega
      | cons hop hops =>
          obtain ⟨hfaithful, hlater⟩ := hlinked
          have hlength : ((table.take names).map methodInfo).length = names := by
            rw [List.length_map, List.length_take, Nat.min_eq_left hnames]
          rw [hlength] at hfaithful hlater
          obtain ⟨hcall, hready', hsame⟩ := sys.call_page hready hmin hmax (htable ▸ hfits)
            (htable ▸ hcount) (by omega) hfaithful
          rw [htable] at hcall hsame
          have hfetched := fetchPage_returned hops requests hcall
          have hprefix := page_front (sz.kResultScratch - 3) (table.drop names)
          have hrest : EntriesFit sz (table.drop names) := fun entry hentry =>
            hfits entry (List.mem_of_mem_drop hentry)
          have hnonempty := hrest.page_ne_nil hsmall
          by_cases hnone : table.drop names = []
          · -- An empty page ends the loop.
            rw [hnone] at hfetched
            rw [collectFrom_empty iters hlength hfetched,
              List.take_of_length_le (List.drop_eq_nil_iff.mp hnone)]
            refine ⟨rfl, ?_⟩
            rw [List.length_append, List.length_singleton]
            omega
          · -- One page less is left.
            have hpage := hnonempty hnone
            obtain ⟨pages, rfl⟩ : ∃ n, pages = n + 1 :=
              Nat.exists_eq_succ_of_ne_zero fun hzero =>
                hnone (by rw [hzero] at hpages; exact hpages)
            rw [afterPages] at hpages
            have hnext := List.prefix_iff_eq_take.mp hprefix
            have hle := hprefix.length_le
            generalize page (sz.kResultScratch - 3) (table.drop names) = entries at *
            have htake : (table.take names).map methodInfo ++ entries.map methodInfo
                = (table.take (names + entries.length)).map methodInfo := by
              rw [← List.map_append, List.take_add, ← hnext]
            have hnew : (((table.take names).map methodInfo ++ entries.map methodInfo).map
                MethodInfo.name).Nodup := by
              rw [htake, List.map_map]
              exact hnodup.sublist ((List.take_sublist _ _).map _)
            have hsome : entries.map methodInfo ≠ [] :=
              fun hnil => hpage (List.map_eq_nil_iff.mp hnil)
            have hlinked := hlater _ _ hcall (parseRpcList_page _) hsome
            rw [addPage_new 0 hnew, htake] at hlinked
            rw [List.drop_drop] at hpages
            rw [List.length_drop] at hle
            rw [List.length_cons] at hhops
            obtain ⟨hreturned, hrequests⟩ := ih hready' hsame (by omega) hpages (by omega)
              (by omega) hlinked (requests ++ [(sys.call names hop hop.reads).2.1])
            rw [collectFrom_page iters hlength hsome hnew hfetched, htake]
            refine ⟨hreturned, hrequests.trans ?_⟩
            rw [List.length_append, List.length_singleton]
            omega

/-- **`list` returns the table**, each method once and in the order of the binds, and asks once
more than there are pages at most. -/
theorem list_returns (hmin : 32 ≤ sz.bufSize) (hmax : sz.bufSize ≤ 4000) {sys : System sz σ}
    (hready : sys.Ready) (hfits : EntriesFit sz sys.device.handlers)
    (hnodup : (sys.device.handlers.map Entry.name).Nodup) {pages : Nat}
    (hpages : afterPages (sz.kResultScratch - 3) pages sys.device.handlers = [])
    (henough : pages ≤ kMaxListPages) {hops : List (Hop sz σ)}
    (hhops : min kMaxListPages (pages + 1) ≤ hops.length) (hlinked : Linked sys [] hops) :
    (sys.client.list (hops.map Hop.exchange)).2 = .returned (sys.device.handlers.map methodInfo) ∧
      (sys.client.list (hops.map Hop.exchange)).1.requests.length ≤ pages + 1 := by
  have hsmall : sz.kResultScratch < 2 ^ 16 := by
    rw [kResultScratch]
    split <;> omega
  -- Entries that fit are shorter than the fields of their sizes can say.
  have hmeasured : Measured (sz.kResultScratch - 3) sys.device.handlers := fun entry _ hsize => by
    unfold entrySize listEntrySize at hsize
    omega
  -- The pages are few, so the table is shorter than 2 ^ 32.
  have hcount : sys.device.handlers.length < 2 ^ 32 := by
    have hle := length_le_of_afterPages pages hmeasured hpages
    have hbound : pages * (sz.kResultScratch - 3) ≤ kMaxListPages * 2 ^ 16 :=
      Nat.mul_le_mul henough (by omega)
    unfold kMaxListPages at hbound
    omega
  -- The loop collects the pages one by one, from an empty list on.
  have hloop := collectFrom_returns hmin hmax hfits hnodup hcount kMaxListPages hready rfl
    (Nat.zero_le _) hpages henough hhops hlinked []
  rw [List.length_nil, Nat.zero_add] at hloop
  exact hloop

/-- A hop with one read, of one response. -/
theorem System.faithful_of_response {sys : System sz σ} (hready : sys.Ready) {names : Nat}
    (hnames : names < 2 ^ 32) (payload : List UInt8) {request bytes : List UInt8} {start now : Nat}
    (hrequest : request = (sys.client.startCall RPC.writesAll (text "rpc.list")
      [.int (Int64.ofNat names)]).2.1)
    (hunread : sys.unread = [])
    (hwrites : sys.writes ⟨request.map .byte, start, [(now, bytes)]⟩ = [.frame payload bytes])
    (hresponse : ∀ rest, payload ≠ 0x93 :: 0x02 :: rest)
    (hnow : now < start + sys.client.opts.timeout) :
    sys.Faithful names ⟨request.map .byte, start, [(now, bytes)]⟩ where
  -- No handler runs but the one asked for.
  steady := List.forall_mem_map.mpr fun _ _ => trivial
  request := by
    rw [← hrequest, bytesOf, List.flatMap_map]
    exact List.flatMap_singleton' request
  inOrder := by
    rw [System.stream, hunread, hwrites]
    simp [Hop.received, sentBytes, Sent.bytes]
  -- The only frame on the line is the response.
  complete := by
    intro before x after hsplit _
    rw [hwrites] at hsplit
    cases before with
    | nil =>
        obtain ⟨rfl, -⟩ := List.cons.inj hsplit
        simp [hunread, Hop.received, sentBytes, Sent.bytes]
    | cons first before =>
        obtain ⟨-, hnil⟩ := List.cons.inj hsplit
        simp at hnil
  inTime := by simpa using hnow
  -- The only read is the one that brings it.
  made := by
    intro earlier last hreads
    obtain ⟨rfl, -⟩ : earlier = [] ∧ [(now, bytes)] = [last] := by
      cases earlier with
      | nil => exact ⟨rfl, hreads⟩
      | cons first earlier =>
          obtain ⟨-, hnil⟩ := List.cons.inj hreads
          simp at hnil
    have hroom : (requestPayload sys.client.nextMsgid (text "rpc.list")
        [.int (Int64.ofNat names)]).length ≤ sys.client.opts.maxFrame :=
      (listPayload_length_le sys.client.nextMsgid hnames).trans hready.room
    rw [System.call, RPC.callValues_hear hready.sized, RPC.hearRequest,
      RPC.requestError_writesAll hroom]
    rfl
  -- And the response is no notification.
  legible := by
    intro x hx haside
    rw [hwrites, List.mem_singleton] at hx
    subst hx
    obtain ⟨⟨name, args, hnotification⟩, -⟩ := haside
    obtain ⟨bs, hbs⟩ := encodings_notification name args
    exact absurd (hnotification.trans hbs) (hresponse bs)

/-- The page that a call returns, in the condition on the later hops. -/
theorem System.page_parsed {sys : System sz σ} {names : Nat} {hop : Hop sz σ}
    {listed page : List MethodInfo} {value : Value}
    (hcall : (sys.call names hop hop.reads).2.2 = .returned (.array (listed.map MethodInfo.value)))
    (hvalue : (sys.call names hop hop.reads).2.2 = .returned value)
    (hparsed : parseRpcList value = .ok page) : listed = page := by
  rw [← RPC.CallOutcome.returned.inj (hcall.symm.trans hvalue), parseRpcList_page] at hparsed
  exact Except.ok.inj hparsed

/-- A board with the smallest buffer: every handler has a page of its own. -/
def narrow : ServerSize :=
  { small with
    maxHandlers := 2
    bufSize := 32
    header_fits := Nat.le_of_ble_eq_true rfl }

/-- The handlers `f` and `g` of a device, which a new client lists. -/
def pagedSystem : System narrow Unit where
  client := RPC.new .default
  device := ([[0x66], [0x67]].foldl (fun (s : Server narrow Unit) name =>
    s.bind ⟨name, fun _ sketch => .done (⟨[.int 7], none⟩, sketch), rawSignature⟩)
      (Server.new narrow () fun _ => 0)).begin
  unread := []

/-- A request for the page at `names`, and its response. -/
def pagedHop (request response : List UInt8) (start : Nat) : Hop narrow Unit where
  events := request.map .byte
  start := start
  reads := [(start + 1, response)]

/-- The page of `f`. -/
def firstHop : Hop narrow Unit :=
  pagedHop [0x00, 0x02, 0x94, 0x0c, 0x01, 0xa8, 0x72, 0x70, 0x63, 0x2e, 0x6c, 0x69, 0x73, 0x74,
    0x91, 0x03, 0xe7, 0xee, 0x00]
    [0x00, 0x06, 0x94, 0x01, 0x01, 0xc0, 0xdc, 0x12, 0x01, 0x92, 0xa1, 0x66, 0xaa, 0x28, 0x2e, 0x2e,
      0x2e, 0x29, 0x2d, 0x3e, 0x61, 0x6e, 0x79, 0x6f, 0x48, 0x00] 0

/-- The page of `g`. -/
def secondHop : Hop narrow Unit :=
  pagedHop [0x00, 0x02, 0x94, 0x0f, 0x02, 0xa8, 0x72, 0x70, 0x63, 0x2e, 0x6c, 0x69, 0x73, 0x74,
    0x91, 0x01, 0xf2, 0x50, 0x00]
    [0x00, 0x06, 0x94, 0x01, 0x02, 0xc0, 0xdc, 0x12, 0x01, 0x92, 0xa1, 0x67, 0xaa, 0x28, 0x2e, 0x2e,
      0x2e, 0x29, 0x2d, 0x3e, 0x61, 0x6e, 0x79, 0x1e, 0x3d, 0x00] 5

/-- The empty page. -/
def lastHop : Hop narrow Unit :=
  pagedHop [0x00, 0x02, 0x94, 0x0f, 0x03, 0xa8, 0x72, 0x70, 0x63, 0x2e, 0x6c, 0x69, 0x73, 0x74,
    0x91, 0x02, 0xc1, 0x46, 0x00]
    [0x00, 0x08, 0x94, 0x01, 0x03, 0xc0, 0x90, 0x04, 0x89, 0x00] 10

/-- Two handlers, each on a page of its own, and the empty page that ends the list: three requests.
-/
theorem list_returns_paged :
    (pagedSystem.client.list ([firstHop, secondHop, lastHop].map Hop.exchange)).2
        = .returned [⟨[0x66], text "(...)->any"⟩, ⟨[0x67], text "(...)->any"⟩] ∧
      (pagedSystem.client.list ([firstHop, secondHop, lastHop].map Hop.exchange)).1.requests.length
        ≤ 3 := by
  have hready : pagedSystem.Ready :=
    ⟨RPC.new_sized _, by decide, ⟨.new _, [], [], Demux.new_between _, by simp, rfl, rfl⟩,
      Demux.new_between _⟩
  have hfits : EntriesFit narrow pagedSystem.device.handlers := by
    show ∀ entry ∈ pagedSystem.device.handlers, _
    decide +kernel
  have hcount : pagedSystem.device.handlers.length < 2 ^ 32 := by decide +kernel
  -- The pages of the table.
  have hf : (page (narrow.kResultScratch - 3) pagedSystem.device.handlers).map methodInfo
      = [⟨[0x66], text "(...)->any"⟩] := by
    decide +kernel
  have hg : (page (narrow.kResultScratch - 3) (pagedSystem.device.handlers.drop 1)).map methodInfo
      = [⟨[0x67], text "(...)->any"⟩] := by
    decide +kernel
  have hlist : pagedSystem.device.handlers.map methodInfo
      = [⟨[0x66], text "(...)->any"⟩, ⟨[0x67], text "(...)->any"⟩] := by
    decide +kernel
  -- The three calls.
  have hfirst : pagedSystem.Faithful 0 firstHop := by
    refine System.faithful_of_response hready (by decide) [0x94, 0x01, 0x01, 0xc0, 0xdc, 0x00,
      0x01, 0x92, 0xa1, 0x66, 0xaa, 0x28, 0x2e, 0x2e, 0x2e, 0x29, 0x2d, 0x3e, 0x61, 0x6e, 0x79]
      ?_ rfl ?_ (by rintro rest ⟨⟩) (by decide)
    · decide +kernel
    · decide +kernel
  obtain ⟨hcall, hready₁, htable₁⟩ := System.call_page hready (by decide) (by decide) hfits hcount
    (by decide) hfirst
  have hsecond : (pagedSystem.after 0 firstHop).Faithful 1 secondHop := by
    refine System.faithful_of_response hready₁ (by decide) [0x94, 0x01, 0x02, 0xc0, 0xdc, 0x00,
      0x01, 0x92, 0xa1, 0x67, 0xaa, 0x28, 0x2e, 0x2e, 0x2e, 0x29, 0x2d, 0x3e, 0x61, 0x6e, 0x79]
      ?_ ?_ ?_ (by rintro rest ⟨⟩) ?_
    · decide +kernel
    · decide +kernel
    · decide +kernel
    · decide +kernel
  obtain ⟨hcall₁, hready₂, -⟩ := System.call_page hready₁ (by decide) (by decide)
    (htable₁ ▸ hfits) (htable₁ ▸ hcount) (by decide) hsecond
  rw [htable₁] at hcall₁
  have hlast : ((pagedSystem.after 0 firstHop).after 1 secondHop).Faithful 2 lastHop := by
    refine System.faithful_of_response hready₂ (by decide) [0x94, 0x01, 0x03, 0xc0, 0x90]
      ?_ ?_ ?_ (by rintro rest ⟨⟩) ?_
    · decide +kernel
    · decide +kernel
    · decide +kernel
    · decide +kernel
  have hlinked : Linked pagedSystem [] [firstHop, secondHop, lastHop] := by
    refine ⟨hfirst, fun value listed hvalue hparsed _ => ?_⟩
    obtain rfl := hf.symm.trans (System.page_parsed hcall hvalue hparsed)
    refine ⟨hsecond, fun value listed hvalue hparsed _ => ?_⟩
    obtain rfl := hg.symm.trans (System.page_parsed hcall₁ hvalue hparsed)
    exact ⟨hlast, fun _ _ _ _ _ => trivial⟩
  have hpages : afterPages (narrow.kResultScratch - 3) 2 pagedSystem.device.handlers = [] := by
    decide +kernel
  have hreturns := list_returns (by decide) (by decide) hready hfits (by decide +kernel) hpages
    (by decide) (by decide) hlinked
  rw [hlist] at hreturns
  exact hreturns

end SerialRpc
