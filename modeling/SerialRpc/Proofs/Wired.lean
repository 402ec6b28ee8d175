import SerialRpc.Wired
import SerialRpc.Proofs.Framing.Recovery

/-!
# `SerialRpc.Proofs.Wired`: the bytes on the line carry messages

* `overhearAll_reads`: what the client's demultiplexer makes of the writes of a device.
* `step_refines`: a move on the bytes is the same move on the messages, but for how many of them a
  read completes.
* `run_refines`: so is a run, and the two parties end in the same states. No message is lost,
  doubled, altered or overtaken on the line, however the reads cut it.
-/

set_option autoImplicit false

namespace SerialRpc

variable {sz : ServerSize} {σ : Type}

/-! ### What a demultiplexer makes of a write -/

/-- A frame between frames is its message. -/
theorem messages_frame {frameMax : Nat} (lineMax : Nat) {s : Splitter} (htext : s.block = none)
    {payload : List UInt8} (hfit : (frameBody payload).length ≤ frameMax) :
    (splitter frameMax lineMax).messages s (frameBytes payload) = [.frame payload] ∧
      (splitter frameMax lineMax).final s (frameBytes payload) = s := by
  obtain ⟨hfinal, houtputs⟩ := Splitter.frame_from_text frameMax lineMax s payload htext hfit
  refine ⟨?_, hfinal⟩
  rw [Mealy.messages, houtputs, List.reduceOption_append]
  simp [Splitter.silent]

/-- What the client's demultiplexer makes of a write of a device whose frames are not too large
for it. -/
theorem overhear_reads (hwide : sz.kFrameMax ≤ hostDemuxSize.frameMax) {line : Splitter}
    (htext : line.block = none) {write : Sent} (hwrite : write.OnWire sz) :
    (splitter hostDemuxSize.frameMax hostDemuxSize.lineMax).messages line write.bytes
        = (overhear line write).1 ∧
      (splitter hostDemuxSize.frameMax hostDemuxSize.lineMax).final line write.bytes
        = (overhear line write).2 ∧
      (overhear line write).2.block = none := by
  -- A frame ends where it began, and text stays text.
  cases write with
  | frame payload bytes =>
      obtain ⟨rfl, hfits⟩ := hwrite
      have hbody : (frameBody payload).length ≤ hostDemuxSize.frameMax :=
        (frameBody_length_le_of_le hfits).trans hwide
      obtain ⟨hmessages, hfinal⟩ := messages_frame hostDemuxSize.lineMax htext hbody
      exact ⟨hmessages, hfinal, htext⟩
  | text bytes =>
      exact ⟨rfl, rfl, (Splitter.text_frameless _ _ line bytes htext hwrite).2⟩

/-- The same of several writes. -/
theorem overhearAll_reads (hwide : sz.kFrameMax ≤ hostDemuxSize.frameMax) {line : Splitter}
    (htext : line.block = none) {writes : List Sent} (hwrites : ∀ w ∈ writes, w.OnWire sz) :
    (splitter hostDemuxSize.frameMax hostDemuxSize.lineMax).messages line
        (writes.flatMap Sent.bytes) = (overhearAll line writes).1 ∧
      (splitter hostDemuxSize.frameMax hostDemuxSize.lineMax).final line
        (writes.flatMap Sent.bytes) = (overhearAll line writes).2 ∧
      (overhearAll line writes).2.block = none := by
  -- By induction on the writes, from one place between frames to the next.
  induction writes generalizing line with
  | nil => exact ⟨rfl, rfl, htext⟩
  | cons write writes ih =>
      obtain ⟨hwrite, hlater⟩ := List.forall_mem_cons.mp hwrites
      obtain ⟨hmessages, hfinal, hbetween⟩ := overhear_reads hwide htext hwrite
      obtain ⟨hmessages', hfinal', hbetween'⟩ := ih hbetween hlater
      rw [List.flatMap_cons, Mealy.messages_append, Mealy.final_append, hmessages, hfinal,
        hmessages', hfinal']
      exact ⟨rfl, rfl, hbetween'⟩

/-! ### The relation -/

/-- The demultiplexer `d` will report `queue` over the bytes `flight`, and be between frames
behind them, with the line of text `line`. -/
def Awaits {size : DemuxSize} (d : Demux size) (flight : List UInt8) (queue : List Report)
    (line : Splitter) : Prop :=
  ∃ s : Splitter, d.Models s ∧
    (splitter size.frameMax size.lineMax).Conveys s flight queue line ∧ line.block = none

namespace Awaits

variable {size : DemuxSize} {d : Demux size} {flight : List UInt8} {queue : List Report}
  {line : Splitter}

/-- Behind the bytes in flight the receiver is between frames. -/
theorem between (h : Awaits d flight queue line) : line.block = none := by
  obtain ⟨s, -, -, hnone⟩ := h
  exact hnone

/-- Bytes that bring the splitter from between frames to between frames again. -/
theorem send (h : Awaits d flight queue line) {bytes : List UInt8} {reports : List Report}
    {line' : Splitter}
    (hmessages : (splitter size.frameMax size.lineMax).messages line bytes = reports)
    (hfinal : (splitter size.frameMax size.lineMax).final line bytes = line')
    (hbetween : line'.block = none) : Awaits d (flight ++ bytes) (queue ++ reports) line' := by
  obtain ⟨s, hmodels, hconveys, -⟩ := h
  subst hmessages hfinal
  exact ⟨s, hmodels, hconveys.send bytes, hbetween⟩

/-- The first bytes are read. What is reported over them is the front of the queue. -/
theorem receive (h : Awaits d flight queue line) (n : Nat) :
    ∃ k, (demux size).messages d (flight.take n) = queue.take k ∧
      Awaits ((demux size).final d (flight.take n)) (flight.drop n) (queue.drop k) line := by
  obtain ⟨s, hmodels, hconveys, hbetween⟩ := h
  have hsame := (Demux.demux_simulation size).messages hmodels (flight.take n)
  obtain ⟨rest, hqueue, hrest⟩ := hconveys.receive n
  refine ⟨((demux size).messages d (flight.take n)).length, ?_, ?_⟩
  · rw [hqueue, hsame, List.take_left]
  · rw [hqueue, hsame, List.drop_left]
    exact ⟨_, (Demux.demux_simulation size).final hmodels _, hrest, hbetween⟩

/-- Nothing is awaited of nothing. -/
theorem drained (h : Awaits d [] queue line) : queue = [] := by
  obtain ⟨s, -, hconveys, -⟩ := h
  exact hconveys.drained.1

end Awaits

/-- The bytes of `x` carry the messages of `y`, and the parties are in the same states, but for
their demultiplexers. -/
structure Carry (x : Wired sz σ) (y : Dialogue sz σ) : Prop where
  client : x.client = y.client.withDemux x.client.demux
  device : x.device = y.device.withDemux x.device.demux
  calling : x.calling = y.calling
  toDevice : ∃ line, Awaits x.device.demux x.toDevice y.toDevice line
  toClient : Awaits x.client.demux x.toClient y.toClient y.line
  sized : y.client.Sized
  clean : y.device.Clean

/-! ### The client sends -/

/-- The client's move sends its payload, if that fits, and leaves the demultiplexer alone. -/
structure SendsPayload (c : RPC) (payload : List UInt8)
    (sent : RPC × List UInt8 × Option HostError) : Prop where
  bytes : sent.2.1 = RPC.written c.opts.maxFrame payload
  demux : sent.1.demux = c.demux
  sized : sent.1.Sized
  opts : sent.1.opts = c.opts

/-- A notification sends its payload, and no other. -/
theorem notifyValues_sends {c : RPC} (h : c.Sized) (method : List UInt8) (args : List Value) :
    SendsPayload c (notifyPayload method args) (c.notifyValues RPC.writesAll method args) := by
  obtain ⟨txPayload, txFrame, hpayload, hframe, hsend⟩ := RPC.sendPacked_eq h RPC.writesAll
    (RPC.packNotify_eq method args) ⟨"serial_rpc: notification payload exceeds max_frame"⟩
  unfold RPC.notifyValues
  rw [hsend]
  cases RPC.sendError c.opts.maxFrame RPC.writesAll
    ⟨"serial_rpc: notification payload exceeds max_frame"⟩
    (PackOp.encodings (notifyOps method args)) <;> exact ⟨rfl, rfl, ⟨hpayload, hframe⟩, rfl⟩

/-- A call that starts sends its request, and counts its id. -/
theorem started_sends {c : RPC} {method : List UInt8} {args : List Value}
    {started : RPC × List UInt8 × Option HostError}
    (h : RPC.Started c RPC.writesAll method args started) :
    SendsPayload c (requestPayload c.nextMsgid method args) started where
  bytes := h.bytes
  demux := h.launched.demux
  sized := h.launched.sized
  opts := h.launched.opts

/-- A payload of the client goes on the line as its frame, or not at all. -/
theorem Awaits.sendPayload {d : Demux sz.demuxSize} {flight : List UInt8} {queue : List Report}
    {line : Splitter} (h : Awaits d flight queue line) {maxFrame : Nat} {payload : List UInt8}
    (hheard : sz.Hears maxFrame payload) :
    Awaits d (flight ++ RPC.written maxFrame payload)
      (queue ++ (if payload.length ≤ maxFrame then [.frame payload] else [])) line := by
  have hnone := h.between
  unfold RPC.written
  -- A payload that the client cannot hold is not sent at all.
  by_cases hfits : payload.length ≤ maxFrame
  · have hbody : (frameBody payload).length ≤ sz.demuxSize.frameMax :=
      frameBody_length_le_of_le (hheard hfits)
    obtain ⟨hmessages, hfinal⟩ := messages_frame sz.demuxSize.lineMax hnone hbody
    rw [if_pos hfits, if_pos hfits]
    exact h.send hmessages hfinal hnone
  · rw [if_neg hfits, if_neg hfits, List.append_nil, List.append_nil]
    exact h

namespace Carry

variable {x : Wired sz σ} {y : Dialogue sz σ}

/-- The client sends. `sent` is what it does in `x`, `sent'` what it does in `y`. -/
theorem clientSends (h : Carry x y) {payload : List UInt8}
    {sent sent' : RPC × List UInt8 × Option HostError}
    (hheard : sz.Hears y.client.opts.maxFrame payload)
    (hsends : SendsPayload y.client payload sent')
    (hsame : sent = (sent'.1.withDemux x.client.demux, sent'.2)) :
    Carry (x.clientSends sent) (y.clientSends sent'.1 payload) := by
  obtain ⟨line, hqueue⟩ := h.toDevice
  subst hsame
  constructor
  · rfl
  · exact h.device
  · exact h.calling
  · refine ⟨line, ?_⟩
    show Awaits x.device.demux (x.toDevice ++ sent'.2.1) _ line
    rw [hsends.bytes]
    exact hqueue.sendPayload hheard
  · exact h.toClient
  · exact hsends.sized
  · exact h.clean

/-- The next call, by its method. -/
theorem calls (h : Carry x y) (method : List UInt8) :
    Carry { x with calling := method } { y with calling := method } where
  client := h.client
  device := h.device
  calling := rfl
  toDevice := h.toDevice
  toClient := h.toClient
  sized := h.sized
  clean := h.clean

/-- A change to the client that concerns neither its buffers nor its options nor its
demultiplexer. -/
theorem clientGoes (h : Carry x y) {c c' : RPC} (hsame : c = c'.withDemux x.client.demux)
    (hpayload : c'.txPayload = y.client.txPayload) (hframe : c'.txFrame = y.client.txFrame)
    (hopts : c'.opts = y.client.opts) :
    Carry { x with client := c } { y with client := c' } := by
  subst hsame
  constructor
  · rfl
  · exact h.device
  · exact h.calling
  · exact h.toDevice
  · exact h.toClient
  · exact ⟨by rw [hpayload, hopts, h.sized.payload], by rw [hframe, hopts, h.sized.frame]⟩
  · exact h.clean

/-! ### The device writes -/

/-- The device comes to a state that it keeps clean on the way to. -/
theorem deviceGoes (hwide : sz.kFrameMax ≤ hostDemuxSize.frameMax) (h : Carry x y)
    {s : Server sz σ} (hcleanly : Server.Cleanly y.device s) (d : Demux sz.demuxSize)
    {flight : List UInt8} {queue : List Report} (hqueue : ∃ line, Awaits d flight queue line) :
    Carry { x.deviceGoes (s.withDemux d) with toDevice := flight }
      { y.deviceGoes s with toDevice := queue } := by
  obtain ⟨hclean, during, hsent, hwire⟩ := hcleanly h.clean
  -- The device's demultiplexer has no part in what it writes.
  have hwritten : writtenBy y.device s = during := by
    rw [writtenBy, hsent, List.drop_left]
  have hwritten' : writtenBy x.device (s.withDemux d) = during := by
    rw [← hwritten, h.device]
    rfl
  obtain ⟨hmessages, hfinal, hbetween'⟩ := overhearAll_reads hwide h.toClient.between hwire
  constructor
  · exact h.client
  · rfl
  · exact h.calling
  · exact hqueue
  · show Awaits x.client.demux
      (x.toClient ++ (writtenBy x.device (s.withDemux d)).flatMap Sent.bytes)
      (y.toClient ++ (overhearAll y.line (writtenBy y.device s)).1)
      (overhearAll y.line (writtenBy y.device s)).2
    rw [hwritten, hwritten']
    exact h.toClient.send hmessages hfinal hbetween'
  · exact h.sized
  · exact hclean

/-- The client reads. -/
theorem pumps (h : Carry x y) (n : Nat)
    (hthrown : (x.client.feedBytes (x.toClient.take n)).2 = none) :
    ∃ k, x.told (.pump n) = y.told (.pump k) ∧
      (∀ report ∈ y.toClient.take k, reportThrows (some report) = false) ∧
      Carry (x.step (.pump n)) (y.step (.pump k)) := by
  -- `n` bytes complete some number of messages.
  obtain ⟨k, hmessages, hrest⟩ := h.toClient.receive n
  have hkeeps := (y.client.handleReports_keeps (y.toClient.take k)).toSameSetup
  have hread : (x.client.feedBytes (x.toClient.take n)).1
      = (y.client.handleReports (y.toClient.take k)).withDemux
          ((demux hostDemuxSize).final x.client.demux (x.toClient.take n)) := by
    rw [RPC.pumped_eq x.client _ hthrown, hmessages]
    conv_lhs => rw [h.client]
    rw [RPC.handleReports_withDemux, RPC.withDemux_withDemux, RPC.withDemux_demux]
  have hcaught := x.client.feedBytes_caught _ hthrown
  rw [hmessages] at hcaught
  refine ⟨k, hmessages, hcaught, ?_⟩
  constructor
  · show (x.client.feedBytes (x.toClient.take n)).1
      = (y.client.handleReports (y.toClient.take k)).withDemux
          (x.client.feedBytes (x.toClient.take n)).1.demux
    rw [hread]
    rfl
  · exact h.device
  · exact h.calling
  · exact h.toDevice
  · show Awaits (x.client.feedBytes (x.toClient.take n)).1.demux _ _ _
    rw [hread]
    exact hrest
  · show (y.client.handleReports (y.toClient.take k)).Sized
    exact ⟨by rw [hkeeps.txPayload, hkeeps.opts, h.sized.payload],
      by rw [hkeeps.txFrame, hkeeps.opts, h.sized.frame]⟩
  · exact h.clean

/-- The device polls. -/
theorem polls (hwide : sz.kFrameMax ≤ hostDemuxSize.frameMax) (h : Carry x y) (n : Nat) :
    ∃ k, Carry (x.step (.poll n)) (y.step (.poll k)) := by
  obtain ⟨line, hqueue⟩ := h.toDevice
  obtain ⟨k, hmessages, hrest⟩ := hqueue.receive n
  -- A poll reads some bytes, and what it reports over them is the front of the queue.
  have hpolled : x.device.poll (x.toDevice.take n)
      = ((y.device.handleReports (y.toDevice.take k)).checkAttachTimeout).withDemux
          ((demux sz.demuxSize).final x.device.demux (x.toDevice.take n)) := by
    rw [Server.poll, Server.polled_eq, hmessages]
    conv_lhs => rw [h.device]
    rw [Server.handleReports_withDemux, Server.withDemux_withDemux, Server.withDemux_demux,
      Server.checkAttachTimeout_withDemux]
  have hcleanly := (y.device.handleReports_cleanly (y.toDevice.take k)).trans
    (Server.checkAttachTimeout_cleanly _)
  refine ⟨k, ?_⟩
  show Carry { x.deviceGoes (x.device.poll (x.toDevice.take n)) with toDevice := _ } _
  rw [hpolled]
  exact h.deviceGoes hwide hcleanly _ ⟨line, hrest⟩

/-- A move that sends. -/
theorem sends (h : Carry x y) {payload : List UInt8} (calling : List UInt8)
    {sent sent' : RPC × List UInt8 × Option HostError}
    (hheard : sz.Hears y.client.opts.maxFrame payload)
    (hsends : SendsPayload y.client payload sent')
    (hsame : sent = (sent'.1.withDemux x.client.demux, sent'.2)) :
    Carry { x.clientSends sent with calling := calling }
      { y.clientSends sent'.1 payload with calling := calling } :=
  (h.clientSends hheard hsends hsame).calls calling

/-- Disconnecting on both levels, where the port is heard. -/
theorem disconnects (h : Carry x y)
    (hheard : Wired.Move.Heard y.client (.disconnect : Wired.Move sz σ)) :
    Carry (x.step .disconnect) (y.step .disconnect) := by
  have hsame := RPC.disconnect_withDemux y.client x.client.demux RPC.writesAll
  rw [← h.client] at hsame
  show Carry (x.clientSends _) (if y.client.attached then _ else y)
  -- Only a client that counts as attached has a word to say.
  by_cases hattached : y.client.attached = true
  · rw [if_pos hattached]
    refine h.clientSends (hheard _ (if_pos hattached)) ?_ hsame
    have hsent := notifyValues_sends h.sized (text "rpc.detach") []
    unfold RPC.disconnect
    rw [if_pos hattached]
    obtain ⟨bytes, demux, sized, opts⟩ := hsent
    generalize y.client.notifyValues RPC.writesAll (text "rpc.detach") [] = sent at *
    obtain ⟨c, written, _ | e⟩ := sent
    · exact ⟨bytes, demux, ⟨sized.payload, sized.frame⟩, opts⟩
    · exact ⟨bytes, demux, sized, opts⟩
  · have hnothing : x.client.disconnect RPC.writesAll = (x.client, [], none) := by
      rw [hsame, RPC.disconnect, if_neg hattached, ← h.client]
    rw [if_neg hattached, hnothing, Wired.clientSends, List.append_nil]
    exact h

end Carry

/-- Both models have the same moves. -/
theorem Carry.timely {x : Wired sz σ} {y : Dialogue sz σ} (h : Carry x y)
    {move : Wired.Move sz σ} (htimely : move.Timely x.client x.calling) :
    move.Timely y.client y.calling := by
  rw [h.client, h.calling] at htimely
  cases move <;> exact htimely

/-- A move that is heard at the level of bytes is heard at the level of messages. -/
theorem Carry.heard {x : Wired sz σ} {y : Dialogue sz σ} (h : Carry x y)
    {move : Wired.Move sz σ} (hheard : move.Heard x.client) : move.Heard y.client := by
  rw [h.client] at hheard
  cases move <;> exact hheard

/-- **One move on the bytes** is the same move on the messages. -/
theorem step_refines (hwide : sz.kFrameMax ≤ hostDemuxSize.frameMax) {x : Wired sz σ}
    {y : Dialogue sz σ} (h : Carry x y) {move : Wired.Move sz σ} (hpermits : x.Permits move) :
    ∃ move', move.Alike move' ∧ y.Permits move' ∧ x.told move = y.told move' ∧
      Carry (x.step move) (y.step move') := by
  obtain ⟨htimely, hheard, hcaught⟩ := hpermits
  have htimely' := h.timely htimely
  have hheard' := h.heard hheard
  -- All but `pump` cannot throw.
  have same (hpump : ∀ n, move ≠ .pump n) (hstep : Carry (x.step move) (y.step move)) :
      ∃ move', move.Alike move' ∧ y.Permits move' ∧ x.told move = y.told move' ∧
        Carry (x.step move) (y.step move') := by
    have htold : x.told move = y.told move := by
      cases move with
      | pump n => exact absurd rfl (hpump n)
      | _ => rfl
    exact ⟨move, .same move, ⟨htimely', hheard', fun n hn => absurd hn (hpump n)⟩, htold, hstep⟩
  cases move with
  | notify method args =>
      have hsame := RPC.notifyValues_withDemux y.client x.client.demux RPC.writesAll method args
      rw [← h.client] at hsame
      exact same (by rintro n ⟨⟩)
        (h.clientSends (hheard' _ rfl) (notifyValues_sends h.sized method args) hsame)
  | call method args =>
      have hsame := RPC.startCall_withDemux y.client x.client.demux RPC.writesAll method args
      rw [← h.client] at hsame
      have hstarted := RPC.startCall_started h.sized RPC.writesAll method args
      exact same (by rintro n ⟨⟩) (h.sends method (hheard' _ rfl) (started_sends hstarted) hsame)
  | probe method =>
      have hsame := RPC.startTry_withDemux y.client x.client.demux RPC.writesAll method
      rw [← h.client] at hsame
      have hstarted := RPC.startTry_started h.sized RPC.writesAll method
      exact same (by rintro n ⟨⟩) (h.sends method (hheard' _ rfl) (started_sends hstarted) hsame)
  | pump n =>
      obtain ⟨k, htold, hcaught', hpumped⟩ := h.pumps n (hcaught n rfl)
      refine ⟨.pump k, .pump n k, ⟨trivial, by rintro payload ⟨⟩, ?_⟩, htold, hpumped⟩
      rintro m ⟨⟩
      exact hcaught'
  | poll n =>
      obtain ⟨k, hpolled⟩ := h.polls hwide n
      exact ⟨.poll k, .poll n k, ⟨trivial, by rintro payload ⟨⟩, by rintro m ⟨⟩⟩, rfl, hpolled⟩
  | sketch event =>
      have hact : x.device.act event = (y.device.act event).withDemux x.device.demux := by
        rw [← Server.act_withDemux htimely, ← h.device]
      refine same (by rintro n ⟨⟩) ?_
      show Carry (x.deviceGoes (x.device.act event)) _
      rw [hact]
      exact h.deviceGoes hwide (Server.act_cleanly htimely y.device) _ h.toDevice
  | disconnect => exact same (by rintro n ⟨⟩) (h.disconnects hheard')
  | returns =>
      exact same (by rintro n ⟨⟩) (h.clientGoes (by rw [h.client]; rfl) rfl rfl rfl)
  | expires =>
      exact same (by rintro n ⟨⟩) (h.clientGoes (by rw [h.client]; rfl) rfl rfl rfl)
  | replied =>
      exact same (by rintro n ⟨⟩) (h.clientGoes (by rw [h.client]; rfl) rfl rfl rfl)
  | givesUp =>
      exact same (by rintro n ⟨⟩) (h.clientGoes (by rw [h.client]; rfl) rfl rfl rfl)
  | attached =>
      exact same (by rintro n ⟨⟩) (h.clientGoes (by rw [h.client]; rfl) rfl rfl rfl)

/-- Every run on the bytes is one on the messages. -/
theorem steps_refine (hwide : sz.kFrameMax ≤ hostDemuxSize.frameMax) {x : Wired sz σ}
    {y : Dialogue sz σ} (h : Carry x y) {moves : List (Wired.Move sz σ)}
    (hpermits : x.PermitsAll moves) :
    ∃ moves', List.Forall₂ Wired.Move.Alike moves moves' ∧ y.PermitsAll moves' ∧
      x.toldIn moves = y.toldIn moves' ∧ Carry (x.run moves) (y.run moves') := by
  induction moves generalizing x y with
  | nil => exact ⟨[], .nil, trivial, rfl, h⟩
  | cons move moves ih =>
      obtain ⟨hmove, hmoves⟩ := hpermits
      obtain ⟨move', halike, hmove', htold, hstep⟩ := step_refines hwide h hmove
      obtain ⟨moves', halikes, hmoves', htolds, hrun⟩ := ih hstep hmoves
      refine ⟨move' :: moves', .cons halike halikes, ⟨hmove', hmoves'⟩, ?_, hrun⟩
      rw [Wired.toldIn, Dialogue.toldIn, htold, htolds]

/-! ### From the start -/

/-- A client and a device that go together: the client has room for what the device frames, and
neither is in the middle of a frame. -/
structure Wired.Fit (client : RPC) (device : Server sz σ) : Prop where
  wide : sz.kFrameMax ≤ hostDemuxSize.frameMax
  sized : client.Sized
  clean : device.Clean
  toDevice : device.demux.Between
  toClient : client.demux.Between

/-- What fits begins with a carried run: nothing is on the wire yet. -/
theorem Wired.Fit.carry {client : RPC} {device : Server sz σ} (h : Wired.Fit client device) :
    ∃ line, client.demux.Models line ∧
      Carry (.start client device) (.start client device line) := by
  obtain ⟨line, hline, hbetween⟩ := h.toClient
  obtain ⟨other, hother, hbetween'⟩ := h.toDevice
  exact ⟨line, hline, rfl, rfl, rfl, ⟨other, other, hother, .idle _, hbetween'⟩,
    ⟨line, hline, .idle _, hbetween⟩, h.sized, h.clean⟩

/-- A read of the client. -/
theorem Wired.Permits.pump {x : Wired sz σ} {n : Nat}
    (hcaught : (x.client.feedBytes (x.toClient.take n)).2 = none) : x.Permits (.pump n) where
  timely := trivial
  heard := by rintro payload ⟨⟩
  caught := by
    rintro m ⟨⟩
    exact hcaught

/-- A `poll` of the device. -/
theorem Wired.Permits.poll (x : Wired sz σ) (n : Nat) : x.Permits (.poll n) where
  timely := trivial
  heard := by rintro payload ⟨⟩
  caught := by rintro m ⟨⟩

/-- A call that begins while no other one waits. -/
theorem Wired.Permits.call {x : Wired sz σ} {method : List UInt8} {args : List Value}
    (hidle : x.client.pendingMsgid = none)
    (hfits : (requestPayload x.client.nextMsgid method args).length ≤ sz.bufSize) :
    x.Permits (.call method args) where
  timely := hidle
  heard := by
    rintro payload ⟨⟩ _
    exact hfits
  caught := by rintro m ⟨⟩

/-- A client for small boards, and a board that answers 7. -/
theorem answering_fit : Wired.Fit (RPC.new ⟨1000, 64⟩) Server.answering where
  wide := by decide
  sized := RPC.new_sized _
  clean := by
    refine (Server.bind_cleanly ?_ _ (Server.new_clean Server.small () _)).1
    intro args state
    trivial
  toDevice := Demux.new_between _
  toClient := Demux.new_between _

/-- One call. The request is read in two parts, and the response too. -/
def sevenMoves : List (Wired.Move Server.small Unit) :=
  [.call [0x66] [], .poll 5, .poll 20, .pump 3, .pump 20, .returns]

/-- Each of its moves is permitted where it is made. -/
theorem sevenMoves_permitted :
    (Wired.start (RPC.new ⟨1000, 64⟩) Server.answering).PermitsAll sevenMoves := by
  refine ⟨.call rfl (by decide +kernel), .poll _ 5, .poll _ 20, .pump ?_, .pump ?_,
    ⟨⟨?_, ?_⟩, ?_, ?_⟩, trivial⟩
  · decide +kernel
  · decide +kernel
  · decide +kernel
  · decide +kernel
  · rintro payload ⟨⟩
  · rintro n ⟨⟩

end SerialRpc
