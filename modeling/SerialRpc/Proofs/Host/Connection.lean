import SerialRpc.Proofs.Host.Calls

/-!
# `SerialRpc.Proofs.Host.Connection`: the text callback behind `connect`

`connect` installs a temporary text callback while it waits for the device, and puts the one
before back behind its waiting loop. Nothing puts it back when an exception leaves the loop.
`waitThrows` says when that happens, in terms of what the clock, the port and the device do.

* `connect_restores_iff`: `connect` leaves the text callback as it found it exactly when no
  exception leaves the loop.
-/

set_option autoImplicit false

namespace SerialRpc

open MsgPack Reader

namespace RPC

/-- An exception leaves the waiting loop of `connect`: a ping cannot be sent, a read fails, a
frame cannot be decoded, or the device answers a ping with an error. -/
def waitThrows (maxFrame deadline : Nat) (msgid : UInt32) (d : Demux hostDemuxSize) :
    List Probe → Bool
  | [] => false
  | probe :: probes =>
      if deadline ≤ probe.now then false
      else
        let heard := hearRequest maxFrame probe.write msgid (text "rpc.ping") []
          (probe.start + min (deadline - probe.now) 250) d probe.attempts
        match heard.ending with
        | .failed _ => true
        | .answered isError _ => isError
        | .waiting => false
        | .expired =>
            if heard.ready then false
            else waitThrows maxFrame deadline (msgid + 1) heard.demux probes

/-- The loop throws, by its outcome. -/
def WaitOutcome.isThrew : WaitOutcome → Bool
  | .threw _ => true
  | _ => false

/-- Putting the old text callback back makes no request. -/
theorem handOn_later {count : UInt32} {c c' : RPC} (h : Later count c c') (temporary : Nat)
    (previous : Option Nat) (before : Nat) : Later count c (c'.handOn temporary previous before) :=
  ⟨⟨h.sized.payload, h.sized.frame⟩, h.opts, h.nextMsgid, h.attached, h.onLog, h.onText,
    h.handlers, h.onAny⟩

/-- The waiting loop is some pings, and the setup stays as it is. -/
theorem waitForDevice_later {c : RPC} (h : c.Sized) (temporary : Nat) (previous : Option Nat)
    (deadline : Nat) (probes : List Probe) (memory : Memory := .unlimited) :
    ∃ count, Later count c (c.waitForDevice temporary previous deadline probes memory).1 := by
  -- By induction on the probes: each one is a request, and there is another only if it heard
  -- nothing.
  induction probes generalizing c with
  | nil => exact ⟨0, Later.refl h⟩
  | cons probe probes ih =>
      rw [waitForDevice]
      split
      · exact ⟨0, Later.refl h⟩
      · have htried := tryRequest_later h probe.write (text "rpc.ping")
          (min (deadline - probe.now) 250) probe.start probe.attempts memory
        rcases htry : c.tryRequest probe.write (text "rpc.ping") (min (deadline - probe.now) 250)
          probe.start probe.attempts memory with ⟨c', bytes, outcome⟩
        rw [htry] at htried
        have hhanded := handOn_later htried temporary previous c.dispatched.length
        cases outcome with
        | replied v => exact ⟨1, hhanded⟩
        | threw e => exact ⟨1, hhanded⟩
        | waiting => exact ⟨1, hhanded⟩
        | nothing =>
            simp only
            split
            · exact ⟨1, hhanded⟩
            · obtain ⟨count, hlater⟩ := ih hhanded.sized
              exact ⟨1 + count, hhanded.trans hlater⟩

/-- What the waiting loop of `connect` comes to: its outcome, and the next message id and the
demultiplexer behind it. -/
structure Wait where
  outcome : WaitOutcome
  msgid : UInt32
  demux : Demux hostDemuxSize

/-- The waiting loop of `connect`, as a function of what arrives. -/
def hearDevice (maxFrame deadline : Nat) (msgid : UInt32) (d : Demux hostDemuxSize)
    (probes : List Probe) (memory : Memory := .unlimited) : Wait :=
  match probes with
  | [] => ⟨.waiting, msgid, d⟩
  | probe :: probes =>
      if deadline ≤ probe.now then ⟨.timedOut, msgid, d⟩
      else
        let heard := hearRequest maxFrame probe.write msgid (text "rpc.ping") []
          (probe.start + min (deadline - probe.now) 250) d probe.attempts memory
        match heard.ending with
        | .failed e => ⟨.threw e, msgid + 1, heard.demux⟩
        | .answered true error => ⟨.threw (.remote (text "rpc.ping") error), msgid + 1, heard.demux⟩
        | .answered false _ => ⟨.alive, msgid + 1, heard.demux⟩
        | .waiting => ⟨.waiting, msgid + 1, heard.demux⟩
        | .expired =>
            if heard.ready then ⟨.alive, msgid + 1, heard.demux⟩
            else hearDevice maxFrame deadline (msgid + 1) heard.demux probes memory

/-- `waitThrows` is one part of it. -/
theorem waitThrows_eq (maxFrame deadline : Nat) (msgid : UInt32) (d : Demux hostDemuxSize)
    (probes : List Probe) :
    waitThrows maxFrame deadline msgid d probes
      = (hearDevice maxFrame deadline msgid d probes).outcome.isThrew := by
  -- By induction on the probes. An answer with an error throws, and everything else goes on.
  induction probes generalizing msgid d with
  | nil => rfl
  | cons probe probes ih =>
      rw [waitThrows, hearDevice]
      by_cases hnow : deadline ≤ probe.now
      · rw [if_pos hnow, if_pos hnow]
        rfl
      · rw [if_neg hnow, if_neg hnow]
        generalize hearRequest maxFrame probe.write msgid (text "rpc.ping") []
          (probe.start + min (deadline - probe.now) 250) d probe.attempts = heard
        obtain ⟨ending, demux, ready⟩ := heard
        cases ending with
        | failed e => rfl
        | waiting => rfl
        | answered isError value => cases isError <;> rfl
        | expired =>
            cases ready with
            | true => rfl
            | false => exact ih (msgid + 1) demux

/-- The loop ends as `hearDevice` says. If the device is there, it leaves the ids and the
demultiplexer as `hearDevice` says, too. -/
theorem waitForDevice_hear {c : RPC} (h : c.Sized) {temporary : Nat}
    (honText : c.onText = some temporary) (previous : Option Nat) (deadline : Nat)
    (probes : List Probe) (memory : Memory) {wait : Wait}
    (hwait : hearDevice c.opts.maxFrame deadline c.nextMsgid c.demux probes memory = wait) :
    (c.waitForDevice temporary previous deadline probes memory).2.2 = wait.outcome ∧
      (wait.outcome = .alive →
        (c.waitForDevice temporary previous deadline probes memory).1.nextMsgid = wait.msgid ∧
          (c.waitForDevice temporary previous deadline probes memory).1.demux = wait.demux) := by
  induction probes generalizing c with
  | nil =>
      subst hwait
      refine ⟨rfl, ?_⟩
      rintro ⟨⟩
  | cons probe probes ih =>
      rw [hearDevice] at hwait
      rw [waitForDevice]
      by_cases hnow : deadline ≤ probe.now
      · rw [if_pos hnow] at hwait
        rw [if_pos hnow]
        subst hwait
        refine ⟨rfl, ?_⟩
        rintro ⟨⟩
      · rw [if_neg hnow] at hwait
        rw [if_neg hnow]
        have hlater := tryRequest_later h probe.write (text "rpc.ping")
          (min (deadline - probe.now) 250) probe.start probe.attempts memory
        -- One ping: the client and `hearDevice` see the same ending.
        generalize hheard : hearRequest c.opts.maxFrame probe.write c.nextMsgid (text "rpc.ping") []
          (probe.start + min (deadline - probe.now) 250) c.demux probe.attempts memory = heard
          at hwait
        have houtcome := tryRequest_hear h probe.write (text "rpc.ping")
          (min (deadline - probe.now) 250) probe.start probe.attempts memory
        have hdemux := tryRequest_demux h probe.write (text "rpc.ping")
          (min (deadline - probe.now) 250) probe.start probe.attempts hheard
        have hexpired := tryRequest_expired h honText probe.write (text "rpc.ping")
          (min (deadline - probe.now) 250) probe.start probe.attempts hheard
        rw [hheard] at houtcome
        rcases htry : c.tryRequest probe.write (text "rpc.ping") (min (deadline - probe.now) 250)
          probe.start probe.attempts memory with ⟨c', bytes, outcome⟩
        rw [htry] at houtcome hdemux hexpired hlater
        obtain rfl : outcome = heard.ending.tryOutcome (text "rpc.ping") := houtcome
        have hhanded := handOn_later hlater temporary previous c.dispatched.length
        cases hending : heard.ending with
        | failed e =>
            simp only [hending] at hwait
            subst hwait
            refine ⟨rfl, ?_⟩
            rintro ⟨⟩
        | waiting =>
            simp only [hending] at hwait
            subst hwait
            refine ⟨rfl, ?_⟩
            rintro ⟨⟩
        | answered isError value =>
            simp only [hending] at hwait
            cases isError with
            | true =>
                subst hwait
                refine ⟨rfl, ?_⟩
                rintro ⟨⟩
            | false =>
                subst hwait
                refine ⟨rfl, fun _ => ⟨hlater.nextMsgid, hdemux ?_⟩⟩
                intro e hfailed
                rw [hending] at hfailed
                cases hfailed
        | expired =>
            -- No reply, so the lines decide whether the loop goes on.
            obtain ⟨hdemux, calls, hcalls, hready⟩ := hexpired hending
            have hdropped : (c'.dispatched.drop c.dispatched.length).any (sawReady temporary)
                = heard.ready := by
              rw [hcalls, List.drop_left, hready]
            simp only [hending] at hwait
            simp only [Ending.tryOutcome, hdropped]
            by_cases hline : heard.ready = true
            · rw [if_pos hline] at hwait
              rw [if_pos hline]
              subst hwait
              exact ⟨rfl, fun _ => ⟨hlater.nextMsgid, hdemux⟩⟩
            · rw [if_neg hline] at hwait
              rw [if_neg hline]
              refine ih hhanded.sized (hhanded.onText.trans honText) ?_
              rw [hhanded.opts, hhanded.nextMsgid]
              exact hdemux ▸ hwait

/-- The loop throws when `waitThrows` says so. -/
theorem waitForDevice_isThrew {c : RPC} (h : c.Sized) {temporary : Nat}
    (honText : c.onText = some temporary) (previous : Option Nat) (deadline : Nat)
    (probes : List Probe) :
    (c.waitForDevice temporary previous deadline probes).2.2.isThrew
      = waitThrows c.opts.maxFrame deadline c.nextMsgid c.demux probes := by
  rw [waitThrows_eq, (waitForDevice_hear h honText previous deadline probes .unlimited rfl).1]

/-- `rpc.attach` is one request, and changes the setup in `attached` at most. -/
theorem attach_later {c : RPC} (h : c.Sized) (exchange : Exchange)
    (memory : Memory := .unlimited) :
    ∃ attached, Later 1 { c with attached := attached } (c.attach exchange memory).1 := by
  have hcall := callValues_later h exchange.write (text "rpc.attach") [] exchange.start
    exchange.attempts memory
  have hother : ∀ (c' : RPC) (attached : Bool), Later 1 c c' →
      Later 1 { c with attached := attached } { c' with attached := attached } :=
    fun c' attached h => ⟨⟨h.sized.payload, h.sized.frame⟩, h.opts, h.nextMsgid, rfl, h.onLog,
      h.onText, h.handlers, h.onAny⟩
  unfold attach
  rcases hresult : c.callValues exchange.write (text "rpc.attach") [] exchange.start
    exchange.attempts memory with ⟨c', bytes, v | e | _⟩ <;> rw [hresult] at hcall
  · exact ⟨true, hother c' true hcall⟩
  · exact ⟨c.attached, hcall⟩
  · exact ⟨c.attached, hcall⟩

/-- `rpc.attach`, as a function of what arrives. -/
def hearAttach (opts : Options) (msgid : UInt32) (d : Demux hostDemuxSize) (exchange : Exchange)
    (memory : Memory := .unlimited) : ConnectOutcome :=
  match (hearRequest opts.maxFrame exchange.write msgid (text "rpc.attach") []
    (exchange.start + opts.timeout) d exchange.attempts memory).ending.callOutcome
      (text "rpc.attach") with
  | .returned _ => .connected
  | .threw e => .threw e
  | .waiting => .waiting

/-- `attach` is a call, so its result is a function of what arrives. -/
theorem attach_hear {c : RPC} (h : c.Sized) (exchange : Exchange)
    (memory : Memory := .unlimited) :
    (c.attach exchange memory).2.2 = hearAttach c.opts c.nextMsgid c.demux exchange memory := by
  rw [RPC.attach, hearAttach, ← callValues_hear h _ _ _ _ _ memory]
  rcases c.callValues exchange.write (text "rpc.attach") [] exchange.start exchange.attempts
    memory with ⟨c', bytes, v | e | _⟩ <;> rfl

/-- `connect`, as a function of what arrives. -/
def hearConnect (opts : Options) (deadline : Nat) (msgid : UInt32) (d : Demux hostDemuxSize)
    (probes : List Probe) (exchange : Exchange) (memory : Memory := .unlimited) : ConnectOutcome :=
  let wait := hearDevice opts.maxFrame deadline msgid d probes memory
  match wait.outcome with
  | .threw e => .threw e
  | .waiting => .waiting
  | .timedOut =>
      .threw (.timeout
        (text "serial_rpc: connect() timed out waiting for a 'ready' line or an rpc.ping reply"))
  | .alive => hearAttach opts wait.msgid wait.demux exchange memory

/-- `connect` ends as `hearConnect` says. -/
theorem connect_hear {c : RPC} (h : c.Sized) (temporary deadline : Nat) (probes : List Probe)
    (exchange : Exchange) (memory : Memory := .unlimited) :
    (c.connect temporary deadline probes exchange memory).2.2
      = hearConnect c.opts deadline c.nextMsgid c.demux.reset probes exchange memory := by
  have hsized : { c with demux := c.demux.reset, onText := some temporary }.Sized :=
    ⟨h.payload, h.frame⟩
  obtain ⟨houtcome, halive⟩ := waitForDevice_hear hsized rfl c.onText deadline probes memory rfl
  obtain ⟨count, hlater⟩ := waitForDevice_later hsized temporary c.onText deadline probes memory
  unfold connect hearConnect
  simp only at houtcome halive ⊢
  generalize hearDevice c.opts.maxFrame deadline c.nextMsgid c.demux.reset probes memory = wait at *
  rcases hwait : RPC.waitForDevice { c with demux := c.demux.reset, onText := some temporary }
    temporary c.onText deadline probes memory with ⟨c', bytes, outcome⟩
  rw [hwait] at houtcome halive hlater
  obtain rfl : outcome = wait.outcome := houtcome
  cases hended : wait.outcome with
  | threw e => rfl
  | waiting => rfl
  | timedOut => rfl
  | alive =>
      -- `rpc.attach` goes out from where the loop left the client.
      obtain ⟨hmsgid, hdemux⟩ := halive hended
      have hopts : c'.opts = c.opts := hlater.opts
      have hsized' : { c' with onText := c.onText }.Sized :=
        ⟨hlater.sized.payload, hlater.sized.frame⟩
      simp only at hmsgid hdemux ⊢
      rw [← hopts, ← hmsgid, ← hdemux]
      exact attach_hear hsized' exchange memory

/-- The callback that is installed behind `connect`. -/
theorem connect_onText {c : RPC} (h : c.Sized) (temporary deadline : Nat) (probes : List Probe)
    (exchange : Exchange)
    (hended : (c.connect temporary deadline probes exchange).2.2 ≠ .waiting) :
    (c.connect temporary deadline probes exchange).1.onText
      = if waitThrows c.opts.maxFrame deadline c.nextMsgid c.demux.reset probes then some temporary
        else c.onText := by
  -- The temporary callback is in place for as long as the wait lasts.
  have hsized : { c with demux := c.demux.reset, onText := some temporary }.Sized :=
    ⟨h.payload, h.frame⟩
  have hthrew := waitForDevice_isThrew hsized rfl c.onText deadline probes
  obtain ⟨count, hlater⟩ := waitForDevice_later hsized temporary c.onText deadline probes
  simp only at hthrew
  rw [← hthrew]
  unfold connect at hended ⊢
  simp only at hended ⊢
  rcases hwait : RPC.waitForDevice { c with demux := c.demux.reset, onText := some temporary }
    temporary c.onText deadline probes with ⟨c', bytes, outcome⟩
  rw [hwait] at hlater
  simp only [hwait] at hended ⊢
  -- It is put back on the way out, unless the wait throws.
  cases outcome with
  | threw e => exact hlater.onText
  | waiting => exact absurd rfl hended
  | timedOut => rfl
  | alive =>
      have hsized' : { c' with onText := c.onText }.Sized :=
        ⟨hlater.sized.payload, hlater.sized.frame⟩
      obtain ⟨attached, hattach⟩ := attach_later hsized' exchange
      exact hattach.onText

/-- The exception of the waiting loop is the one of `connect`. -/
theorem connect_threw {c : RPC} (h : c.Sized) (temporary deadline : Nat) (probes : List Probe)
    (exchange : Exchange)
    (hthrows : waitThrows c.opts.maxFrame deadline c.nextMsgid c.demux.reset probes = true) :
    ∃ e, (c.connect temporary deadline probes exchange).2.2 = .threw e := by
  rw [waitThrows_eq] at hthrows
  rw [connect_hear h, hearConnect]
  cases houtcome : (hearDevice c.opts.maxFrame deadline c.nextMsgid c.demux.reset probes).outcome
    with
  | threw e => exact ⟨e, rfl⟩
  | alive =>
      rw [houtcome] at hthrows
      cases hthrows
  | timedOut =>
      rw [houtcome] at hthrows
      cases hthrows
  | waiting =>
      rw [houtcome] at hthrows
      cases hthrows

/-- **The text callback behind `connect`.** It is the one from before exactly when no exception
left the waiting loop. -/
theorem connect_restores_iff {c : RPC} (h : c.Sized) {temporary : Nat}
    (hfresh : c.onText ≠ some temporary) (deadline : Nat) (probes : List Probe)
    (exchange : Exchange)
    (hended : (c.connect temporary deadline probes exchange).2.2 ≠ .waiting) :
    (c.connect temporary deadline probes exchange).1.onText = c.onText ↔
      waitThrows c.opts.maxFrame deadline c.nextMsgid c.demux.reset probes = false := by
  rw [connect_onText h temporary deadline probes exchange hended]
  constructor
  · intro hsame
    rw [Bool.eq_false_iff]
    intro hthrows
    rw [if_pos hthrows] at hsame
    exact hfresh hsame.symm
  · intro hthrows
    rw [hthrows, if_neg Bool.false_ne_true]

/-- A client that shows its lines to callback 5. -/
def reader : RPC := { RPC.new .default with onText := some 5 }

/-- The first ping finds a board that still boots, and 250 ms go by. The second one is answered. -/
def bootingProbes : List Probe :=
  [⟨0, writesAll, 0, [⟨1, some [0x68, 0x0a]⟩, ⟨250, none⟩]⟩,
    ⟨250, writesAll, 250, [⟨251, some (frameBytes [0x94, 0x01, 0x02, 0xc0, 0xc0])⟩]⟩]

/-- The `rpc.attach` that follows is answered as well. -/
def attachExchange : Exchange :=
  ⟨writesAll, 252, [⟨253, some (frameBytes [0x94, 0x01, 0x03, 0xc0, 0xc0])⟩]⟩

def ConnectOutcome.connects : ConnectOutcome → Bool
  | .connected => true
  | _ => false

/-- A reader connects to a device that boots, prints `ready` and answers: its own callback is back.
-/
theorem connect_restores_booting :
    (reader.connect 1 1000 bootingProbes attachExchange).2.2.connects = true ∧
      (reader.connect 1 1000 bootingProbes attachExchange).1.onText = some 5 := by
  have hconnects : (reader.connect 1 1000 bootingProbes attachExchange).2.2.connects = true := by
    decide +kernel
  have hended : (reader.connect 1 1000 bootingProbes attachExchange).2.2 ≠ .waiting := by
    intro hwaiting
    rw [hwaiting] at hconnects
    cases hconnects
  have hsized : reader.Sized := ⟨List.length_replicate, List.length_replicate⟩
  have hfresh : reader.onText ≠ some 1 := by decide
  exact ⟨hconnects,
    (connect_restores_iff hsized hfresh 1000 bootingProbes attachExchange hended).mpr
      (by decide +kernel)⟩

/-- The device answers the first ping with an error. -/
theorem connect_restores_fails :
    ¬ ∀ (c : RPC) (temporary deadline : Nat) (probes : List Probe) (exchange : Exchange),
      c.Sized → c.onText ≠ some temporary →
      (c.connect temporary deadline probes exchange).2.2 ≠ .waiting →
      (c.connect temporary deadline probes exchange).1.onText = c.onText := by
  intro hall
  -- A response with an error, to the message id 1.
  let payload : List UInt8 := [0x94] ++ ([0x01] ++ ([0x01] ++ ((Value.str [0x78]).bytes ++ [kNil])))
  have hmessage : readMessage payload = .response 1 true (.str [0x78]) .nil := by
    have htype : typeAt ((Value.str [0x78]).bytes ++ [kNil]) = .str := by decide
    rw [readMessage_response (by decide) (by decide) (by decide : Spells (.int (1 : Nat)) [0x01])
      (by decide), parseEntry_error (by decide), htype]
    rfl
  -- It arrives in one piece with the first probe.
  have hstream : OneFrame payload (frameBytes payload) := ⟨[], [], by simp, by simp, by simp⟩
  obtain ⟨hreport, -⟩ := (Demux.new_between hostDemuxSize).oneFrame hstream (by decide +kernel)
  let probe : Probe := ⟨0, writesAll, 0, [⟨0, some (frameBytes payload)⟩]⟩
  have hending : (hearRequest Options.default.maxFrame probe.write 1 (text "rpc.ping") []
      (probe.start + min (1000 - probe.now) 250) (Demux.new hostDemuxSize) probe.attempts).ending
        = .answered true (.str [0x78]) := by
    rw [hearRequest, requestError_writesAll (by decide +kernel)]
    have hreads : OneReport payload ((SerialRpc.demux hostDemuxSize).outputs
        (Demux.new hostDemuxSize) ([(0, frameBytes payload)].map Prod.snd).flatten) := by
      rwa [List.map_singleton, List.flatten_singleton]
    refine (hear_once (by decide) (hreads.heardOnce _)).trans ?_
    rw [heardAt, hmessage]
    rfl
  have hthrows : waitThrows Options.default.maxFrame 1000 1 (Demux.new hostDemuxSize) [probe]
      = true := by
    rw [waitThrows, if_neg (by decide)]
    simp only [hending]
  have hsized := new_sized .default
  obtain ⟨e, hthrew⟩ := connect_threw hsized 1 1000 [probe] ⟨writesAll, 0, []⟩ hthrows
  have hended : ((RPC.new .default).connect 1 1000 [probe] ⟨writesAll, 0, []⟩).2.2 ≠ .waiting := by
    rw [hthrew]
    rintro ⟨⟩
  -- So the callback that the wait should have put back is the temporary one.
  have hsame := hall (RPC.new .default) 1 1000 [probe] ⟨writesAll, 0, []⟩ hsized (by decide) hended
  rw [connect_onText hsized 1 1000 [probe] _ hended] at hsame
  change (if waitThrows Options.default.maxFrame 1000 1 (Demux.new hostDemuxSize) [probe] then _
    else _) = _ at hsame
  rw [if_pos hthrows] at hsame
  cases hsame

end RPC

end SerialRpc
