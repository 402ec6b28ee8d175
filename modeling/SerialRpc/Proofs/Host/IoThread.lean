import SerialRpc.Lib.Loop
import SerialRpc.Proofs.Host.IoOperations

/-!
# `SerialRpc.Proofs.Host.IoThread`: exceptions and flags in the thread of the worker

A run of the thread is a run of steps (`loop_eq`): the commands in the order they are taken, and
the turns of the loop behind the queue.

* `threadMain_handles_iff`: no exception leaves the thread and each failure is shown exactly when
  each `attach_` that a command starts lets nothing through, `set_dtr` does not fail, and the memory
  is enough for what calls and polls read.
* `flags_match_iff`: the flags are right at the end of each turn exactly when the automatic
  `attach_` of each opening lets nothing through. There the exception is caught, but `connected`
  stays.

Both conditions are about what arrives, through `RPC.hearConnect`, `RPC.hearRequest` and
`RPC.hearPoll`.
-/

set_option autoImplicit false

namespace SerialRpc

namespace IoWorker

/-! ### Steps -/

/-- What the thread does at a time: a command, or a turn of the loop behind the queue. -/
inductive Step where
  | command (taken : Taken)
  | pass (env : Pass)

/-- One step. -/
def perform (settings : Settings) (w : IoWorker) : Step → IoWorker × Ended
  | .command taken => w.execute settings taken.command taken.memory
  | .pass env => w.pass settings env

/-- What fails in a command. The `rpc.detach` of a client that goes away is best-effort: `close_`
and the destructor swallow its failure on purpose, and it does not count. -/
def commandFailure (w : IoWorker) (settings : Settings) (memory : Memory) :
    Command → Option Thrown
  | .call method args exchange =>
      w.rpc.bind fun c =>
        callFailure (c.callValues exchange.write method args exchange.start exchange.attempts
          memory).2.2
  | .notify method args write =>
      w.rpc.bind fun c => (c.notifyValues write method args).2.2.map .host
  | .sendText line write => w.rpc.bind fun _ => (RPC.sendText write line).2.map .host
  | .attach env => w.rpc.bind fun c => attachFailure c env memory
  | .detach write => w.rpc.bind fun c => (c.disconnect write).2.2.map .host
  | .list pages => w.rpc.bind fun c => listFailure (c.list pages memory).2
  | .reset true env => env.touch.map .system
  | .reset false env =>
      w.rpc.bind fun c =>
        match env.dtr with
        | some what => some (.system what)
        | none => if settings.autoAttach then attachFailure c env.attaching memory else none
  | .reconnect _ => none
  | .setTimeout value _ env =>
      if w.attached then attachFailure (makeRpc value) env memory else none

/-- What fails in a turn of the loop. -/
def passFailure (w : IoWorker) (settings : Settings) (env : Pass) : Option Thrown :=
  if w.port then w.rpc.bind fun c => pollFailure (c.poll env.deadline env.turns env.memory).2
  else if env.due then
    match env.opening.failure with
    | some what => some (.system what)
    | none =>
        if settings.autoAttach then
          attachFailure (makeRpc w.callTimeout) env.opening.attaching env.memory
        else none
  else none

/-- What fails in a step. -/
def failure (settings : Settings) (w : IoWorker) : Step → Option Thrown
  | .command taken => w.commandFailure settings taken.memory taken.command
  | .pass env => w.passFailure settings env

/-- The last attempt to open the port failed for the same reason, and that was shown. -/
def Repeats (g17 : UInt64 → List UInt8) (w : IoWorker) (e : Thrown) : Prop :=
  w.port = false ∧ w.lastOpenError = e.what g17 ∧ .openFailed (e.what g17) ∈ w.emitted

/-- A step lets no exception through, and if something fails, it is shown, and the thread goes
on. -/
def Handled (settings : Settings) (w : IoWorker) (step : Step) : Prop :=
  (∀ e, (perform settings w step).2 ≠ .threw e) ∧
    ∀ e ∈ failure settings w step, (perform settings w step).2 = .returned ∧
      (Shows settings.g17 w (perform settings w step).1 e ∨ Repeats settings.g17 w e)

/-- `set_dtr` does not fail, each `attach_` that a command starts lets nothing through, and for what
calls and polls read there is memory enough. -/
def Contained (settings : Settings) (w : IoWorker) : Step → Prop
  | .command ⟨.call method args exchange, memory⟩ =>
      ∀ c ∈ w.rpc, Affords c method args exchange memory
  | .command ⟨.attach env, memory⟩ => ∀ c ∈ w.rpc, Contains c env memory
  | .command ⟨.reset false env, memory⟩ =>
      ∀ c ∈ w.rpc, env.dtr = none ∧
        (settings.autoAttach = true → Contains c env.attaching memory)
  | .command ⟨.setTimeout value _ env, memory⟩ =>
      w.attached = true → Contains (makeRpc value) env memory
  | .command _ => True
  | .pass env => ∀ c ∈ w.rpc, AffordsPoll c env.deadline env.turns env.memory

section

variable {settings : Settings} {w : IoWorker}

/-- What handles its failure is a handled step of the loop. -/
theorem Handles.handled {step : Step}
    (h : Handles settings.g17 w (perform settings w step) (failure settings w step)) :
    Handled settings w step := by
  refine ⟨h.contained, ?_⟩
  intro e he
  obtain ⟨hreturned, hshows⟩ := h.shown e he
  exact ⟨hreturned, Or.inl hshows⟩

/-- Setting the timeout handles its failure, which is that of the attach it makes. -/
theorem executeSetTimeout_handles (h : w.Sound) {value : Nat} (write : Nat → Int)
    {env : Attaching} {memory : Memory}
    (hcontains : w.attached = true → Contains (makeRpc value) env memory) :
    Handles settings.g17 w (w.executeSetTimeout value write env memory)
      (if w.attached then attachFailure (makeRpc value) env memory else none) := by
  rw [executeSetTimeout]
  cases hrpc : w.rpc with
  | none =>
      -- Nothing is attached without a client.
      have hdetached : w.attached ≠ true := by
        intro hattached
        obtain ⟨c, hc, -⟩ := h.attached hattached
        rw [hrpc] at hc
        cases hc
      rw [if_neg hdetached]
      exact .returned
  | some c =>
      -- The `attach_` is that of the new client.
      have hrebuilt := rebuild_continues h hrpc value write
      have hsound := (emit_continues hrebuilt.sound (.timeoutSet value)).sound
      simp only
      by_cases hattached : w.attached = true
      · rw [if_pos hattached, if_pos hattached]
        exact (attach_handles hsound rfl (hcontains hattached)).after [.timeoutSet value] rfl
      · rw [if_neg hattached, if_neg hattached]
        exact .returned

/-- A reset handles its failure where the attach in it does. -/
theorem executeReset_handles (h : w.Sound) {hard : Bool} {env : Resetting} {memory : Memory}
    (hcontains : Contained settings w (.command ⟨.reset hard env, memory⟩)) :
    Handles settings.g17 w (w.executeReset settings hard env memory)
      (w.commandFailure settings memory (.reset hard env)) := by
  rw [executeReset]
  -- A hard reset shows what the touch throws. A soft one is an attach, whose memory suffices.
  cases hard with
  | true =>
      simp only [commandFailure, if_true]
      cases env.touch with
      | none => exact .returned
      | some what =>
          exact .told [.touching] (.touchFailed (.system what)) [] (by simp [emit, close])
  | false =>
      simp only [commandFailure, Bool.false_eq_true, if_false, h.port]
      cases hrpc : w.rpc with
      | none => exact .returned
      | some c =>
          obtain ⟨hdtr, hattach⟩ := hcontains c hrpc
          simp only [hdtr, Option.isSome_some, if_true, Option.bind_some]
          by_cases hauto : settings.autoAttach = true
          · rw [if_pos hauto, if_pos hauto]
            have hpulsed := (emit_continues h .dtrPulsed).sound
            exact (attach_handles hpulsed hrpc (hattach hauto)).after [.dtrPulsed] rfl
          · rw [if_neg hauto, if_neg hauto]
            exact .returned

/-- A command handles what fails, under the condition. -/
theorem execute_handles (h : w.Sound) {command : Command} {memory : Memory}
    (hcontains : Contained settings w (.command ⟨command, memory⟩)) :
    Handles settings.g17 w (w.execute settings command memory)
      (w.commandFailure settings memory command) := by
  -- Each command handles its own failure. Only the attach has to look for a client first.
  cases command with
  | call method args exchange => exact executeCall_handles h method args exchange hcontains
  | notify method args write => exact executeNotify_handles method args write
  | sendText line write => exact executeSendText_handles line write
  | detach write => exact executeDetach_handles h write
  | list pages => exact executeList_handles pages memory
  | reconnect env => exact .returned
  | reset hard env => exact executeReset_handles h hcontains
  | setTimeout value write env => exact executeSetTimeout_handles h write hcontains
  | attach env =>
      rw [execute, commandFailure]
      cases hrpc : w.rpc with
      | none =>
          have hclosed : w.attach env memory = (w.emit .notConnected, .returned) := by
            rw [attach, hrpc]
          rw [hclosed]
          exact .returned
      | some c => exact attach_handles h hrpc (hcontains c hrpc)

/-- Otherwise an exception comes through. -/
theorem execute_escapes (h : w.Sound) {command : Command} {memory : Memory}
    (hcontains : ¬ Contained settings w (.command ⟨command, memory⟩)) :
    ∃ e, (w.execute settings command memory).2 = .threw e := by
  cases command with
  | call method args exchange =>
      -- The memory was not enough for a frame of the call.
      simp only [Contained, not_forall] at hcontains
      obtain ⟨c, hrpc, hlacks⟩ := hcontains
      exact ⟨.host .badAlloc, executeCall_escapes h hrpc method args exchange hlacks⟩
  | notify method args write => exact absurd trivial hcontains
  | sendText line write => exact absurd trivial hcontains
  | detach write => exact absurd trivial hcontains
  | list pages => exact absurd trivial hcontains
  | reconnect env => exact absurd trivial hcontains
  | attach env =>
      simp only [Contained, not_forall] at hcontains
      obtain ⟨c, hrpc, hnot⟩ := hcontains
      obtain ⟨e, c', bytes, hattach, -⟩ := attach_escapes h hrpc hnot
      exact ⟨e, by rw [execute, hattach]⟩
  | reset hard env =>
      cases hard with
      | true => exact absurd trivial hcontains
      | false =>
          simp only [Contained, not_forall] at hcontains
          obtain ⟨c, hrpc, hnot⟩ := hcontains
          have hport : w.port = true := by rw [h.port, hrpc, Option.isSome_some]
          simp only [execute, executeReset, Bool.false_eq_true, if_false, hport, if_true]
          cases hdtr : env.dtr with
          -- Nothing around `set_dtr` catches it.
          | some what => exact ⟨.system what, rfl⟩
          | none =>
              -- The pulse went well, so it is the `attach_` behind it.
              obtain ⟨hauto, hescapes⟩ := Classical.not_imp.mp fun hquiet => hnot ⟨hdtr, hquiet⟩
              obtain ⟨e, c', bytes, hattach, -⟩ :=
                attach_escapes (emit_continues h .dtrPulsed).sound hrpc hescapes
              simp only [hauto, if_true]
              exact ⟨e, by rw [hattach]⟩
  | setTimeout value write env =>
      obtain ⟨hattached, hescapes⟩ := Classical.not_imp.mp hcontains
      obtain ⟨c, hrpc, -⟩ := h.attached hattached
      have hrebuilt := rebuild_continues h hrpc value write
      obtain ⟨e, c', bytes, hattach, -⟩ :=
        attach_escapes (emit_continues hrebuilt.sound (.timeoutSet value)).sound rfl hescapes
      refine ⟨e, ?_⟩
      rw [execute, executeSetTimeout, show w.rpc = some c from hrpc]
      simp only [hattached, if_true, hattach]

/-! ### Openings -/

/-- On a closed port there is no client, and nothing is attached. -/
theorem closed_detached (h : w.Sound) (hport : w.port = false) :
    w.rpc = none ∧ w.attached = false := by
  have hrpc : w.rpc = none := by
    rw [h.port] at hport
    exact Option.isSome_eq_false_iff.mp hport |> Option.isNone_iff_eq_none.mp
  refine ⟨hrpc, Bool.eq_false_iff.mpr ?_⟩
  intro hattached
  obtain ⟨c, hc, -⟩ := h.attached hattached
  rw [hrpc] at hc
  cases hc

/-- An opened port is sound, with a client of its own. -/
theorem openPort_sound (h : w.Sound) (hport : w.port = false) : w.openPort.Sound where
  port := rfl
  client := by
    intro c hc
    obtain rfl := Option.some.inj hc
    exact ⟨makeRpc_sized w.callTimeout, rfl⟩
  attached := by
    intro hattached
    rw [openPort, emit, (closed_detached h hport).2] at hattached
    cases hattached
  shown := Or.inl rfl

/-- A port that did not open is sound, and the reason is remembered as shown. -/
theorem openFailed_sound (h : w.Sound) (hattached : w.attached = false) (what : List UInt8) :
    (w.openFailed what).Sound := by
  have hclosed : IoWorker.Sound { w with rpc := none, port := false } :=
    { port := rfl
      client := by rintro c ⟨⟩
      attached := by
        intro hflag
        rw [hattached] at hflag
        cases hflag
      shown := h.shown }
  rw [openFailed]
  simp only
  split
  · exact ⟨hclosed.port, hclosed.client, hclosed.attached,
      Or.inr (List.mem_append_right _ List.mem_cons_self)⟩
  · exact hclosed

/-- `try_open_` fails to open, opens, attaches, or runs into an exception of `attach_`. -/
theorem tryOpen_cases (h : w.Sound) (hport : w.port = false) (settings : Settings)
    (env : Opening) (memory : Memory) :
    (∃ what, env.failure = some what ∧ w.tryOpen settings env memory
        = (w.openFailed (Thrown.what settings.g17 (.system what)), .returned)) ∨
      (env.failure = none ∧ settings.autoAttach = false ∧
        w.tryOpen settings env memory = (w.openPort, .returned)) ∨
      (env.failure = none ∧ settings.autoAttach = true ∧
        Contains (makeRpc w.callTimeout) env.attaching memory ∧
        w.tryOpen settings env memory = w.openPort.attach env.attaching memory) ∨
      (env.failure = none ∧ settings.autoAttach = true ∧
        ¬ Contains (makeRpc w.callTimeout) env.attaching memory ∧
        ∃ e c bytes, attachFailure (makeRpc w.callTimeout) env.attaching memory = some e ∧
          e.HasText ∧ (w.openPort.used c bytes).Sound ∧ w.tryOpen settings env memory
            = ((w.openPort.used c bytes).openFailed (e.what settings.g17), .returned)) := by
  rw [tryOpen]
  cases hfailure : env.failure with
  | some what => exact Or.inl ⟨what, rfl, rfl⟩
  | none =>
      cases hauto : settings.autoAttach with
      | false => exact Or.inr (Or.inl ⟨rfl, rfl, rfl⟩)
      | true =>
          have hopened := openPort_sound h hport
          simp only [if_true]
          by_cases hcontains : Contains (makeRpc w.callTimeout) env.attaching memory
          · -- Nothing reaches the `catch` block.
            have hhandles : Handles settings.g17 w.openPort (w.openPort.attach env.attaching memory)
                (attachFailure (makeRpc w.callTimeout) env.attaching memory) :=
              attach_handles hopened rfl hcontains
            have hnone := hhandles.contained
            refine Or.inr (Or.inr (Or.inl ⟨trivial, trivial, hcontains, ?_⟩))
            rcases hattach : w.openPort.attach env.attaching memory with ⟨w', _ | e | _⟩
            · rfl
            · rw [hattach] at hnone
              exact absurd rfl (hnone e)
            · rfl
          · obtain ⟨e, c, bytes, hattach, htext, hfails⟩ := attach_escapes hopened rfl hcontains
            have hsound := (attach_continues hopened env.attaching memory).sound
            rw [hattach] at hsound ⊢
            exact Or.inr (Or.inr (Or.inr ⟨trivial, trivial, hcontains, e, c, bytes, hfails, htext,
              hsound, rfl⟩))

/-- An attempt to open leaves a sound state, whether it succeeds or not. -/
theorem tryOpen_sound (h : w.Sound) (hport : w.port = false) (env : Opening) (memory : Memory) :
    (w.tryOpen settings env memory).1.Sound := by
  obtain ⟨-, hdetached⟩ := closed_detached h hport
  have hopened := openPort_sound h hport
  rcases tryOpen_cases h hport settings env memory with
    ⟨what, -, htry⟩ | ⟨-, -, htry⟩ | ⟨-, -, -, htry⟩ | ⟨-, -, -, e, c, bytes, -, -, hsound, htry⟩
  · rw [htry]
    exact openFailed_sound h hdetached _
  · rw [htry]
    exact hopened
  · rw [htry]
    exact (attach_continues hopened env.attaching memory).sound
  · rw [htry]
    exact openFailed_sound hsound hdetached _

/-- Whatever a step does. -/
theorem perform_sound (h : w.Sound) (step : Step) : (perform settings w step).1.Sound := by
  cases step with
  | command taken => exact (execute_continues h settings taken.command taken.memory).sound
  | pass env =>
      rw [perform, pass]
      cases hport : w.port with
      | true =>
          rw [if_pos rfl]
          exact (pollTurn_continues h env.deadline env.turns env.memory).sound
      | false =>
          rw [if_neg Bool.false_ne_true]
          split
          · exact tryOpen_sound h hport env.opening env.memory
          · exact h

/-- The `catch` block of `try_open_` shows what failed, unless it was shown the last time. -/
theorem openFailed_shown (g17 : UInt64 → List UInt8) (h : w.Sound) {e : Thrown}
    (htext : e.HasText) :
    Shows g17 w (w.openFailed (e.what g17)) e ∨
      (w.lastOpenError = e.what g17 ∧ .openFailed (e.what g17) ∈ w.emitted) := by
  by_cases hsame : w.lastOpenError = e.what g17
  · -- The text is not empty, so the last failure is one that was shown.
    refine Or.inr ⟨hsame, ?_⟩
    rcases h.shown with hnone | hshown
    · exact absurd (hsame.symm.trans hnone) (htext g17)
    · rwa [hsame] at hshown
  · refine Or.inl ⟨[.openFailed (e.what g17)], ?_, _, List.mem_cons_self, .openFailed e⟩
    rw [openFailed]
    exact congrArg emitted (if_pos hsame)

/-- An attempt to open that is due is a handled step. -/
theorem tryOpen_handled (h : w.Sound) (hport : w.port = false) {env : Pass}
    (hdue : env.due = true) : Handled settings w (.pass env) := by
  have hpass : perform settings w (.pass env) = w.tryOpen settings env.opening env.memory := by
    rw [perform, pass, if_neg (by rw [hport]; exact Bool.false_ne_true), if_pos hdue]
  have hfails : failure settings w (.pass env) = (match env.opening.failure with
      | some what => some (.system what)
      | none =>
          if settings.autoAttach then
            attachFailure (makeRpc w.callTimeout) env.opening.attaching env.memory
          else none) := by
    rw [failure, passFailure, if_neg (by rw [hport]; exact Bool.false_ne_true), if_pos hdue]
  rw [Handled, hpass, hfails]
  rcases tryOpen_cases h hport settings env.opening env.memory with ⟨what, hfailure, htry⟩ |
    ⟨hfailure, hauto, htry⟩ | ⟨hfailure, hauto, hcontains, htry⟩ |
    ⟨hfailure, hauto, -, e, c, bytes, hthrew, htext, hsound, htry⟩
  · -- The port does not open.
    rw [htry, hfailure]
    refine ⟨by rintro e ⟨⟩, ?_⟩
    intro e he
    obtain rfl := Option.some.inj he
    refine ⟨rfl, ?_⟩
    rcases openFailed_shown settings.g17 h (Thrown.system_hasText what) with
      hshows | hrepeats
    · exact Or.inl hshows
    · exact Or.inr ⟨hport, hrepeats⟩
  · rw [htry, hfailure, hauto]
    exact ⟨by rintro e ⟨⟩, by rintro e ⟨⟩⟩
  · rw [htry, hfailure, hauto]
    have hattached : Handles settings.g17 w
        (w.openPort.attach env.opening.attaching env.memory)
        (attachFailure (makeRpc w.callTimeout) env.opening.attaching env.memory) :=
      (attach_handles (openPort_sound h hport) rfl hcontains).after [.connected] rfl
    refine ⟨hattached.contained, ?_⟩
    intro e he
    obtain ⟨hreturned, hshows⟩ := hattached.shown e he
    exact ⟨hreturned, Or.inl hshows⟩
  · -- The exception of `attach_` ends in the `catch` block, and nothing failed since the opening.
    rw [htry, hfailure, hauto]
    refine ⟨by rintro e ⟨⟩, ?_⟩
    intro e' he'
    obtain rfl : e = e' := Option.some.inj (hthrew.symm.trans he')
    refine ⟨rfl, Or.inl ?_⟩
    rcases openFailed_shown settings.g17 hsound htext with
      ⟨more, hmore, hx⟩ | ⟨hsame, -⟩
    · exact ⟨.connected :: more, by rw [hmore]; exact List.append_assoc _ [_] _, by
        obtain ⟨x, hmem, htells⟩ := hx
        exact ⟨x, List.mem_cons_of_mem _ hmem, htells⟩⟩
    · -- The opening has cleared the last failure.
      exact absurd hsame.symm (htext settings.g17)

/-- A turn of the loop handles what fails, where the memory is enough. -/
theorem pass_handled (h : w.Sound) {env : Pass} (hcontains : Contained settings w (.pass env)) :
    Handled settings w (.pass env) := by
  cases hport : w.port with
  | true =>
      refine Handles.handled ?_
      rw [perform, pass, failure, passFailure, if_pos hport, if_pos hport]
      exact pollTurn_handles env.deadline env.turns hcontains
  | false =>
      cases hdue : env.due with
      | true => exact tryOpen_handled h hport hdue
      | false =>
          refine Handles.handled ?_
          rw [perform, pass, failure, passFailure, hport, hdue]
          exact .returned

/-- Otherwise an exception comes through. -/
theorem pass_escapes (h : w.Sound) {env : Pass} (hcontains : ¬ Contained settings w (.pass env)) :
    (w.pass settings env).2 = .threw (.host .badAlloc) := by
  simp only [Contained, not_forall] at hcontains
  obtain ⟨c, hrpc, hlacks⟩ := hcontains
  have hport : w.port = true := by rw [h.port, hrpc, Option.isSome_some]
  rw [pass, if_pos hport]
  exact pollTurn_escapes hrpc env.deadline env.turns hlacks

/-- **One step** handles what fails exactly under the condition. -/
theorem handled_iff (h : w.Sound) (step : Step) :
    Handled settings w step ↔ Contained settings w step := by
  cases step with
  | pass env =>
      constructor
      · intro hhandled
        by_contra hcontains
        exact hhandled.1 _ (pass_escapes h hcontains)
      · exact pass_handled h
  | command taken =>
      constructor
      · intro hhandled
        by_contra hcontains
        obtain ⟨e, hthrew⟩ := execute_escapes h hcontains
        exact hhandled.1 e hthrew
      · intro hcontains
        exact (execute_handles h hcontains).handled

end

/-! ### The thread as a run of steps -/

/-- The steps of a turn of the main loop. -/
def Iteration.steps (env : Iteration) : List Step := env.commands.map .command ++ [.pass env.pass]

/-- The steps of some turns, and of the commands that are still taken behind them. -/
def threadSteps (iterations : List Iteration) (last : List Taken) : List Step :=
  iterations.flatMap Iteration.steps ++ last.map .command

section

variable {settings : Settings} {w : IoWorker}

/-- Draining the queue is a run of steps, one for each command. -/
theorem drain_eq (settings : Settings) (w : IoWorker) (commands : List Taken) :
    w.drain settings commands
      = Loop.run (perform settings) .returned w (commands.map .command) := by
  induction commands generalizing w with
  | nil => rfl
  | cons taken commands ih =>
      rw [drain, List.map_cons]
      rcases hexecute : w.execute settings taken.command taken.memory with ⟨w', _ | e | _⟩
      · have hagain : (perform settings w (.command taken)).2 = .returned :=
          congrArg Prod.snd hexecute
        rw [Loop.run_cons_again hagain, show (perform settings w (.command taken)).1 = w' from
          congrArg Prod.fst hexecute]
        exact ih w'
      · have hended : (perform settings w (.command taken)).2 ≠ .returned := by
          rw [perform, hexecute]
          rintro ⟨⟩
        rw [Loop.run_cons_ended hended, perform, hexecute]
      · have hended : (perform settings w (.command taken)).2 ≠ .returned := by
          rw [perform, hexecute]
          rintro ⟨⟩
        rw [Loop.run_cons_ended hended, perform, hexecute]

/-- An iteration of the loop is a run of its steps. -/
theorem iterate_eq (settings : Settings) (w : IoWorker) (env : Iteration) :
    w.iterate settings env = Loop.run (perform settings) .returned w env.steps := by
  rw [iterate, Iteration.steps, Loop.run_append, ← drain_eq]
  rcases w.drain settings env.commands with ⟨w', _ | e | _⟩
  · rw [if_pos rfl, Loop.run_singleton]
    rfl
  · rw [if_neg (by rintro ⟨⟩)]
  · rw [if_neg (by rintro ⟨⟩)]

/-- So is the whole loop. -/
theorem loop_eq (settings : Settings) (w : IoWorker) (iterations : List Iteration) :
    w.loop settings iterations
      = Loop.run (perform settings) .returned w (iterations.flatMap Iteration.steps) := by
  induction iterations generalizing w with
  | nil => rfl
  | cons env iterations ih =>
      rw [loop, List.flatMap_cons, Loop.run_append, ← iterate_eq]
      rcases w.iterate settings env with ⟨w', _ | e | _⟩
      · rw [if_pos rfl]
        exact ih w'
      · rw [if_neg (by rintro ⟨⟩)]
      · rw [if_neg (by rintro ⟨⟩)]

/-- An exception that leaves the thread is one of its steps. -/
theorem threadMain_threw {iterations : List Iteration} {last : List Taken} {closing : Closing}
    {e : Thrown} (h : (w.threadMain settings iterations last closing).2 = .threw e) :
    (Loop.run (perform settings) .returned w (threadSteps iterations last)).2 = .threw e := by
  rw [threadSteps, Loop.run_append, ← loop_eq]
  rw [threadMain] at h
  rcases hloop : w.loop settings iterations with ⟨w', _ | e' | _⟩
  · rw [if_pos rfl, ← drain_eq]
    rw [hloop] at h
    simp only at h
    rcases hdrain : w'.drain settings last with ⟨w'', _ | e' | _⟩
    · rw [hdrain] at h
      cases h
    · rw [hdrain] at h
      exact h
    · rw [hdrain] at h
      cases h
  · rw [hloop] at h
    rw [if_neg (by rintro ⟨⟩)]
    exact h
  · rw [hloop] at h
    cases h

/-- **What the thread handles.** In every run of the thread, no exception leaves it and each
failure is shown, with the loop going on, exactly when `set_dtr` does not fail in a reset, each
`attach_` that a command starts lets nothing through, and for what calls and polls read there is
memory enough. -/
theorem threadMain_handles_iff (settings : Settings) (callTimeout : Nat)
    (iterations : List Iteration) (last : List Taken) (closing : Closing) :
    ((∀ e, ((start callTimeout).threadMain settings iterations last closing).2 ≠ .threw e) ∧
        Loop.Along (perform settings) .returned (Handled settings) (start callTimeout)
          (threadSteps iterations last)) ↔
      Loop.Along (perform settings) .returned (Contained settings) (start callTimeout)
        (threadSteps iterations last) := by
  have hsame : Loop.Along (perform settings) .returned (Handled settings) (start callTimeout)
      (threadSteps iterations last) ↔ Loop.Along (perform settings) .returned (Contained settings)
        (start callTimeout) (threadSteps iterations last) :=
    Loop.along_iff (I := Sound) (fun _ step h => perform_sound h step)
      (fun _ step h => handled_iff h step) (start_sound callTimeout) _
  rw [← hsame]
  constructor
  · intro hall
    exact hall.2
  · intro hhandled
    refine ⟨?_, hhandled⟩
    intro e hthrew
    -- It would be the exception of a step.
    exact Loop.run_ends_with (by rintro ⟨⟩) (threadMain_threw hthrew)
      (hhandled.imp fun _ _ hstep => hstep.1 e)

/-- The port was opened without an automatic `attach_`. -/
def openedOnly : Iteration :=
  ⟨[], ⟨true, ⟨none, ⟨none, 0, [], ⟨RPC.writesAll, 0, []⟩, []⟩⟩, 0, [], .unlimited⟩⟩

/-- `flush_input` fails: the device is gone. -/
def unplugged : Attaching :=
  ⟨some "cannot flush /dev/ttyUSB0: Input/output error", 0, [], ⟨RPC.writesAll, 0, []⟩, []⟩

/-- **An `.attach` ends the thread**, and with it the program. -/
theorem threadMain_handles_fails :
    ¬ ∀ (settings : Settings) (callTimeout : Nat) (iterations : List Iteration)
      (last : List Taken) (closing : Closing),
      (∀ e, ((start callTimeout).threadMain settings iterations last closing).2 ≠ .threw e) ∧
        Loop.Along (perform settings) .returned (Handled settings) (start callTimeout)
          (threadSteps iterations last) := by
  intro hall
  obtain ⟨hnone, -⟩ := hall ⟨false, fun _ => []⟩ 1000 [openedOnly]
    [⟨.attach unplugged, .unlimited⟩]
    ⟨RPC.writesAll, RPC.writesAll⟩
  exact hnone (.system "cannot flush /dev/ttyUSB0: Input/output error") rfl

/-! ### The flags -/

/-- The flags are right: the port is there as `connected` says, and with `attached` the client is
attached. -/
def Matches (w : IoWorker) : Prop :=
  w.connected = w.port ∧ (w.attached = true → ∃ c ∈ w.rpc, c.attached = true)

/-- When `try_open_` opens the port, its automatic `attach_` lets nothing through. -/
def OpensQuietly (settings : Settings) (w : IoWorker) : Step → Prop
  | .pass env =>
      w.port = false → env.due = true → env.opening.failure = none → settings.autoAttach = true →
        Contains (makeRpc w.callTimeout) env.opening.attaching env.memory
  | .command _ => True

/-- A step under the condition keeps `connected` right. -/
theorem perform_connected (h : w.Sound) (hflag : w.connected = w.port) {step : Step}
    (hquiet : OpensQuietly settings w step) :
    (perform settings w step).1.connected = (perform settings w step).1.port := by
  cases step with
  | command taken =>
      exact (execute_continues h settings taken.command taken.memory).connected hflag
  | pass env =>
      rw [perform, pass]
      cases hport : w.port with
      | true =>
          rw [if_pos rfl]
          exact (pollTurn_continues h env.deadline env.turns env.memory).connected hflag
      | false =>
          rw [if_neg Bool.false_ne_true]
          by_cases hdue : env.due = true
          · rw [if_pos hdue]
            have hopened := openPort_sound h hport
            rcases tryOpen_cases h hport settings env.opening env.memory with ⟨what, -, htry⟩ |
              ⟨-, -, htry⟩ | ⟨-, -, -, htry⟩ | ⟨hfailure, hauto, hnot, -⟩
            · -- Closed as before.
              rw [htry, openFailed]
              simp only
              split <;> exact hflag.trans hport
            · rw [htry]
              rfl
            · rw [htry]
              exact (attach_continues hopened env.opening.attaching env.memory).connected rfl
            · exact absurd (hquiet hport hdue hfailure hauto) hnot
          · rw [if_neg hdue, hflag]

/-- Otherwise `try_open_` gives the port up, and `connected` stays. -/
theorem perform_disconnected (h : w.Sound) {env : Pass}
    (hquiet : ¬ OpensQuietly settings w (.pass env)) :
    (perform settings w (.pass env)).2 = .returned ∧
      (perform settings w (.pass env)).1.connected = true ∧
      (perform settings w (.pass env)).1.port = false := by
  rw [OpensQuietly] at hquiet
  push Not at hquiet
  obtain ⟨hport, hdue, hfailure, hauto, hnot⟩ := hquiet
  rw [perform, pass, hport, if_neg Bool.false_ne_true, if_pos hdue]
  rcases tryOpen_cases h hport settings env.opening env.memory with ⟨what, hfailure', -⟩ |
    ⟨-, hauto', -⟩ | ⟨-, -, hcontains, -⟩ | ⟨-, -, -, e, c, bytes, -, -, -, htry⟩
  · rw [hfailure] at hfailure'
    cases hfailure'
  · rw [hauto] at hauto'
    cases hauto'
  · exact absurd hcontains hnot
  · rw [htry, openFailed]
    refine ⟨rfl, ?_⟩
    simp only
    split <;> exact ⟨rfl, rfl⟩

/-- The commands of a turn do not open the port. -/
theorem along_commands (settings : Settings) (w : IoWorker) (commands : List Taken) :
    Loop.Along (perform settings) .returned (OpensQuietly settings) w
      (commands.map .command) := by
  induction commands generalizing w with
  | nil => trivial
  | cons command commands ih => exact ⟨trivial, fun _ => ih _⟩

/-- A run under the condition, from flags that are right. -/
theorem run_matches (h : w.Sound) (hflag : w.connected = w.port) {steps : List Step}
    (hquiet : Loop.Along (perform settings) .returned (OpensQuietly settings) w steps) :
    (Loop.run (perform settings) .returned w steps).1.Sound ∧
      (Loop.run (perform settings) .returned w steps).1.connected
        = (Loop.run (perform settings) .returned w steps).1.port := by
  refine hquiet.invariant (I := fun w => w.Sound ∧ w.connected = w.port) ?_ ⟨h, hflag⟩
  intro w step hw hstep
  exact ⟨perform_sound hw.1 step, perform_connected hw.1 hw.2 hstep⟩

/-- The flags are right behind each turn exactly when the openings of all turns are quiet. -/
theorem loop_matches_iff (h : w.Sound) (hflag : w.connected = w.port)
    (iterations : List Iteration) :
    (∀ done, done <+: iterations → (w.loop settings done).2 = .returned →
        (w.loop settings done).1.Matches) ↔
      Loop.Along (perform settings) .returned (OpensQuietly settings) w
        (iterations.flatMap Iteration.steps) := by
  constructor
  · intro hmatches
    induction iterations generalizing w with
    | nil => trivial
    | cons env iterations ih =>
        -- The commands, and the turn of the loop behind them.
        have hcommands := along_commands settings w env.commands
        obtain ⟨hsound, hright⟩ := run_matches h hflag hcommands
        have hturn : Loop.Along (perform settings) .returned (OpensQuietly settings) w
            env.steps := by
          rw [Iteration.steps, Loop.along_append]
          refine ⟨hcommands, fun hdrained => ⟨?_, fun _ => trivial⟩⟩
          by_contra hloud
          obtain ⟨hreturned, hconnected, hport⟩ := perform_disconnected hsound hloud
          have hloop : w.loop settings [env] = perform settings
              (Loop.run (perform settings) .returned w (env.commands.map .command)).1
                (.pass env.pass) := by
            rw [loop_eq, List.flatMap_singleton, Iteration.steps, Loop.run_append,
              if_pos hdrained, Loop.run_singleton]
          have hflags := hmatches [env] ⟨iterations, rfl⟩ (hloop ▸ hreturned)
          rw [hloop] at hflags
          have hsame := hflags.1
          rw [hconnected, hport] at hsame
          cases hsame
        rw [List.flatMap_cons, Loop.along_append]
        refine ⟨hturn, fun hreturned => ?_⟩
        obtain ⟨hsound', hright'⟩ := run_matches h hflag hturn
        refine ih hsound' hright' ?_
        intro done hdone
        have hlater := hmatches (env :: done) (List.cons_prefix_cons.mpr ⟨rfl, hdone⟩)
        rw [loop_eq, List.flatMap_cons, Loop.run_append, if_pos hreturned, ← loop_eq] at hlater
        exact hlater
  · -- The turns that were made are the first part of the run.
    intro hquiet done hdone _
    obtain ⟨later, rfl⟩ := hdone
    rw [List.flatMap_append, Loop.along_append] at hquiet
    obtain ⟨hsound, hright⟩ := run_matches h hflag hquiet.1
    rw [← loop_eq] at hsound hright
    exact ⟨hright, hsound.attached⟩

/-- **The flags.** In every run of the loop they are right at the end of each turn exactly when no
exception comes out of the automatic `attach_` of an opening. -/
theorem flags_match_iff (settings : Settings) (callTimeout : Nat) (iterations : List Iteration) :
    (∀ done, done <+: iterations → ((start callTimeout).loop settings done).2 = .returned →
        ((start callTimeout).loop settings done).1.Matches) ↔
      Loop.Along (perform settings) .returned (OpensQuietly settings) (start callTimeout)
        (iterations.flatMap Iteration.steps) :=
  loop_matches_iff (start_sound callTimeout) rfl iterations

/-- **A port that is given up while it counts as connected.** The first automatic `attach_` finds
that the device is gone. -/
theorem flags_match_fails :
    ¬ ∀ (settings : Settings) (callTimeout : Nat) (iterations : List Iteration),
      ∀ done, done <+: iterations → ((start callTimeout).loop settings done).2 = .returned →
        ((start callTimeout).loop settings done).1.Matches := by
  intro hall
  let settings : Settings := ⟨true, fun _ => []⟩
  obtain ⟨hquiet, -⟩ := (loop_matches_iff (start_sound 1000) rfl
    [⟨[], ⟨true, ⟨none, unplugged⟩, 0, [], .unlimited⟩⟩]).mp (hall settings 1000 _)
  obtain ⟨hflush, -⟩ := hquiet rfl rfl rfl rfl
  cases hflush

end

end IoWorker

end SerialRpc