import SerialRpc.Lib.LineBuffer
import SerialRpc.Proofs.Device.Sending
import Mathlib.Data.List.TakeWhile

/-!
# `SerialRpc.Proofs.Device.Logging`: what becomes of the bytes written to `log`

`Log` collects bytes and gives them to `emit_log_line_` line by line. The library's line
buffer (`LineBuffer.machine`) says which pieces come out of it.

A schedule (`LogEvent`) is the bytes written to the log, with anything else the server does
between them: it may be attached and detached, and the level may change. Only `Log` itself
touches the pending line.

* `completed` are the pieces of a schedule, each with the mode it was completed in.
* `log_kept_iff`: every piece is emitted once, in order and in full, exactly when each piece
  completed while attached fits a notification. `emit_log_line_` does not look at what
  `notify` returns.
-/

set_option autoImplicit false

namespace SerialRpc

open LineBuffer

/-- A byte written to the log, or other code of the server, which leaves `s'` but for the
pending line. -/
inductive LogEvent (sz : ServerSize) (σ : Type) where
  | byte (b : UInt8)
  | other (s' : Server sz σ)

/-- A piece of a line, and the mode and level at its end. -/
structure LogPiece where
  attached : Bool
  level : UInt8
  line : List UInt8
deriving DecidableEq

namespace LogPiece

/-- `notify("log", level, line)`. -/
def payload (piece : LogPiece) : List UInt8 :=
  PackOp.encodings (Server.packNotification (text "log")
    [[.int piece.level.toUInt64.toInt64], [.str piece.line]])

/-- One notification while attached, otherwise the text and a newline. -/
def emission (piece : LogPiece) : List Sent :=
  if piece.attached then [.frame piece.payload (frameBytes piece.payload)]
  else [.text piece.line, .text [lf]]

/-- A notification has to fit the payload buffer. -/
def Fits (bufSize : Nat) (piece : LogPiece) : Prop :=
  piece.attached = true → piece.payload.length ≤ bufSize

instance (bufSize : Nat) (piece : LogPiece) : Decidable (piece.Fits bufSize) :=
  inferInstanceAs (Decidable (_ → _))

/-- What the server makes of a piece. -/
def emitted (bufSize : Nat) (piece : LogPiece) : List Sent :=
  if piece.Fits bufSize then piece.emission else []

/-- A piece is emitted in some way, as text or as a notification. -/
theorem emission_ne_nil (piece : LogPiece) : piece.emission ≠ [] := by
  unfold emission
  split <;> exact List.cons_ne_nil _ _

end LogPiece

/-- The line buffer of the log. -/
def logLines (sz : ServerSize) : Mealy (List UInt8) UInt8 (Option (List UInt8)) :=
  machine (· = cr) (· = lf) (sz.logBufSize - 1)

namespace LogEvent

variable {sz : ServerSize} {σ : Type}

/-- The byte of an event. -/
def byte? : LogEvent sz σ → Option UInt8
  | byte b => some b
  | other _ => none

/-- The bytes of a schedule. -/
def bytes (events : List (LogEvent sz σ)) : List UInt8 := events.filterMap byte?

/-- The pieces of a schedule, from a pending line and a mode on. -/
def completed (attached : Bool) (level : UInt8) (line : List UInt8) :
    List (LogEvent sz σ) → List LogPiece
  | [] => []
  | byte b :: events =>
      let next := (logLines sz).step line b
      next.2.toList.map (fun line => ⟨attached, level, line⟩) ++
        completed attached level next.1 events
  | other s' :: events => completed s'.attached s'.logLevel line events

/-- The lines of the pieces do not depend on the rest of the schedule. -/
theorem completed_lines (attached : Bool) (level : UInt8) (line : List UInt8)
    (events : List (LogEvent sz σ)) :
    (completed attached level line events).map LogPiece.line
      = given (· = cr) (· = lf) (sz.logBufSize - 1) line (bytes events) := by
  induction events generalizing attached level line with
  | nil => rfl
  | cons event events ih =>
      cases event with
      | other s' => exact ih s'.attached s'.logLevel line
      | byte b =>
          have hrest := ih attached level ((logLines sz).step line b).1
          have hbytes : bytes (byte b :: events) = b :: bytes events := rfl
          rw [completed, List.map_append, hrest, hbytes, given_cons, List.map_map, ← logLines]
          exact congrArg (· ++ _) (List.map_id _)

end LogEvent

namespace Server

variable {sz : ServerSize} {σ : Type}

/-- An event of a schedule. -/
def logAct (s : Server sz σ) : LogEvent sz σ → Server sz σ
  | .byte b => s.logByte b
  | .other s' => { s' with logBuf := s.logBuf }

/-- What the log writes over a schedule. -/
def logged (s : Server sz σ) : List (LogEvent sz σ) → List Sent
  | [] => []
  | .byte b :: events =>
      (s.logByte b).sent.drop s.sent.length ++ (s.logByte b).logged events
  | .other s' :: events => (s.logAct (.other s')).logged events

/-! ### One line -/

/-- A C string without a zero byte is itself. -/
theorem cstr_of_zeroFree {line : List UInt8} (h : 0 ∉ line) : cstr line = line := by
  unfold cstr
  refine List.takeWhile_eq_self_iff.mpr ?_
  intro b hb
  have hne : b ≠ 0 := by
    rintro rfl
    exact h hb
  simpa using hne

/-- `notify` writes one frame when the notification fits, and otherwise nothing. -/
theorem notify_sent {s : Server sz σ} (h : s.attached = true) (name : List UInt8)
    (args : List (List PackOp)) :
    (s.notify name args).1.sent
      = s.sent ++
        if (PackOp.encodings (packNotification name args)).length ≤ sz.bufSize then
          [.frame (PackOp.encodings (packNotification name args))
            (frameBytes (PackOp.encodings (packNotification name args)))]
        else [] := by
  have hholds := Writer.packAll_holds s.payloadBuf s.payloadBuf.length le_rfl
    (packNotification name args)
  have hoverflow := hholds.overflow_eq
  rw [s.payloadBuf_length] at hoverflow
  unfold notify
  rw [if_neg (by rw [h]; decide)]
  dsimp only
  -- The writer overflows exactly when the notification is longer than the buffer.
  by_cases hfit : (PackOp.encodings (packNotification name args)).length ≤ sz.bufSize
  · have hroom : ((Writer.new s.payloadBuf s.payloadBuf.length).packAll
        (packNotification name args)).overflow = false := by
      rw [s.payloadBuf_length, hoverflow, decide_eq_false_iff_not]
      omega
    obtain ⟨hdata, -⟩ := hholds.data_of_fits hroom
    rw [if_neg (by rw [hroom]; decide), if_pos hfit, sendFrame_eq _ (by rwa [hdata]), hdata]
  · have hfull : ((Writer.new s.payloadBuf s.payloadBuf.length).packAll
        (packNotification name args)).overflow = true := by
      rw [s.payloadBuf_length, hoverflow, decide_eq_true_eq]
      omega
    rw [if_pos hfull, if_neg hfit, List.append_nil]

/-- What `emit_log_line_` writes. -/
theorem emitLogLine_sent (s : Server sz σ) (level : UInt8) {line : List UInt8} (h : 0 ∉ line) :
    (s.emitLogLine level line).sent
      = s.sent ++ LogPiece.emitted sz.bufSize ⟨s.attached, level, line⟩ := by
  unfold emitLogLine
  by_cases hattached : s.attached = true
  · rw [if_pos hattached, notify_sent hattached, cstr_of_zeroFree h, hattached]
    simp [LogPiece.emitted, LogPiece.Fits, LogPiece.emission, LogPiece.payload]
  · rw [if_neg hattached]
    simp [LogPiece.emitted, LogPiece.Fits, LogPiece.emission, hattached, writeText]

/-- Sending changes neither the mode nor the level. -/
theorem sendFrame_mode (s : Server sz σ) (payload : List UInt8) :
    (s.sendFrame payload).attached = s.attached ∧
      (s.sendFrame payload).logLevel = s.logLevel := by
  unfold sendFrame
  dsimp only
  split <;> exact ⟨rfl, rfl⟩

/-- A log line changes neither the attachment nor the level. -/
theorem emitLogLine_mode (s : Server sz σ) (level : UInt8) (line : List UInt8) :
    (s.emitLogLine level line).attached = s.attached ∧
      (s.emitLogLine level line).logLevel = s.logLevel := by
  unfold emitLogLine notify
  split
  · split
    · exact ⟨rfl, rfl⟩
    · dsimp only
      split
      · exact ⟨rfl, rfl⟩
      · exact sendFrame_mode _ _
  · exact ⟨rfl, rfl⟩

/-- `flush_` gives the pending line out. -/
theorem flushLog_spec (s : Server sz σ) (h : 0 ∉ s.logBuf) :
    s.flushLog.logBuf = [] ∧ s.flushLog.attached = s.attached ∧
      s.flushLog.logLevel = s.logLevel ∧
      s.flushLog.sent
        = s.sent ++ LogPiece.emitted sz.bufSize ⟨s.attached, s.logLevel, s.logBuf⟩ := by
  obtain ⟨hattached, hlevel⟩ := s.emitLogLine_mode s.logLevel s.logBuf
  exact ⟨rfl, hattached, hlevel, s.emitLogLine_sent s.logLevel h⟩

/-- One byte: the pending line is that of the line buffer, and a piece that comes out of it
is emitted in the mode of this moment. -/
theorem logByte_spec (s : Server sz σ) (b : UInt8) (h : 0 ∉ s.logBuf) :
    (s.logByte b).logBuf = ((logLines sz).step s.logBuf b).1 ∧
      (s.logByte b).attached = s.attached ∧ (s.logByte b).logLevel = s.logLevel ∧
      (s.logByte b).sent
        = s.sent ++ (((logLines sz).step s.logBuf b).2.toList.map fun line =>
            LogPiece.mk s.attached s.logLevel line).flatMap (LogPiece.emitted sz.bufSize) := by
  obtain ⟨hbuf, hattached, hlevel, hsent⟩ := s.flushLog_spec h
  unfold logByte logLines machine
  by_cases hcr : b = cr
  · simp [hcr]
  by_cases hlf : b = lf
  · -- The line is complete.
    simp [hlf, hbuf, hattached, hlevel, hsent, show ¬ lf = cr by decide]
  by_cases hfull : sz.logBufSize ≤ s.logBuf.length + 1
  · -- A forced line break: the piece goes out, and `b` starts the next one.
    have hcap : sz.logBufSize - 1 ≤ s.logBuf.length := by omega
    simp [hcr, hlf, hfull, hcap, hbuf, hattached, hlevel, hsent]
  · have hcap : ¬ sz.logBufSize - 1 ≤ s.logBuf.length := by omega
    simp [hcr, hlf, hfull, hcap]

/-- No zero byte gets into the pending line. -/
theorem zeroFree_step {line : List UInt8} {b : UInt8} (h : 0 ∉ line) (hb : b ≠ 0) :
    0 ∉ ((logLines sz).step line b).1 := by
  unfold logLines machine
  by_cases hcr : b = cr
  · simpa [hcr] using h
  by_cases hlf : b = lf
  · simp [hlf, show ¬ lf = cr by decide]
  by_cases hfull : sz.logBufSize - 1 ≤ line.length
  · simpa [hcr, hlf, hfull] using Ne.symm hb
  · simpa [hcr, hlf, hfull] using ⟨h, Ne.symm hb⟩

/-- Over a schedule the log writes what it makes of the pieces, in order. -/
theorem logged_eq (s : Server sz σ) (events : List (LogEvent sz σ)) (hline : 0 ∉ s.logBuf)
    (hbytes : ∀ b ∈ LogEvent.bytes events, b ≠ 0) :
    s.logged events
      = (LogEvent.completed s.attached s.logLevel s.logBuf events).flatMap
          (LogPiece.emitted sz.bufSize) := by
  induction events generalizing s with
  | nil => rfl
  | cons event events ih =>
      cases event with
      | other s' => exact ih (s.logAct (.other s')) hline hbytes
      | byte b =>
          -- The piece that this byte completes, and those of the rest in the state behind it.
          obtain ⟨hbuf, hattached, hlevel, hsent⟩ := s.logByte_spec b hline
          have hb : b ≠ 0 := hbytes b List.mem_cons_self
          have hrest := ih (s.logByte b) (by rw [hbuf]; exact zeroFree_step hline hb)
            fun c hc => hbytes c (List.mem_cons_of_mem b hc)
          rw [hbuf, hattached, hlevel] at hrest
          rw [logged, LogEvent.completed, hsent, List.drop_left, hrest, List.flatMap_append]

/-! ### Nothing is lost -/

/-- Every piece of a schedule is what the line buffer cuts out of its bytes, and is emitted
once, in order, in full and in the mode it was completed in. -/
structure LogKept (s : Server sz σ) (events : List (LogEvent sz σ)) : Prop where
  lines : (LogEvent.completed s.attached s.logLevel [] events).map LogPiece.line
    = pieces (· = lf) (sz.logBufSize - 1) ((LogEvent.bytes events).filter (· ≠ cr))
  emitted : s.logged events
    = (LogEvent.completed s.attached s.logLevel [] events).flatMap LogPiece.emission

/-- What the log writes is all there exactly when every piece fits. -/
theorem flatMap_emitted_iff (bufSize : Nat) (ps : List LogPiece) :
    ps.flatMap (LogPiece.emitted bufSize) = ps.flatMap LogPiece.emission ↔
      ∀ piece ∈ ps, piece.Fits bufSize := by
  -- A piece never writes more than it should.
  have hle (p : LogPiece) : (p.emitted bufSize).length ≤ p.emission.length := by
    unfold LogPiece.emitted
    split
    · exact Nat.le_refl _
    · exact Nat.zero_le _
  have hsum (qs : List LogPiece) : (qs.flatMap (LogPiece.emitted bufSize)).length
      ≤ (qs.flatMap LogPiece.emission).length := by
    induction qs with
    | nil => exact Nat.le_refl _
    | cons q qs ih =>
        have hq := hle q
        simp only [List.flatMap_cons, List.length_append]
        omega
  -- By induction on the pieces.
  induction ps with
  | nil => simp
  | cons p ps ih =>
      rw [List.flatMap_cons, List.flatMap_cons, List.forall_mem_cons]
      by_cases hfits : p.Fits bufSize
      · -- The first piece is the same on both sides.
        have hp : p.emitted bufSize = p.emission := if_pos hfits
        rw [hp, List.append_cancel_left_eq]
        exact ih.trans ⟨fun h => ⟨hfits, h⟩, fun h => h.2⟩
      · -- A piece that was dropped is missing from the total.
        have hp : p.emitted bufSize = [] := if_neg hfits
        have hpos := List.length_pos_iff.mpr p.emission_ne_nil
        have hps := hsum ps
        refine iff_of_false (fun heq => ?_) fun h => hfits h.1
        have hlen := congrArg List.length heq
        rw [hp, List.nil_append, List.length_append] at hlen
        omega

/-- The pieces of a schedule are what the line buffer cuts out of its bytes. -/
theorem completed_pieces (hcap : 2 ≤ sz.logBufSize) (attached : Bool) (level : UInt8)
    (events : List (LogEvent sz σ)) :
    (LogEvent.completed attached level [] events).map LogPiece.line
      = pieces (· = lf) (sz.logBufSize - 1) ((LogEvent.bytes events).filter (· ≠ cr)) := by
  rw [LogEvent.completed_lines, given_eq (by omega)]
  simp

/-- Log lines are kept exactly when each piece that is completed while attached fits a
notification. -/
theorem logKept_iff {s : Server sz σ} {events : List (LogEvent sz σ)}
    (hcap : 2 ≤ sz.logBufSize) (hline : s.logBuf = [])
    (hbytes : ∀ b ∈ LogEvent.bytes events, b ≠ 0) :
    LogKept s events ↔
      ∀ piece ∈ LogEvent.completed s.attached s.logLevel [] events, piece.Fits sz.bufSize := by
  have hlogged := s.logged_eq events (by rw [hline]; exact List.not_mem_nil) hbytes
  rw [hline] at hlogged
  rw [← flatMap_emitted_iff, ← hlogged]
  exact ⟨fun h => h.emitted, fun h => ⟨completed_pieces hcap _ _ _, h⟩⟩

end Server

/-- **Log lines.** Over every schedule of bytes, attaching and detaching, each piece of each
line is emitted once, in order, in full and in the mode of its end, if and only if no piece
that ends while attached is too long for a notification of `BufSize` bytes. -/
theorem log_kept_iff (sz : ServerSize) (σ : Type) (s : Server sz σ)
    (events : List (LogEvent sz σ)) (hcap : 2 ≤ sz.logBufSize) (hline : s.logBuf = [])
    (hbytes : ∀ b ∈ LogEvent.bytes events, b ≠ 0) :
    Server.LogKept s events ↔
      ∀ piece ∈ LogEvent.completed s.attached s.logLevel [] events, piece.Fits sz.bufSize :=
  Server.logKept_iff hcap hline hbytes

/-- A line while detached, and one that starts detached and ends attached. -/
theorem log_kept_iff_witness :
    let sz : ServerSize := ⟨4, 64, by decide, .avr, 16, by decide, false, 64⟩
    Server.LogKept (Server.new sz () fun _ => 0)
      [.byte 0x61, .byte cr, .byte lf, .byte 0x62,
        .other { Server.new sz () fun _ => 0 with attached := true }, .byte 0x63, .byte lf] := by
  intro sz
  have hbytes {b : UInt8} (hb : b ∈ [0x61, cr, lf, 0x62, 0x63, lf]) : b ≠ 0 :=
    ne_of_mem_of_not_mem hb (by decide)
  exact (log_kept_iff sz Unit _ _ (by decide) rfl fun b => hbytes).mpr (by decide +kernel)

/-- With `BufSize = 32` an attached device drops a line of thirty bytes. -/
theorem log_line_lost :
    ¬ ∀ (sz : ServerSize) (s : Server sz Unit) (events : List (LogEvent sz Unit)),
      32 ≤ sz.bufSize → 2 ≤ sz.logBufSize → s.logBuf = [] →
      (∀ b ∈ LogEvent.bytes events, b ≠ 0) → Server.LogKept s events := by
  intro h
  let sz : ServerSize := ⟨4, 32, by decide, .avr, 16, by decide, false, 64⟩
  let s : Server sz Unit := { Server.new sz () fun _ => 0 with attached := true }
  let events : List (LogEvent sz Unit) := (List.replicate 30 0x61 ++ [lf]).map .byte
  have hbytes : ∀ b ∈ LogEvent.bytes events, b ≠ 0 := by
    intro b hb
    exact ne_of_mem_of_not_mem hb (by decide)
  have hfits := (Server.logKept_iff (by decide) rfl hbytes).mp
    (h sz s events (by decide) (by decide) rfl hbytes)
  have hlost := hfits ⟨true, 2, List.replicate 30 0x61⟩ (by decide)
  exact absurd (hlost rfl) (by decide +kernel)

end SerialRpc
