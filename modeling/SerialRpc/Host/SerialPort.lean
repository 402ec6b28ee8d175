import SerialRpc.Lib.Window

/-!
# `SerialRpc.Host.SerialPort`: reading from a serial port

The reading half of the `SerialPort` class of `extras/host/include/serialport.hpp`. Between the
port and its callers stands the input buffer `_rx_buf` with the cursors `_rx_head` and `_rx_tail`.
`read_native`, the platform layer, is environment: the list of what its calls return, and a call
for which none is left still waits. The deadline only decides what it returns.

`buf` and `line` of the caller are what has been stored there so far. The overloads of `read` that
take a span are `read` on its memory.
-/

set_option autoImplicit false

namespace SerialRpc

/-- The `std::errc` codes that reading uses. -/
inductive Errc where
  | badFileDescriptor
  | badAddress
  | messageSize
  | noBufferSpace
deriving DecidableEq, Repr

/-- `std::error_code`: of the generic category, or of the system. -/
inductive ErrorCode where
  | generic (code : Errc)
  | system (number : Int)
deriving DecidableEq, Repr

/-- What one call of `read_native` returns: the number of bytes moved, with the bytes, or -1 once
`fail_native` has been called. No bytes are a timeout. -/
inductive NativeRead where
  | moved (bytes : List UInt8)
  | failed (errorNumber : Int)
deriving DecidableEq, Repr

/-- `clamp_to_int`. -/
def clampToInt (count : Nat) : Int := min count 2147483647

/-- `SerialPort`: what reading uses of it. -/
structure SerialPort where
  isOpen : Bool
  /-- `_config.max_line_length`. -/
  maxLineLength : Nat
  rxBuf : List UInt8
  rxHead : Nat
  rxTail : Nat
  pendingLf : Bool
  timedOut : Bool
  lastError : Option ErrorCode
  head_le_tail : rxHead ≤ rxTail
  tail_le_size : rxTail ≤ rxBuf.length
  /-- The constructor asks for 64 bytes at least, and a port that was moved from is closed. -/
  room_of_open : isOpen = true → 64 ≤ rxBuf.length
deriving DecidableEq, Repr

namespace SerialPort

/-- The constructor, where `open_native` succeeds. -/
def opened (bufferSize maxLineLength : Nat) : SerialPort where
  isOpen := true
  maxLineLength := maxLineLength
  rxBuf := List.replicate (max bufferSize 64) 0
  rxHead := 0
  rxTail := 0
  pendingLf := false
  timedOut := false
  lastError := none
  head_le_tail := Nat.le_refl 0
  tail_le_size := Nat.zero_le _
  room_of_open := fun _ => by
    rw [List.length_replicate]
    exact Nat.le_max_right _ _

/-- `buffered`. -/
def buffered (p : SerialPort) : Nat := p.rxTail - p.rxHead

/-- The bytes that are buffered. -/
def pending (p : SerialPort) : List UInt8 := (p.rxBuf.drop p.rxHead).take p.buffered

/-- `begin_operation`. -/
def beginOperation (p : SerialPort) : SerialPort := { p with timedOut := false, lastError := none }

/-- `fail`: its effect. It returns -1. -/
def fail (p : SerialPort) (code : Errc) : SerialPort :=
  { p with lastError := some (.generic code) }

/-! ### The buffer -/

/-- Both cursors at the front. -/
def rewind (p : SerialPort) : SerialPort :=
  { p with
    rxHead := 0
    rxTail := 0
    head_le_tail := Nat.le_refl 0
    tail_le_size := Nat.zero_le _ }

/-- As many bytes are pending as `buffered` says. -/
theorem pending_length (p : SerialPort) : p.pending.length = p.buffered :=
  Window.view_length p.tail_le_size

/-- The `memmove` of `fill_buffer`. -/
def compact (p : SerialPort) : SerialPort :=
  { p with
    rxBuf := p.pending ++ p.rxBuf.drop p.buffered
    rxHead := 0
    rxTail := p.buffered
    head_le_tail := Nat.zero_le _
    tail_le_size := by
      rw [List.length_append, p.pending_length]
      exact Nat.le_add_right _ _
    room_of_open := fun hopen => by
      have hroom := p.room_of_open hopen
      have htail := p.tail_le_size
      rw [List.length_append, p.pending_length, List.length_drop, buffered]
      omega }

/-- What `read_native` leaves behind `_rx_tail`. It moves as many bytes as it was asked for at
most. -/
def store (p : SerialPort) (bytes : List UInt8) : SerialPort :=
  let bytes := bytes.take (p.rxBuf.length - p.rxTail)
  have hbytes : bytes.length ≤ p.rxBuf.length - p.rxTail := List.length_take_le _ _
  { p with
    rxBuf := p.rxBuf.take p.rxTail ++ bytes ++ p.rxBuf.drop (p.rxTail + bytes.length)
    rxTail := p.rxTail + bytes.length
    head_le_tail := Nat.le_trans p.head_le_tail (Nat.le_add_right _ _)
    tail_le_size := by
      have htail := p.tail_le_size
      rw [Window.write_length htail hbytes]
      omega
    room_of_open := fun hopen => by
      rw [Window.write_length p.tail_le_size hbytes]
      exact p.room_of_open hopen }

/-- What `fill_buffer` does first. -/
def makeRoom (p : SerialPort) : SerialPort :=
  if p.rxHead = p.rxTail then p.rewind
  -- No space behind the tail.
  else if p.rxTail = p.rxBuf.length then p.compact
  else p

/-- `fill_buffer`: what it returns, `none` while it waits, and what `read_native` returns later
on. -/
def fillBuffer (p : SerialPort) (reads : List NativeRead) :
    SerialPort × Option Int × List NativeRead :=
  let p := p.makeRoom
  if p.rxTail = p.rxBuf.length then (p.fail .noBufferSpace, some (-1), reads)
  else
    match reads with
    | [] => (p, none, [])
    | .moved bytes :: reads =>
        (p.store bytes, some (bytes.take (p.rxBuf.length - p.rxTail)).length, reads)
    | .failed number :: reads =>
        ({ p with lastError := some (.system number) }, some (-1), reads)

/-- `take_buffered`: the bytes that it copies. -/
def takeBuffered (p : SerialPort) (nMax : Nat) : SerialPort × List UInt8 :=
  let count := min p.buffered nMax
  if 0 < count then
    let q : SerialPort :=
      { p with
        rxHead := p.rxHead + count
        head_le_tail := by
          have hhead := p.head_le_tail
          have hcount : count ≤ p.rxTail - p.rxHead := Nat.min_le_left _ _
          omega }
    (if q.rxHead = q.rxTail then q.rewind else q, p.pending.take count)
  else (p, [])

/-- A call of `fill_buffer` that moves bytes uses up what one call of `read_native` returns. -/
theorem fillBuffer_reads {p q : SerialPort} {reads rest : List NativeRead} {ret : Int}
    (h : p.fillBuffer reads = (q, some ret, rest)) (hret : 0 ≤ ret) :
    rest.length < reads.length := by
  unfold fillBuffer at h
  dsimp only at h
  split at h
  · -- No space: it returns -1.
    cases h
    omega
  · split at h
    · cases h
    · cases h
      exact Nat.lt_succ_self _
    · cases h
      exact Nat.lt_succ_self _

/-! ### Reading -/

/-- Where a call is. -/
structure Turn where
  port : SerialPort
  /-- What the caller's memory or string has got. -/
  out : List UInt8
  /-- What the call returned, `none` while it waits. -/
  ret : Option Int
  /-- What `read_native` returns later on. -/
  reads : List NativeRead

/-- The loop of `read`, with `buf` as it is so far. -/
def readLoop (p : SerialPort) (buf : List UInt8) (nBytes : Nat) (reads : List NativeRead) : Turn :=
  if nBytes ≤ buf.length then ⟨p, buf, some (clampToInt buf.length), reads⟩
  else
    let (p, taken) := p.takeBuffered (nBytes - buf.length)
    let buf := buf ++ taken
    if buf.length = nBytes then ⟨p, buf, some (clampToInt buf.length), reads⟩
    else
      match _hfill : p.fillBuffer reads with
      | (p, none, rest) => ⟨p, buf, none, rest⟩
      | (p, some ret, rest) =>
          -- An error behind some bytes shows in `_last_error` only.
          if ret < 0 then
            ⟨p, buf, some (if 0 < buf.length then clampToInt buf.length else -1), rest⟩
          else if ret = 0 then
            ⟨{ p with timedOut := true }, buf, some (clampToInt buf.length), rest⟩
          else readLoop p buf nBytes rest
termination_by reads.length
decreasing_by exact fillBuffer_reads _hfill (by omega)

/-- `read`. `null` says that the caller's `buf` is `nullptr`. -/
def read (p : SerialPort) (null : Bool) (nBytes : Nat) (reads : List NativeRead) : Turn :=
  let p := { p.beginOperation with pendingLf := false }
  if !p.isOpen then ⟨p.fail .badFileDescriptor, [], some (-1), reads⟩
  else if nBytes = 0 then ⟨p, [], some 0, reads⟩
  else if null then ⟨p.fail .badAddress, [], some (-1), reads⟩
  else p.readLoop [] nBytes reads

/-- `read_some`. -/
def readSome (p : SerialPort) (null : Bool) (nMax : Nat) (reads : List NativeRead) : Turn :=
  let p := { p.beginOperation with pendingLf := false }
  if !p.isOpen then ⟨p.fail .badFileDescriptor, [], some (-1), reads⟩
  else if nMax = 0 then ⟨p, [], some 0, reads⟩
  else if null then ⟨p.fail .badAddress, [], some (-1), reads⟩
  else if p.buffered = 0 then
    match p.fillBuffer reads with
    | (p, none, rest) => ⟨p, [], none, rest⟩
    | (p, some ret, rest) =>
        if ret < 0 then ⟨p, [], some (-1), rest⟩
        else if ret = 0 then ⟨{ p with timedOut := true }, [], some 0, rest⟩
        else
          let (p, taken) := p.takeBuffered nMax
          ⟨p, taken, some (clampToInt taken.length), rest⟩
  else
    let (p, taken) := p.takeBuffered nMax
    ⟨p, taken, some (clampToInt taken.length), reads⟩

/-! ### Reading lines -/

/-- The line feed. -/
def lf : UInt8 := 0x0a

/-- The carriage return. -/
def cr : UInt8 := 0x0d

/-- What `read_line` does with the byte `c`: the line, and whether it has ended. -/
def lineByte (p : SerialPort) (line : List UInt8) (c : UInt8) : SerialPort × List UInt8 × Bool :=
  -- The line feed of a CRLF pair.
  if p.pendingLf ∧ c = lf then ({ p with pendingLf := false }, line, false)
  else
    let p := { p with pendingLf := false }
    if c = lf then (p, line, true)
    else if c = cr then ({ p with pendingLf := true }, line, true)
    -- A runaway line is drained, but stops growing.
    else if p.maxLineLength ≤ line.length then (p.fail .messageSize, line, false)
    else (p, line ++ [c], false)

/-- One byte on. -/
def advance (p : SerialPort) (h : p.rxHead < p.rxTail) : SerialPort :=
  { p with
    rxHead := p.rxHead + 1
    head_le_tail := h }

/-- The cursors stay where `advance` has left them. -/
theorem lineByte_cursors (p : SerialPort) (line : List UInt8) (c : UInt8) :
    (p.lineByte line c).1.rxHead = p.rxHead ∧ (p.lineByte line c).1.rxTail = p.rxTail := by
  unfold lineByte
  dsimp only
  split_ifs <;> exact ⟨rfl, rfl⟩

/-- The inner loop of `read_line`, over the bytes that are buffered. -/
def scanLine (p : SerialPort) (line : List UInt8) : SerialPort × List UInt8 × Bool :=
  if h : p.rxHead < p.rxTail then
    have hbound : p.rxHead < p.rxBuf.length := Nat.lt_of_lt_of_le h p.tail_le_size
    match _hbyte : (p.advance h).lineByte line p.rxBuf[p.rxHead] with
    | (q, text, true) => (q, text, true)
    | (q, text, false) => scanLine q text
  else (p, line, false)
termination_by p.rxTail - p.rxHead
decreasing_by
  obtain ⟨hhead, htail⟩ := lineByte_cursors (p.advance h) line p.rxBuf[p.rxHead]
  rw [_hbyte] at hhead htail
  rw [hhead, htail]
  exact Nat.sub_lt_sub_left h (Nat.lt_succ_self _)

/-- The outer loop of `read_line`. -/
def readLineLoop (p : SerialPort) (line : List UInt8) (reads : List NativeRead) : Turn :=
  match p.scanLine line with
  | (p, line, true) => ⟨p, line, some (clampToInt line.length), reads⟩
  | (p, line, false) =>
      match _hfill : p.fillBuffer reads with
      | (p, none, rest) => ⟨p, line, none, rest⟩
      | (p, some ret, rest) =>
          if ret < 0 then
            ⟨p, line, some (if line.isEmpty then -1 else clampToInt line.length), rest⟩
          -- A timeout: the bytes of the line so far have left the buffer for good.
          else if ret = 0 then
            ⟨{ p with timedOut := true }, line, some (clampToInt line.length), rest⟩
          else readLineLoop p line rest
termination_by reads.length
decreasing_by exact fillBuffer_reads _hfill (by omega)

/-- `read_line(std::string &)`. -/
def readLine (p : SerialPort) (reads : List NativeRead) : Turn :=
  let p := p.beginOperation
  -- `_pending_lf` stays: the line before this one may have ended with the CR of a pair.
  if !p.isOpen then ⟨p.fail .badFileDescriptor, [], some (-1), reads⟩
  else p.readLineLoop [] reads

/-- `read_line()`: the line or `nullopt`, once the call has returned. -/
def readLineOptional (p : SerialPort) (reads : List NativeRead) :
    SerialPort × Option (Option (List UInt8)) × List NativeRead :=
  let turn := p.readLine reads
  match turn.ret with
  | none => (turn.port, none, turn.reads)
  | some ret =>
      -- `turn.out` goes with the local `line`.
      if ret < 0 ∨ turn.port.timedOut then (turn.port, some none, turn.reads)
      else (turn.port, some (some turn.out), turn.reads)

/-! ### Calls in a row -/

/-- A call of a caller. -/
inductive Call where
  | read (null : Bool) (nBytes : Nat)
  | readSome (null : Bool) (nMax : Nat)
  | readLine
deriving DecidableEq, Repr

/-- What comes of a call. -/
def call (p : SerialPort) (reads : List NativeRead) : Call → Turn
  | .read null nBytes => p.read null nBytes reads
  | .readSome null nMax => p.readSome null nMax reads
  | .readLine => p.readLine reads

/-- Calls in a row: each with what has come of it, where the port is, and what `read_native`
returns later on. -/
structure Session where
  turns : List (Call × Turn)
  port : SerialPort
  reads : List NativeRead

/-- The calls of a caller, up to the first that waits. -/
def calls (p : SerialPort) (reads : List NativeRead) : List Call → Session
  | [] => ⟨[], p, reads⟩
  | c :: cs =>
      let turn := p.call reads c
      if turn.ret.isNone then ⟨[(c, turn)], turn.port, turn.reads⟩
      else
        let session := turn.port.calls turn.reads cs
        { session with turns := (c, turn) :: session.turns }

/-- A caller that keeps calling `read_line()`: what the first `n` calls return, up to the one that
waits. -/
def keepCalling (p : SerialPort) (reads : List NativeRead) : Nat → List (Option (List UInt8))
  | 0 => []
  | n + 1 =>
      match p.readLineOptional reads with
      | (_, none, _) => []
      | (p, some result, reads) => result :: keepCalling p reads n

end SerialPort

end SerialRpc
