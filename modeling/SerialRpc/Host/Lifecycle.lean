import SerialRpc.Host.Posix
import SerialRpc.Host.Termios
import SerialRpc.Lib.Custody

/-!
# `SerialRpc.Host.Lifecycle`: opening, moving and closing ports

The setup and control methods of `SerialPort` in `extras/host/include/serialport.hpp`, over the
system calls that they make: the constructor, the moves, the destructor, `set_baud_rate`, `drain`
and the flush family. The I/O methods are those of `SerialRpc.Host.Posix`.

`Os` is the operating system as far as these calls go: what the descriptors of the process refer to,
how each terminal is set, and what the calls to come answer. A call for which no answer is left
succeeds, but for `open`. `ledger` notes which descriptor each call is about. No call looks at it.

`World` is a program: the `SerialPort` objects that there are, by name. The modem lines and
`send_break` are left out. They are calls on the descriptor that leave everything else alone.
-/

set_option autoImplicit false

namespace SerialRpc

namespace Errno

/-- `EBUSY`. -/
def ebusy : Int := 16

/-- `EINVAL`. -/
def einval : Int := 22

/-- `EMFILE`. -/
def emfile : Int := 24

end Errno

/-! ### System calls -/

/-- What `tcsetattr` does. When it succeeds it may have applied some of the settings only. -/
inductive SetAnswer where
  | refused (errorNumber : Int)
  | settled (applies : Termios → Termios → Termios)

/-- The operating system. A terminal is a number here. -/
structure Os where
  /-- The terminal behind a path. -/
  device : List UInt8 → Nat
  /-- The terminals behind the open descriptors. -/
  files : Nat → Option Nat
  settings : Nat → Termios
  /-- `TIOCEXCL`. -/
  exclusive : Nat → Bool
  /-- What `open` answers: an error, or the descriptor that is free. -/
  opens : List (Except Int Nat)
  /-- What `ioctl` answers: an error, or none. -/
  ioctls : List (Option Int)
  gets : List (Option Int)
  sets : List SetAnswer
  /-- The errors of `tcdrain`. -/
  drains : List Int
  flushes : List (Option Int)
  ledger : List (Custody.Deed Nat)

namespace Os

/-- A call on a descriptor. -/
def called (os : Os) (fd : Nat) : Os := { os with ledger := os.ledger ++ [.used fd] }

/-- `open`. A terminal that is in exclusive mode is busy, and a descriptor that is in use cannot be
given away. -/
def openPort (os : Os) (port : List UInt8) : Os × Except Int Nat :=
  match os.opens with
  | [] => (os, .error Errno.emfile)
  | .error number :: opens => ({ os with opens := opens }, .error number)
  | .ok fd :: opens =>
      if os.exclusive (os.device port) then ({ os with opens := opens }, .error Errno.ebusy)
      else if (os.files fd).isSome then ({ os with opens := opens }, .error Errno.emfile)
      else
        ({ os with
            opens := opens
            files := Function.update os.files fd (some (os.device port))
            ledger := os.ledger ++ [.acquired fd] }, .ok fd)

/-- `close`. -/
def closePort (os : Os) (fd : Nat) : Os :=
  { os with
      files := Function.update os.files fd none
      ledger := os.ledger ++ [.released fd] }

/-- The terminal of a descriptor. -/
def terminal (os : Os) (fd : Nat) : Nat := (os.files fd).getD 0

/-- `ioctl` with `TIOCEXCL` or `TIOCNXCL`: the error, if there is one. -/
def setExclusive (os : Os) (fd : Nat) (on : Bool) : Os × Option Int :=
  let applied := { os.called fd with
    exclusive := Function.update os.exclusive (os.terminal fd) on }
  match os.ioctls with
  | [] => (applied, none)
  | none :: ioctls => ({ applied with ioctls := ioctls }, none)
  | some number :: ioctls => ({ os.called fd with ioctls := ioctls }, some number)

/-- `tcgetattr`. -/
def tcgetattr (os : Os) (fd : Nat) : Os × Except Int Termios :=
  match os.gets with
  | [] => (os.called fd, .ok (os.settings (os.terminal fd)))
  | none :: gets => ({ os.called fd with gets := gets }, .ok (os.settings (os.terminal fd)))
  | some number :: gets => ({ os.called fd with gets := gets }, .error number)

/-- The terminal of a descriptor is set. -/
def settle (os : Os) (fd : Nat) (options : Termios) : Os :=
  { os.called fd with settings := Function.update os.settings (os.terminal fd) options }

/-- `tcsetattr`. -/
def tcsetattr (os : Os) (fd : Nat) (options : Termios) : Os × Option Int :=
  match os.sets with
  | [] => (os.settle fd options, none)
  | .refused number :: sets => ({ os.called fd with sets := sets }, some number)
  | .settled applies :: sets =>
      ({ os.settle fd (applies (os.settings (os.terminal fd)) options) with sets := sets }, none)

/-- `tcflush`. -/
def tcflush (os : Os) (fd : Nat) : Os × Option Int :=
  match os.flushes with
  | [] => (os.called fd, none)
  | answer :: flushes => ({ os.called fd with flushes := flushes }, answer)

/-- The loop around `tcdrain`, over what that answers: it goes on while `errno` is `EINTR`. -/
def drainFrom (os : Os) (fd : Nat) : List Int → Os × Option Int
  | [] => ({ os.called fd with drains := [] }, none)
  | number :: drains =>
      if number = Errno.eintr then (os.called fd).drainFrom fd drains
      else ({ os.called fd with drains := drains }, some number)

end Os

/-! ### The I/O methods leave a port open -/

namespace SerialPort

/-- Making room in the buffer neither opens nor closes the port. -/
theorem makeRoom_isOpen (p : SerialPort) : p.makeRoom.isOpen = p.isOpen := by
  unfold makeRoom
  split_ifs <;> rfl

/-- Nor does taking bytes out of it. -/
theorem takeBuffered_isOpen (p : SerialPort) (nMax : Nat) :
    (p.takeBuffered nMax).1.isOpen = p.isOpen := by
  unfold takeBuffered
  dsimp only
  split_ifs <;> rfl

/-- Nor does a byte of a line. -/
theorem lineByte_isOpen (p : SerialPort) (line : List UInt8) (c : UInt8) :
    (p.lineByte line c).1.isOpen = p.isOpen := by
  unfold lineByte
  dsimp only
  split_ifs <;> rfl

/-- Nor does the scan of all that is buffered. -/
theorem scanLine_isOpen (p : SerialPort) (line : List UInt8) :
    (p.scanLine line).1.isOpen = p.isOpen := by
  fun_induction scanLine p line with
  | case1 p line hbuffered hbound q text hbyte =>
      have hopen := (p.advance hbuffered).lineByte_isOpen line p.rxBuf[p.rxHead]
      rw [hbyte] at hopen
      exact hopen
  | case2 p line hbuffered hbound q text hbyte ih =>
      have hopen := (p.advance hbuffered).lineByte_isOpen line p.rxBuf[p.rxHead]
      rw [hbyte] at hopen
      exact ih.trans hopen
  | case3 => rfl

/-- Nor does a read of the platform layer. -/
theorem fillBufferOver_isOpen {p q : SerialPort} {deadline : Deadline} {s t : Kernel}
    {ret : Option Int} (h : p.fillBufferOver deadline s = (q, ret, t)) : q.isOpen = p.isOpen := by
  have hroom := p.makeRoom_isOpen
  unfold fillBufferOver at h
  dsimp only at h
  split at h
  · cases h
    exact hroom
  · split at h <;> cases h <;> exact hroom

/-- Nor does the loop of `read`. -/
theorem readLoopOver_isOpen (p : SerialPort) (buf : List UInt8) (nBytes : Nat)
    (deadline : Deadline) (s : Kernel) :
    (p.readLoopOver buf nBytes deadline s).port.isOpen = p.isOpen := by
  have took {p q : SerialPort} {taken : List UInt8} {n : Nat} (h : p.takeBuffered n = (q, taken)) :
      q.isOpen = p.isOpen := by
    have hopen := p.takeBuffered_isOpen n
    rwa [h] at hopen
  fun_induction readLoopOver p buf nBytes deadline s with
  | case1 => rfl
  | case2 p buf s hfull q taken htake => exact took htake
  | case3 p buf s hfull q taken htake buf' hdone r t hfill =>
      exact (fillBufferOver_isOpen hfill).trans (took htake)
  | case4 p buf s hfull q taken htake buf' hdone r ret t hfill hret =>
      exact (fillBufferOver_isOpen hfill).trans (took htake)
  | case5 p buf s hfull q taken htake buf' hdone r t hfill hret =>
      exact (fillBufferOver_isOpen hfill).trans (took htake)
  | case6 p buf s hfull q taken htake buf' hdone r ret t hfill hret hzero ih =>
      exact ih.trans ((fillBufferOver_isOpen hfill).trans (took htake))

/-- Nor does the loop of `read_line`. -/
theorem readLineLoopOver_isOpen (p : SerialPort) (line : List UInt8) (deadline : Deadline)
    (s : Kernel) : (p.readLineLoopOver line deadline s).port.isOpen = p.isOpen := by
  have scanned {p q : SerialPort} {line text : List UInt8} {ended : Bool}
      (h : p.scanLine line = (q, text, ended)) : q.isOpen = p.isOpen := by
    have hopen := p.scanLine_isOpen line
    rwa [h] at hopen
  fun_induction readLineLoopOver p line deadline s with
  | case1 p line s q text hscan => exact scanned hscan
  | case2 p line s q text hscan r t hfill =>
      exact (fillBufferOver_isOpen hfill).trans (scanned hscan)
  | case3 p line s q text hscan r ret t hfill hret =>
      exact (fillBufferOver_isOpen hfill).trans (scanned hscan)
  | case4 p line s q text hscan r t hfill hret =>
      exact (fillBufferOver_isOpen hfill).trans (scanned hscan)
  | case5 p line s q text hscan r ret t hfill hret hzero ih =>
      exact ih.trans ((fillBufferOver_isOpen hfill).trans (scanned hscan))

/-- Nor does the loop of `write`. -/
theorem writeLoop_isOpen (p : SerialPort) (data : List UInt8) (written : Nat)
    (deadline : Deadline) (s : Kernel) :
    (p.writeLoop data written deadline s).port.isOpen = p.isOpen := by
  fun_induction writeLoop p data written deadline s with
  | case1 => rfl
  | case2 => rfl
  | case3 => rfl
  | case4 => rfl
  | case5 written s hall t count hwrite hcount ih => exact ih

/-- Nor does `read_some`. -/
theorem readSomeOver_isOpen (p : SerialPort) (null : Bool) (nMax : Nat) (deadline : Deadline)
    (s : Kernel) : (p.readSomeOver null nMax deadline s).port.isOpen = p.isOpen := by
  unfold readSomeOver
  dsimp only
  split_ifs
  · rfl
  · rfl
  · rfl
  · split
    · rename_i hfill
      have hopen := fillBufferOver_isOpen hfill
      exact hopen
    · rename_i hfill
      have hopen := fillBufferOver_isOpen hfill
      split_ifs
      · exact hopen
      · exact hopen
      · exact (takeBuffered_isOpen _ _).trans hopen
  · exact takeBuffered_isOpen _ _

/-- No I/O method opens or closes the port. -/
theorem operate_isOpen (p : SerialPort) (s : Kernel) (issued : Issued) :
    (p.operate s issued).port.isOpen = p.isOpen := by
  unfold operate
  dsimp only
  split
  · unfold readOver
    dsimp only
    split_ifs
    · rfl
    · rfl
    · rfl
    · exact readLoopOver_isOpen _ _ _ _ _
  · exact readSomeOver_isOpen p _ _ _ s
  · unfold readLineOver
    dsimp only
    split_ifs
    · rfl
    · exact readLineLoopOver_isOpen _ _ _ _
  · unfold write
    dsimp only
    split_ifs
    · rfl
    · rfl
    · rfl
    · exact writeLoop_isOpen _ _ _ _ _

end SerialPort

/-! ### The object -/

namespace SerialPort

/-- `SerialPort::State`. -/
structure State where
  original : Termios
  restore : Bool

/-- A `SerialPort` that is made, before `open_native`. -/
def built (isOpen : Bool) (bufferSize maxLineLength : Nat) : SerialPort :=
  { opened bufferSize maxLineLength with
    isOpen := isOpen
    room_of_open := fun _ => (opened bufferSize maxLineLength).room_of_open rfl }

/-- Both cursors at the front, no line feed pending, and closed if `isOpen` says so. -/
def reset (p : SerialPort) (isOpen : Bool) (h : isOpen = true → p.isOpen = true) : SerialPort :=
  { p.rewind with
    isOpen := isOpen
    pendingLf := false
    room_of_open := fun hopen => p.room_of_open (h hopen) }

/-- What is left where a `std::vector` was moved from. -/
def emptied (p : SerialPort) : SerialPort :=
  { p.reset false (by rintro ⟨⟩) with
    rxBuf := []
    tail_le_size := Nat.zero_le _
    room_of_open := by rintro ⟨⟩ }

end SerialPort

open SerialPort (Config SetupError State)

/-- A `SerialPort` object. `reader` is what the I/O methods use of it. -/
structure PortObject where
  port : List UInt8
  config : Config
  /-- `_state`, where the pointer is not null. -/
  state : Option State
  handle : Option Nat
  reader : SerialPort
  /-- A port that is open has its state, so `_state->original` can be read. -/
  state_of_open : handle.isSome = true → state.isSome = true
  reader_open : reader.isOpen = handle.isSome

namespace PortObject

/-- `throw_generic` with `bad_file_descriptor`. -/
def closedError : SetupError := .generic .badFileDescriptor (text "SerialPort: port is closed")

/-- `apply_config`: what it throws. -/
def applyConfig (port : List UInt8) (fd : Nat) (original : Termios) (config : Config) (os : Os) :
    Os × Option SetupError :=
  match original.requested config with
  | none =>
      (os, some (.native Errno.einval (text "SerialPort: cannot set the baud rate of " ++ port)))
  | some options =>
      match os.tcsetattr fd options with
      | (os, some number) =>
          (os, some (.native number (text "SerialPort: cannot configure " ++ port)))
      | (os, none) =>
          match os.tcgetattr fd with
          | (os, .error number) =>
              (os, some (.native number
                (text "SerialPort: cannot read back the settings of " ++ port)))
          | (os, .ok applied) =>
              if applied.cflag &&& Termios.frameMask ≠ options.cflag &&& Termios.frameMask then
                (os, some (.generic .invalidArgument
                  (text "SerialPort: " ++ port ++ text " rejected the requested frame format")))
              else if (SerialPort.baudCode config.baudRate).any (· != applied.ospeed) then
                (os, some (.generic .invalidArgument
                  (text "SerialPort: " ++ port ++ text " rejected the baud rate " ++
                    Decimal.numeral config.baudRate)))
              else (os, none)

/-- What `open_native` leaves in `_handle` and `_state`, and what it throws. -/
structure Opening where
  os : Os
  handle : Option Nat
  state : State
  thrown : Option SetupError

/-- `open_native`, for a state in which nothing has been read. -/
def openNative (port : List UInt8) (config : Config) (state : State) (os : Os) : Opening :=
  match os.openPort port with
  | (os, .error number) =>
      ⟨os, none, state, some (.native number (text "SerialPort: cannot open " ++ port))⟩
  | (os, .ok fd) =>
      match if config.exclusive then os.setExclusive fd true else (os, none) with
      | (os, some number) =>
          ⟨os, some fd, state,
            some (.native number (text "SerialPort: cannot get exclusive access to " ++ port))⟩
      | (os, none) =>
          match os.tcgetattr fd with
          | (os, .error number) =>
              ⟨os, some fd, state, some (.native number
                (text "SerialPort: " ++ port ++ text " is not a serial device"))⟩
          | (os, .ok original) =>
              match applyConfig port fd original config os with
              | (os, some thrown) => ⟨os, some fd, ⟨original, true⟩, some thrown⟩
              | (os, none) => ⟨(os.tcflush fd).1, some fd, ⟨original, true⟩, none⟩

/-- `close_native`. None of its errors is looked at. -/
def closeNative (fd : Nat) (config : Config) (state : State) (os : Os) : Os :=
  let os := (os.drainFrom fd os.drains).1
  let os := if state.restore then (os.tcsetattr fd state.original).1 else os
  let os := if config.exclusive then (os.setExclusive fd false).1 else os
  let os := (os.tcflush fd).1
  os.closePort fd

/-- `close`. -/
def close (p : PortObject) (os : Os) : Os × PortObject :=
  let os :=
    match hfd : p.handle with
    | none => os
    | some fd =>
        closeNative fd p.config (p.state.get (p.state_of_open (by rw [hfd]; rfl))) os
  (os,
    { p with
        handle := none
        state := p.state.map fun state => { state with restore := false }
        reader := p.reader.reset false (by rintro ⟨⟩)
        state_of_open := by rintro ⟨⟩
        reader_open := rfl })

/-- The object behind the member initializers and `open_native`. -/
def made (port : List UInt8) (config : Config) (handle : Option Nat) (state : State) :
    PortObject where
  port := port
  config := config
  state := some state
  handle := handle
  reader := .built handle.isSome config.bufferSize config.maxLineLength
  state_of_open := fun _ => rfl
  reader_open := rfl

/-- All that a new `State` holds is zeros. -/
def noState : State := ⟨⟨0, 0, 0, 0, fun _ => 0, 0, 0⟩, false⟩

/-- The constructor: the object, or what it throws. There is no object then. -/
def construct (port : List UInt8) (config : Config) (os : Os) : Os × Except SetupError PortObject :=
  match SerialPort.validate config port with
  | some thrown => (os, .error thrown)
  | none =>
      match openNative port config noState os with
      | ⟨os, handle, state, some thrown⟩ =>
          (((made port config handle state).close os).1, .error thrown)
      | ⟨os, handle, state, none⟩ => (os, .ok (made port config handle state))

/-- What a move leaves of the object that was moved from. -/
def movedFrom (p : PortObject) : PortObject :=
  { p with
      port := []
      state := none
      handle := none
      reader := p.reader.emptied
      state_of_open := by rintro ⟨⟩
      reader_open := rfl }

/-- `set_baud_rate` of a port that is open. -/
def changeRate (p : PortObject) (fd : Nat) (original : Termios) (value : Nat) (os : Os) :
    Os × PortObject × Option SetupError :=
  let updated := { p.config with baudRate := value }
  match SerialPort.validate updated p.port with
  | some thrown => (os, p, some thrown)
  | none =>
      match os.drainFrom fd os.drains with
      | (os, some number) =>
          (os, p, some (.native number (text "SerialPort: cannot drain " ++ p.port)))
      | (os, none) =>
          match applyConfig p.port fd original updated os with
          | (os, some thrown) =>
              -- Back to the rate it was working at.
              ((applyConfig p.port fd original p.config os).1, p, some thrown)
          | (os, none) => (os, { p with config := updated }, none)

/-- `set_baud_rate`: what it throws. -/
def setBaudRate (p : PortObject) (value : Nat) (os : Os) : Os × PortObject × Option SetupError :=
  match hfd : p.handle with
  | none => (os, p, some closedError)
  | some fd =>
      changeRate p fd (p.state.get (p.state_of_open (by rw [hfd]; rfl))).original value os

/-- `drain`: what it throws. -/
def drain (p : PortObject) (os : Os) : Os × Option SetupError :=
  match p.handle with
  | none => (os, some closedError)
  | some fd =>
      match os.drainFrom fd os.drains with
      | (os, some number) =>
          (os, some (.native number (text "SerialPort: cannot drain " ++ p.port)))
      | (os, none) => (os, none)

/-- `flush_input`, `flush_output` and `flush`: what they throw. The input buffer is emptied first,
also of a port that is closed. -/
def flush (p : PortObject) (input : Bool) (os : Os) : Os × PortObject × Option SetupError :=
  let p : PortObject :=
    if input then
      { p with
          reader := p.reader.reset p.reader.isOpen id
          reader_open := p.reader_open }
    else p
  match p.handle with
  | none => (os, p, some closedError)
  | some fd =>
      match os.tcflush fd with
      | (os, some number) =>
          (os, p, some (.native number (text "SerialPort: cannot flush " ++ p.port)))
      | (os, none) => (os, p, none)

/-- An I/O method. What it does to the port is `SerialPort.operate`. -/
def operate (p : PortObject) (operation : SerialPort.Operation) (start : Int) (s : Kernel) :
    PortObject :=
  { p with
      reader := (p.reader.operate s ⟨operation, p.config.timeout, start⟩).port
      reader_open := (p.reader.operate_isOpen s _).trans p.reader_open }

/-- The descriptor of the object is used, if it is open. -/
def used (p : PortObject) (os : Os) : Os :=
  match p.handle with
  | none => os
  | some fd => os.called fd

end PortObject

/-! ### A program -/

/-- The objects of a program, by name. -/
structure World where
  os : Os
  objects : Nat → Option PortObject

/-- What a program does with its objects. -/
inductive World.Command where
  | construct (x : Nat) (port : List UInt8) (config : Config)
  /-- `x` is made from `std::move(y)`. -/
  | moveConstruct (x y : Nat)
  /-- `x = std::move(y)`. -/
  | moveAssign (x y : Nat)
  | close (x : Nat)
  | destroy (x : Nat)
  | setBaudRate (x value : Nat)
  | setTimeout (x : Nat) (value : Int)
  | drain (x : Nat)
  | flush (x : Nat) (input : Bool)
  /-- An I/O method, with the kernel and the clock behind it. -/
  | operate (x : Nat) (operation : SerialPort.Operation) (start : Int) (s : Kernel)

namespace World

/-- An object is replaced. -/
def put (w : World) (os : Os) (x : Nat) (p : Option PortObject) : World :=
  ⟨os, Function.update w.objects x p⟩

/-- One command. A command on an object that is not there is not a C++ program, and neither is
one that makes an object twice. They do nothing here. -/
def step (w : World) : Command → World
  | .construct x port config =>
      match w.objects x with
      | some _ => w
      | none =>
          match PortObject.construct port config w.os with
          | (os, .error _) => { w with os := os }
          | (os, .ok p) => w.put os x (some p)
  | .moveConstruct x y =>
      match w.objects x, w.objects y with
      | none, some p => (w.put w.os y (some p.movedFrom)).put w.os x (some p)
      | _, _ => w
  | .moveAssign x y =>
      if x = y then w
      else
        match w.objects x, w.objects y with
        | some p, some q =>
            let os := (p.close w.os).1
            (w.put os y (some q.movedFrom)).put os x (some q)
        | _, _ => w
  | .close x =>
      match w.objects x with
      | none => w
      | some p => w.put (p.close w.os).1 x (some (p.close w.os).2)
  | .destroy x =>
      match w.objects x with
      | none => w
      | some p => w.put (p.close w.os).1 x none
  | .setBaudRate x value =>
      match w.objects x with
      | none => w
      | some p => w.put (p.setBaudRate value w.os).1 x (some (p.setBaudRate value w.os).2.1)
  | .setTimeout x value =>
      match w.objects x with
      | none => w
      | some p => w.put w.os x (some { p with config := { p.config with timeout := value } })
  | .drain x =>
      match w.objects x with
      | none => w
      | some p => { w with os := (p.drain w.os).1 }
  | .flush x input =>
      match w.objects x with
      | none => w
      | some p => w.put (p.flush input w.os).1 x (some (p.flush input w.os).2.1)
  | .operate x operation start s =>
      match w.objects x with
      | none => w
      | some p => w.put (p.used w.os) x (some (p.operate operation start s))

/-- No object has been made yet, and the ledger begins. -/
def start (os : Os) : World := ⟨{ os with ledger := [] }, fun _ => none⟩

def run (w : World) (commands : List Command) : World := commands.foldl step w

end World

end SerialRpc
