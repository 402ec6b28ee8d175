import SerialRpc.Host.Termios
import SerialRpc.Lib.Flags

/-!
# `SerialRpc.Proofs.Host.Termios`: the frame format of a terminal

`apply_config` compares four fields of `c_cflag` and a speed. `carries_of_read_back` says what the
comparison is worth: a terminal that passes it has the data bits, the stop bits, the parity and the
rate of the configuration, whatever its other settings are.
-/

set_option autoImplicit false

namespace SerialRpc

namespace Termios

open SerialPort

/-! ### What a terminal is set to -/

/-- The data bits, as a driver reads them. -/
def dataBits (t : Termios) : Nat :=
  if t.cflag &&& CSIZE = CS5 then 5
  else if t.cflag &&& CSIZE = CS6 then 6
  else if t.cflag &&& CSIZE = CS7 then 7
  else 8

/-- The stop bits. -/
def stopBits (t : Termios) : Nat := if t.cflag &&& CSTOPB = 0#32 then 1 else 2

/-- The parity. -/
def parity (t : Termios) : Parity :=
  if t.cflag &&& PARENB = 0#32 then .none
  else if t.cflag &&& PARODD = 0#32 then .even
  else .odd

/-- The rate of the speed. -/
def rate (t : Termios) : Option Nat :=
  (BaudRates.find? fun entry => entry.2 == t.ospeed).map Prod.fst

/-- The terminal has the frame format and the rate of the configuration. -/
structure Carries (t : Termios) (config : Config) : Prop where
  dataBits : t.dataBits = config.dataBits
  stopBits : t.stopBits = config.stopBits
  parity : t.parity = config.parity
  rate : t.rate = some config.baudRate

/-! ### The fields that `apply_config` sets -/

variable (c : BitVec 32) (config : Config)

/-- The last steps leave the frame format alone. -/
theorem controlFlags_field {field : BitVec 32} (hhup : HUPCL &&& field = 0#32)
    (hcts : CRTSCTS &&& field = 0#32) :
    controlFlags c config &&& field = frameFlags c config &&& field := by
  unfold controlFlags
  cases config.flowControl <;> cases config.hangupOnClose <;>
    simp only [Bool.false_eq_true, ↓reduceIte, Flags.clear_field _ hhup, Flags.clear_field _ hcts,
      Flags.set_field _ hhup, Flags.set_field _ hcts]

/-- The bits of a size stay in the size mask. -/
theorem sizeBits_inside (n : Nat) : sizeBits n &&& CSIZE = sizeBits n := by
  unfold sizeBits
  split <;> decide

/-- The control flags carry the data bits asked for. -/
theorem controlFlags_size : controlFlags c config &&& CSIZE = sizeBits config.dataBits := by
  rw [controlFlags_field c config (by decide) (by decide), frameFlags]
  have hsize (x : BitVec 32) : ((x &&& ~~~CSIZE) ||| sizeBits config.dataBits) &&& CSIZE
      = sizeBits config.dataBits := by
    rw [Flags.set_inside _ (sizeBits_inside _), Flags.clear_inside _ (by decide), BitVec.zero_or]
  cases config.parity <;> by_cases hstop : config.stopBits = 2 <;>
    simp (disch := decide) only [hstop, ↓reduceIte, Flags.clear_field, Flags.set_field, hsize]

/-- They carry the stop bits asked for. -/
theorem controlFlags_stop :
    controlFlags c config &&& CSTOPB = if config.stopBits = 2 then CSTOPB else 0#32 := by
  rw [controlFlags_field c config (by decide) (by decide), frameFlags]
  have hset (x : BitVec 32) : (x ||| CSTOPB) &&& CSTOPB = CSTOPB := Flags.set_self x
  have hclear (x : BitVec 32) : (x &&& ~~~CSTOPB) &&& CSTOPB = 0#32 :=
    Flags.clear_inside x (by decide)
  cases config.parity <;> by_cases hstop : config.stopBits = 2 <;>
    simp (disch := decide) only [hstop, ↓reduceIte, Flags.clear_field, Flags.set_field, hset,
      hclear]

/-- The bits of the parity. -/
def parityBits : Parity → BitVec 32
  | .none => 0#32
  | .even => PARENB
  | .odd => PARENB ||| PARODD

/-- They carry the parity asked for. -/
theorem controlFlags_parity :
    controlFlags c config &&& (PARENB ||| PARODD) = parityBits config.parity := by
  rw [controlFlags_field c config (by decide) (by decide), frameFlags]
  generalize (if config.stopBits = 2 then _ else _ : BitVec 32) = flags
  cases config.parity with
  | none => exact Flags.clear_inside flags (by decide)
  | odd => exact Flags.set_self flags
  | even =>
      show ((flags ||| PARENB) &&& ~~~PARODD) &&& (PARENB ||| PARODD) = PARENB
      rw [BitVec.and_or_distrib_left, Flags.clear_field _ (by decide), Flags.set_self,
        Flags.clear_inside _ (by decide), BitVec.or_zero]

/-! ### The read-back -/

/-- Every rate of the table has a code within the mask of speeds. -/
theorem baudRates_speeds : ∀ entry ∈ BaudRates, IsSpeed entry.2 := by decide

/-- No two rates share a code. -/
theorem baudRates_find : ∀ entry ∈ BaudRates,
    (BaudRates.find? fun other => other.2 == entry.2) = some entry := by decide

/-- A code that is found is one of the table. -/
theorem baudCode_mem {rate : Nat} {code : BitVec 32} (h : baudCode rate = some code) :
    (rate, code) ∈ BaudRates := by
  obtain ⟨front, back, hsplit, -⟩ := List.lookup_eq_some_iff.mp h
  rw [hsplit]
  exact List.mem_append_right _ List.mem_cons_self

/-- The speeds of the table are taken. -/
theorem requested_eq (original : Termios) {config : Config} {code : BitVec 32}
    (h : baudCode config.baudRate = some code) :
    requested original config = some
      { iflag := inputFlags original.iflag config
        oflag := original.oflag &&& ~~~OPOST
        cflag := controlFlags original.cflag config
        lflag := localFlags original.lflag config
        cc := controlChars original.cc config
        ispeed := code
        ospeed := code } := by
  have hspeed : IsSpeed code := baudRates_speeds _ (baudCode_mem h)
  rw [requested, h]
  dsimp only
  rw [cfsetispeed, if_pos hspeed, Option.bind_some, cfsetospeed, if_pos hspeed]

/-- What a configuration that is valid has. -/
structure Valid (config : Config) : Prop where
  dataBits : config.dataBits = 5 ∨ config.dataBits = 6 ∨ config.dataBits = 7 ∨ config.dataBits = 8
  stopBits : config.stopBits = 1 ∨ config.stopBits = 2
  maxLineLength : config.maxLineLength ≠ 0
  baudRate : ∃ code, baudCode config.baudRate = some code

/-- A configuration that passes is valid. -/
theorem validate_none {config : Config} {port : List UInt8} (h : validate config port = none) :
    Valid config := by
  unfold validate at h
  dsimp only at h
  split at h
  · cases h
  · split at h
    · cases h
    · split at h
      · cases h
      · split at h
        · cases h
        · split at h
          · cases h
          · rename_i hdata hstop hline hrate
            refine ⟨by omega, by omega, hline, ?_⟩
            rw [Bool.not_eq_true, Bool.not_eq_false', baudRateSupported] at hrate
            exact Option.isSome_iff_exists.mp hrate

/-- **The comparison is enough.** A terminal that has the bits under the mask, and the speed, has
the frame format and the rate that were asked for. -/
theorem carries_of_read_back {original options applied : Termios} {config : Config}
    {code : BitVec 32} (hvalid : Valid config) (hcode : baudCode config.baudRate = some code)
    (hrequested : requested original config = some options)
    (hmask : applied.cflag &&& frameMask = options.cflag &&& frameMask)
    (hspeed : applied.ospeed = code) : applied.Carries config := by
  rw [requested_eq original hcode] at hrequested
  obtain rfl := Option.some.inj hrequested
  -- The mask that was read back covers all the bits of the frame, so each field is the one set.
  have hfield {field : BitVec 32} (hinside : frameMask &&& field = field) :
      applied.cflag &&& field = controlFlags original.cflag config &&& field :=
    Flags.field_of_mask applied.cflag hmask hinside
  have hsize : applied.cflag &&& CSIZE = sizeBits config.dataBits :=
    (hfield (by decide)).trans (controlFlags_size _ _)
  have hstop : applied.cflag &&& CSTOPB = if config.stopBits = 2 then CSTOPB else 0#32 :=
    (hfield (by decide)).trans (controlFlags_stop _ _)
  have hparity : applied.cflag &&& (PARENB ||| PARODD) = parityBits config.parity :=
    (hfield (by decide)).trans (controlFlags_parity _ _)
  -- The parity takes two bits, and each of them is one of its own.
  have hpart {field : BitVec 32} (hinside : (PARENB ||| PARODD) &&& field = field) :
      applied.cflag &&& field = parityBits config.parity &&& field := by
    rw [← hparity, BitVec.and_assoc, hinside]
  constructor
  · rw [dataBits, hsize]
    rcases hvalid.dataBits with h | h | h | h <;> rw [h] <;> decide
  · rw [stopBits, hstop]
    rcases hvalid.stopBits with h | h <;> rw [h] <;> decide
  · rw [parity, hpart (show (PARENB ||| PARODD) &&& PARENB = PARENB by decide),
      hpart (show (PARENB ||| PARODD) &&& PARODD = PARODD by decide)]
    cases config.parity <;> decide
  · rw [rate, hspeed, baudRates_find _ (baudCode_mem hcode)]
    rfl

end Termios

end SerialRpc
