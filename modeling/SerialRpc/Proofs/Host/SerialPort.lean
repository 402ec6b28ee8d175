import SerialRpc.Host.SerialPort
import SerialRpc.Lib.Lines
import SerialRpc.Lib.Window

/-!
# `SerialRpc.Proofs.Host.SerialPort`: nothing is lost between the port and its callers

The input buffer is a queue (`Window`): what it holds and what `read_native` moves is what the
callers consume and what is left. `Progress` says this of a stretch of one call, together with
what else the stretch keeps. There is a lemma for each of the four things that `fill_buffer` can do
when the buffer is empty. It is only called then, and so there is always space.

* `readLoop_handsOver` and `readLineLoop_spec` are about the loops of `read` and `read_line`. The
  latter says with `Lines.Reads` what `read_line` makes of the bytes.
* `calls_conserve` is about any calls in a row.
-/

set_option autoImplicit false

namespace SerialRpc

namespace SerialPort

open Window (view Conserves)

/-- The bytes that calls of `read_native` have moved. -/
def received (used : List NativeRead) : List UInt8 :=
  used.flatMap fun
    | .moved bytes => bytes
    | .failed _ => []

/-- Without a read nothing is received. -/
@[simp] theorem received_nil : received [] = [] := rfl

/-- The bytes of two stretches of reads. -/
theorem received_append (used used' : List NativeRead) :
    received (used ++ used') = received used ++ received used' := List.flatMap_append

/-- `read_native` moves as many bytes as the buffer has room for at most. -/
def Fits (p : SerialPort) (reads : List NativeRead) : Prop :=
  ∀ bytes, .moved bytes ∈ reads → bytes.length ≤ p.rxBuf.length

/-- A stretch of a call: `used` of what `read_native` returns, `consumed` of the bytes. -/
structure Progress (p : SerialPort) (used : List NativeRead) (consumed : List UInt8)
    (q : SerialPort) : Prop where
  conserves : Conserves p.pending (received used) consumed q.pending
  isOpen : q.isOpen = p.isOpen
  maxLineLength : q.maxLineLength = p.maxLineLength
  size : q.rxBuf.length = p.rxBuf.length
  timedOut : q.timedOut = true ↔ p.timedOut = true ∨ .moved [] ∈ used
  space : q.lastError = some (.generic .noBufferSpace) →
    p.lastError = some (.generic .noBufferSpace)

/-- Two stretches of a call, one behind the other. -/
theorem Progress.trans {p q r : SerialPort} {used used' : List NativeRead}
    {consumed consumed' : List UInt8} (h : Progress p used consumed q)
    (h' : Progress q used' consumed' r) :
    Progress p (used ++ used') (consumed ++ consumed') r where
  conserves := by
    rw [received_append]
    exact h.conserves.trans h'.conserves
  isOpen := h'.isOpen.trans h.isOpen
  maxLineLength := h'.maxLineLength.trans h.maxLineLength
  size := h'.size.trans h.size
  timedOut := by rw [h'.timedOut, h.timedOut, List.mem_append, or_assoc]
  space := fun hspace => h.space (h'.space hspace)

/-- First the bytes, then `read_native`. -/
theorem Progress.idle {p q r : SerialPort} {used : List NativeRead} {consumed : List UInt8}
    (h : Progress p [] consumed q) (h' : Progress q used [] r) : Progress p used consumed r := by
  have htrans := h.trans h'
  rwa [List.nil_append, List.append_nil] at htrans

/-- No read, no byte. -/
theorem Progress.refl (p : SerialPort) : Progress p [] [] p where
  conserves := by simp [Conserves]
  isOpen := rfl
  maxLineLength := rfl
  size := rfl
  timedOut := by simp
  space := id

/-- A failure moves no bytes. -/
theorem Progress.fail (p : SerialPort) (code : Errc) (hcode : code ≠ .noBufferSpace) :
    Progress p [] [] (p.fail code) :=
  { Progress.refl p with
    space := fun hspace => by
      cases hspace
      exact absurd rfl hcode }

/-- The reads that are left still fit the buffer, whose size has not changed. -/
theorem Progress.fits {p q : SerialPort} {used rest : List NativeRead} {consumed : List UInt8}
    (h : Progress p used consumed q) (hfits : p.Fits (used ++ rest)) : q.Fits rest := by
  intro bytes hbytes
  rw [h.size]
  exact hfits bytes (List.mem_append_right used hbytes)

/-- An open port whose buffer is empty, so that it has to ask for more. -/
structure Drained (p : SerialPort) (reads : List NativeRead) : Prop where
  isOpen : p.isOpen = true
  empty : p.rxHead = p.rxTail
  fits : p.Fits reads

/-- A stretch that ends with an empty buffer has drained the port. -/
theorem Progress.drained {p q : SerialPort} {reads : List NativeRead} {consumed : List UInt8}
    (h : Progress p [] consumed q) (hopen : p.isOpen = true) (hfits : p.Fits reads)
    (hempty : q.rxHead = q.rxTail) : q.Drained reads :=
  ⟨h.isOpen.trans hopen, hempty, h.fits hfits⟩

/-! ### The buffer -/

/-- Nothing is pending where the two indices meet. -/
theorem pending_empty {p : SerialPort} (h : p.rxHead = p.rxTail) : p.pending = [] := by
  show view p.rxHead p.rxTail p.rxBuf = []
  rw [h]
  exact Window.view_self p.rxTail p.rxBuf

/-- An empty buffer into which nothing comes. -/
theorem Progress.pending_empty {p q : SerialPort} {used : List NativeRead} {consumed : List UInt8}
    (h : Progress p used consumed q) (hempty : p.rxHead = p.rxTail) (hused : received used = []) :
    q.pending = [] := by
  have hconserves := h.conserves
  rw [Conserves, SerialPort.pending_empty hempty, hused, List.append_nil] at hconserves
  exact (List.append_eq_nil_iff.mp hconserves.symm).2

/-- What is stored comes behind what was pending. -/
theorem store_pending (p : SerialPort) (bytes : List UInt8) :
    (p.store bytes).pending = p.pending ++ bytes.take (p.rxBuf.length - p.rxTail) :=
  Window.view_write p.head_le_tail p.tail_le_size _

/-- Storing keeps the size of the buffer. -/
theorem store_size (p : SerialPort) (bytes : List UInt8) :
    (p.store bytes).rxBuf.length = p.rxBuf.length :=
  Window.write_length p.tail_le_size (List.length_take_le _ _)

/-- Rewinding an empty buffer moves no bytes. -/
theorem rewind_progress {p : SerialPort} (h : p.rxHead = p.rxTail) :
    Progress p [] [] p.rewind :=
  { Progress.refl p with
    conserves := by
      rw [pending_empty h]
      rfl }

/-- What `fill_buffer` does with an empty buffer. -/
theorem fillBuffer_empty {p : SerialPort} (hopen : p.isOpen = true) (hempty : p.rxHead = p.rxTail)
    (reads : List NativeRead) :
    p.fillBuffer reads =
      match reads with
      | [] => (p.rewind, none, [])
      | .moved bytes :: reads =>
          (p.rewind.store bytes, some (bytes.take p.rxBuf.length).length, reads)
      | .failed number :: reads =>
          ({ p.rewind with lastError := some (.system number) }, some (-1), reads) := by
  -- A rewound buffer has room, since an open port has a buffer of at least one byte.
  have hroom : ¬ p.rewind.rxTail = p.rewind.rxBuf.length := by
    have hsize := p.room_of_open hopen
    change ¬ 0 = p.rxBuf.length
    omega
  have hmake : p.makeRoom = p.rewind := by rw [makeRoom, if_pos hempty]
  unfold fillBuffer
  rw [hmake]
  dsimp only
  rw [if_neg hroom]
  rfl

/-- The bytes stand at the front of the buffer. -/
theorem store_progress {p : SerialPort} (hempty : p.rxHead = p.rxTail) {bytes : List UInt8}
    (hfits : bytes.length ≤ p.rxBuf.length) (hbytes : bytes ≠ []) :
    Progress p [.moved bytes] [] (p.rewind.store bytes) where
  conserves := by
    have hall : bytes.take (p.rewind.rxBuf.length - p.rewind.rxTail) = bytes :=
      List.take_of_length_le hfits
    rw [store_pending, hall, pending_empty hempty, pending_empty rfl]
    simp [Conserves, received]
  isOpen := rfl
  maxLineLength := rfl
  size := store_size _ _
  timedOut := by simp [store, rewind, hbytes.symm]
  space := id

/-- A read that timed out is one of no bytes. -/
theorem timeout_progress {p : SerialPort} (hempty : p.rxHead = p.rxTail) :
    Progress p [.moved []] [] { p.rewind.store [] with timedOut := true } where
  conserves := by
    have hpending : (p.rewind.store []).pending = [] := by
      rw [store_pending, pending_empty rfl, List.take_nil]
      rfl
    rw [pending_empty hempty]
    exact congrArg ([] ++ ·) hpending.symm
  isOpen := rfl
  maxLineLength := rfl
  size := store_size p.rewind []
  timedOut := by simp
  space := id

/-- A read that failed leaves its error. -/
theorem failed_progress {p : SerialPort} (hempty : p.rxHead = p.rxTail) (number : Int) :
    Progress p [.failed number] [] { p.rewind with lastError := some (.system number) } where
  conserves := by
    rw [pending_empty hempty]
    rfl
  isOpen := rfl
  maxLineLength := rfl
  size := rfl
  timedOut := by simp [rewind]
  space := fun hspace => by cases hspace

/-- What `fill_buffer` can do with an empty buffer: wait, time out, move some bytes, or fail. It
never finds the buffer full. -/
theorem fillBuffer_cases {p q : SerialPort} {reads rest : List NativeRead} {ret : Option Int}
    (hdrained : p.Drained reads) (h : p.fillBuffer reads = (q, ret, rest)) :
    (ret = none ∧ reads = [] ∧ rest = [] ∧ Progress p [] [] q) ∨
    (ret = some 0 ∧ reads = [.moved []] ++ rest ∧
      Progress p [.moved []] [] { q with timedOut := true }) ∨
    (∃ bytes, bytes ≠ [] ∧ ret = some (bytes.length : Int) ∧ reads = [.moved bytes] ++ rest ∧
      Progress p [.moved bytes] [] q) ∨
    ∃ number, ret = some (-1) ∧ reads = [.failed number] ++ rest ∧
      Progress p [.failed number] [] q := by
  have hempty := hdrained.empty
  rw [fillBuffer_empty hdrained.isOpen hempty] at h
  cases reads with
  | nil =>
      cases h
      exact .inl ⟨rfl, rfl, rfl, rewind_progress hempty⟩
  | cons head reads =>
      cases head with
      | moved bytes =>
          cases h
          have hlength := hdrained.fits bytes List.mem_cons_self
          rw [List.take_of_length_le hlength]
          -- No bytes are a timeout.
          by_cases hbytes : bytes = []
          · subst hbytes
            exact .inr (.inl ⟨rfl, rfl, timeout_progress hempty⟩)
          · exact .inr (.inr (.inl ⟨bytes, hbytes, rfl, rfl, store_progress hempty hlength hbytes⟩))
      | failed number =>
          cases h
          exact .inr (.inr (.inr ⟨number, rfl, rfl, failed_progress hempty number⟩))

section

variable {p q : SerialPort} {reads rest : List NativeRead} {ret : Int}

/-- A fill that does not return has no read left. -/
theorem fillBuffer_waits (hdrained : p.Drained reads) (h : p.fillBuffer reads = (q, none, rest)) :
    reads = [] ∧ rest = [] ∧ Progress p [] [] q := by
  obtain ⟨-, h⟩ | ⟨hret, -⟩ | ⟨_, -, hret, -⟩ | ⟨_, hret, -⟩ := fillBuffer_cases hdrained h
  · exact h
  all_goals cases hret

/-- A fill that returns -1 has failed. -/
theorem fillBuffer_negative (hdrained : p.Drained reads)
    (h : p.fillBuffer reads = (q, some ret, rest)) (hneg : ret < 0) :
    ∃ number, reads = [.failed number] ++ rest ∧ Progress p [.failed number] [] q := by
  obtain ⟨hret, -⟩ | ⟨hret, -⟩ | ⟨bytes, -, hret, -⟩ | ⟨number, -, h⟩ := fillBuffer_cases hdrained h
  · cases hret
  · cases hret
    omega
  · cases hret
    omega
  · exact ⟨number, h⟩

/-- A fill that returns 0 has timed out. -/
theorem fillBuffer_zero (hdrained : p.Drained reads)
    (h : p.fillBuffer reads = (q, some 0, rest)) :
    reads = [.moved []] ++ rest ∧ Progress p [.moved []] [] { q with timedOut := true } := by
  obtain ⟨hret, -⟩ | ⟨-, h⟩ | ⟨bytes, hbytes, hret, -⟩ | ⟨number, hret, -⟩ :=
    fillBuffer_cases hdrained h
  · cases hret
  · exact h
  · have hlength := List.length_pos_iff.mpr hbytes
    injection hret with hret
    omega
  · cases hret

/-- A fill that returns a count has moved that many bytes. -/
theorem fillBuffer_positive (hdrained : p.Drained reads)
    (h : p.fillBuffer reads = (q, some ret, rest)) (hneg : ¬ ret < 0) (hzero : ¬ ret = 0) :
    ∃ bytes, bytes ≠ [] ∧ reads = [.moved bytes] ++ rest ∧ Progress p [.moved bytes] [] q := by
  obtain ⟨hret, -⟩ | ⟨hret, -⟩ | ⟨bytes, hbytes, -, h⟩ | ⟨number, hret, -⟩ :=
    fillBuffer_cases hdrained h
  · cases hret
  · cases hret
    exact absurd rfl hzero
  · exact ⟨bytes, hbytes, h⟩
  · cases hret
    omega

end

/-- A fill does not look at a pending LF. -/
theorem fillBuffer_pendingLf (p : SerialPort) (reads : List NativeRead) :
    (p.fillBuffer reads).1.pendingLf = p.pendingLf := by
  have hmake : p.makeRoom.pendingLf = p.pendingLf := by
    unfold makeRoom
    split_ifs <;> rfl
  unfold fillBuffer
  dsimp only
  split
  · exact hmake
  · split <;> exact hmake

/-- The head moves over bytes that are consumed. -/
theorem moveHead_progress (p : SerialPort) {count : Nat} (hcount : p.rxHead + count ≤ p.rxTail) :
    Progress p [] (p.pending.take count)
      { p with
        rxHead := p.rxHead + count
        head_le_tail := hcount } :=
  { Progress.refl p with
    conserves := by
      have hview : view (p.rxHead + count) p.rxTail p.rxBuf = p.pending.drop count :=
        Window.view_drop p.rxHead p.rxTail count p.rxBuf
      calc p.pending ++ received []
          = p.pending.take count ++ p.pending.drop count := by simp
        _ = p.pending.take count ++ view (p.rxHead + count) p.rxTail p.rxBuf := by rw [hview] }

/-- `take_buffered` hands over from the front, and where that is not enough nothing is left. -/
theorem takeBuffered_cases {p q : SerialPort} {nMax : Nat} {taken : List UInt8}
    (h : p.takeBuffered nMax = (q, taken)) :
    Progress p [] taken q ∧ taken.length ≤ nMax ∧ (taken.length < nMax → q.rxHead = q.rxTail) := by
  have hhead := p.head_le_tail
  have hlength := p.pending_length
  unfold takeBuffered at h
  dsimp only at h
  split at h
  · have hcount : p.rxHead + min p.buffered nMax ≤ p.rxTail := by
      rw [buffered]
      omega
    have hmove := moveHead_progress p hcount
    have htaken : (p.pending.take (min p.buffered nMax)).length = min p.buffered nMax := by
      rw [List.length_take, hlength]
      omega
    split at h
    · -- Nothing is left.
      next hempty =>
      cases h
      exact ⟨hmove.idle (rewind_progress hempty), by omega, fun _ => rfl⟩
    · next hleft =>
      cases h
      refine ⟨hmove, by omega, fun hless => ?_⟩
      rw [htaken] at hless
      dsimp only [buffered] at hless ⊢
      omega
  · cases h
    refine ⟨Progress.refl p, Nat.zero_le _, fun hless => ?_⟩
    dsimp only [buffered] at *
    rw [List.length_nil] at hless
    omega

/-! ### `read` and `read_some` -/

/-- What a call returns: the number of bytes that it has handed over, or -1 and none of them. -/
def Reports (turn : Turn) : Prop :=
  turn.ret = none ∨ turn.ret = some (clampToInt turn.out.length) ∨
    turn.ret = some (-1) ∧ turn.out = []

/-- From `buf` on, a call hands over all that it consumes, and `nMax` bytes at most. -/
def HandsOver (p : SerialPort) (buf : List UInt8) (nMax : Nat) (reads : List NativeRead)
    (turn : Turn) : Prop :=
  ∃ used taken, reads = used ++ turn.reads ∧ Progress p used taken turn.port ∧
    turn.out = buf ++ taken ∧ turn.out.length ≤ nMax ∧ Reports turn

/-- A stretch before a call that hands over its bytes, in the same buffer. -/
theorem HandsOver.after {p q : SerialPort} {buf taken buf' : List UInt8} {nMax : Nat}
    {used reads rest : List NativeRead} {turn : Turn} (hprogress : Progress p used taken q)
    (hreads : reads = used ++ rest) (hbuf : buf' = buf ++ taken)
    (h : HandsOver q buf' nMax rest turn) : HandsOver p buf nMax reads turn := by
  obtain ⟨used', taken', hused, hlater, hout, hroom, hreports⟩ := h
  refine ⟨used ++ used', taken ++ taken', ?_, hprogress.trans hlater, ?_, hroom, hreports⟩
  · rw [hreads, hused, List.append_assoc]
  · rw [hout, hbuf, List.append_assoc]

/-- The call returns or waits. -/
theorem HandsOver.stop {p : SerialPort} {buf : List UInt8} {nMax : Nat} {ret : Option Int}
    {reads : List NativeRead} (hroom : buf.length ≤ nMax)
    (hreports : Reports ⟨p, buf, ret, reads⟩) :
    HandsOver p buf nMax reads ⟨p, buf, ret, reads⟩ :=
  ⟨[], [], rfl, Progress.refl p, (List.append_nil buf).symm, hroom, hreports⟩

/-- The loop of `read` hands over what it consumes, by induction on its turns. -/
theorem readLoop_handsOver {p : SerialPort} {buf : List UInt8} {nBytes : Nat}
    {reads : List NativeRead} (hopen : p.isOpen = true) (hfits : p.Fits reads)
    (hroom : buf.length ≤ nBytes) :
    HandsOver p buf nBytes reads (p.readLoop buf nBytes reads) := by
  -- Where `take_buffered` does not find enough, it leaves an empty buffer.
  have hshort {p q : SerialPort} {buf taken : List UInt8} {reads : List NativeRead}
      (hopen : p.isOpen = true) (hfits : p.Fits reads) (hroom : buf.length ≤ nBytes)
      (htake : p.takeBuffered (nBytes - buf.length) = (q, taken)) :
      Progress p [] taken q ∧ (buf ++ taken).length ≤ nBytes ∧
        ((buf ++ taken).length ≠ nBytes → q.Drained reads) := by
    obtain ⟨hprogress, hlength, hempty⟩ := takeBuffered_cases htake
    rw [List.length_append]
    exact ⟨hprogress, by omega, fun hne => hprogress.drained hopen hfits (hempty (by omega))⟩
  fun_induction readLoop p buf nBytes reads with
  | case1 => exact .stop hroom (.inr (.inl rfl))
  | case2 p buf reads hless q taken htake out hall =>
      obtain ⟨htaken, hroom, -⟩ := hshort hopen hfits hroom htake
      exact .after htaken rfl rfl (.stop hroom (.inr (.inl rfl)))
  | case3 p buf reads hless q taken htake out hall r rest hfill =>
      -- It waits.
      obtain ⟨htaken, hroom, hdrained⟩ := hshort hopen hfits hroom htake
      obtain ⟨rfl, rfl, hwait⟩ := fillBuffer_waits (hdrained hall) hfill
      refine .after htaken rfl rfl (.after hwait rfl (List.append_nil _).symm ?_)
      exact .stop hroom (.inl rfl)
  | case4 p buf reads hless q taken htake out hall r ret rest hfill hneg =>
      obtain ⟨htaken, hroom, hdrained⟩ := hshort hopen hfits hroom htake
      obtain ⟨number, hreads, hfail⟩ := fillBuffer_negative (hdrained hall) hfill hneg
      refine .after htaken rfl rfl (.after hfail hreads (List.append_nil _).symm ?_)
      refine .stop hroom ?_
      -- Only with nothing to hand over does it return -1.
      by_cases hout : 0 < out.length
      · exact .inr (.inl (congrArg some (if_pos hout)))
      · exact .inr (.inr ⟨congrArg some (if_neg hout),
          List.eq_nil_of_length_eq_zero (Nat.eq_zero_of_not_pos hout)⟩)
  | case5 p buf reads hless q taken htake out hall r rest hfill hneg =>
      -- A timeout: what there is counts.
      obtain ⟨htaken, hroom, hdrained⟩ := hshort hopen hfits hroom htake
      obtain ⟨hreads, htimeout⟩ := fillBuffer_zero (hdrained hall) hfill
      refine .after htaken rfl rfl (.after htimeout hreads (List.append_nil _).symm ?_)
      exact .stop hroom (.inr (.inl rfl))
  | case6 p buf reads hless q taken htake out hall r ret rest hfill hneg hzero ih =>
      obtain ⟨htaken, hroom, hdrained⟩ := hshort hopen hfits hroom htake
      obtain ⟨bytes, -, rfl, hmoved⟩ := fillBuffer_positive (hdrained hall) hfill hneg hzero
      refine .after htaken rfl rfl (.after hmoved rfl (List.append_nil _).symm ?_)
      exact ih (hmoved.isOpen.trans (hdrained hall).isOpen) (hmoved.fits (hdrained hall).fits) hroom

/-- What `read` and `read_some` do before they turn to the buffer. -/
def begun (p : SerialPort) : SerialPort := { p.beginOperation with pendingLf := false }

/-- `read` hands over what it consumes. -/
theorem read_handsOver {p : SerialPort} (hopen : p.isOpen = true) {reads : List NativeRead}
    (hfits : p.Fits reads) (null : Bool) (nBytes : Nat) :
    HandsOver p.begun [] nBytes reads (p.read null nBytes reads) := by
  have hbegun : p.begun.isOpen = true := hopen
  change HandsOver p.begun [] nBytes reads
    (if !p.begun.isOpen then ⟨p.begun.fail .badFileDescriptor, [], some (-1), reads⟩
    else if nBytes = 0 then ⟨p.begun, [], some 0, reads⟩
    else if null then ⟨p.begun.fail .badAddress, [], some (-1), reads⟩
    else p.begun.readLoop [] nBytes reads)
  rw [hbegun, Bool.not_true, if_neg Bool.false_ne_true]
  -- No bytes asked for, no buffer to put them in, or the loop.
  split_ifs
  · exact .stop (Nat.zero_le _) (.inr (.inl rfl))
  · refine .after (.fail p.begun .badAddress (by decide)) rfl rfl ?_
    exact .stop (Nat.zero_le _) (.inr (.inr ⟨rfl, rfl⟩))
  · exact readLoop_handsOver hbegun hfits (Nat.zero_le _)

/-- So does `read_some`. -/
theorem readSome_handsOver {p : SerialPort} (hopen : p.isOpen = true) {reads : List NativeRead}
    (hfits : p.Fits reads) (null : Bool) (nMax : Nat) :
    HandsOver p.begun [] nMax reads (p.readSome null nMax reads) := by
  have hbegun : p.begun.isOpen = true := hopen
  -- At its end it takes what is there.
  have htake {q : SerialPort} {rest : List NativeRead} :
      HandsOver q [] nMax rest ⟨(q.takeBuffered nMax).1, (q.takeBuffered nMax).2,
        some (clampToInt (q.takeBuffered nMax).2.length), rest⟩ := by
    obtain ⟨htaken, hroom, -⟩ := takeBuffered_cases (rfl : q.takeBuffered nMax = _)
    exact .after htaken rfl rfl (.stop hroom (.inr (.inl rfl)))
  unfold readSome
  dsimp only
  split
  · next hclosed => simp [beginOperation, hopen] at hclosed
  · split_ifs with hzero hnull hempty
    · exact .stop (Nat.zero_le _) (.inr (.inl rfl))
    · refine .after (.fail p.begun .badAddress (by decide)) rfl rfl ?_
      exact .stop (Nat.zero_le _) (.inr (.inr ⟨rfl, rfl⟩))
    · have hdrained : p.begun.Drained reads := by
        have hhead := p.head_le_tail
        change p.rxTail - p.rxHead = 0 at hempty
        have hcursors : p.rxHead = p.rxTail := by omega
        exact ⟨hbegun, hcursors, hfits⟩
      split
      · next r rest hfill =>
        obtain ⟨rfl, rfl, hwait⟩ := fillBuffer_waits hdrained hfill
        exact .after hwait rfl rfl (.stop (Nat.zero_le _) (.inl rfl))
      · next r ret rest hfill =>
        split_ifs with hneg hzero
        · obtain ⟨number, hreads, hfail⟩ := fillBuffer_negative hdrained hfill hneg
          exact .after hfail hreads rfl (.stop (Nat.zero_le _) (.inr (.inr ⟨rfl, rfl⟩)))
        · subst hzero
          obtain ⟨hreads, htimeout⟩ := fillBuffer_zero hdrained hfill
          exact .after htimeout hreads rfl (.stop (Nat.zero_le _) (.inr (.inl rfl)))
        · obtain ⟨bytes, -, hreads, hmoved⟩ := fillBuffer_positive hdrained hfill hneg hzero
          exact .after hmoved hreads rfl htake
    · exact htake

/-! ### `read_line` -/

/-- Where `read_line` is within a line. -/
def lineState (p : SerialPort) (line : List UInt8) : Lines.State UInt8 := ⟨p.pendingLf, line⟩

/-- One byte of `read_line`. -/
theorem lineByte_spec (p : SerialPort) (line : List UInt8) (c : UInt8) :
    Progress p [] [] (p.lineByte line c).1 ∧
      Lines.step cr lf p.maxLineLength (p.lineState line) c
        = ((p.lineByte line c).1.lineState (p.lineByte line c).2.1, (p.lineByte line c).2.2) := by
  have hflag (flag : Bool) : Progress p [] [] { p with pendingLf := flag } :=
    { Progress.refl p with conserves := (Progress.refl p).conserves }
  unfold lineByte Lines.step lineState
  dsimp only
  split_ifs with hpair hlf hcr hfull
  · exact ⟨hflag false, rfl⟩
  · exact ⟨hflag false, rfl⟩
  · exact ⟨hflag true, rfl⟩
  · exact ⟨(hflag false).idle (.fail _ .messageSize (by decide)), rfl⟩
  · exact ⟨hflag false, rfl⟩

/-- Advancing consumes the first pending byte. -/
theorem advance_progress (p : SerialPort) (h : p.rxHead < p.rxTail)
    (hbound : p.rxHead < p.rxBuf.length) :
    Progress p [] [p.rxBuf[p.rxHead]] (p.advance h) :=
  { Progress.refl p with
    conserves := by
      have hview := Window.view_cons h hbound
      exact (List.append_nil _).trans hview }

/-- The bytes that are buffered, up to the end of the line. -/
theorem scanLine_spec (p : SerialPort) (line : List UInt8) :
    ∃ scanned, Progress p [] scanned (p.scanLine line).1 ∧
      Lines.Reads cr lf p.maxLineLength (p.lineState line) scanned
        ((p.scanLine line).1.lineState (p.scanLine line).2.1) (p.scanLine line).2.2 ∧
      ((p.scanLine line).2.2 = false →
        (p.scanLine line).1.rxHead = (p.scanLine line).1.rxTail) := by
  -- By induction on the bytes in the buffer, up to the one that ends the line.
  fun_induction scanLine p line with
  | case1 p line h hbound q text hbyte =>
      obtain ⟨hprogress, hstep⟩ := lineByte_spec (p.advance h) line p.rxBuf[p.rxHead]
      rw [hbyte] at hprogress hstep
      exact ⟨[p.rxBuf[p.rxHead]], (p.advance_progress h hbound).idle hprogress, .ended hstep,
        fun hmore => by cases hmore⟩
  | case2 p line h hbound q text hbyte ih =>
      obtain ⟨hprogress, hstep⟩ := lineByte_spec (p.advance h) line p.rxBuf[p.rxHead]
      rw [hbyte] at hprogress hstep
      obtain ⟨scanned, hscan, hreads, hempty⟩ := ih
      rw [hprogress.maxLineLength] at hreads
      have hbyte := (p.advance_progress h hbound).idle hprogress
      exact ⟨p.rxBuf[p.rxHead] :: scanned, hbyte.trans hscan, .more hstep hreads, hempty⟩
  | case3 p line h =>
      exact ⟨[], .refl p, .nil _, fun _ => Nat.le_antisymm p.head_le_tail (Nat.le_of_not_lt h)⟩

/-- `read_native` has moved bytes. -/
def Delivers (r : NativeRead) : Prop := ∃ bytes, bytes ≠ [] ∧ r = .moved bytes

/-- How `read_line` stops: its line has ended, or the buffer is empty and it waits, has run into a
timeout or has failed. Until then `read_native` has only moved bytes. -/
inductive Stops (used : List NativeRead) (turn : Turn) : Bool → Prop
  | ended (hmoved : ∀ r ∈ used, Delivers r)
      (hret : turn.ret = some (clampToInt turn.out.length)) : Stops used turn true
  | waits (hmoved : ∀ r ∈ used, Delivers r)
      (hempty : turn.port.pending = []) (hret : turn.ret = none) (hreads : turn.reads = []) :
      Stops used turn false
  | timedOut (front : List NativeRead) (hused : used = front ++ [.moved []])
      (hmoved : ∀ r ∈ front, Delivers r)
      (hempty : turn.port.pending = []) (hret : turn.ret = some (clampToInt turn.out.length)) :
      Stops used turn false
  | failed (front : List NativeRead) (number : Int) (hused : used = front ++ [.failed number])
      (hempty : turn.port.pending = [])
      (hret : turn.ret = some (if turn.out.isEmpty then -1 else clampToInt turn.out.length)) :
      Stops used turn false

/-- A read that delivers, before the one that stops the call. -/
theorem Stops.after {used : List NativeRead} {turn : Turn} {e : Bool} {r : NativeRead}
    (hr : Delivers r) (h : Stops used turn e) : Stops (r :: used) turn e := by
  cases h with
  | ended hmoved hret => exact .ended (List.forall_mem_cons.mpr ⟨hr, hmoved⟩) hret
  | waits hmoved hempty hret hreads =>
      exact .waits (List.forall_mem_cons.mpr ⟨hr, hmoved⟩) hempty hret hreads
  | timedOut front hused hmoved hempty hret =>
      exact .timedOut (r :: front) (congrArg (r :: ·) hused)
        (List.forall_mem_cons.mpr ⟨hr, hmoved⟩) hempty hret
  | failed front number hused hempty hret =>
      exact .failed (r :: front) number (congrArg (r :: ·) hused) hempty hret

/-- A call that stops says why. -/
theorem Stops.reports {used : List NativeRead} {turn : Turn} {e : Bool} (h : Stops used turn e) :
    Reports turn := by
  cases h with
  | ended _ hret => exact .inr (.inl hret)
  | waits _ _ hret _ => exact .inl hret
  | timedOut _ _ _ _ hret => exact .inr (.inl hret)
  | failed _ _ _ _ hret =>
      by_cases hout : turn.out.isEmpty = true
      · rw [if_pos hout] at hret
        exact .inr (.inr ⟨hret, List.isEmpty_iff.mp hout⟩)
      · rw [if_neg hout] at hret
        exact .inr (.inl hret)

/-- A call of `read_line` from `line` on: how far it comes, what it reads, and how it stops. -/
def ReadsLine (p : SerialPort) (line : List UInt8) (reads : List NativeRead) (turn : Turn) : Prop :=
  ∃ used consumed e, reads = used ++ turn.reads ∧ Progress p used consumed turn.port ∧
    Lines.Reads cr lf p.maxLineLength (p.lineState line) consumed (turn.port.lineState turn.out) e ∧
    Stops used turn e

/-- The line goes on: the buffer has been read, and `read_native` moves more bytes. -/
theorem ReadsLine.after {p q r : SerialPort} {line text scanned bytes : List UInt8}
    {rest : List NativeRead} {turn : Turn} (hbytes : bytes ≠ []) (hscan : Progress p [] scanned q)
    (hfill : Progress q [.moved bytes] [] r)
    (hreads : Lines.Reads cr lf p.maxLineLength (p.lineState line) scanned (r.lineState text) false)
    (h : ReadsLine r text rest turn) : ReadsLine p line ([.moved bytes] ++ rest) turn := by
  obtain ⟨used, consumed, e, hused, hlater, hline, hstops⟩ := h
  have hfilled := hscan.idle hfill
  rw [hfilled.maxLineLength] at hline
  refine ⟨.moved bytes :: used, scanned ++ consumed, e, ?_, hfilled.trans hlater,
    hreads.trans hline, hstops.after ⟨bytes, hbytes, rfl⟩⟩
  rw [hused]
  rfl

/-- The loop of `read_line` reads a line, by induction on its turns. -/
theorem readLineLoop_spec {p : SerialPort} {line : List UInt8} {reads : List NativeRead}
    (hopen : p.isOpen = true) (hfits : p.Fits reads) :
    ReadsLine p line reads (p.readLineLoop line reads) := by
  -- What has been read when the buffer is empty. `fill_buffer` stays within the line.
  have hscanned {p q r : SerialPort} {line text : List UInt8} {reads rest : List NativeRead}
      {ret : Option Int} (hopen : p.isOpen = true) (hfits : p.Fits reads)
      (hscan : p.scanLine line = (q, text, false)) (hfill : q.fillBuffer reads = (r, ret, rest)) :
      ∃ scanned, Progress p [] scanned q ∧ q.Drained reads ∧
        Lines.Reads cr lf p.maxLineLength (p.lineState line) scanned (r.lineState text) false := by
    obtain ⟨scanned, hprogress, hreads, hempty⟩ := p.scanLine_spec line
    have hlf := q.fillBuffer_pendingLf reads
    rw [hscan] at hprogress hreads hempty
    rw [hfill] at hlf
    refine ⟨scanned, hprogress, hprogress.drained hopen hfits (hempty rfl), ?_⟩
    rw [lineState, lineState, hlf]
    exact hreads
  fun_induction readLineLoop p line reads with
  | case1 p line reads q text hscan =>
      obtain ⟨scanned, hprogress, hreads, -⟩ := p.scanLine_spec line
      rw [hscan] at hprogress hreads
      exact ⟨[], scanned, true, rfl, hprogress, hreads, .ended (by simp) rfl⟩
  | case2 p line reads q text hscan r rest hfill =>
      obtain ⟨scanned, hprogress, hdrained, hline⟩ := hscanned hopen hfits hscan hfill
      obtain ⟨rfl, rfl, hwait⟩ := fillBuffer_waits hdrained hfill
      have hpending : r.pending = [] := hwait.pending_empty hdrained.empty rfl
      exact ⟨[], scanned, false, rfl, hprogress.idle hwait, hline,
        .waits (by simp) hpending rfl rfl⟩
  | case3 p line reads q text hscan r ret rest hfill hneg =>
      obtain ⟨scanned, hprogress, hdrained, hline⟩ := hscanned hopen hfits hscan hfill
      obtain ⟨number, hreads, hfail⟩ := fillBuffer_negative hdrained hfill hneg
      have hpending : r.pending = [] := hfail.pending_empty hdrained.empty rfl
      exact ⟨[.failed number], scanned, false, hreads, hprogress.idle hfail, hline,
        .failed [] number rfl hpending rfl⟩
  | case4 p line reads q text hscan r rest hfill hneg =>
      -- A timeout leaves the caller with the line so far.
      obtain ⟨scanned, hprogress, hdrained, hline⟩ := hscanned hopen hfits hscan hfill
      obtain ⟨hreads, htimeout⟩ := fillBuffer_zero hdrained hfill
      have hpending : r.pending = [] := htimeout.pending_empty hdrained.empty rfl
      exact ⟨[.moved []], scanned, false, hreads, hprogress.idle htimeout, hline,
        .timedOut [] rfl (by simp) hpending rfl⟩
  | case5 p line reads q text hscan r ret rest hfill hneg hzero ih =>
      obtain ⟨scanned, hprogress, hdrained, hline⟩ := hscanned hopen hfits hscan hfill
      obtain ⟨bytes, hbytes, rfl, hmoved⟩ := fillBuffer_positive hdrained hfill hneg hzero
      exact .after hbytes hprogress hmoved hline
        (ih (hmoved.isOpen.trans hdrained.isOpen) (hmoved.fits hdrained.fits))

/-- `read_line` reads a line, from an empty one on. -/
theorem readLine_spec {p : SerialPort} (hopen : p.isOpen = true) {reads : List NativeRead}
    (hfits : p.Fits reads) : ReadsLine p.beginOperation [] reads (p.readLine reads) := by
  have hbegun : p.beginOperation.isOpen = true := hopen
  unfold readLine
  dsimp only
  rw [hbegun, Bool.not_true, if_neg Bool.false_ne_true]
  exact readLineLoop_spec hbegun hfits

/-! ### Calls in a row -/

/-- How a call has consumed `bytes`. `read` and `read_some` hand over all of them. `read_line` hands
over the line: it passes over the rest of a CRLF pair in front and over what is too much, and the
end of the line is not part of it. -/
def Consumes (p : SerialPort) (bytes : List UInt8) (turn : Turn) : Call → Prop
  | .read _ nBytes => bytes = turn.out ∧ turn.out.length ≤ nBytes
  | .readSome _ nMax => bytes = turn.out ∧ turn.out.length ≤ nMax
  | .readLine => ∃ swallowed excess ending e, bytes = swallowed ++ turn.out ++ excess ++ ending ∧
      Lines.Parts cr lf p.maxLineLength (p.lineState []) (turn.port.lineState turn.out) e
        swallowed turn.out excess ending

/-- Calls in a row, each with the bytes that it has consumed. -/
inductive Accounts : SerialPort → List (Call × Turn) → List (List UInt8) → Prop
  | nil (p : SerialPort) : Accounts p [] []
  | cons {p : SerialPort} {c : Call} {turn : Turn} {turns : List (Call × Turn)}
      {bytes : List UInt8} {consumed : List (List UInt8)} (hconsumes : Consumes p bytes turn c)
      (hreports : Reports turn) (hrest : Accounts turn.port turns consumed) :
      Accounts p ((c, turn) :: turns) (bytes :: consumed)

/-- One call: what it leaves behind and what it consumes. -/
theorem call_spec {p : SerialPort} (hopen : p.isOpen = true) {reads : List NativeRead}
    (hfits : p.Fits reads) (c : Call) :
    ∃ used bytes, reads = used ++ (p.call reads c).reads ∧
      Conserves p.pending (received used) bytes (p.call reads c).port.pending ∧
      (p.call reads c).port.isOpen = true ∧
      (p.call reads c).port.rxBuf.length = p.rxBuf.length ∧
      (p.call reads c).port.lastError ≠ some (.generic .noBufferSpace) ∧
      Consumes p bytes (p.call reads c) c ∧ Reports (p.call reads c) := by
  -- A call starts without an error.
  have hspace {q r : SerialPort} {used : List NativeRead} {bytes : List UInt8}
      (hprogress : Progress q used bytes r) (hnone : q.lastError = none) :
      r.lastError ≠ some (.generic .noBufferSpace) := by
    intro hspace
    have hearlier := hprogress.space hspace
    rw [hnone] at hearlier
    cases hearlier
  cases c with
  | read null nBytes =>
      obtain ⟨used, taken, hreads, hprogress, hout, hroom, hreports⟩ :=
        read_handsOver hopen hfits null nBytes
      exact ⟨used, taken, hreads, hprogress.conserves, hprogress.isOpen.trans hopen,
        hprogress.size, hspace hprogress rfl, ⟨hout.symm, hroom⟩, hreports⟩
  | readSome null nMax =>
      obtain ⟨used, taken, hreads, hprogress, hout, hroom, hreports⟩ :=
        readSome_handsOver hopen hfits null nMax
      exact ⟨used, taken, hreads, hprogress.conserves, hprogress.isOpen.trans hopen,
        hprogress.size, hspace hprogress rfl, ⟨hout.symm, hroom⟩, hreports⟩
  | readLine =>
      obtain ⟨used, bytes, e, hreads, hprogress, hline, hstops⟩ := readLine_spec hopen hfits
      obtain ⟨swallowed, added, excess, ending, hbytes, parts⟩ := hline.parts (by decide)
      have hadded : (p.readLine reads).out = added := parts.line
      subst hadded
      exact ⟨used, bytes, hreads, hprogress.conserves, hprogress.isOpen.trans hopen,
        hprogress.size, hspace hprogress rfl, ⟨swallowed, excess, ending, e, hbytes, parts⟩,
        hstops.reports⟩

/-- **Nothing is lost or reordered.** After any calls on an open port, whatever `read_native` has
done, what it has moved is what the calls have consumed, one after the other, and what is still
buffered. After each of them the cursors are in order (`SerialPort` says this of its other states
too), and the buffer has not been found full. -/
theorem calls_conserve (p : SerialPort) (reads : List NativeRead) (cs : List Call)
    (hopen : p.isOpen = true) (hfits : p.Fits reads) :
    (∀ step ∈ (p.calls reads cs).turns,
      step.2.port.rxHead ≤ step.2.port.rxTail ∧ step.2.port.rxTail ≤ step.2.port.rxBuf.length ∧
        step.2.port.rxBuf.length = p.rxBuf.length ∧
        step.2.port.lastError ≠ some (.generic .noBufferSpace)) ∧
      ∃ used consumed, reads = used ++ (p.calls reads cs).reads ∧
        Accounts p (p.calls reads cs).turns consumed ∧
        p.pending ++ received used = consumed.flatten ++ (p.calls reads cs).port.pending := by
  induction cs generalizing p reads with
  | nil => exact ⟨by simp [calls], [], [], rfl, .nil p, List.append_nil _⟩
  | cons c cs ih =>
      obtain ⟨used, bytes, hreads, hconserves, hopen', hsize, hspace, hconsumes, hreports⟩ :=
        call_spec hopen hfits c
      have hcursors : (p.call reads c).port.rxHead ≤ (p.call reads c).port.rxTail ∧
          (p.call reads c).port.rxTail ≤ (p.call reads c).port.rxBuf.length :=
        ⟨(p.call reads c).port.head_le_tail, (p.call reads c).port.tail_le_size⟩
      rw [calls]
      dsimp only
      split_ifs
      · -- It waits, and nothing follows.
        refine ⟨?_, used, [bytes], hreads, .cons hconsumes hreports (.nil _), ?_⟩
        · intro step hstep
          rw [List.mem_singleton.mp hstep]
          exact ⟨hcursors.1, hcursors.2, hsize, hspace⟩
        · rw [List.flatten_singleton]
          exact hconserves
      · have hrest : (p.call reads c).port.Fits (p.call reads c).reads := by
          intro new hnew
          rw [hsize]
          exact hfits new (hreads ▸ List.mem_append_right used hnew)
        obtain ⟨hall, used', consumed, hreads', haccounts, hconserves'⟩ :=
          ih (p.call reads c).port (p.call reads c).reads hopen' hrest
        refine ⟨?_, used ++ used', bytes :: consumed, ?_, .cons hconsumes hreports haccounts, ?_⟩
        · intro step hstep
          rcases List.mem_cons.mp hstep with rfl | hstep
          · exact ⟨hcursors.1, hcursors.2, hsize, hspace⟩
          · rw [← hsize]
            exact hall step hstep
        · rw [List.append_assoc, ← hreads']
          exact hreads
        · rw [received_append, List.flatten_cons]
          exact Conserves.trans hconserves hconserves'

/-- A CRLF pair that is split by a timeout. -/
theorem calls_conserve_pair :
    ∃ used consumed,
      [.moved [0x61, cr], .moved [], .moved [lf, 0x62]] = used ++ ((opened 64 100).calls
        [.moved [0x61, cr], .moved [], .moved [lf, 0x62]] [.readLine, .readLine, .readLine]).reads ∧
      Accounts (opened 64 100) ((opened 64 100).calls
        [.moved [0x61, cr], .moved [], .moved [lf, 0x62]]
        [.readLine, .readLine, .readLine]).turns consumed ∧
      received used = consumed.flatten ++ ((opened 64 100).calls
        [.moved [0x61, cr], .moved [], .moved [lf, 0x62]]
        [.readLine, .readLine, .readLine]).port.pending :=
  (calls_conserve (opened 64 100) [.moved [0x61, cr], .moved [], .moved [lf, 0x62]]
    [.readLine, .readLine, .readLine] rfl (by simp [Fits, opened])).2

end SerialPort

end SerialRpc
