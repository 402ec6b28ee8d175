import SerialRpc.Host.SerialPort

/-!
# `SerialRpc.Host.Posix`: reading and writing through system calls

The POSIX half of the platform layer of `extras/host/include/serialport.hpp`: `wait_ready`,
`read_native` and `write_native`, and over them the I/O methods of `SerialPort`.

The kernel is environment: the list of what its calls answer, for `poll`, `read` and `write` each,
and a call for which none is left still blocks. `Kernel` also keeps what has been waited for and
what `write` has taken so far. Nothing here depends on these two. Times are readings of the clock
in nanoseconds.

In `SerialRpc.Host.SerialPort` the reading methods have the answers of `read_native` as their
environment. Here they are written down once more over `read_native` itself (`readOver`,
`readSomeOver`, `readLineOver`).
-/

set_option autoImplicit false

namespace SerialRpc

/-! ### Kernel calls -/

namespace Errno

/-- `EINTR`, as Linux has it. -/
def eintr : Int := 4

/-- `EIO`. -/
def eio : Int := 5

/-- `ENXIO`. -/
def enxio : Int := 6

/-- `EBADF`. -/
def ebadf : Int := 9

/-- `EAGAIN`, and also `EWOULDBLOCK`. -/
def eagain : Int := 11

end Errno

/-- `POLLIN`. -/
def pollIn : UInt16 := 0x1

/-- `POLLOUT`. -/
def pollOut : UInt16 := 0x4

/-- `POLLNVAL`. -/
def pollNval : UInt16 := 0x20

/-- What a call of `poll` returns. -/
inductive PollResult where
  | events (revents : UInt16)
  | expired
  | failed (errorNumber : Int)
deriving DecidableEq, Repr

/-- A call of `poll`, with what the clock reads before it and behind it. -/
structure Polling where
  now : Int
  back : Int
  result : PollResult
deriving DecidableEq, Repr

/-- What a call of `read` returns. -/
inductive SysRead where
  | moved (bytes : List UInt8)
  | failed (errorNumber : Int)
deriving DecidableEq, Repr

/-- What a call of `write` returns. -/
inductive SysWrite where
  | moved (count : Nat)
  | failed (errorNumber : Int)
deriving DecidableEq, Repr

/-- The kernel behind the descriptor. -/
structure Kernel where
  polls : List Polling
  reads : List SysRead
  writes : List SysWrite
  /-- The calls of `poll` so far, each with the timeout that it was given. -/
  waits : List (Int × Polling)
  /-- What `write` has taken so far. -/
  taken : List UInt8
deriving DecidableEq, Repr

/-- An absolute instant, or none for a call that blocks until it is done. -/
abbrev Deadline := Option Int

/-- `make_deadline`, with what the clock reads. -/
def makeDeadline (timeout now : Int) : Deadline :=
  if timeout < 0 then none else some (now + timeout * 1000000)

/-- `remaining_ms`, with what the clock reads. -/
def remainingMs (deadline : Deadline) (now : Int) : Int :=
  match deadline with
  | none => -1
  | some deadline =>
      let left := (deadline - now).tdiv 1000000
      if left ≤ 0 then 0 else min left 2147483647

namespace Kernel

/-- `poll`, with what is left until the deadline. -/
def poll (s : Kernel) (deadline : Deadline) : Kernel × Option PollResult :=
  match s.polls with
  | [] => (s, none)
  | p :: polls =>
      ({ s with
          polls := polls
          waits := s.waits ++ [(remainingMs deadline p.now, p)] }, some p.result)

/-- `write`. It takes as many bytes as it was given at most. -/
def write (s : Kernel) (buf : List UInt8) : Kernel × Option SysWrite :=
  match s.writes with
  | [] => (s, none)
  | .moved count :: writes =>
      ({ s with
          writes := writes
          taken := s.taken ++ buf.take count }, some (.moved (min count buf.length)))
  | .failed number :: writes => ({ s with writes := writes }, some (.failed number))

end Kernel

/-! ### The platform layer -/

/-- What `wait_ready` returns. -/
inductive Ready where
  | ready
  | expired
  | failed (errorNumber : Int)
deriving DecidableEq, Repr

/-- After some calls of `poll`. -/
def Kernel.waited (s : Kernel) (deadline : Deadline) (used rest : List Polling) : Kernel :=
  { s with
      polls := rest
      waits := s.waits ++ used.map fun p => (remainingMs deadline p.now, p) }

/-- A `poll` that comes back has used up one answer. -/
theorem Kernel.poll_some {s t : Kernel} {deadline : Deadline} {result : PollResult}
    (h : s.poll deadline = (t, some result)) :
    ∃ p rest, s.polls = p :: rest ∧ t = s.waited deadline [p] rest ∧ p.result = result := by
  unfold Kernel.poll at h
  split at h
  · cases h
  · rename_i p rest hpolls
    cases h
    exact ⟨p, rest, hpolls, rfl, rfl⟩

/-- A `poll` that blocks has found none. -/
theorem Kernel.poll_none {s t : Kernel} {deadline : Deadline} (h : s.poll deadline = (t, none)) :
    s.polls = [] ∧ t = s := by
  unfold Kernel.poll at h
  split at h
  · rename_i hpolls
    cases h
    exact ⟨hpolls, rfl⟩
  · cases h

/-- `events` of `wait_ready`. -/
def pollEvents (forWrite : Bool) : UInt16 := if forWrite then pollOut else pollIn

/-- `wait_ready`. -/
def waitReady (forWrite : Bool) (deadline : Deadline) (s : Kernel) : Kernel × Option Ready :=
  match _hpoll : s.poll deadline with
  | (s, none) => (s, none)
  | (s, some (.events revents)) =>
      if revents &&& pollEvents forWrite ≠ 0 then (s, some .ready)
      -- POLLERR or POLLHUP with no data left: the device is gone.
      else (s, some (.failed (if revents &&& pollNval ≠ 0 then Errno.ebadf else Errno.eio)))
  | (s, some .expired) => (s, some .expired)
  | (s, some (.failed number)) =>
      if number ≠ Errno.eintr then (s, some (.failed number)) else waitReady forWrite deadline s
termination_by s.polls.length
decreasing_by
  obtain ⟨p, rest, hpolls, rfl, -⟩ := Kernel.poll_some _hpoll
  rw [hpolls]
  exact Nat.lt_succ_self _

/-- Nothing was waited for. -/
theorem Kernel.waited_nil (s : Kernel) (deadline : Deadline) :
    s.waited deadline [] s.polls = s := by
  rw [Kernel.waited, List.map_nil, List.append_nil]

/-- Two stretches of waiting are one. -/
theorem Kernel.waited_waited (s : Kernel) (deadline : Deadline)
    (used used' rest rest' : List Polling) :
    (s.waited deadline used rest).waited deadline used' rest'
      = s.waited deadline (used ++ used') rest' := by
  simp only [Kernel.waited, List.map_append, List.append_assoc]

/-- `wait_ready` calls `poll` only. Where it returns, it is for the last of the calls. -/
theorem waitReady_waited (forWrite : Bool) (deadline : Deadline) (s : Kernel) :
    ∃ used rest, s.polls = used ++ rest ∧
      (waitReady forWrite deadline s).1 = s.waited deadline used rest ∧
      ∀ outcome ∈ (waitReady forWrite deadline s).2, ∃ front last, used = front ++ [last] ∧
        (outcome = .expired → last.result = .expired) := by
  fun_induction waitReady forWrite deadline s with
  | case1 s t hpoll =>
      obtain ⟨hpolls, rfl⟩ := Kernel.poll_none hpoll
      exact ⟨[], t.polls, rfl, (t.waited_nil deadline).symm, by rintro outcome ⟨⟩⟩
  | case2 s t revents hpoll hready =>
      obtain ⟨p, rest, hpolls, rfl, -⟩ := Kernel.poll_some hpoll
      exact ⟨[p], rest, hpolls, rfl, by rintro outcome ⟨⟩; exact ⟨[], p, rfl, by rintro ⟨⟩⟩⟩
  | case3 s t revents hpoll hready =>
      obtain ⟨p, rest, hpolls, rfl, -⟩ := Kernel.poll_some hpoll
      exact ⟨[p], rest, hpolls, rfl, by rintro outcome ⟨⟩; exact ⟨[], p, rfl, by rintro ⟨⟩⟩⟩
  | case4 s t hpoll =>
      obtain ⟨p, rest, hpolls, rfl, hresult⟩ := Kernel.poll_some hpoll
      exact ⟨[p], rest, hpolls, rfl, by rintro outcome ⟨⟩; exact ⟨[], p, rfl, fun _ => hresult⟩⟩
  | case5 s t number hpoll hnumber =>
      obtain ⟨p, rest, hpolls, rfl, -⟩ := Kernel.poll_some hpoll
      exact ⟨[p], rest, hpolls, rfl, by rintro outcome ⟨⟩; exact ⟨[], p, rfl, by rintro ⟨⟩⟩⟩
  | case6 s t number hpoll hnumber ih =>
      obtain ⟨p, rest, hpolls, rfl, -⟩ := Kernel.poll_some hpoll
      obtain ⟨used, rest', hrest, hkernel, hlast⟩ := ih
      refine ⟨p :: used, rest', ?_, ?_, ?_⟩
      · rw [hpolls, List.cons_append, ← hrest]
        rfl
      · rw [hkernel, Kernel.waited_waited]
        rfl
      · intro outcome houtcome
        obtain ⟨front, last, rfl, hexpired⟩ := hlast outcome houtcome
        exact ⟨p :: front, last, rfl, hexpired⟩

/-- From one kernel state to a later one: the calls of `poll` in between, up to the same
deadline. -/
structure Waits (deadline : Deadline) (used : List Polling) (s t : Kernel) : Prop where
  polls : s.polls = used ++ t.polls
  waits : t.waits = s.waits ++ used.map fun p => (remainingMs deadline p.now, p)

/-- No wait at all. -/
theorem Waits.refl (deadline : Deadline) (s : Kernel) : Waits deadline [] s s where
  polls := rfl
  waits := by rw [List.map_nil, List.append_nil]

/-- One stretch of waiting behind another. -/
theorem Waits.trans {deadline : Deadline} {used used' : List Polling} {s t u : Kernel}
    (h : Waits deadline used s t) (h' : Waits deadline used' t u) :
    Waits deadline (used ++ used') s u where
  polls := by rw [h.polls, h'.polls, List.append_assoc]
  waits := by rw [h'.waits, h.waits, List.map_append, List.append_assoc]

/-- The last call of `poll` has timed out. -/
def Expired (used : List Polling) : Prop :=
  ∃ front last, used = front ++ [last] ∧ last.result = .expired

/-- What was waited before the last wait does not matter. -/
theorem Expired.append {used : List Polling} (h : Expired used) (before : List Polling) :
    Expired (before ++ used) := by
  obtain ⟨front, last, rfl, hlast⟩ := h
  exact ⟨before ++ front, last, (List.append_assoc _ _ _).symm, hlast⟩

/-- What a call of `wait_ready` or of `read_native` does to the kernel. `returned` and `expired`
are what it makes known: that it has returned, and that it has timed out. -/
structure Polls (deadline : Deadline) (s t : Kernel) (returned expired : Prop) : Prop where
  polled : ∃ used, Waits deadline used s t ∧ (returned → used ≠ []) ∧ (expired → Expired used)
  writes : t.writes = s.writes
  taken : t.taken = s.taken

/-- A call that has not polled has neither returned nor expired by it. -/
theorem Polls.refl (deadline : Deadline) (s : Kernel) {returned expired : Prop}
    (hreturned : ¬ returned) (hexpired : ¬ expired) : Polls deadline s s returned expired where
  polled := ⟨[], .refl deadline s, fun h => absurd h hreturned, fun h => absurd h hexpired⟩
  writes := rfl
  taken := rfl

/-- Less may be said of a stretch of polls. -/
theorem Polls.mono {deadline : Deadline} {s t : Kernel} {returned expired returned' expired' : Prop}
    (h : Polls deadline s t returned expired) (hreturned : returned' → returned)
    (hexpired : expired' → expired) : Polls deadline s t returned' expired' where
  polled := by
    obtain ⟨used, hwaits, hused, hlast⟩ := h.polled
    exact ⟨used, hwaits, fun hret => hused (hreturned hret), fun hexp => hlast (hexpired hexp)⟩
  writes := h.writes
  taken := h.taken

/-- One stretch of polls behind another. -/
theorem Polls.trans {deadline : Deadline} {s t u : Kernel}
    {returned expired returned' expired' : Prop} (h : Polls deadline s t returned expired)
    (h' : Polls deadline t u returned' expired') :
    Polls deadline s u (returned ∨ returned') expired' where
  polled := by
    obtain ⟨used, hwaits, hused, -⟩ := h.polled
    obtain ⟨used', hwaits', hused', hlast'⟩ := h'.polled
    refine ⟨used ++ used', hwaits.trans hwaits', ?_, fun hexp => (hlast' hexp).append used⟩
    rintro (hret | hret)
    · exact List.append_ne_nil_of_left_ne_nil (hused hret) used'
    · exact List.append_ne_nil_of_right_ne_nil used (hused' hret)
  writes := h'.writes.trans h.writes
  taken := h'.taken.trans h.taken

/-- A call that has returned has used up an answer of `poll`. The recursions of the reads go down by
this. -/
theorem Polls.shorter {deadline : Deadline} {s t : Kernel} {returned expired : Prop}
    (h : Polls deadline s t returned expired) (hreturned : returned) :
    t.polls.length < s.polls.length := by
  obtain ⟨used, hwaits, hused, -⟩ := h.polled
  have hpos : 0 < used.length := List.length_pos_iff.mpr (hused hreturned)
  rw [hwaits.polls, List.length_append]
  omega

/-- What `wait_ready` does to the kernel: it polls, and it reads nothing. -/
theorem waitReady_polls {forWrite : Bool} {deadline : Deadline} {s t : Kernel}
    {outcome : Option Ready} (h : waitReady forWrite deadline s = (t, outcome)) :
    t.reads = s.reads ∧ Polls deadline s t outcome.isSome (outcome = some .expired) := by
  obtain ⟨used, rest, hpolls, hkernel, hlast⟩ := waitReady_waited forWrite deadline s
  rw [h] at hkernel hlast
  obtain rfl : t = s.waited deadline used rest := hkernel
  refine ⟨rfl, ⟨used, ⟨hpolls, rfl⟩, ?_, ?_⟩, rfl, rfl⟩
  · intro hsome
    obtain ⟨result, rfl⟩ := Option.isSome_iff_exists.mp hsome
    obtain ⟨front, last, rfl, -⟩ := hlast result rfl
    exact List.append_ne_nil_of_right_ne_nil front (List.cons_ne_nil last [])
  · rintro rfl
    obtain ⟨front, last, rfl, hexpired⟩ := hlast .expired rfl
    exact ⟨front, last, rfl, hexpired rfl⟩

/-- After a call of `read`. -/
def Kernel.readOn (s : Kernel) (reads : List SysRead) : Kernel := { s with reads := reads }

/-- What `read` takes has no part in the waiting. -/
theorem Polls.readOn {deadline : Deadline} {s t : Kernel} {returned expired : Prop}
    (h : Polls deadline s t returned expired) (reads : List SysRead) :
    Polls deadline s (t.readOn reads) returned expired where
  polled := by
    obtain ⟨used, hwaits, hused⟩ := h.polled
    exact ⟨used, ⟨hwaits.polls, hwaits.waits⟩, hused⟩
  writes := h.writes
  taken := h.taken

/-- The longest transfer that a call reports. -/
def maxInt : Nat := 2147483647

/-- `read_native`. The bytes that `clamp_to_int` does not count are lost. -/
def readNative (nMax : Nat) (deadline : Deadline) (s : Kernel) : Kernel × Option NativeRead :=
  match _hwait : waitReady false deadline s with
  | (s, none) => (s, none)
  | (s, some (.failed number)) => (s, some (.failed number))
  | (s, some .expired) => (s, some (.moved []))
  | (t, some .ready) =>
      match t.reads with
      | [] => (t, none)
      | .moved bytes :: reads =>
          let bytes := bytes.take nMax
          if bytes ≠ [] then (t.readOn reads, some (.moved (bytes.take maxInt)))
          -- There is no data after all: the device was unplugged.
          else (t.readOn reads, some (.failed Errno.enxio))
      | .failed number :: reads =>
          if number ≠ Errno.eintr ∧ number ≠ Errno.eagain then
            (t.readOn reads, some (.failed number))
          else readNative nMax deadline (t.readOn reads)
termination_by s.polls.length
decreasing_by
  exact (waitReady_polls _hwait).2.shorter rfl

/-- What `write_native` returns: the number of bytes moved, or -1 once `fail_native` has been
called. No bytes are a timeout. -/
inductive NativeWrite where
  | moved (count : Nat)
  | failed (errorNumber : Int)
deriving DecidableEq, Repr

/-- What `write_native` does next, with what `write` has returned. -/
inductive AfterWrite where
  | return (outcome : NativeWrite)
  | again
  | wait
deriving DecidableEq, Repr

/-- The three tests in the loop of `write_native`. -/
def afterWrite : SysWrite → AfterWrite
  -- The driver accepted nothing.
  | .moved 0 => .wait
  | .moved count => .return (.moved (min count maxInt))
  | .failed number =>
      if number = Errno.eintr then .again
      else if number ≠ Errno.eagain then .return (.failed number)
      -- The output queue is full.
      else .wait

/-- After a call of `write`. -/
def Kernel.wrote (s : Kernel) (bytes : List UInt8) (writes : List SysWrite) : Kernel :=
  { s with
      writes := writes
      taken := s.taken ++ bytes }

/-- A `write` that comes back has used up one answer: it took some of the bytes, or it failed. -/
theorem Kernel.write_some {s t : Kernel} {buf : List UInt8} {answer : SysWrite}
    (h : s.write buf = (t, some answer)) :
    ∃ w rest, s.writes = w :: rest ∧
      ((∃ count, w = .moved count ∧ t = s.wrote (buf.take count) rest ∧
          answer = .moved (min count buf.length)) ∨
        ∃ number, w = .failed number ∧ t = s.wrote [] rest ∧ answer = .failed number) := by
  unfold Kernel.write at h
  split at h
  · cases h
  · rename_i count rest hwrites
    cases h
    exact ⟨_, rest, hwrites, .inl ⟨count, rfl, rfl, rfl⟩⟩
  · rename_i number rest hwrites
    cases h
    refine ⟨_, rest, hwrites, .inr ⟨number, rfl, ?_, rfl⟩⟩
    rw [Kernel.wrote, List.append_nil]

/-- A call of `write` uses up one of its answers. -/
theorem Kernel.write_writes {s t : Kernel} {buf : List UInt8} {answer : SysWrite}
    (h : s.write buf = (t, some answer)) : t.writes.length < s.writes.length := by
  obtain ⟨w, rest, hwrites, ⟨count, -, rfl, -⟩ | ⟨number, -, rfl, -⟩⟩ := Kernel.write_some h
  all_goals
    rw [hwrites]
    exact Nat.lt_succ_self _

/-- `write_native`. -/
def writeNative (buf : List UInt8) (deadline : Deadline) (s : Kernel) :
    Kernel × Option NativeWrite :=
  match _hwrite : s.write buf with
  | (s, none) => (s, none)
  | (t, some answer) =>
      match afterWrite answer with
      | .return outcome => (t, some outcome)
      | .again => writeNative buf deadline t
      | .wait =>
          match _hwait : waitReady true deadline t with
          | (t, none) => (t, none)
          | (t, some (.failed number)) => (t, some (.failed number))
          | (t, some .expired) => (t, some (.moved 0))
          | (u, some .ready) => writeNative buf deadline u
termination_by s.writes.length
decreasing_by
  · exact Kernel.write_writes _hwrite
  · rw [(waitReady_polls _hwait).2.writes]
    exact Kernel.write_writes _hwrite

/-- Only a timeout makes `read_native` move nothing. -/
theorem readNative_polls {nMax : Nat} {deadline : Deadline} {s t : Kernel}
    {outcome : Option NativeRead} (h : readNative nMax deadline s = (t, outcome)) :
    Polls deadline s t outcome.isSome (outcome = some (.moved [])) := by
  fun_induction readNative nMax deadline s with
  | case1 s u hwait =>
      cases h
      exact (waitReady_polls hwait).2.mono id (by rintro ⟨⟩)
  | case2 s u number hwait =>
      cases h
      exact (waitReady_polls hwait).2.mono id (by rintro ⟨⟩)
  | case3 s u hwait =>
      cases h
      exact (waitReady_polls hwait).2.mono id fun _ => rfl
  | case4 s u hwait hreads =>
      cases h
      exact (waitReady_polls hwait).2.mono (by rintro ⟨⟩) (by rintro ⟨⟩)
  | case5 s u hwait bytes reads hreads moved hmoved =>
      cases h
      refine ((waitReady_polls hwait).2.readOn reads).mono id fun hnone => ?_
      have hempty : moved.take maxInt = [] := NativeRead.moved.inj (Option.some.inj hnone)
      exact absurd (List.take_eq_nil_iff.mp hempty) (by simp [hmoved, maxInt])
  | case6 s u hwait bytes reads hreads moved hmoved =>
      cases h
      refine ((waitReady_polls hwait).2.readOn reads).mono id ?_
      rintro ⟨⟩
  | case7 s u hwait number reads hreads hnumber =>
      cases h
      refine ((waitReady_polls hwait).2.readOn reads).mono id ?_
      rintro ⟨⟩
  | case8 s u hwait number reads hreads hnumber ih =>
      exact (((waitReady_polls hwait).2.readOn reads).trans (ih h)).mono .inr id

/-- `write_native` has called `write` where it returns. -/
theorem writeNative_writes {buf : List UInt8} {deadline : Deadline} {s t : Kernel}
    {outcome : NativeWrite} (h : writeNative buf deadline s = (t, some outcome)) :
    t.writes.length < s.writes.length := by
  fun_induction writeNative buf deadline s with
  | case1 => cases h
  | case2 s u answer hwrite result hafter =>
      cases h
      exact Kernel.write_writes hwrite
  | case3 s u answer hwrite hafter ih =>
      exact Nat.lt_trans (ih h) (Kernel.write_writes hwrite)
  | case4 => cases h
  | case5 s u answer hwrite hafter v number hwait =>
      cases h
      rw [(waitReady_polls hwait).2.writes]
      exact Kernel.write_writes hwrite
  | case6 s u answer hwrite hafter v hwait =>
      cases h
      rw [(waitReady_polls hwait).2.writes]
      exact Kernel.write_writes hwrite
  | case7 s u answer hwrite hafter v hwait ih =>
      refine Nat.lt_trans (ih h) ?_
      rw [(waitReady_polls hwait).2.writes]
      exact Kernel.write_writes hwrite

namespace SerialPort

/-- Where a call is, over the kernel. -/
structure KernelTurn where
  port : SerialPort
  /-- What the caller's memory or string has got. -/
  out : List UInt8
  /-- What the call returned, `none` while it blocks. -/
  ret : Option Int
  kernel : Kernel

/-! ### Writing -/

/-- The loop of `write`, with `written` as it is so far. -/
def writeLoop (p : SerialPort) (data : List UInt8) (written : Nat) (deadline : Deadline)
    (s : Kernel) : KernelTurn :=
  if data.length ≤ written then ⟨p, [], some (clampToInt written), s⟩
  else
    match _hwrite : writeNative (data.drop written) deadline s with
    | (s, none) => ⟨p, [], none, s⟩
    | (s, some (.failed number)) =>
        -- An error behind some bytes shows in `_last_error` only.
        ⟨{ p with lastError := some (.system number) }, [],
          some (if 0 < written then clampToInt written else -1), s⟩
    | (s, some (.moved count)) =>
        if count = 0 then ⟨{ p with timedOut := true }, [], some (clampToInt written), s⟩
        else writeLoop p data (written + count) deadline s
termination_by s.writes.length
decreasing_by exact writeNative_writes _hwrite

/-- `write`. `null` says that the caller's `buf` is `nullptr`. -/
def write (p : SerialPort) (null : Bool) (data : List UInt8) (deadline : Deadline) (s : Kernel) :
    KernelTurn :=
  let p := p.beginOperation
  if !p.isOpen then ⟨p.fail .badFileDescriptor, [], some (-1), s⟩
  else if data.length = 0 then ⟨p, [], some 0, s⟩
  else if null then ⟨p.fail .badAddress, [], some (-1), s⟩
  else p.writeLoop data 0 deadline s

/-- `write_line`. -/
def writeLine (p : SerialPort) (data eol : List UInt8) (deadline : Deadline) (s : Kernel) :
    KernelTurn :=
  p.write false (data ++ eol) deadline s

/-! ### Reading -/

/-- `fill_buffer`. -/
def fillBufferOver (p : SerialPort) (deadline : Deadline) (s : Kernel) :
    SerialPort × Option Int × Kernel :=
  let p := p.makeRoom
  if p.rxTail = p.rxBuf.length then (p.fail .noBufferSpace, some (-1), s)
  else
    match readNative (p.rxBuf.length - p.rxTail) deadline s with
    | (s, none) => (p, none, s)
    | (s, some (.moved bytes)) =>
        (p.store bytes, some (bytes.take (p.rxBuf.length - p.rxTail)).length, s)
    | (s, some (.failed number)) => ({ p with lastError := some (.system number) }, some (-1), s)

/-- A call of `fill_buffer` that moves bytes or times out has polled. -/
theorem fillBufferOver_polls {p q : SerialPort} {deadline : Deadline} {s t : Kernel}
    {ret : Option Int} (h : p.fillBufferOver deadline s = (q, ret, t)) :
    Polls deadline s t (∃ count, ret = some count ∧ 0 ≤ count) (ret = some 0) := by
  unfold fillBufferOver at h
  dsimp only at h
  split at h
  · cases h
    exact .refl deadline s (by rintro ⟨count, ⟨⟩, hcount⟩; omega) (by rintro ⟨⟩)
  · rename_i hroom
    split at h
    · rename_i u hread
      cases h
      exact (readNative_polls hread).mono (by rintro ⟨count, ⟨⟩, -⟩) (by rintro ⟨⟩)
    · rename_i u bytes hread
      cases h
      refine (readNative_polls hread).mono (fun _ => rfl) fun hzero => ?_
      have hlength : (bytes.take _).length = 0 := Int.ofNat.inj (Option.some.inj hzero)
      have htail := p.makeRoom.tail_le_size
      rw [List.length_eq_zero_iff, List.take_eq_nil_iff] at hlength
      rcases hlength with hspace | rfl
      · omega
      · rfl
    · rename_i u number hread
      cases h
      exact (readNative_polls hread).mono (fun _ => rfl) (by rintro ⟨⟩)

/-- The loop of `read`. -/
def readLoopOver (p : SerialPort) (buf : List UInt8) (nBytes : Nat) (deadline : Deadline)
    (s : Kernel) : KernelTurn :=
  if nBytes ≤ buf.length then ⟨p, buf, some (clampToInt buf.length), s⟩
  else
    let (p, taken) := p.takeBuffered (nBytes - buf.length)
    let buf := buf ++ taken
    if buf.length = nBytes then ⟨p, buf, some (clampToInt buf.length), s⟩
    else
      match _hfill : p.fillBufferOver deadline s with
      | (p, none, s) => ⟨p, buf, none, s⟩
      | (p, some ret, s) =>
          if ret < 0 then
            ⟨p, buf, some (if 0 < buf.length then clampToInt buf.length else -1), s⟩
          else if ret = 0 then
            ⟨{ p with timedOut := true }, buf, some (clampToInt buf.length), s⟩
          else readLoopOver p buf nBytes deadline s
termination_by s.polls.length
decreasing_by exact (fillBufferOver_polls _hfill).shorter ⟨_, rfl, by omega⟩

/-- `read`. -/
def readOver (p : SerialPort) (null : Bool) (nBytes : Nat) (deadline : Deadline) (s : Kernel) :
    KernelTurn :=
  let p := { p.beginOperation with pendingLf := false }
  if !p.isOpen then ⟨p.fail .badFileDescriptor, [], some (-1), s⟩
  else if nBytes = 0 then ⟨p, [], some 0, s⟩
  else if null then ⟨p.fail .badAddress, [], some (-1), s⟩
  else p.readLoopOver [] nBytes deadline s

/-- `read_some`. -/
def readSomeOver (p : SerialPort) (null : Bool) (nMax : Nat) (deadline : Deadline) (s : Kernel) :
    KernelTurn :=
  let p := { p.beginOperation with pendingLf := false }
  if !p.isOpen then ⟨p.fail .badFileDescriptor, [], some (-1), s⟩
  else if nMax = 0 then ⟨p, [], some 0, s⟩
  else if null then ⟨p.fail .badAddress, [], some (-1), s⟩
  else if p.buffered = 0 then
    match p.fillBufferOver deadline s with
    | (p, none, s) => ⟨p, [], none, s⟩
    | (p, some ret, s) =>
        if ret < 0 then ⟨p, [], some (-1), s⟩
        else if ret = 0 then ⟨{ p with timedOut := true }, [], some 0, s⟩
        else
          let (p, taken) := p.takeBuffered nMax
          ⟨p, taken, some (clampToInt taken.length), s⟩
  else
    let (p, taken) := p.takeBuffered nMax
    ⟨p, taken, some (clampToInt taken.length), s⟩

/-- The outer loop of `read_line`. -/
def readLineLoopOver (p : SerialPort) (line : List UInt8) (deadline : Deadline) (s : Kernel) :
    KernelTurn :=
  match p.scanLine line with
  | (p, line, true) => ⟨p, line, some (clampToInt line.length), s⟩
  | (p, line, false) =>
      match _hfill : p.fillBufferOver deadline s with
      | (p, none, s) => ⟨p, line, none, s⟩
      | (p, some ret, s) =>
          if ret < 0 then
            ⟨p, line, some (if line.isEmpty then -1 else clampToInt line.length), s⟩
          else if ret = 0 then
            ⟨{ p with timedOut := true }, line, some (clampToInt line.length), s⟩
          else readLineLoopOver p line deadline s
termination_by s.polls.length
decreasing_by exact (fillBufferOver_polls _hfill).shorter ⟨_, rfl, by omega⟩

/-- `read_line(std::string &)`. -/
def readLineOver (p : SerialPort) (deadline : Deadline) (s : Kernel) : KernelTurn :=
  let p := p.beginOperation
  if !p.isOpen then ⟨p.fail .badFileDescriptor, [], some (-1), s⟩
  else p.readLineLoopOver [] deadline s

/-! ### Calls in a row -/

/-- A call of an I/O method. -/
inductive Operation where
  | reading (call : Call)
  | writing (null : Bool) (data : List UInt8)
deriving DecidableEq, Repr

/-- An operation, with the timeout that is set then and what the clock reads when the deadline is
made. -/
structure Issued where
  operation : Operation
  timeout : Int
  start : Int
deriving DecidableEq, Repr

/-- What comes of an operation. -/
def operate (p : SerialPort) (s : Kernel) (issued : Issued) : KernelTurn :=
  let deadline := makeDeadline issued.timeout issued.start
  match issued.operation with
  | .reading (.read null nBytes) => p.readOver null nBytes deadline s
  | .reading (.readSome null nMax) => p.readSomeOver null nMax deadline s
  | .reading .readLine => p.readLineOver deadline s
  | .writing null data => p.write null data deadline s

/-- Operations in a row: each with what has come of it, and where the port and the kernel are. -/
structure Run where
  turns : List (Issued × KernelTurn)
  port : SerialPort
  kernel : Kernel

/-- The operations of a caller, up to the first that blocks. -/
def operations (p : SerialPort) (s : Kernel) : List Issued → Run
  | [] => ⟨[], p, s⟩
  | issued :: rest =>
      let turn := p.operate s issued
      if turn.ret.isNone then ⟨[(issued, turn)], turn.port, turn.kernel⟩
      else
        let run := turn.port.operations turn.kernel rest
        { run with turns := (issued, turn) :: run.turns }

end SerialPort

end SerialRpc
