import SerialRpc.Proofs.Host.Posix

/-!
# `SerialRpc.Proofs.Host.NativeReads`: reading over system calls refines reading

`SerialRpc.Host.SerialPort` takes what the calls of `read_native` return as a list. Over a kernel
that list is `nativeReads`: it depends on the answers of `poll` and `read` only, not on the
deadlines and on the room in the buffer.

* `operations_refine`: calls of the reading methods over a kernel are the calls over `nativeReads`.
  Interrupted calls and readiness for nothing do not show there, and every byte that `read` has
  moved does, once and in order.
-/

set_option autoImplicit false

namespace SerialRpc

/-! ### Answers -/

/-- The answers of `poll` and `read` are the same. -/
structure SameAnswers (s t : Kernel) : Prop where
  polls : s.polls = t.polls
  reads : s.reads = t.reads

/-- A kernel has the answers it has. -/
theorem SameAnswers.refl (s : Kernel) : SameAnswers s s := ⟨rfl, rfl⟩

/-- Having the same answers is symmetric. -/
theorem SameAnswers.symm {s t : Kernel} (h : SameAnswers s t) : SameAnswers t s :=
  ⟨h.polls.symm, h.reads.symm⟩

/-- What `wait_ready` makes of an answer, `none` for one more call. -/
def readyOf (forWrite : Bool) : PollResult → Option Ready
  | .events revents =>
      if revents &&& pollEvents forWrite ≠ 0 then some .ready
      else some (.failed (if revents &&& pollNval ≠ 0 then Errno.ebadf else Errno.eio))
  | .expired => some .expired
  | .failed number => if number ≠ Errno.eintr then some (.failed number) else none

/-- Without a poll left the wait does not end. -/
theorem waitReady_nil {forWrite : Bool} {deadline : Deadline} {s : Kernel} (h : s.polls = []) :
    waitReady forWrite deadline s = (s, none) := by
  have hpoll : s.poll deadline = (s, none) := by
    unfold Kernel.poll
    rw [h]
  unfold waitReady
  split
  · rename_i t heq
    rw [hpoll] at heq
    rw [(Prod.mk.inj heq).1]
  all_goals
    rename_i heq
    rw [hpoll] at heq
    cases heq

/-- A poll ends the wait, or time is up, or it is asked again. -/
theorem waitReady_cons {forWrite : Bool} {deadline : Deadline} {s : Kernel} {p : Polling}
    {rest : List Polling} (h : s.polls = p :: rest) :
    waitReady forWrite deadline s =
      match readyOf forWrite p.result with
      | some outcome => (s.waited deadline [p] rest, some outcome)
      | none => waitReady forWrite deadline (s.waited deadline [p] rest) := by
  have hpoll : s.poll deadline = (s.waited deadline [p] rest, some p.result) := by
    unfold Kernel.poll
    rw [h]
    rfl
  conv_lhs => unfold waitReady
  split
  · rename_i t heq
    rw [hpoll] at heq
    cases heq
  all_goals
    rename_i heq
    rw [hpoll] at heq
    obtain ⟨rfl, hresult⟩ := Prod.mk.inj heq
    rw [Option.some.inj hresult, readyOf]
    try split_ifs <;> rfl

/-- The deadline changes neither what `wait_ready` returns nor what is left. -/
theorem waitReady_same {s t : Kernel} (h : SameAnswers s t) (forWrite : Bool)
    (deadline deadline' : Deadline) :
    (waitReady forWrite deadline s).2 = (waitReady forWrite deadline' t).2 ∧
      SameAnswers (waitReady forWrite deadline s).1 (waitReady forWrite deadline' t).1 := by
  obtain ⟨polls, hpolls⟩ : ∃ polls, s.polls = polls := ⟨_, rfl⟩
  induction polls generalizing s t with
  | nil =>
      rw [waitReady_nil hpolls, waitReady_nil (h.polls ▸ hpolls)]
      exact ⟨rfl, h⟩
  | cons p rest ih =>
      have hrest : SameAnswers (s.waited deadline [p] rest) (t.waited deadline' [p] rest) :=
        ⟨rfl, h.reads⟩
      have hpolls' : t.polls = p :: rest := h.polls ▸ hpolls
      rw [waitReady_cons (s := s) hpolls, waitReady_cons (s := t) hpolls']
      cases readyOf forWrite p.result with
      | some outcome => exact ⟨rfl, hrest⟩
      | none => exact ih hrest rfl

/-- The bytes that there is room for. -/
def NativeRead.cut (nMax : Nat) : NativeRead → NativeRead
  | .moved bytes => .moved (bytes.take nMax)
  | .failed number => .failed number

/-- What `read_native` makes of an answer of `read`, `none` for one more turn. -/
def readOf (nMax : Nat) : SysRead → Option NativeRead
  | .moved bytes =>
      if bytes.take nMax ≠ [] then some (.moved ((bytes.take nMax).take maxInt))
      else some (.failed Errno.enxio)
  | .failed number =>
      if number ≠ Errno.eintr ∧ number ≠ Errno.eagain then some (.failed number) else none

/-- What a `read` of `nMax` bytes returns is cut from what it returns when all are asked for. -/
theorem readOf_cut {nMax : Nat} (hroom : 0 < nMax) (answer : SysRead) :
    readOf nMax answer = (readOf maxInt answer).map (NativeRead.cut nMax) := by
  cases answer with
  | moved bytes =>
      cases bytes with
      | nil => simp [readOf, NativeRead.cut]
      | cons c cs =>
          have hmax : maxInt ≠ 0 := by decide
          have hempty : nMax ≠ 0 := by omega
          simp [readOf, NativeRead.cut, List.take_take, hmax, hempty, Nat.min_comm]
  | failed number =>
      simp only [readOf]
      split_ifs <;> rfl

/-- What `read_native` does when `wait_ready` has returned. -/
theorem readNative_eq (nMax : Nat) (deadline : Deadline) (s : Kernel) :
    readNative nMax deadline s =
      match waitReady false deadline s with
      | (t, none) => (t, none)
      | (t, some (.failed number)) => (t, some (.failed number))
      | (t, some .expired) => (t, some (.moved []))
      | (t, some .ready) =>
          match t.reads with
          | [] => (t, none)
          | answer :: reads =>
              match readOf nMax answer with
              | some outcome => (t.readOn reads, some outcome)
              | none => readNative nMax deadline (t.readOn reads) := by
  conv_lhs => unfold readNative
  -- The wait fails, times out or ends, and only when it ends is there an answer to read.
  split
  · rename_i t hwait
    rw [hwait]
  · rename_i t number hwait
    rw [hwait]
  · rename_i t hwait
    rw [hwait]
  · rename_i t hwait
    rw [hwait]
    dsimp only
    split
    · rename_i hreads
      rw [hreads]
    · rename_i bytes reads hreads
      rw [hreads]
      dsimp only [readOf]
      split_ifs <;> rfl
    · rename_i number reads hreads
      rw [hreads]
      dsimp only [readOf]
      split_ifs <;> rfl

/-- Neither the deadline nor the room changes what `read_native` returns, but for the bytes that
there is no room for. -/
theorem readNative_same {s t : Kernel} (h : SameAnswers s t) {nMax : Nat} (hroom : 0 < nMax)
    (deadline deadline' : Deadline) :
    (readNative nMax deadline s).2
        = (readNative maxInt deadline' t).2.map (NativeRead.cut nMax) ∧
      SameAnswers (readNative nMax deadline s).1 (readNative maxInt deadline' t).1 := by
  induction hsize : s.polls.length using Nat.strong_induction_on generalizing s t with
  | h size ih =>
    obtain ⟨hresult, hsame⟩ := waitReady_same h false deadline deadline'
    rw [readNative_eq nMax deadline s, readNative_eq maxInt deadline' t]
    rcases hs : waitReady false deadline s with ⟨u, outcome⟩
    rcases ht : waitReady false deadline' t with ⟨v, outcome'⟩
    rw [hs, ht] at hresult hsame
    obtain rfl : outcome = outcome' := hresult
    have hsame : SameAnswers u v := hsame
    cases outcome with
    | none => exact ⟨rfl, hsame⟩
    | some outcome =>
        cases outcome with
        | failed number => exact ⟨rfl, hsame⟩
        | expired => exact ⟨by rw [Option.map_some, NativeRead.cut, List.take_nil], hsame⟩
        | ready =>
            dsimp only
            rw [← hsame.reads]
            cases hreads : u.reads with
            | nil => exact ⟨rfl, hsame⟩
            | cons answer reads =>
                have hrest : SameAnswers (u.readOn reads) (v.readOn reads) := ⟨hsame.polls, rfl⟩
                dsimp only
                rw [readOf_cut hroom answer]
                cases readOf maxInt answer with
                | some outcome => exact ⟨rfl, hrest⟩
                | none =>
                    -- One more turn, with an answer of `poll` less.
                    have hless : (u.readOn reads).polls.length < size := by
                      rw [← hsize]
                      exact (waitReady_polls hs).2.shorter rfl
                    exact ih _ hless hrest rfl

/-- What `read_native` returns from here on, where there is room. -/
def nativeReads (s : Kernel) : List NativeRead :=
  match _hread : readNative maxInt none s with
  | (_, none) => []
  | (t, some outcome) => outcome :: nativeReads t
termination_by s.polls.length
decreasing_by exact (readNative_polls _hread).shorter rfl

/-- The native reads of a kernel: the first of them, and those of what it leaves. -/
theorem nativeReads_eq (s : Kernel) :
    nativeReads s =
      match readNative maxInt none s with
      | (_, none) => []
      | (t, some outcome) => outcome :: nativeReads t := by
  conv_lhs => unfold nativeReads
  split
  · rename_i t hread
    rw [hread]
  · rename_i t outcome hread
    rw [hread]

/-- Kernels with the same answers have the same native reads. -/
theorem nativeReads_same {s t : Kernel} (h : SameAnswers s t) : nativeReads s = nativeReads t := by
  induction hsize : s.polls.length using Nat.strong_induction_on generalizing s t with
  | h size ih =>
    have hmax : 0 < maxInt := by decide
    obtain ⟨hresult, hsame⟩ := readNative_same h hmax none none
    -- There is always room for what is cut to the longest transfer.
    rw [← (readNative_same (.refl t) hmax none none).1] at hresult
    rw [nativeReads_eq s, nativeReads_eq t]
    rcases hs : readNative maxInt none s with ⟨u, outcome⟩
    rcases ht : readNative maxInt none t with ⟨v, outcome'⟩
    rw [hs, ht] at hresult hsame
    obtain rfl : outcome = outcome' := hresult
    cases outcome with
    | none => rfl
    | some outcome =>
        have hless : u.polls.length < size := by
          rw [← hsize]
          exact (readNative_polls hs).shorter rfl
        dsimp only
        rw [ih _ hless hsame rfl]

/-- One call of `read_native`, for the rest of them. -/
theorem nativeReads_step {s t : Kernel} {nMax : Nat} (hroom : 0 < nMax) {deadline : Deadline}
    {outcome : Option NativeRead} (h : readNative nMax deadline s = (t, outcome)) :
    match outcome with
    | none => nativeReads s = []
    | some outcome =>
        ∃ whole, nativeReads s = whole :: nativeReads t ∧ outcome = whole.cut nMax := by
  obtain ⟨hresult, hsame⟩ := readNative_same (.refl s) hroom deadline none
  rw [h] at hresult hsame
  rw [nativeReads_eq]
  rcases hwhole : readNative maxInt none s with ⟨u, whole⟩
  rw [hwhole] at hresult hsame
  obtain rfl : outcome = whole.map (NativeRead.cut nMax) := hresult
  cases whole with
  | none => rfl
  | some whole => exact ⟨whole, by rw [nativeReads_same hsame], rfl⟩

/-! ### What `read_native` passes on -/

/-- The bytes that calls of `read` have moved. -/
def moved (reads : List SysRead) : List UInt8 :=
  reads.flatMap fun
    | .moved bytes => bytes
    | .failed _ => []

/-- The bytes moved in two stretches of answers. -/
theorem moved_append (reads reads' : List SysRead) :
    moved (reads ++ reads') = moved reads ++ moved reads' := List.flatMap_append

/-- What `wait_ready` fails with is no interrupt. -/
theorem waitReady_failed {forWrite : Bool} {deadline : Deadline} {s t : Kernel} {number : Int}
    (h : waitReady forWrite deadline s = (t, some (.failed number))) : number ≠ Errno.eintr := by
  fun_induction waitReady forWrite deadline s with
  | case1 => cases h
  | case2 => cases h
  | case3 s u revents hpoll hready =>
      cases h
      split_ifs <;> decide
  | case4 => cases h
  | case5 s u number' hpoll hnumber =>
      cases h
      exact hnumber
  | case6 s u number' hpoll hnumber ih => exact ih h

/-- What `read_native` passes on: what it uses up of the answers of `read` has moved just these
bytes, and what it fails with is no interrupt. -/
theorem readNative_passes {deadline : Deadline} {s t : Kernel} {outcome : Option NativeRead}
    (h : readNative maxInt deadline s = (t, outcome)) :
    (∃ used, s.reads = used ++ t.reads ∧
      ((∀ bytes, .moved bytes ∈ s.reads → bytes.length ≤ maxInt) →
        moved used = SerialPort.received outcome.toList)) ∧
      ∀ number, outcome = some (.failed number) → number ≠ Errno.eintr := by
  fun_induction readNative maxInt deadline s with
  | case1 s u hwait =>
      cases h
      exact ⟨⟨[], (waitReady_polls hwait).1.symm, fun _ => rfl⟩, by rintro number ⟨⟩⟩
  | case2 s u number hwait =>
      cases h
      refine ⟨⟨[], (waitReady_polls hwait).1.symm, fun _ => rfl⟩, ?_⟩
      rintro _ ⟨⟩
      exact waitReady_failed hwait
  | case3 s u hwait =>
      cases h
      exact ⟨⟨[], (waitReady_polls hwait).1.symm, fun _ => rfl⟩, by rintro number ⟨⟩⟩
  | case4 s u hwait hreads =>
      cases h
      exact ⟨⟨[], (waitReady_polls hwait).1.symm, fun _ => rfl⟩, by rintro number ⟨⟩⟩
  | case5 s u hwait bytes reads hreads cut hcut =>
      cases h
      have hsame := (waitReady_polls hwait).1.symm.trans hreads
      refine ⟨⟨[.moved bytes], hsame, fun hfits => ?_⟩, by rintro number ⟨⟩⟩
      have hlength := hfits bytes (by rw [hsame]; exact List.mem_cons_self)
      -- With all the room an `int` can ask for, nothing is left behind.
      have hwhole : cut = bytes := List.take_of_length_le hlength
      rw [hwhole, List.take_of_length_le hlength]
      rfl
  | case6 s u hwait bytes reads hreads cut hcut =>
      cases h
      have hsame := (waitReady_polls hwait).1.symm.trans hreads
      refine ⟨⟨[.moved bytes], hsame, fun hfits => ?_⟩, ?_⟩
      · have hlength := hfits bytes (by rw [hsame]; exact List.mem_cons_self)
        have hwhole : cut = bytes := List.take_of_length_le hlength
        rw [not_not.mp hcut] at hwhole
        rw [← hwhole]
        rfl
      · rintro _ ⟨⟩
        decide
  | case7 s u hwait number reads hreads hnumber =>
      cases h
      have hsame := (waitReady_polls hwait).1.symm.trans hreads
      refine ⟨⟨[.failed number], hsame, fun _ => rfl⟩, ?_⟩
      rintro _ ⟨⟩
      exact hnumber.1
  -- `read` was interrupted, or has found nothing after all: one answer of it is used up.
  | case8 s u hwait number reads hreads hnumber ih =>
      have hsame := (waitReady_polls hwait).1.symm.trans hreads
      obtain ⟨⟨used, hused, hmoved⟩, hfailed⟩ := ih h
      have hused : reads = used ++ t.reads := hused
      refine ⟨⟨.failed number :: used, by rw [hsame, hused, List.cons_append], fun hfits => ?_⟩,
        hfailed⟩
      refine hmoved fun bytes hbytes => hfits bytes ?_
      rw [hsame]
      exact List.mem_cons_of_mem _ hbytes

/-- No interrupt comes through, and the bytes do, in order. -/
theorem nativeReads_passes (s : Kernel) :
    (∀ number, .failed number ∈ nativeReads s → number ≠ Errno.eintr) ∧
      ((∀ bytes, .moved bytes ∈ s.reads → bytes.length ≤ maxInt) →
        SerialPort.received (nativeReads s) <+: moved s.reads) := by
  -- By strong induction on the polls, since a native read uses up at least one of them.
  induction hsize : s.polls.length using Nat.strong_induction_on generalizing s with
  | h size ih =>
    rw [nativeReads_eq]
    rcases hread : readNative maxInt none s with ⟨t, outcome⟩
    cases outcome with
    | none => exact ⟨by rintro number ⟨⟩, fun _ => List.nil_prefix⟩
    | some outcome =>
        obtain ⟨⟨used, hused, hmoved⟩, hfailed⟩ := readNative_passes hread
        have hless : t.polls.length < size := by
          rw [← hsize]
          exact (readNative_polls hread).shorter rfl
        obtain ⟨ihfailed, ihreceived⟩ := ih _ hless t rfl
        refine ⟨fun number hnumber => ?_, fun hfits => ?_⟩
        · -- A failure is that of the first read, or of a later one.
          rcases List.mem_cons.mp hnumber with hfirst | hrest
          · exact hfailed number (congrArg some hfirst.symm)
          · exact ihfailed number hrest
        · -- What the first read received is in front of what the others did.
          have hrest := ihreceived fun bytes hbytes => hfits bytes (by
            rw [hused]
            exact List.mem_append_right _ hbytes)
          have hfirst := hmoved hfits
          show SerialPort.received ([outcome] ++ nativeReads t) <+: _
          rw [hused, moved_append, hfirst, SerialPort.received_append]
          exact (List.prefix_append_right_inj _).mpr hrest

namespace SerialPort

/-- Only the bytes that fit are stored. -/
theorem store_take (p : SerialPort) (bytes : List UInt8) :
    p.store (bytes.take (p.rxBuf.length - p.rxTail)) = p.store bytes := by
  unfold store
  dsimp only
  simp only [List.take_take, Nat.min_self]

/-- A turn over a kernel as one over what `read_native` returns. -/
def KernelTurn.abstract (turn : KernelTurn) : Turn :=
  ⟨turn.port, turn.out, turn.ret, if turn.ret.isNone then [] else nativeReads turn.kernel⟩

/-- `fill_buffer` over a kernel. -/
theorem fillBufferOver_refines {p q : SerialPort} {deadline : Deadline} {s t : Kernel}
    {ret : Option Int} (h : p.fillBufferOver deadline s = (q, ret, t)) :
    p.fillBuffer (nativeReads s) = (q, ret, if ret.isNone then [] else nativeReads t) := by
  unfold fillBufferOver at h
  unfold fillBuffer
  dsimp only at h ⊢
  by_cases hfull : p.makeRoom.rxTail = p.makeRoom.rxBuf.length
  · rw [if_pos hfull] at h ⊢
    cases h
    rfl
  · rw [if_neg hfull] at h ⊢
    -- How much room there is decides where `read_native` cuts its bytes off; `store` cuts them off
    -- at the same place.
    have htail := p.makeRoom.tail_le_size
    have hroom : 0 < p.makeRoom.rxBuf.length - p.makeRoom.rxTail := by omega
    split at h
    · rename_i u hread
      cases h
      have hstep := nativeReads_step hroom hread
      dsimp only at hstep
      rw [hstep]
      rfl
    · rename_i u bytes hread
      cases h
      obtain ⟨whole, hreads, hcut⟩ := nativeReads_step hroom hread
      cases whole with
      | failed number => cases hcut
      | moved wholeBytes =>
          obtain rfl := NativeRead.moved.inj hcut
          rw [hreads]
          simp [store_take, List.take_take]
    · rename_i u number hread
      cases h
      obtain ⟨whole, hreads, hcut⟩ := nativeReads_step hroom hread
      cases whole with
      | moved wholeBytes => cases hcut
      | failed number' =>
          obtain rfl := NativeRead.failed.inj hcut
          rw [hreads]
          rfl

/-- One turn of the loop of `read`: the buffered bytes first, then a fill. -/
theorem readLoop_eq (p : SerialPort) (buf : List UInt8) (nBytes : Nat) (reads : List NativeRead) :
    p.readLoop buf nBytes reads =
      if nBytes ≤ buf.length then ⟨p, buf, some (clampToInt buf.length), reads⟩
      else
        let (p, taken) := p.takeBuffered (nBytes - buf.length)
        let buf := buf ++ taken
        if buf.length = nBytes then ⟨p, buf, some (clampToInt buf.length), reads⟩
        else
          match p.fillBuffer reads with
          | (p, none, rest) => ⟨p, buf, none, rest⟩
          | (p, some ret, rest) =>
              if ret < 0 then
                ⟨p, buf, some (if 0 < buf.length then clampToInt buf.length else -1), rest⟩
              else if ret = 0 then
                ⟨{ p with timedOut := true }, buf, some (clampToInt buf.length), rest⟩
              else p.readLoop buf nBytes rest := by
  conv_lhs => unfold readLoop
  -- The cases in the order of the loop: nothing left to do, enough in the buffer, or a fill.
  by_cases hfull : nBytes ≤ buf.length
  · rw [if_pos hfull, if_pos hfull]
  · rw [if_neg hfull, if_neg hfull]
    dsimp only
    by_cases hdone : (buf ++ (p.takeBuffered (nBytes - buf.length)).2).length = nBytes
    · rw [if_pos hdone, if_pos hdone]
    · rw [if_neg hdone, if_neg hdone]
      split
      · rename_i hfill
        rw [hfill]
      · rename_i hfill
        rw [hfill]

/-- One turn of the loop of `read_line`: the scan of the buffer, then a fill. -/
theorem readLineLoop_eq (p : SerialPort) (line : List UInt8) (reads : List NativeRead) :
    p.readLineLoop line reads =
      match p.scanLine line with
      | (p, line, true) => ⟨p, line, some (clampToInt line.length), reads⟩
      | (p, line, false) =>
          match p.fillBuffer reads with
          | (p, none, rest) => ⟨p, line, none, rest⟩
          | (p, some ret, rest) =>
              if ret < 0 then
                ⟨p, line, some (if line.isEmpty then -1 else clampToInt line.length), rest⟩
              else if ret = 0 then
                ⟨{ p with timedOut := true }, line, some (clampToInt line.length), rest⟩
              else p.readLineLoop line rest := by
  conv_lhs => unfold readLineLoop
  -- The line ends in the buffer, or a fill is needed.
  rcases p.scanLine line with ⟨q, line', whole⟩
  cases whole with
  | true => rfl
  | false =>
      dsimp only
      split
      · rename_i hfill
        rw [hfill]
      · rename_i hfill
        rw [hfill]

/-- The loop of `read` over the kernel is the loop over its native reads. -/
theorem readLoopOver_refines (p : SerialPort) (buf : List UInt8) (nBytes : Nat)
    (deadline : Deadline) (s : Kernel) :
    (p.readLoopOver buf nBytes deadline s).abstract = p.readLoop buf nBytes (nativeReads s) := by
  -- By induction on the turns of the loop. Over the kernel each of them has the same cases.
  fun_induction readLoopOver p buf nBytes deadline s with
  | case1 p buf s hfull => rw [readLoop_eq, if_pos hfull]; rfl
  | case2 p buf s hfull q taken htake buf' hdone =>
      rw [readLoop_eq, if_neg hfull, htake]
      exact (if_pos hdone).symm
  | case3 p buf s hfull q taken htake buf' hdone r t hfill =>
      rw [readLoop_eq, if_neg hfull, htake]
      dsimp only
      rw [if_neg hdone, fillBufferOver_refines hfill]
      rfl
  | case4 p buf s hfull q taken htake buf' hdone r ret t hfill hret =>
      rw [readLoop_eq, if_neg hfull, htake]
      dsimp only
      rw [if_neg hdone, fillBufferOver_refines hfill]
      dsimp only
      rw [if_pos hret]
      rfl
  | case5 p buf s hfull q taken htake buf' hdone r t hfill hret =>
      rw [readLoop_eq, if_neg hfull, htake]
      dsimp only
      rw [if_neg hdone, fillBufferOver_refines hfill]
      rfl
  | case6 p buf s hfull q taken htake buf' hdone r ret t hfill hret hzero ih =>
      rw [readLoop_eq, if_neg hfull, htake]
      dsimp only
      rw [if_neg hdone, fillBufferOver_refines hfill]
      dsimp only
      rw [if_neg hret, if_neg hzero]
      exact ih

/-- So is the loop of `read_line`. -/
theorem readLineLoopOver_refines (p : SerialPort) (line : List UInt8) (deadline : Deadline)
    (s : Kernel) :
    (p.readLineLoopOver line deadline s).abstract = p.readLineLoop line (nativeReads s) := by
  -- By induction on the turns of the loop, as for `read`.
  fun_induction readLineLoopOver p line deadline s with
  | case1 p line s q text hscan => rw [readLineLoop_eq, hscan]; rfl
  | case2 p line s q text hscan r t hfill =>
      rw [readLineLoop_eq, hscan]
      dsimp only
      rw [fillBufferOver_refines hfill]
      rfl
  | case3 p line s q text hscan r ret t hfill hret =>
      rw [readLineLoop_eq, hscan]
      dsimp only
      rw [fillBufferOver_refines hfill]
      dsimp only
      rw [if_pos hret]
      rfl
  | case4 p line s q text hscan r t hfill hret =>
      rw [readLineLoop_eq, hscan]
      dsimp only
      rw [fillBufferOver_refines hfill]
      rfl
  | case5 p line s q text hscan r ret t hfill hret hzero ih =>
      rw [readLineLoop_eq, hscan]
      dsimp only
      rw [fillBufferOver_refines hfill]
      dsimp only
      rw [if_neg hret, if_neg hzero]
      exact ih

/-- So is `read_some`, which fills the buffer at most once. -/
theorem readSomeOver_refines (p : SerialPort) (null : Bool) (nMax : Nat) (deadline : Deadline)
    (s : Kernel) :
    (p.readSomeOver null nMax deadline s).abstract = p.readSome null nMax (nativeReads s) := by
  unfold readSomeOver readSome
  dsimp only
  split_ifs with hopen hzero hnull hempty
  · rfl
  · rfl
  · rfl
  · rcases hfill : fillBufferOver _ deadline s with ⟨q, ret, t⟩
    rw [fillBufferOver_refines hfill]
    cases ret with
    | none => rfl
    | some ret =>
        simp only [Option.isNone_some, Bool.false_eq_true, if_false]
        split_ifs <;> rfl
  · rfl

/-- A call of a reading method over a kernel is the call over what `read_native` returns. -/
theorem operate_refines (p : SerialPort) (s : Kernel) (call : Call) (timeout start : Int) :
    (p.operate s ⟨.reading call, timeout, start⟩).abstract = p.call (nativeReads s) call := by
  cases call with
  | read null nBytes =>
      show (p.readOver null nBytes _ s).abstract = p.read null nBytes (nativeReads s)
      unfold readOver read
      dsimp only
      split_ifs
      · rfl
      · rfl
      · rfl
      · exact readLoopOver_refines _ [] nBytes _ s
  | readSome null nMax => exact readSomeOver_refines p null nMax _ s
  | readLine =>
      show (p.readLineOver _ s).abstract = p.readLine (nativeReads s)
      unfold readLineOver readLine
      dsimp only
      split_ifs
      · rfl
      · exact readLineLoopOver_refines _ [] _ s

/-- Calls of the reading methods, each with its timeout and what the clock reads. -/
def reading (cs : List (Call × Int × Int)) : List Issued :=
  cs.map fun c => ⟨.reading c.1, c.2.1, c.2.2⟩

/-- A run of calls over the kernel is the run over its native reads, turn by turn. -/
theorem operations_abstract (p : SerialPort) (s : Kernel) (cs : List (Call × Int × Int)) :
    (p.operations s (reading cs)).turns.map (fun turn => turn.2.abstract)
        = (p.calls (nativeReads s) (cs.map Prod.fst)).turns.map Prod.snd ∧
      (p.operations s (reading cs)).port
        = (p.calls (nativeReads s) (cs.map Prod.fst)).port := by
  induction cs generalizing p s with
  | nil => exact ⟨rfl, rfl⟩
  | cons c cs ih =>
      obtain ⟨call, timeout, start⟩ := c
      rw [List.map_cons, calls, ← operate_refines p s call timeout start]
      show (operations p s (⟨.reading call, timeout, start⟩ :: reading cs)).turns.map _ = _ ∧
        (operations p s (⟨.reading call, timeout, start⟩ :: reading cs)).port = _
      rw [operations]
      generalize p.operate s ⟨.reading call, timeout, start⟩ = turn
      have hret : turn.abstract.ret = turn.ret := rfl
      dsimp only
      rw [hret]
      by_cases hnone : turn.ret.isNone = true
      · rw [if_pos hnone, if_pos hnone]
        exact ⟨rfl, rfl⟩
      · -- The next call goes on with what is left.
        have hreads : turn.abstract.reads = nativeReads turn.kernel := if_neg hnone
        obtain ⟨hturns, hport⟩ := ih turn.port turn.kernel
        rw [if_neg hnone, if_neg hnone, hreads]
        exact ⟨congrArg (turn.abstract :: ·) hturns, hport⟩

/-! ### What a call reports -/

/-- The way of a port from `p` to `q`. An error of the system that `q` has is one that `p` had, or
one that `read_native` failed with on the way. -/
structure Blames (p : SerialPort) (reads : List NativeRead) (q : SerialPort)
    (rest : List NativeRead) : Prop where
  rest : rest ⊆ reads
  error : ∀ number, q.lastError = some (.system number) →
    p.lastError = some (.system number) ∨ .failed number ∈ reads

/-- Nothing was read and no error was set. -/
theorem Blames.refl (p : SerialPort) (reads : List NativeRead) : Blames p reads p reads :=
  ⟨List.Subset.refl reads, fun _ => Or.inl⟩

/-- An error after two stretches is one of the first or one of the second. -/
theorem Blames.trans {p q r : SerialPort} {reads rest rest' : List NativeRead}
    (h₁ : Blames p reads q rest) (h₂ : Blames q rest r rest') : Blames p reads r rest' where
  rest := List.Subset.trans h₂.rest h₁.rest
  error number herror := by
    rcases h₂.error number herror with hbefore | hfailed
    · exact h₁.error number hbefore
    · exact Or.inr (h₁.rest hfailed)

/-- The error stays, and nothing is read. -/
theorem Blames.same {p q : SerialPort} (reads : List NativeRead) (h : q.lastError = p.lastError) :
    Blames p reads q reads :=
  ⟨List.Subset.refl reads, fun _ herror => Or.inl (h ▸ herror)⟩

/-- An error of the port itself is none of the system. -/
theorem Blames.fail (p q : SerialPort) (code : Errc) (reads : List NativeRead) :
    Blames p reads (q.fail code) reads :=
  ⟨List.Subset.refl reads, by rintro number ⟨⟩⟩

/-- Making room sets no error. -/
theorem makeRoom_lastError (p : SerialPort) : p.makeRoom.lastError = p.lastError := by
  unfold makeRoom
  split_ifs <;> rfl

/-- Neither does taking from the buffer. -/
theorem takeBuffered_blames {p q : SerialPort} {nMax : Nat} {taken : List UInt8}
    (h : p.takeBuffered nMax = (q, taken)) (reads : List NativeRead) : Blames p reads q reads := by
  unfold takeBuffered at h
  dsimp only at h
  split at h
  · split at h <;> (cases h; exact .same reads rfl)
  · cases h
    exact .refl p reads

/-- An error of a fill is that of the read in it. -/
theorem fillBuffer_blames {p q : SerialPort} {reads rest : List NativeRead} {ret : Option Int}
    (h : p.fillBuffer reads = (q, ret, rest)) : Blames p reads q rest := by
  have hroom := Blames.same reads (makeRoom_lastError p)
  unfold fillBuffer at h
  dsimp only at h
  split at h
  · cases h
    exact .fail _ _ _ _
  · split at h
    · cases h
      exact hroom
    · cases h
      exact ⟨List.subset_cons_self _ _, fun number herror =>
        Or.inl ((makeRoom_lastError p).symm.trans herror)⟩
    · cases h
      refine ⟨List.subset_cons_self _ _, ?_⟩
      rintro number ⟨⟩
      exact Or.inr List.mem_cons_self

/-- Along the loop of `read` the error comes from one of its reads, by induction on the turns. -/
theorem readLoop_blames (p : SerialPort) (buf : List UInt8) (nBytes : Nat)
    (reads : List NativeRead) :
    Blames p reads (p.readLoop buf nBytes reads).port (p.readLoop buf nBytes reads).reads := by
  fun_induction readLoop p buf nBytes reads with
  | case1 p buf reads hfull => exact .refl p reads
  | case2 p buf reads hfull q taken htake buf' hdone => exact takeBuffered_blames htake reads
  | case3 p buf reads hfull q taken htake buf' hdone r rest hfill =>
      exact (takeBuffered_blames htake reads).trans (fillBuffer_blames hfill)
  | case4 p buf reads hfull q taken htake buf' hdone r ret rest hfill hret =>
      exact (takeBuffered_blames htake reads).trans (fillBuffer_blames hfill)
  | case5 p buf reads hfull q taken htake buf' hdone r rest hfill hret =>
      exact ((takeBuffered_blames htake reads).trans (fillBuffer_blames hfill)).trans
        (.same rest rfl)
  | case6 p buf reads hfull q taken htake buf' hdone r ret rest hfill hret hzero ih =>
      exact ((takeBuffered_blames htake reads).trans (fillBuffer_blames hfill)).trans ih

/-- A line that is too long is an error of the port. -/
theorem lineByte_blames {p q : SerialPort} {line text : List UInt8} {c : UInt8} {ended : Bool}
    (h : p.lineByte line c = (q, text, ended)) (reads : List NativeRead) :
    Blames p reads q reads := by
  unfold lineByte at h
  dsimp only at h
  split at h
  · cases h
    exact .same reads rfl
  split at h
  · cases h
    exact .same reads rfl
  split at h
  · cases h
    exact .same reads rfl
  split at h
  · cases h
    exact .fail _ _ _ reads
  · cases h
    exact .same reads rfl

/-- Scanning the buffer sets no error of the system. -/
theorem scanLine_blames {p q : SerialPort} {line text : List UInt8} {ended : Bool}
    (h : p.scanLine line = (q, text, ended)) (reads : List NativeRead) :
    Blames p reads q reads := by
  fun_induction scanLine p line with
  | case1 p line hmore hbound r text hbyte =>
      cases h
      have hadvanced : Blames p reads (p.advance hmore) reads := .same reads rfl
      exact hadvanced.trans (lineByte_blames hbyte reads)
  | case2 p line hmore hbound r text hbyte ih =>
      have hadvanced : Blames p reads (p.advance hmore) reads := .same reads rfl
      exact (hadvanced.trans (lineByte_blames hbyte reads)).trans (ih h)
  | case3 p line hmore =>
      cases h
      exact .refl _ reads

/-- Along the loop of `read_line` the error comes from one of its reads. -/
theorem readLineLoop_blames (p : SerialPort) (line : List UInt8) (reads : List NativeRead) :
    Blames p reads (p.readLineLoop line reads).port (p.readLineLoop line reads).reads := by
  fun_induction readLineLoop p line reads with
  | case1 p line reads q text hscan => exact scanLine_blames hscan reads
  | case2 p line reads q text hscan r rest hfill =>
      exact (scanLine_blames hscan reads).trans (fillBuffer_blames hfill)
  | case3 p line reads q text hscan r ret rest hfill hret =>
      exact (scanLine_blames hscan reads).trans (fillBuffer_blames hfill)
  | case4 p line reads q text hscan r rest hfill hret =>
      exact ((scanLine_blames hscan reads).trans (fillBuffer_blames hfill)).trans (.same rest rfl)
  | case5 p line reads q text hscan r ret rest hfill hret hzero ih =>
      exact ((scanLine_blames hscan reads).trans (fillBuffer_blames hfill)).trans ih

/-- So does that of `read_some`. -/
theorem readSome_blames (p : SerialPort) (null : Bool) (nMax : Nat) (reads : List NativeRead) :
    Blames p.beginOperation reads (p.readSome null nMax reads).port
      (p.readSome null nMax reads).reads := by
  have hbegun : Blames p.beginOperation reads p.begun reads := .same reads rfl
  unfold readSome
  dsimp only
  -- The guards set errors of their own, which are not those of the system.
  split
  · exact .fail _ _ _ reads
  split
  · exact hbegun
  split
  · exact .fail _ _ _ reads
  -- An empty buffer is filled once, and then handed out.
  split
  · split
    · rename_i q rest hfill
      exact hbegun.trans (fillBuffer_blames hfill)
    · rename_i q ret rest hfill
      have hfilled := hbegun.trans (fillBuffer_blames hfill)
      split
      · exact hfilled
      split
      · exact hfilled.trans (.same rest rfl)
      · exact hfilled.trans (takeBuffered_blames rfl rest)
  · exact hbegun.trans (takeBuffered_blames rfl reads)

/-- A call blames the system for what `read_native` failed with, and for nothing else. -/
theorem call_blames (p : SerialPort) (reads : List NativeRead) (c : Call) :
    Blames p.beginOperation reads (p.call reads c).port (p.call reads c).reads := by
  -- Each call begins an operation, and blames only what is read in it.
  cases c with
  | read null nBytes =>
      have hbegun : Blames p.beginOperation reads p.begun reads := .same reads rfl
      show Blames _ _ (p.read null nBytes reads).port (p.read null nBytes reads).reads
      unfold read
      dsimp only
      split
      · exact .fail _ _ _ reads
      split
      · exact hbegun
      split
      · exact .fail _ _ _ reads
      · exact hbegun.trans (readLoop_blames _ [] nBytes reads)
  | readSome null nMax => exact readSome_blames p null nMax reads
  | readLine =>
      show Blames _ _ (p.readLine reads).port (p.readLine reads).reads
      unfold readLine
      dsimp only
      split
      · exact .fail _ _ _ reads
      · exact readLineLoop_blames _ [] reads

/-- So do calls in a row. -/
theorem calls_blame (p : SerialPort) (reads : List NativeRead) (cs : List Call) :
    ∀ turn ∈ (p.calls reads cs).turns, ∀ number,
      turn.2.port.lastError = some (.system number) → .failed number ∈ reads := by
  induction cs generalizing p reads with
  | nil =>
      intro turn hturn
      cases hturn
  | cons c cs ih =>
      have hcall := call_blames p reads c
      -- A call begins without an error.
      have hfirst : ∀ number, (p.call reads c).port.lastError = some (.system number) →
          .failed number ∈ reads := fun number herror =>
        (hcall.error number herror).resolve_left (by rintro ⟨⟩)
      intro turn hturn
      rw [calls] at hturn
      dsimp only at hturn
      split at hturn
      · obtain rfl := List.mem_singleton.mp hturn
        exact hfirst
      · rcases List.mem_cons.mp hturn with rfl | hlater
        · exact hfirst
        · exact fun number herror => hcall.rest (ih _ _ turn hlater number herror)

/-- Reading over a kernel refines reading. Whatever the kernel answers and however often it
interrupts, calls in a row do the same as the calls over what `read_native` returns. No interrupt
shows there or in an error that a call reports, and it moves what `read` has moved, in order. -/
theorem operations_refine (p : SerialPort) (s : Kernel) (cs : List (Call × Int × Int)) :
    (p.operations s (reading cs)).turns.map (fun turn => turn.2.abstract)
        = (p.calls (nativeReads s) (cs.map Prod.fst)).turns.map Prod.snd ∧
      (p.operations s (reading cs)).port = (p.calls (nativeReads s) (cs.map Prod.fst)).port ∧
      (∀ number, .failed number ∈ nativeReads s → number ≠ Errno.eintr) ∧
      (∀ turn ∈ (p.operations s (reading cs)).turns,
        turn.2.port.lastError ≠ some (.system Errno.eintr)) ∧
      ((∀ bytes, .moved bytes ∈ s.reads → bytes.length ≤ maxInt) →
        received (nativeReads s) <+: moved s.reads) := by
  obtain ⟨hturns, hport⟩ := operations_abstract p s cs
  obtain ⟨hpasses, hreceived⟩ := nativeReads_passes s
  refine ⟨hturns, hport, hpasses, fun turn hturn herror => ?_, hreceived⟩
  -- The call of that turn, over what `read_native` returns.
  have hmem : turn.2.abstract
      ∈ (p.calls (nativeReads s) (cs.map Prod.fst)).turns.map Prod.snd := by
    rw [← hturns]
    exact List.mem_map_of_mem hturn
  obtain ⟨called, hcalled, hsame⟩ := List.mem_map.mp hmem
  have hblamed : called.2.port.lastError = some (.system Errno.eintr) := by
    rw [hsame]
    exact herror
  exact hpasses _ (calls_blame p _ _ called hcalled _ hblamed) rfl

end SerialPort

end SerialRpc
