import SerialRpc.Proofs.Host.Posix
import SerialRpc.Proofs.Host.ReadLine

/-!
# `SerialRpc.Proofs.Host.Writing`: what `write` gets through

* `operations_taken`: over any run of operations the kernel has taken, for each call of `write`,
  a prefix of its data, in order and without gaps. What `write` returns is the length of that
  prefix, and a call that stops short shows it.
-/

set_option autoImplicit false

namespace SerialRpc

/-- `write` moves no more at a time than the result of a call can hold. -/
def Kernel.Fits (s : Kernel) : Prop := ∀ count, .moved count ∈ s.writes → count ≤ maxInt

/-- From one kernel state to a later one: `bytes` have been taken. -/
structure Absorbs (bytes : List UInt8) (s t : Kernel) : Prop where
  taken : t.taken = s.taken ++ bytes
  writes : ∃ used, s.writes = used ++ t.writes

/-- Nothing was written. -/
theorem Absorbs.refl (s : Kernel) : Absorbs [] s s where
  taken := (List.append_nil _).symm
  writes := ⟨[], rfl⟩

/-- What the kernel takes in two stretches. -/
theorem Absorbs.trans {bytes bytes' : List UInt8} {s t u : Kernel} (h : Absorbs bytes s t)
    (h' : Absorbs bytes' t u) : Absorbs (bytes ++ bytes') s u where
  taken := by rw [h'.taken, h.taken, List.append_assoc]
  writes := by
    obtain ⟨used, hused⟩ := h.writes
    obtain ⟨used', hused'⟩ := h'.writes
    exact ⟨used ++ used', by rw [hused, hused', List.append_assoc]⟩

/-- The answers that are left still fit. -/
theorem Absorbs.fits {bytes : List UInt8} {s t : Kernel} (h : Absorbs bytes s t) (hfits : s.Fits) :
    t.Fits := by
  obtain ⟨used, hused⟩ := h.writes
  intro count hcount
  refine hfits count ?_
  rw [hused]
  exact List.mem_append_right used hcount

/-- Polling writes nothing. -/
theorem Polls.takes {deadline : Deadline} {s t : Kernel} {returned expired : Prop}
    (h : Polls deadline s t returned expired) : Absorbs [] s t where
  taken := by rw [h.taken, List.append_nil]
  writes := ⟨[], h.writes.symm⟩

/-- How many bytes of the buffer a call of `write_native` has got through. -/
def NativeWrite.count : Option NativeWrite → Nat
  | some (.moved count) => count
  | _ => 0

/-- How many bytes a call of `write` has taken. -/
def AfterWrite.count : AfterWrite → Nat
  | .return outcome => NativeWrite.count (some outcome)
  | _ => 0

/-- A call of `write` takes the bytes that `write_native` counts then. -/
theorem Kernel.write_takes {s t : Kernel} (hfits : s.Fits) {buf : List UInt8} {answer : SysWrite}
    (h : s.write buf = (t, some answer)) :
    (afterWrite answer).count ≤ buf.length ∧ Absorbs (buf.take (afterWrite answer).count) s t := by
  obtain ⟨w, rest, hwrites, ⟨count, rfl, rfl, rfl⟩ | ⟨number, rfl, rfl, rfl⟩⟩ :=
    Kernel.write_some h
  · have hcount := hfits count (by rw [hwrites]; exact List.mem_cons_self)
    have hmoved : (afterWrite (.moved (min count buf.length))).count = min count buf.length := by
      cases hmin : min count buf.length with
      | zero => rfl
      | succ n =>
          have hmax : n + 1 ≤ maxInt := by omega
          exact Nat.min_eq_left hmax
    rw [hmoved]
    refine ⟨Nat.min_le_right _ _, ?_, [.moved count], hwrites⟩
    rw [← List.take_eq_take_min]
    rfl
  · have hfailed : (afterWrite (.failed number)).count = 0 := by
      simp only [afterWrite]
      split_ifs <;> rfl
    rw [hfailed]
    exact ⟨Nat.zero_le _, rfl, [.failed number], hwrites⟩

/-- A call of `write` that ends in a wait takes nothing, and neither does the wait. -/
theorem Kernel.write_waited {s t u : Kernel} (hfits : s.Fits) {buf : List UInt8}
    {answer : SysWrite} (hwrite : s.write buf = (t, some answer))
    (hafter : afterWrite answer = .wait) {deadline : Deadline} {outcome : Option Ready}
    (hwait : waitReady true deadline t = (u, outcome)) : Absorbs [] s u := by
  obtain ⟨-, htakes⟩ := Kernel.write_takes hfits hwrite
  rw [hafter] at htakes
  exact htakes.trans (waitReady_polls hwait).2.takes

/-- `write_native` takes what it counts. -/
theorem writeNative_takes {buf : List UInt8} {deadline : Deadline} {s t : Kernel}
    (hfits : s.Fits) {outcome : Option NativeWrite}
    (h : writeNative buf deadline s = (t, outcome)) :
    NativeWrite.count outcome ≤ buf.length ∧
      Absorbs (buf.take (NativeWrite.count outcome)) s t := by
  -- By induction on the turns of the loop, each of which writes once and may then wait.
  fun_induction writeNative buf deadline s with
  | case1 s u hwrite =>
      have hsame : u = s := by
        unfold Kernel.write at hwrite
        split at hwrite <;> cases hwrite
        rfl
      cases h
      rw [hsame]
      exact ⟨Nat.zero_le _, .refl s⟩
  | case2 s u answer hwrite result hafter =>
      cases h
      have htakes := Kernel.write_takes hfits hwrite
      rw [hafter] at htakes
      exact htakes
  | case3 s u answer hwrite hafter ih =>
      obtain ⟨-, htakes⟩ := Kernel.write_takes hfits hwrite
      rw [hafter] at htakes
      obtain ⟨hcount, hrest⟩ := ih (htakes.fits hfits) h
      exact ⟨hcount, htakes.trans hrest⟩
  -- A wait takes nothing, whether it fails, expires or leads to another write.
  | case4 s u answer hwrite hafter v hwait =>
      cases h
      exact ⟨Nat.zero_le _, Kernel.write_waited hfits hwrite hafter hwait⟩
  | case5 s u answer hwrite hafter v number hwait =>
      cases h
      exact ⟨Nat.zero_le _, Kernel.write_waited hfits hwrite hafter hwait⟩
  | case6 s u answer hwrite hafter v hwait =>
      cases h
      exact ⟨Nat.zero_le _, Kernel.write_waited hfits hwrite hafter hwait⟩
  | case7 s u answer hwrite hafter v hwait ih =>
      have hwaited := Kernel.write_waited hfits hwrite hafter hwait
      obtain ⟨hcount, hrest⟩ := ih (hwaited.fits hfits) h
      exact ⟨hcount, hwaited.trans hrest⟩

namespace SerialPort

/-- What a call of `write` says about its data, of which the kernel has taken `count` bytes. It
says so, as far as an `int` can, and where that is not all, there is a timeout or an error. -/
structure Says (data : List UInt8) (count : Nat) (turn : KernelTurn) : Prop where
  count_le : count ≤ data.length
  ret : ∀ ret ∈ turn.ret, ret = clampToInt count ∨ ret = -1 ∧ count = 0
  short : turn.ret.isSome → count < data.length →
    turn.port.timedOut = true ∨ turn.port.lastError.isSome
  failed : turn.ret = some (-1) → turn.port.lastError.isSome

/-- The loop of `write` writes a stretch of its data and says so, by induction on its turns. -/
theorem writeLoop_takes (p : SerialPort) {data : List UInt8} {written : Nat} (deadline : Deadline)
    {s : Kernel} (hfits : s.Fits) (hwritten : written ≤ data.length) :
    ∃ count,
      Absorbs ((data.drop written).take count) s (p.writeLoop data written deadline s).kernel ∧
      Says data (written + count) (p.writeLoop data written deadline s) := by
  fun_induction writeLoop p data written deadline s with
  | case1 written s hall =>
      refine ⟨0, .refl s, ⟨hwritten, ?_, fun _ hshort => by omega, fun hret => ?_⟩⟩
      · rintro ret ⟨⟩
        exact .inl rfl
      · have hnegative := Option.some.inj hret
        exact absurd (by omega : clampToInt written < 0) (clampToInt_nonneg written)
  | case2 written s hall t hwrite =>
      obtain ⟨-, htakes⟩ := writeNative_takes hfits hwrite
      exact ⟨0, htakes, ⟨hwritten, by rintro ret ⟨⟩, by rintro ⟨⟩, by rintro ⟨⟩⟩⟩
  | case3 written s hall t number hwrite =>
      -- An error: the count so far, or -1 if there is none.
      obtain ⟨-, htakes⟩ := writeNative_takes hfits hwrite
      refine ⟨0, htakes, ⟨hwritten, ?_, fun _ _ => .inr rfl, fun _ => rfl⟩⟩
      rintro ret ⟨⟩
      split_ifs with hsome
      · exact .inl rfl
      · exact .inr ⟨rfl, by omega⟩
  | case4 written s hall t hwrite =>
      obtain ⟨-, htakes⟩ := writeNative_takes hfits hwrite
      refine ⟨0, htakes, ⟨hwritten, ?_, fun _ _ => .inl rfl, fun hret => ?_⟩⟩
      · rintro ret ⟨⟩
        exact .inl rfl
      · have hnegative := Option.some.inj hret
        exact absurd (by omega : clampToInt written < 0) (clampToInt_nonneg written)
  -- The loop goes on behind what was taken.
  | case5 written s hall t count hwrite hcount ih =>
      obtain ⟨hlength, htakes⟩ := writeNative_takes hfits hwrite
      have hlength : count ≤ (data.drop written).length := hlength
      rw [List.length_drop] at hlength
      obtain ⟨more, hrest, hreturned⟩ := ih (htakes.fits hfits) (by omega)
      refine ⟨count + more, ?_, ?_⟩
      · -- The two prefixes are one.
        rw [List.take_add, List.drop_drop]
        exact htakes.trans hrest
      · rw [← Nat.add_assoc]
        exact hreturned

/-- `write` takes a prefix of its data. -/
theorem write_takes (p : SerialPort) {s : Kernel} (hfits : s.Fits) (null : Bool)
    (data : List UInt8) (deadline : Deadline) :
    ∃ count, Absorbs (data.take count) s (p.write null data deadline s).kernel ∧
      Says data count (p.write null data deadline s) := by
  unfold write
  dsimp only
  split_ifs with hopen hempty hnull
  · refine ⟨0, .refl s, ⟨Nat.zero_le _, ?_, fun _ _ => .inr rfl, fun _ => rfl⟩⟩
    rintro ret ⟨⟩
    exact .inr ⟨rfl, rfl⟩
  · refine ⟨0, .refl s, ⟨Nat.zero_le _, ?_, fun _ hshort => by omega, by rintro ⟨⟩⟩⟩
    rintro ret ⟨⟩
    exact .inl rfl
  · refine ⟨0, .refl s, ⟨Nat.zero_le _, ?_, fun _ _ => .inr rfl, fun _ => rfl⟩⟩
    rintro ret ⟨⟩
    exact .inr ⟨rfl, rfl⟩
  · obtain ⟨count, htakes, hreturned⟩ :=
      writeLoop_takes p.beginOperation deadline hfits (Nat.zero_le data.length)
    rw [Nat.zero_add] at hreturned
    exact ⟨count, htakes, hreturned⟩

/-! ### Reading leaves it alone -/

/-- The loop of `read` writes nothing. -/
theorem readLoopOver_takes (p : SerialPort) (buf : List UInt8) (nBytes : Nat)
    (deadline : Deadline) (s : Kernel) :
    Absorbs [] s (p.readLoopOver buf nBytes deadline s).kernel := by
  fun_induction readLoopOver p buf nBytes deadline s with
  | case1 p buf s hfull => exact .refl s
  | case2 p buf s hfull q taken htake buf' hdone => exact .refl s
  | case3 p buf s hfull q taken htake buf' hdone r t hfill =>
      exact (fillBufferOver_polls hfill).takes
  | case4 p buf s hfull q taken htake buf' hdone r ret t hfill hret =>
      exact (fillBufferOver_polls hfill).takes
  | case5 p buf s hfull q taken htake buf' hdone r t hfill hret =>
      exact (fillBufferOver_polls hfill).takes
  | case6 p buf s hfull q taken htake buf' hdone r ret t hfill hret hzero ih =>
      exact (fillBufferOver_polls hfill).takes.trans ih

/-- Neither does the loop of `read_line`. -/
theorem readLineLoopOver_takes (p : SerialPort) (line : List UInt8) (deadline : Deadline)
    (s : Kernel) : Absorbs [] s (p.readLineLoopOver line deadline s).kernel := by
  fun_induction readLineLoopOver p line deadline s with
  | case1 p line s q text hscan => exact .refl s
  | case2 p line s q text hscan r t hfill => exact (fillBufferOver_polls hfill).takes
  | case3 p line s q text hscan r ret t hfill hret => exact (fillBufferOver_polls hfill).takes
  | case4 p line s q text hscan r t hfill hret => exact (fillBufferOver_polls hfill).takes
  | case5 p line s q text hscan r ret t hfill hret hzero ih =>
      exact (fillBufferOver_polls hfill).takes.trans ih

/-- No call that reads writes anything. -/
theorem operate_reading_takes (p : SerialPort) (s : Kernel) (call : Call) (timeout start : Int) :
    Absorbs [] s (p.operate s ⟨.reading call, timeout, start⟩).kernel := by
  -- A call that reads has guards, and behind them it only fills.
  cases call with
  | read null nBytes =>
      show Absorbs [] s (p.readOver null nBytes _ s).kernel
      unfold readOver
      dsimp only
      split_ifs
      · exact .refl s
      · exact .refl s
      · exact .refl s
      · exact readLoopOver_takes _ [] nBytes _ s
  | readSome null nMax =>
      show Absorbs [] s (p.readSomeOver null nMax _ s).kernel
      unfold readSomeOver
      dsimp only
      split_ifs
      · exact .refl s
      · exact .refl s
      · exact .refl s
      · split
        · rename_i hfill
          exact (fillBufferOver_polls hfill).takes
        · rename_i hfill
          split_ifs <;> exact (fillBufferOver_polls hfill).takes
      · exact .refl s
  | readLine =>
      show Absorbs [] s (p.readLineOver _ s).kernel
      unfold readLineOver
      dsimp only
      split_ifs
      · exact .refl s
      · exact readLineLoopOver_takes _ [] _ s

/-! ### Operations in a row -/

/-- What an operation got through: a prefix of the data of a `write`, and nothing of what reads. -/
def Wrote (turn : Issued × KernelTurn) (bytes : List UInt8) : Prop :=
  match turn.1.operation with
  | .reading _ => bytes = []
  | .writing _ data => ∃ count, bytes = data.take count ∧ Says data count turn.2

/-- A call has written the bytes it accounts for. -/
theorem operate_wrote (p : SerialPort) {s : Kernel} (hfits : s.Fits) (issued : Issued) :
    ∃ bytes, Wrote (issued, p.operate s issued) bytes ∧
      Absorbs bytes s (p.operate s issued).kernel := by
  obtain ⟨operation, timeout, start⟩ := issued
  cases operation with
  | reading call => exact ⟨[], rfl, operate_reading_takes p s call timeout start⟩
  | writing null data =>
      obtain ⟨count, htakes, hreturned⟩ :=
        write_takes p hfits null data (makeDeadline timeout start)
      exact ⟨data.take count, ⟨count, rfl, hreturned⟩, htakes⟩

/-- A run of calls has written their pieces, in order, by induction on the calls. -/
theorem operations_pieces (p : SerialPort) {s : Kernel} (hfits : s.Fits) (issued : List Issued) :
    ∃ pieces, List.Forall₂ Wrote (p.operations s issued).turns pieces ∧
      (p.operations s issued).kernel.taken = s.taken ++ pieces.flatten := by
  induction issued generalizing p s with
  | nil => exact ⟨[], .nil, (List.append_nil _).symm⟩
  | cons i rest ih =>
      obtain ⟨bytes, hwrote, htakes⟩ := operate_wrote p hfits i
      rw [operations]
      dsimp only
      split_ifs with hnone
      · refine ⟨[bytes], .cons hwrote .nil, ?_⟩
        rw [List.flatten_cons, List.flatten_nil, List.append_nil]
        exact htakes.taken
      · obtain ⟨pieces, hpieces, hflatten⟩ := ih (p.operate s i).port (htakes.fits hfits)
        refine ⟨bytes :: pieces, .cons hwrote hpieces, ?_⟩
        rw [List.flatten_cons, ← List.append_assoc, ← htakes.taken]
        exact hflatten

/-- What an operation has to get through. -/
def Operation.data : Operation → List UInt8
  | .reading _ => []
  | .writing _ data => data

/-- An operation that reads, or a `write` that returns the length of its data. -/
def Complete (turn : Issued × KernelTurn) : Prop :=
  match turn.1.operation with
  | .reading _ => True
  | .writing _ data => turn.2.ret = some (data.length : Int)

/-- A write that returns the length of its data has written all of it. -/
theorem Says.complete {data : List UInt8} {count : Nat} {turn : KernelTurn}
    (h : Says data count turn) (hret : turn.ret = some (data.length : Int)) :
    count = data.length := by
  have hcount := h.count_le
  rcases h.ret _ hret with hclamp | ⟨hnegative, -⟩
  · unfold clampToInt at hclamp
    omega
  · omega

/-- A complete operation gets all of its data through. -/
theorem Wrote.complete {turn : Issued × KernelTurn} {bytes : List UInt8} (h : Wrote turn bytes)
    (hcomplete : Complete turn) : bytes = turn.1.operation.data := by
  obtain ⟨⟨operation, timeout, start⟩, result⟩ := turn
  cases operation with
  | reading call => exact h
  | writing null data =>
      obtain ⟨count, rfl, hreturned⟩ := h
      rw [hreturned.complete hcomplete]
      exact List.take_length

/-- Over any run of operations, with whatever the kernel answers to them, the kernel has taken a
prefix of the data of each `write`, one behind the other. What `write` returns is the length of its
prefix, and where it is not all of its data, there was a timeout or an error. So the data is all
there when all calls have returned its length. -/
theorem operations_taken (p : SerialPort) {s : Kernel} (hfits : s.Fits) (issued : List Issued) :
    (∃ pieces, List.Forall₂ Wrote (p.operations s issued).turns pieces ∧
      (p.operations s issued).kernel.taken = s.taken ++ pieces.flatten) ∧
    ((∀ turn ∈ (p.operations s issued).turns, Complete turn) →
      (p.operations s issued).kernel.taken
        = s.taken ++ (p.operations s issued).turns.flatMap fun turn => turn.1.operation.data) := by
  obtain ⟨pieces, hpieces, htaken⟩ := operations_pieces p hfits issued
  refine ⟨⟨pieces, hpieces, htaken⟩, fun hcomplete => ?_⟩
  rw [htaken, List.flatMap_def]
  congr 2
  clear htaken
  generalize (p.operations s issued).turns = turns at hpieces hcomplete ⊢
  induction hpieces with
  | nil => rfl
  | cons hwrote _ ih =>
      rw [List.map_cons, hwrote.complete (hcomplete _ List.mem_cons_self),
        ih fun turn hturn => hcomplete turn (List.mem_cons_of_mem _ hturn)]

/-- A write that the queue cuts in two, and one that finds the device gone. -/
theorem operations_taken_gone :
    ∃ pieces, List.Forall₂ Wrote ((opened 64 100).operations
      ⟨[⟨0, 10, .events pollOut⟩, ⟨20, 30, .events 0x10⟩], [],
        [.moved 1, .failed Errno.eagain, .moved 5, .failed Errno.eagain], [], []⟩
      [⟨.writing false [0x41, 0x42], 100, 0⟩, ⟨.writing false [0x43], 100, 15⟩]).turns pieces ∧
      ((opened 64 100).operations
        ⟨[⟨0, 10, .events pollOut⟩, ⟨20, 30, .events 0x10⟩], [],
          [.moved 1, .failed Errno.eagain, .moved 5, .failed Errno.eagain], [], []⟩
        [⟨.writing false [0x41, 0x42], 100, 0⟩, ⟨.writing false [0x43], 100, 15⟩]).kernel.taken
        = [] ++ pieces.flatten :=
  (operations_taken (opened 64 100) (by simp [Kernel.Fits, maxInt]) _).1

end SerialPort

end SerialRpc
