import SerialRpc.Host.Posix
import SerialRpc.Proofs.Host.SerialPort
import SerialRpc.Lib.Waiting

/-!
# `SerialRpc.Proofs.Host.Posix`: the port over system calls

* `operate_in_time`: an operation waits no longer than its timeout, however often it is woken up,
  and it times out no more than a millisecond early.
-/

set_option autoImplicit false

namespace SerialRpc

/-! ### Waiting up to the deadline -/

/-- From one kernel state to a later one, with all waits up to the same deadline. If a call has
timed out in between, then in the last wait. -/
def HasWaited (deadline : Deadline) (s t : Kernel) (expired : Prop) : Prop :=
  ∃ used, Waits deadline used s t ∧ (expired → Expired used)

/-- The polls of one call wait up to its deadline. -/
theorem Polls.hasWaited {deadline : Deadline} {s t : Kernel} {returned expired expired' : Prop}
    (h : Polls deadline s t returned expired) (hexpired : expired' → expired) :
    HasWaited deadline s t expired' := by
  obtain ⟨used, hwaits, -, hlast⟩ := h.polled
  exact ⟨used, hwaits, fun hexp => hlast (hexpired hexp)⟩

/-- No wait at all, if nothing has timed out. -/
theorem HasWaited.refl (deadline : Deadline) (s : Kernel) {expired : Prop} (h : ¬ expired) :
    HasWaited deadline s s expired :=
  ⟨[], .refl deadline s, fun hexp => absurd hexp h⟩

/-- A weaker sign of a timeout will do. -/
theorem HasWaited.mono {deadline : Deadline} {s t : Kernel} {expired expired' : Prop}
    (h : HasWaited deadline s t expired) (hexpired : expired' → expired) :
    HasWaited deadline s t expired' := by
  obtain ⟨used, hwaits, hlast⟩ := h
  exact ⟨used, hwaits, fun hexp => hlast (hexpired hexp)⟩

/-- Two waits with the same deadline: a timeout is one in the second. -/
theorem HasWaited.trans {deadline : Deadline} {s t u : Kernel} {expired expired' : Prop}
    (h : HasWaited deadline s t expired) (h' : HasWaited deadline t u expired') :
    HasWaited deadline s u expired' := by
  obtain ⟨used, hwaits, -⟩ := h
  obtain ⟨used', hwaits', hlast'⟩ := h'
  exact ⟨used ++ used', hwaits.trans hwaits', fun hexp => (hlast' hexp).append used⟩

/-- A `write` itself does not wait. -/
theorem Kernel.write_hasWaited {s t : Kernel} {buf : List UInt8} {answer : Option SysWrite}
    (h : s.write buf = (t, answer)) (deadline : Deadline) : HasWaited deadline s t False := by
  have hsame : t.polls = s.polls ∧ t.waits = s.waits := by
    unfold Kernel.write at h
    split at h <;> cases h <;> exact ⟨rfl, rfl⟩
  exact ⟨[], ⟨hsame.1.symm, by rw [hsame.2, List.map_nil, List.append_nil]⟩, False.elim⟩

/-- What `write_native` returns without a wait is no timeout. -/
theorem afterWrite_ne_zero (answer : SysWrite) : afterWrite answer ≠ .return (.moved 0) := by
  cases answer with
  | moved count =>
      cases count with
      | zero => simp [afterWrite]
      | succ n => simp [afterWrite, maxInt]
  | failed number =>
      simp only [afterWrite]
      split_ifs <;> simp

/-- `write_native` times out in the wait it makes. -/
theorem writeNative_hasWaited {buf : List UInt8} {deadline : Deadline} {s t : Kernel}
    {outcome : Option NativeWrite} (h : writeNative buf deadline s = (t, outcome)) :
    HasWaited deadline s t (outcome = some (.moved 0)) := by
  fun_induction writeNative buf deadline s with
  | case1 s u hwrite =>
      cases h
      exact (Kernel.write_hasWaited hwrite deadline).mono (by rintro ⟨⟩)
  | case2 s u answer hwrite result hafter =>
      cases h
      refine (Kernel.write_hasWaited hwrite deadline).mono fun hzero => ?_
      -- It returns at once with some bytes or an error.
      obtain rfl : result = .moved 0 := Option.some.inj hzero
      exact afterWrite_ne_zero answer hafter
  | case3 s u answer hwrite hafter ih =>
      exact (Kernel.write_hasWaited hwrite deadline).trans (ih h)
  | case4 s u answer hwrite hafter v hwait =>
      cases h
      exact (Kernel.write_hasWaited hwrite deadline).trans
        ((waitReady_polls hwait).2.hasWaited (by rintro ⟨⟩))
  | case5 s u answer hwrite hafter v number hwait =>
      cases h
      exact (Kernel.write_hasWaited hwrite deadline).trans
        ((waitReady_polls hwait).2.hasWaited (by rintro ⟨⟩))
  | case6 s u answer hwrite hafter v hwait =>
      cases h
      exact (Kernel.write_hasWaited hwrite deadline).trans
        ((waitReady_polls hwait).2.hasWaited fun _ => rfl)
  | case7 s u answer hwrite hafter v hwait ih =>
      have hpolls : HasWaited deadline u v False :=
        (waitReady_polls hwait).2.hasWaited False.elim
      exact (Kernel.write_hasWaited hwrite deadline).trans (hpolls.trans (ih h))

namespace SerialPort

/-- A fill alone sets no timeout. -/
theorem fillBufferOver_timedOut {p q : SerialPort} {deadline : Deadline} {s t : Kernel}
    {ret : Option Int} (h : p.fillBufferOver deadline s = (q, ret, t)) :
    q.timedOut = p.timedOut := by
  have hroom : p.makeRoom.timedOut = p.timedOut := by
    unfold makeRoom
    split_ifs <;> rfl
  unfold fillBufferOver at h
  dsimp only at h
  split at h
  · cases h
    exact hroom
  · split at h <;> cases h <;> exact hroom

/-- Neither does taking from the buffer. -/
theorem takeBuffered_timedOut (p : SerialPort) (nMax : Nat) :
    (p.takeBuffered nMax).1.timedOut = p.timedOut := by
  unfold takeBuffered
  dsimp only
  split_ifs <;> rfl

/-- Neither does a byte of a line. -/
theorem lineByte_timedOut (p : SerialPort) (line : List UInt8) (c : UInt8) :
    (p.lineByte line c).1.timedOut = p.timedOut := by
  unfold lineByte
  dsimp only
  split_ifs <;> rfl

/-- Neither does scanning the buffer. -/
theorem scanLine_timedOut (p : SerialPort) (line : List UInt8) :
    (p.scanLine line).1.timedOut = p.timedOut := by
  fun_induction scanLine p line with
  | case1 p line h hbound q text hbyte =>
      have hstep := lineByte_timedOut (p.advance h) line p.rxBuf[p.rxHead]
      rw [hbyte] at hstep
      exact hstep
  | case2 p line h hbound q text hbyte ih =>
      have hstep := lineByte_timedOut (p.advance h) line p.rxBuf[p.rxHead]
      rw [hbyte] at hstep
      exact ih.trans hstep
  | case3 p line h => rfl

/-- From a port without a timeout: where there is one in the end, the last wait has expired. -/
def Timely (p : SerialPort) (deadline : Deadline) (s : Kernel) (turn : KernelTurn) : Prop :=
  p.timedOut = false → HasWaited deadline s turn.kernel (turn.port.timedOut = true)

/-- A call that does not wait. -/
theorem Timely.refl {p q : SerialPort} (deadline : Deadline) (s : Kernel) (out : List UInt8)
    (ret : Option Int) (h : q.timedOut = p.timedOut) : p.Timely deadline s ⟨q, out, ret, s⟩ := by
  intro htimed
  refine .refl deadline s ?_
  rw [h, htimed]
  exact Bool.false_ne_true

/-- A call that ends behind `fill_buffer`. -/
theorem Timely.filled {p q r : SerialPort} {deadline : Deadline} {s t : Kernel} {ret : Option Int}
    (h : p.fillBufferOver deadline s = (q, ret, t)) (htimed : p.timedOut = r.timedOut)
    (out : List UInt8) (result : Option Int) : r.Timely deadline s ⟨q, out, result, t⟩ := by
  intro hfalse
  refine (fillBufferOver_polls h).hasWaited fun hexpired => ?_
  have hq : q.timedOut = false := by rw [fillBufferOver_timedOut h, htimed, hfalse]
  have htrue : q.timedOut = true := hexpired
  rw [hq] at htrue
  cases htrue

/-- A call that `fill_buffer` makes time out. -/
theorem Timely.expired {p q r : SerialPort} {deadline : Deadline} {s t : Kernel}
    (h : p.fillBufferOver deadline s = (q, some 0, t)) (out : List UInt8) (result : Option Int) :
    r.Timely deadline s ⟨{ q with timedOut := true }, out, result, t⟩ :=
  fun _ => (fillBufferOver_polls h).hasWaited fun _ => rfl

/-- A call that goes on behind `fill_buffer`. -/
theorem Timely.after {p q r : SerialPort} {deadline : Deadline} {s t : Kernel} {ret : Option Int}
    {turn : KernelTurn} (h : p.fillBufferOver deadline s = (q, ret, t))
    (htimed : p.timedOut = r.timedOut) (hturn : q.Timely deadline t turn) :
    r.Timely deadline s turn := by
  intro hfalse
  have hpolls : HasWaited deadline s t False := (fillBufferOver_polls h).hasWaited False.elim
  exact hpolls.trans (hturn (by rw [fillBufferOver_timedOut h, htimed, hfalse]))

/-- The loop of `read` times out in its last wait, by induction on the turns. -/
theorem readLoopOver_timely (p : SerialPort) (buf : List UInt8) (nBytes : Nat)
    (deadline : Deadline) (s : Kernel) :
    p.Timely deadline s (p.readLoopOver buf nBytes deadline s) := by
  -- By induction on the turns of the loop. Only a fill waits, and only the last one can expire.
  fun_induction readLoopOver p buf nBytes deadline s with
  | case1 p buf s hfull => exact .refl deadline s _ _ rfl
  | case2 p buf s hfull q taken htake buf' hdone =>
      have htaken := takeBuffered_timedOut p (nBytes - buf.length)
      rw [htake] at htaken
      exact .refl deadline s _ _ htaken
  | case3 p buf s hfull q taken htake buf' hdone r t hfill =>
      have htaken := takeBuffered_timedOut p (nBytes - buf.length)
      rw [htake] at htaken
      exact .filled hfill htaken _ _
  | case4 p buf s hfull q taken htake buf' hdone r ret t hfill hret =>
      have htaken := takeBuffered_timedOut p (nBytes - buf.length)
      rw [htake] at htaken
      exact .filled hfill htaken _ _
  | case5 p buf s hfull q taken htake buf' hdone r t hfill hret => exact .expired hfill _ _
  | case6 p buf s hfull q taken htake buf' hdone r ret t hfill hret hzero ih =>
      have htaken := takeBuffered_timedOut p (nBytes - buf.length)
      rw [htake] at htaken
      exact .after hfill htaken ih

/-- So does the loop of `read_line`. -/
theorem readLineLoopOver_timely (p : SerialPort) (line : List UInt8) (deadline : Deadline)
    (s : Kernel) : p.Timely deadline s (p.readLineLoopOver line deadline s) := by
  fun_induction readLineLoopOver p line deadline s with
  | case1 p line s q text hscan =>
      have hscanned := scanLine_timedOut p line
      rw [hscan] at hscanned
      exact .refl deadline s _ _ hscanned
  | case2 p line s q text hscan r t hfill =>
      have hscanned := scanLine_timedOut p line
      rw [hscan] at hscanned
      exact .filled hfill hscanned _ _
  | case3 p line s q text hscan r ret t hfill hret =>
      have hscanned := scanLine_timedOut p line
      rw [hscan] at hscanned
      exact .filled hfill hscanned _ _
  | case4 p line s q text hscan r t hfill hret => exact .expired hfill _ _
  | case5 p line s q text hscan r ret t hfill hret hzero ih =>
      have hscanned := scanLine_timedOut p line
      rw [hscan] at hscanned
      exact .after hfill hscanned ih

/-- So does the loop of `write`. -/
theorem writeLoop_timely (p : SerialPort) (data : List UInt8) (written : Nat)
    (deadline : Deadline) (s : Kernel) :
    p.Timely deadline s (p.writeLoop data written deadline s) := by
  fun_induction writeLoop p data written deadline s with
  | case1 written s hall => exact .refl deadline s _ _ rfl
  | case2 written s hall t hwrite =>
      intro htimed
      refine (writeNative_hasWaited hwrite).mono fun hexpired => ?_
      rw [htimed] at hexpired
      cases hexpired
  | case3 written s hall t number hwrite =>
      intro htimed
      refine (writeNative_hasWaited hwrite).mono fun hexpired => ?_
      rw [htimed] at hexpired
      cases hexpired
  | case4 written s hall t hwrite =>
      intro _
      exact (writeNative_hasWaited hwrite).mono fun _ => rfl
  | case5 written s hall t count hwrite hcount ih =>
      intro htimed
      exact (writeNative_hasWaited hwrite).trans (ih htimed)

/-- So does `read`, a call without a buffer included. -/
theorem readOver_timely (p : SerialPort) (null : Bool) (nBytes : Nat) (deadline : Deadline)
    (s : Kernel) : p.begun.Timely deadline s (p.readOver null nBytes deadline s) := by
  unfold readOver
  dsimp only
  split_ifs
  · exact .refl deadline s _ _ rfl
  · exact .refl deadline s _ _ rfl
  · exact .refl deadline s _ _ rfl
  · exact readLoopOver_timely p.begun [] nBytes deadline s

/-- So does `read_some`. -/
theorem readSomeOver_timely (p : SerialPort) (null : Bool) (nMax : Nat) (deadline : Deadline)
    (s : Kernel) : p.begun.Timely deadline s (p.readSomeOver null nMax deadline s) := by
  unfold readSomeOver
  dsimp only
  split_ifs with hopen hzero hnull hempty
  · exact .refl deadline s _ _ rfl
  · exact .refl deadline s _ _ rfl
  · exact .refl deadline s _ _ rfl
  · split
    · rename_i q t hfill
      exact .filled hfill rfl _ _
    · rename_i q ret t hfill
      split_ifs with hret hzero'
      · exact .filled hfill rfl _ _
      · subst hzero'
        exact .expired hfill _ _
      · exact .after hfill rfl (.refl deadline t _ _ (takeBuffered_timedOut q nMax))
  · exact .refl deadline s _ _ (takeBuffered_timedOut p.begun nMax)

/-- So does `read_line`. -/
theorem readLineOver_timely (p : SerialPort) (deadline : Deadline) (s : Kernel) :
    p.beginOperation.Timely deadline s (p.readLineOver deadline s) := by
  unfold readLineOver
  dsimp only
  split_ifs
  · exact .refl deadline s _ _ rfl
  · exact readLineLoopOver_timely p.beginOperation [] deadline s

/-- So does `write`. -/
theorem write_timely (p : SerialPort) (null : Bool) (data : List UInt8) (deadline : Deadline)
    (s : Kernel) : p.beginOperation.Timely deadline s (p.write null data deadline s) := by
  unfold write
  dsimp only
  split_ifs
  · exact .refl deadline s _ _ rfl
  · exact .refl deadline s _ _ rfl
  · exact .refl deadline s _ _ rfl
  · exact writeLoop_timely p.beginOperation data 0 deadline s

/-- Every operation begins without a timeout. -/
theorem operate_hasWaited (p : SerialPort) (s : Kernel) (issued : Issued) :
    HasWaited (makeDeadline issued.timeout issued.start) s (p.operate s issued).kernel
      ((p.operate s issued).port.timedOut = true) := by
  obtain ⟨operation, timeout, start⟩ := issued
  cases operation with
  | reading call =>
      cases call with
      | read null nBytes => exact readOver_timely p null nBytes _ s rfl
      | readSome null nMax => exact readSomeOver_timely p null nMax _ s rfl
      | readLine => exact readLineOver_timely p _ s rfl
  | writing null data => exact write_timely p null data _ s rfl

/-! ### The clock -/

/-- The waits in time, one for each call of `poll`. -/
def waitsOf (waits : List (Int × Polling)) : List Waiting.Wait :=
  waits.map fun w => ⟨w.2.now, w.2.back⟩

/-- `duration_cast` to milliseconds rounds towards zero. -/
theorem tdiv_million (left : Int) :
    (0 ≤ left ∧ left.tdiv 1000000 = left / 1000000) ∨ (left < 0 ∧ left.tdiv 1000000 ≤ 0) := by
  rcases Int.le_total 0 left with hleft | hleft
  · exact .inl ⟨hleft, Int.tdiv_eq_ediv_of_nonneg hleft⟩
  · obtain ⟨back, rfl⟩ : ∃ back, left = -back := ⟨-left, (Int.neg_neg left).symm⟩
    rw [Int.neg_tdiv, Int.tdiv_eq_ediv_of_nonneg (by omega)]
    omega

/-- What is left until a deadline does not reach behind it. -/
theorem remainingMs_le (deadline now : Int) :
    now + remainingMs (some deadline) now * 1000000 ≤ max now deadline := by
  have hdiv := tdiv_million (deadline - now)
  unfold remainingMs
  dsimp only
  split_ifs with hleft
  · omega
  · omega

/-- A wait that takes what is left ends less than a millisecond before the deadline. -/
theorem lt_remainingMs (deadline now : Int) (h : deadline - now ≤ 2147483647 * 1000000) :
    deadline - 1000000 < now + remainingMs (some deadline) now * 1000000 := by
  have hdiv := tdiv_million (deadline - now)
  unfold remainingMs
  dsimp only
  split_ifs with hleft
  · omega
  · omega

/-- What the kernel does for a call of `poll`: it lets it wait no longer than its timeout, up to
some slack, and times out no earlier. -/
structure Punctual (slack : Int) (w : Int × Polling) : Prop where
  back_le : w.2.back ≤ w.2.now + w.1 * 1000000 + slack
  le_back : w.2.result = .expired → w.2.now + w.1 * 1000000 ≤ w.2.back

/-- An operation that has a timeout takes no longer than that for all its waits together, however
often it is interrupted or woken up. Where it times out, less than a millisecond was left. -/
theorem operate_in_time (p : SerialPort) (s : Kernel) (issued : Issued) {slack : Int}
    {waits : List (Int × Polling)} (htimeout : 0 ≤ issued.timeout) (hslack : 0 ≤ slack)
    (hwaits : (p.operate s issued).kernel.waits = s.waits ++ waits)
    (hclock : Waiting.Ordered issued.start (waitsOf waits))
    (hkernel : ∀ w ∈ waits, Punctual slack w) :
    Waiting.total (waitsOf waits) ≤ issued.timeout * 1000000 + slack * waits.length ∧
      ((p.operate s issued).port.timedOut = true → issued.timeout ≤ 2147483647 →
        ∃ front last, waits = front ++ [last] ∧
          issued.start + (issued.timeout - 1) * 1000000 < last.2.back) := by
  obtain ⟨used, hused, hlast⟩ := operate_hasWaited p s issued
  have hdeadline : makeDeadline issued.timeout issued.start
      = some (issued.start + issued.timeout * 1000000) := if_neg (Int.not_lt.mpr htimeout)
  obtain rfl : waits = used.map fun q => (remainingMs (makeDeadline issued.timeout issued.start)
      q.now, q) := List.append_cancel_left (hwaits.symm.trans hused.waits)
  rw [hdeadline] at hkernel hclock ⊢
  constructor
  · -- Each wait ends at the deadline, or at once when that has passed, give or take the slack.
    have hends : ∀ w ∈ waitsOf (used.map fun q =>
        (remainingMs (some (issued.start + issued.timeout * 1000000)) q.now, q)),
        w.finish ≤ max w.start (issued.start + issued.timeout * 1000000) + slack := by
      intro w hw
      obtain ⟨v, hv, rfl⟩ := List.mem_map.mp hw
      have hback := (hkernel v hv).back_le
      obtain ⟨q, -, rfl⟩ := List.mem_map.mp hv
      have hleft := remainingMs_le (issued.start + issued.timeout * 1000000) q.now
      dsimp only at hback ⊢
      omega
    have htotal := Waiting.total_le hslack hclock hends
    rw [waitsOf, List.length_map] at htotal
    rw [waitsOf]
    omega
  · intro htimed hshort
    -- Only the last wait can have expired, and it began with less than a millisecond rounded off.
    obtain ⟨front, last, rfl, hexpired⟩ := hlast htimed
    have hstart : issued.start ≤ last.now :=
      hclock.le_start (List.mem_map_of_mem (List.mem_map_of_mem List.mem_concat_self))
    have hback := (hkernel _ (List.mem_map_of_mem List.mem_concat_self)).le_back hexpired
    have hleft := lt_remainingMs (issued.start + issued.timeout * 1000000) last.now (by omega)
    refine ⟨_, _, List.map_append, ?_⟩
    dsimp only at hback ⊢
    omega

/-- A write that finds the queue full, is interrupted once and then gets through. -/
theorem operate_in_time_interrupted :
    Waiting.total (waitsOf [(99, ⟨1000, 3000000, .failed Errno.eintr⟩),
      (96, ⟨3000500, 5000000, .events pollOut⟩)]) ≤ 100 * 1000000 + 0 * 2 := by
  have hruns : ((opened 64 100).operate
      ⟨[⟨1000, 3000000, .failed Errno.eintr⟩, ⟨3000500, 5000000, .events pollOut⟩], [],
        [.failed Errno.eagain, .moved 1], [], []⟩ ⟨.writing false [0x41], 100, 0⟩).kernel.waits
      = [] ++ [(99, ⟨1000, 3000000, .failed Errno.eintr⟩),
        (96, ⟨3000500, 5000000, .events pollOut⟩)] := by
    decide +kernel
  refine (operate_in_time (opened 64 100) _ ⟨.writing false [0x41], 100, 0⟩ (by decide)
    (Int.le_refl 0) hruns ?_ ?_).1
  · simp [Waiting.Ordered, waitsOf]
  · intro w hw
    rcases List.mem_cons.mp hw with rfl | hw
    · exact ⟨by decide, by decide⟩
    · obtain rfl := List.mem_singleton.mp hw
      exact ⟨by decide, by decide⟩

end SerialPort

end SerialRpc
