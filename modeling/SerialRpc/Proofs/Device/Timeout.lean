import SerialRpc.Proofs.Device.Hooks

/-!
# `SerialRpc.Proofs.Device.Timeout`: the attach timeout across a clock wrap

`check_attach_timeout_` subtracts two readings of a clock of 32 bits. `Represents` says which
lease over true time the members of the attachment stand for. A step keeps it as long as the
lease was renewed less than `2 ^ 32` milliseconds before it is checked, and closing checks less
than `2 ^ 32 - T` apart see to that (`Lease.counted_of_apart`).

* `attach_timeout_exact`: when a device is attached after a closing check, how often the hooks
  run, and what a rejected `rpc.attach` does. A run is the events of its polls, byte by byte
  (`poll_eq`), so a check comes behind the frames of its poll.
-/

set_option autoImplicit false

namespace SerialRpc

open Lease (Ungranted Unbroken InTime ChecksWithin Kept lastSign)

/-- The members of the attachment stand for a lease. -/
def Attachment.Represents (a : Attachment) : Option Lease → Prop
  | none => a.attached = false
  | some lease => lease.term < 2 ^ 32 ∧
      a = ⟨true, decide (0 < lease.term), UInt32.ofNat lease.term, UInt32.ofNat lease.since⟩

namespace Attachment

/-- The difference of two readings is the time between them, if it is less than a turn of the
clock. -/
theorem elapsed_toNat {earlier later : Nat} (hle : earlier ≤ later)
    (hlt : later < earlier + 2 ^ 32) :
    (UInt32.ofNat later - UInt32.ofNat earlier).toNat = later - earlier := by
  rw [UInt32.toNat_sub, UInt32.toNat_ofNat', UInt32.toNat_ofNat']
  exact Lease.elapsed_mod hle hlt

/-- A check of a lease with a term compares the time since the last sign of life. -/
theorem passed_iff {term since now : Nat} (hterm : term < 2 ^ 32) (hle : since ≤ now)
    (hlt : now < since + 2 ^ 32) :
    UInt32.ofNat term ≤ UInt32.ofNat now - UInt32.ofNat since ↔ ¬ now < since + term := by
  rw [UInt32.le_iff_toNat_le, elapsed_toNat hle hlt, UInt32.toNat_ofNat', Nat.mod_eq_of_lt hterm]
  omega

/-- One signal. -/
theorem represents_hear {a : Attachment} {held : Option Lease} (h : a.Represents held) {now : Nat}
    {signal : Lease.Signal} (hungranted : ∀ term, signal ≠ .grant term)
    (hcounted : signal = .check → ∀ lease ∈ held, 0 < lease.term →
      lease.since ≤ now ∧ now < lease.since + 2 ^ 32) :
    (a.hear (UInt32.ofNat now) signal).Represents (Lease.step held now signal) := by
  cases held with
  | none =>
      have hdetached : a.attached = false := h
      cases signal with
      | grant term => exact absurd rfl (hungranted term)
      | release => exact rfl
      | withdraw => exact rfl
      | renew => exact hdetached
      | idle => exact hdetached
      | check =>
          have hnot : ¬ (a.attached = true ∧ a.hasTimeout = true ∧
              a.timeoutMs ≤ UInt32.ofNat now - a.lastFrameMs) := by
            rw [hdetached]
            exact fun hall => Bool.noConfusion hall.1
          unfold hear
          dsimp only
          rw [if_neg hnot]
          exact hdetached
  | some lease =>
      obtain ⟨term, since⟩ := lease
      obtain ⟨hterm, rfl⟩ := h
      cases signal with
      | grant term' => exact absurd rfl (hungranted term')
      | release => exact rfl
      | withdraw => exact rfl
      | renew => exact ⟨hterm, rfl⟩
      | idle => exact ⟨hterm, rfl⟩
      | check =>
          unfold hear
          dsimp only
          -- The lease decides over true time, and the members over two readings.
          by_cases hin : term = 0 ∨ now < since + term
          · have hnot : ¬ (true = true ∧ decide (0 < term) = true ∧
                UInt32.ofNat term ≤ UInt32.ofNat now - UInt32.ofNat since) := by
              rintro ⟨-, hpositive, hpassed⟩
              have hpositive := of_decide_eq_true hpositive
              obtain ⟨hle, hlt⟩ := hcounted rfl _ rfl hpositive
              exact (passed_iff hterm hle hlt).mp hpassed (hin.resolve_left (by omega))
            rw [Lease.step_check_kept hin, if_neg hnot]
            exact ⟨hterm, rfl⟩
          · have hpositive : 0 < term := by omega
            obtain ⟨hle, hlt⟩ := hcounted rfl _ rfl hpositive
            have hpassed := (passed_iff hterm hle hlt).mpr fun hnow => hin (Or.inr hnow)
            rw [Lease.step_check_ended hin, if_pos ⟨rfl, decide_eq_true hpositive, hpassed⟩]
            rfl

/-- A run of signals without a grant. -/
theorem represents_run {a : Attachment} {held : Option Lease} (h : a.Represents held)
    {signals : List (Nat × Lease.Signal)} (hungranted : Ungranted signals)
    (hcounted : Lease.Counted (2 ^ 32) held signals) :
    (signals.foldl (fun a x => a.hear (UInt32.ofNat x.1) x.2) a).Represents
      (Lease.run held signals) := by
  induction signals generalizing a held with
  | nil => exact h
  | cons x signals ih =>
      obtain ⟨hnew, hrest⟩ := List.forall_mem_cons.mp hungranted
      obtain ⟨hfirst, hlater⟩ := hcounted
      exact ih (represents_hear h hnew hfirst) hrest hlater

/-- The server is attached exactly when the model it represents holds a lease. -/
theorem Represents.attached_iff {a : Attachment} {held : Option Lease} (h : a.Represents held) :
    a.attached = true ↔ held.isSome = true := by
  cases held with
  | none =>
      have hdetached : a.attached = false := h
      rw [hdetached]
      exact Iff.rfl
  | some lease =>
      obtain ⟨-, rfl⟩ := h
      exact Iff.rfl

/-- A grant starts over. -/
theorem represents_grant (a : Attachment) (now : Nat) {term : Nat} (hterm : term < 2 ^ 32) :
    (a.hear (UInt32.ofNat now) (.grant term)).Represents (some ⟨term, now⟩) :=
  ⟨hterm, rfl⟩

end Attachment

namespace Server

variable {sz : ServerSize} {σ : Type}

/-- After the last successful `rpc.attach` of a run the device stays attached as long as the
lease is kept. -/
theorem attached_iff_kept (s : Server sz σ) {run : List (Nat × Event sz σ)}
    {earlier since : List (Nat × Lease.Signal)} {start timeoutMs : Nat}
    (hsignals : s.signals run = earlier ++ (start, .grant timeoutMs) :: since)
    (hlast : Ungranted since) (hcounted : Lease.Counted (2 ^ 32) (some ⟨timeoutMs, start⟩) since) :
    (s.runAt run).attached = true ↔ Kept timeoutMs start since := by
  have hfits : timeoutMs < 2 ^ 32 :=
    s.signals_grant_lt run (hsignals ▸ List.mem_append_right _ List.mem_cons_self)
  -- Whatever the attachment was before, the grant starts over.
  have hrun := s.attachment_run run
  rw [hsignals, List.foldl_append, List.foldl_cons] at hrun
  have hrepresents := Attachment.represents_run
    (Attachment.represents_grant (earlier.foldl (fun a x => a.hear (UInt32.ofNat x.1) x.2)
      s.attachment) start hfits) hlast hcounted
  rw [← hrun] at hrepresents
  exact hrepresents.attached_iff.trans (Lease.isSome_run hlast)

/-- The signals behind an `rpc.attach` are as late as it, and in order. -/
theorem signals_ordered {s : Server sz σ} {run : List (Nat × Event sz σ)}
    (htimes : (run.map Prod.fst).Pairwise (· ≤ ·)) {earlier since : List (Nat × Lease.Signal)}
    {x : Nat × Lease.Signal} (hsignals : s.signals run = earlier ++ x :: since) :
    (x.1 :: since.map Prod.fst).Pairwise (· ≤ ·) := by
  rw [← s.signals_times run, hsignals, List.map_append, List.map_cons] at htimes
  exact (List.pairwise_append.mp htimes).2.1

/-- With a timeout of at least one millisecond the clock measures every lease. -/
theorem attached_timed {s : Server sz σ} {run : List (Nat × Event sz σ)}
    (htimes : (run.map Prod.fst).Pairwise (· ≤ ·)) {earlier since : List (Nat × Lease.Signal)}
    {start timeoutMs now : Nat}
    (hsignals : s.signals run = earlier ++ (start, .grant timeoutMs) :: (since ++ [(now, .check)]))
    (hlast : Ungranted since) (hpositive : 1 ≤ timeoutMs)
    (happart : ChecksWithin (2 ^ 32 - timeoutMs) start (since ++ [(now, .check)])) :
    (s.runAt run).attached = true ↔
      Unbroken since ∧ InTime timeoutMs start since ∧ now - lastSign start since < timeoutMs := by
  have hfits : timeoutMs < 2 ^ 32 :=
    s.signals_grant_lt run (hsignals ▸ List.mem_append_right _ List.mem_cons_self)
  have hungranted : Ungranted (since ++ [(now, .check)]) :=
    Lease.ungranted_concat.mpr ⟨hlast, fun _ => Lease.Signal.noConfusion⟩
  have hcounted : Lease.Counted (2 ^ 32) (some ⟨timeoutMs, start⟩) (since ++ [(now, .check)]) :=
    Lease.counted_of_apart hungranted hpositive (Nat.le_of_lt hfits) (Nat.le_refl start)
      (Nat.le_refl start) (by omega) (signals_ordered htimes hsignals) happart
  -- The closing check of this poll is the last signal.
  rw [s.attached_iff_kept hsignals hungranted hcounted, Lease.kept_concat]
  constructor
  · rintro ⟨hkept, -, hcheck⟩
    have hnow := hcheck rfl hpositive
    exact ⟨hkept.unbroken, hkept.inTime hpositive, by omega⟩
  · rintro ⟨hunbroken, hinTime, hnow⟩
    refine ⟨⟨hunbroken, fun _ => hinTime⟩, ?_, ?_⟩
    · exact ⟨Lease.Signal.noConfusion, Lease.Signal.noConfusion⟩
    · intro _ _
      show now < lastSign start since + timeoutMs
      omega

/-- Without a timeout no check ends the attachment. -/
theorem attached_untimed {s : Server sz σ} {run : List (Nat × Event sz σ)}
    {earlier since : List (Nat × Lease.Signal)} {start : Nat}
    (hsignals : s.signals run = earlier ++ (start, .grant 0) :: since) (hlast : Ungranted since) :
    (s.runAt run).attached = true ↔ Unbroken since := by
  rw [s.attached_iff_kept hsignals hlast (Lease.counted_forever _ start hlast)]
  constructor
  · intro hkept
    exact hkept.unbroken
  · intro hunbroken
    exact ⟨hunbroken, fun hpositive => absurd hpositive (Nat.lt_irrefl 0)⟩

/-- An `rpc.attach` whose parameter is rejected is a frame like any other. -/
theorem rejected_attach {s : Server sz σ} {b : UInt8} {payload params : List UInt8} {count : Nat}
    (hreport : ((SerialRpc.demux sz.demuxSize).step s.demux b).2 = some (.frame payload))
    (hcalls : CallsMethod sz (SerialRpc.text "rpc.attach") count params payload)
    (hrejected : ∀ timeoutMs, ¬ SaysOptional count params timeoutMs) (t : Nat) :
    (s.actAt (t, .byte b)).attachment = { s.attachment with lastFrameMs := UInt32.ofNat t } ∧
      s.fires (t, .byte b) = [] := by
  have hsignal : s.signal (.byte b) = .renew := by
    show reportSignal sz _ = .renew
    rw [hreport]
    exact payloadSignal_rejected hcalls hrejected
  refine ⟨?_, ?_⟩
  · rw [attachment_act, hsignal]
    rfl
  · rw [fires_byte, hsignal]
    rfl

/-- **The attach timeout is exact across a clock wrap.** Take a run, with true times that do not
go back, and its last successful `rpc.attach`, at the time `start`.

With a timeout, and closing checks less than `2 ^ 32 - timeoutMs` apart from there on, the
device is attached after a closing check at the time `now` exactly when there was no
`rpc.detach` and no `begin`, no check before found the timeout passed, and it has not passed
since the last frame now. Without a timeout only `rpc.detach` and `begin` detach the device.

The hook of `on_attach` runs once for each successful `rpc.attach`, and that of `on_detach` once
each time that `rpc.detach` or the timeout detaches an attached device. An `rpc.attach` whose
parameter is rejected changes neither attachment nor timeout, and runs no hook. -/
theorem attach_timeout_exact (s : Server sz σ) (run : List (Nat × Event sz σ))
    (htimes : (run.map Prod.fst).Pairwise (· ≤ ·)) :
    (∀ (earlier since : List (Nat × Lease.Signal)) (start timeoutMs now : Nat),
      s.signals run = earlier ++ (start, .grant timeoutMs) :: (since ++ [(now, .check)]) →
      Ungranted since → 1 ≤ timeoutMs →
      ChecksWithin (2 ^ 32 - timeoutMs) start (since ++ [(now, .check)]) →
        ((s.runAt run).attached = true ↔
          Unbroken since ∧ InTime timeoutMs start since ∧
            now - lastSign start since < timeoutMs)) ∧
    (∀ (earlier since : List (Nat × Lease.Signal)) (start : Nat),
      s.signals run = earlier ++ (start, .grant 0) :: since → Ungranted since →
        ((s.runAt run).attached = true ↔ Unbroken since)) ∧
    (∀ marks, runJournaled (s.journal marks) run
      = (s.runAt run).journal (marks ++ s.firings run)) ∧
    ∀ (earlier later : List (Nat × Event sz σ)) (t : Nat) (b : UInt8)
      (payload params : List UInt8) (count : Nat), run = earlier ++ (t, .byte b) :: later →
      ((SerialRpc.demux sz.demuxSize).step (s.runAt earlier).demux b).2
        = some (.frame payload) →
      CallsMethod sz (SerialRpc.text "rpc.attach") count params payload →
      (∀ timeoutMs, ¬ SaysOptional count params timeoutMs) →
        ((s.runAt earlier).actAt (t, .byte b)).attachment
            = { (s.runAt earlier).attachment with lastFrameMs := UInt32.ofNat t } ∧
          (s.runAt earlier).fires (t, .byte b) = [] := by
  refine ⟨?_, ?_, fun marks => s.run_journaled marks run, ?_⟩
  · -- With a timeout: its deadline counts from the last frame.
    intro earlier since start timeoutMs now hsignals hlast hpositive happart
    exact attached_timed htimes hsignals hlast hpositive happart
  · -- Without one: no deadline.
    intro earlier since start hsignals hlast
    exact attached_untimed hsignals hlast
  · -- A rejected attach sets none.
    intro earlier later t b payload params count _ hreport hcalls hrejected
    exact rejected_attach hreport hcalls hrejected t

/-- The frame of `rpc.attach` with a timeout of 100 ms, as a notification. -/
def attachFrame : List UInt8 :=
  frameBytes ([0x93, 0x02, 0xaa] ++ SerialRpc.text "rpc.attach" ++ [0x91, 0x64])

/-- An attachment at ten milliseconds before the clock wraps, and two closing checks, the second
behind the wrap. -/
def wrapRun : List (Nat × Event small Unit) :=
  attachFrame.map (fun b => (2 ^ 32 - 10, .byte b)) ++
    [(2 ^ 32 - 5, .pollEnd), (2 ^ 32 + 89, .pollEnd)]

/-- 99 ms after the frame the device is attached, and 1 ms later it is not. -/
theorem attach_timeout_exact_wrap :
    ((new small () fun _ => 0).runAt wrapRun).attached = true ∧
      ((new small () fun _ => 0).runAt (wrapRun ++ [(2 ^ 32 + 90, .pollEnd)])).attached
        ≠ true := by
  let s : Server small Unit := new small () fun _ => 0
  let quiet : List (Nat × Lease.Signal) := List.replicate 19 (2 ^ 32 - 10, .idle)
  let first : List (Nat × Lease.Signal) := [(2 ^ 32 - 5, .check)]
  let second : List (Nat × Lease.Signal) := first ++ [(2 ^ 32 + 89, .check)]
  have hfirst : InTime 100 (2 ^ 32 - 10) first :=
    Lease.inTime_concat.mpr ⟨Lease.inTime_nil _ _, fun _ => by decide⟩
  have hsecond : InTime 100 (2 ^ 32 - 10) second :=
    Lease.inTime_concat.mpr ⟨hfirst, fun _ => by decide⟩
  -- The first check is in time.
  refine ⟨?_, ?_⟩
  · have hexact := (attach_timeout_exact s wrapRun (by decide +kernel)).1 quiet first (2 ^ 32 - 10)
      100 (2 ^ 32 + 89) (by decide +kernel) (by simp [first, Ungranted]) (by decide)
      (by simp [first, ChecksWithin])
    exact hexact.mpr ⟨by simp [first, Unbroken], hfirst, by decide⟩
  · -- The second one is not, though the clock has wrapped around.
    have hexact := (attach_timeout_exact s (wrapRun ++ [(2 ^ 32 + 90, .pollEnd)])
      (by decide +kernel)).1 quiet second (2 ^ 32 - 10) 100 (2 ^ 32 + 90) (by decide +kernel)
      (by simp [first, second, Ungranted]) (by decide) (by simp [first, second, ChecksWithin])
    intro hattached
    obtain ⟨-, -, hnow⟩ := hexact.mp hattached
    exact absurd hnow (by decide)

end Server

end SerialRpc
