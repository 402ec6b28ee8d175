import SerialRpc.Proofs.Host.Descriptors

/-!
# `SerialRpc.Proofs.Host.Terminals`: what becomes of the settings of the terminals

`terminals_restored`: if `tcsetattr` does what it says, and every object asks for exclusive mode, a
terminal that no object has open is set as it was found, and one that is open is set as its object's
`config` says. That also holds when the constructor or `set_baud_rate` has thrown.

No two objects share a terminal: `open` refuses one in exclusive mode, and each terminal that an
object has open is in it (`World.Held`). So the settings that an object finds are those from before
the program.
-/

set_option autoImplicit false

namespace SerialRpc

open Custody SerialPort

namespace World

open Os PortObject

variable {w w' : World}

/-- An object that is open, with its descriptor. -/
def Holds (w : World) (p : PortObject) (fd : Nat) : Prop :=
  ∃ x, w.objects x = some p ∧ p.handle = some fd

/-- What is held once an object is put in its place: what it holds, and what the others do. -/
theorem put_holds (w : World) (os : Os) (x : Nat) (q : Option PortObject) (p : PortObject)
    (fd : Nat) :
    (w.put os x q).Holds p fd ↔ (q = some p ∧ p.handle = some fd) ∨
      ∃ y, y ≠ x ∧ w.objects y = some p ∧ p.handle = some fd := by
  constructor
  · rintro ⟨y, hy, hfd⟩
    have hy' : Function.update w.objects x q y = some p := hy
    by_cases hsame : y = x
    · subst hsame
      rw [Function.update_self] at hy'
      exact .inl ⟨hy', hfd⟩
    · rw [Function.update_of_ne hsame] at hy'
      exact .inr ⟨y, hsame, hy', hfd⟩
  · rintro (⟨rfl, hfd⟩ | ⟨y, hne, hy, hfd⟩)
    · exact ⟨x, Function.update_self .., hfd⟩
    · exact ⟨y, (Function.update_of_ne hne ..).trans hy, hfd⟩

/-- Every object is in exclusive mode when it is open. -/
theorem put_exclusive {w : World} (h : ∀ x p, w.objects x = some p → p.config.exclusive = true)
    (os : Os) (x : Nat) {o : Option PortObject} (ho : ∀ q, o = some q → q.config.exclusive = true)
    (y : Nat) (r : PortObject) (hr : (w.put os x o).objects y = some r) :
    r.config.exclusive = true := by
  have hr' : Function.update w.objects x o y = some r := hr
  by_cases hsame : y = x
  · subst hsame
    rw [Function.update_self] at hr'
    exact ho r hr'
  · rw [Function.update_of_ne hsame] at hr'
    exact h y r hr'

/-- A closed object is replaced by one that is closed, or by none. -/
theorem put_holds_closed {w : World} {x : Nat} {p : PortObject} (hp : w.objects x = some p)
    (hclosed : p.handle = none) (os : Os) {o : Option PortObject}
    (ho : ∀ q, o = some q → q.handle = none) (r : PortObject) (fd : Nat) :
    (w.put os x o).Holds r fd ↔ w.Holds r fd := by
  rw [put_holds]
  constructor
  · rintro (⟨hsame, hfd⟩ | ⟨y, -, hy, hfd⟩)
    · rw [ho r hsame] at hfd
      cases hfd
    · exact ⟨y, hy, hfd⟩
  · rintro ⟨y, hy, hfd⟩
    refine .inr ⟨y, ?_, hy, hfd⟩
    rintro rfl
    obtain rfl := Option.some.inj (hp.symm.trans hy)
    rw [hclosed] at hfd
    cases hfd

/-- An open port on a terminal that was set as `found` says: it can put that back, and the terminal
is set as its configuration says. -/
structure Held (found : Nat → Termios) (os : Os) (p : PortObject) (fd : Nat) : Prop where
  exclusive : os.exclusive (os.terminal fd) = true
  state : p.state = some ⟨found (os.terminal fd), true⟩
  settled : (found (os.terminal fd)).requested p.config = some (os.settings (os.terminal fd))

/-- `found` is how the terminals were set before the program. -/
structure Restoring (found : Nat → Termios) (w : World) : Prop where
  sets : w.os.sets = []
  exclusive : ∀ x p, w.objects x = some p → p.config.exclusive = true
  held : ∀ p fd, w.Holds p fd → Held found w.os p fd
  apart : ∀ p q fd fd', w.Holds p fd → w.Holds q fd' → w.os.terminal fd = w.os.terminal fd' →
    fd = fd'
  rest : ∀ t, (∀ p fd, w.Holds p fd → w.os.terminal fd ≠ t) → w.os.settings t = found t

/-- Calls on another terminal. -/
theorem Held.frame {found : Nat → Termios} {os os' : Os} {p : PortObject} {fd : Nat}
    (h : Held found os p fd) (hterminal : os'.terminal fd = os.terminal fd)
    (hexclusive : os'.exclusive (os.terminal fd) = os.exclusive (os.terminal fd))
    (hsettings : os'.settings (os.terminal fd) = os.settings (os.terminal fd)) :
    Held found os' p fd where
  exclusive := by
    rw [hterminal, hexclusive]
    exact h.exclusive
  state := by
    rw [hterminal]
    exact h.state
  settled := by
    rw [hterminal, hsettings]
    exact h.settled

namespace Restoring

variable {found : Nat → Termios} {files : Nat → Option Nat} {os' : Os} {x fd : Nat}
  {p q : PortObject}

/-- Two objects have two descriptors. -/
theorem other_fd (hcustodial : w.Custodial files) (hp : w.objects x = some p)
    (hfd : p.handle = some fd) {y fd' : Nat} {r : PortObject} (hne : y ≠ x)
    (hr : w.objects y = some r) (hfd' : r.handle = some fd') : fd' ≠ fd := by
  rintro rfl
  exact hne (hcustodial.kept.alone y x fd' ((owner_of hr).trans hfd') ((owner_of hp).trans hfd))

/-- Nobody has a terminal that is not in exclusive mode. -/
theorem found_of_idle (h : w.Restoring found) {t : Nat} (hidle : w.os.exclusive t = false) :
    w.os.settings t = found t := by
  refine h.rest t fun p fd hholds hterminal => ?_
  have hexclusive := (h.held p fd hholds).exclusive
  rw [hterminal, hidle] at hexclusive
  cases hexclusive

/-- The same objects, and the terminals as they were. -/
theorem unchanged (h : w.Restoring found) (hholds : ∀ p fd, w'.Holds p fd ↔ w.Holds p fd)
    (hconfigs : ∀ x p, w'.objects x = some p → p.config.exclusive = true)
    (hfiles : w'.os.files = w.os.files) (hsettings : w'.os.settings = w.os.settings)
    (hexclusive : ∀ p fd, w.Holds p fd →
      w'.os.exclusive (w.os.terminal fd) = w.os.exclusive (w.os.terminal fd))
    (hsets : w'.os.sets = []) : w'.Restoring found := by
  -- The descriptors are open for the same files, so they are of the same terminals.
  have hterminal (fd : Nat) : w'.os.terminal fd = w.os.terminal fd := by
    unfold Os.terminal
    rw [hfiles]
  constructor
  · exact hsets
  · exact hconfigs
  · intro p fd hp
    have hp' := (hholds p fd).mp hp
    exact (h.held p fd hp').frame (hterminal fd) (hexclusive p fd hp') (congrFun hsettings _)
  · intro p q fd fd' hp hq heq
    rw [hterminal, hterminal] at heq
    exact h.apart p q fd fd' ((hholds p fd).mp hp) ((hholds q fd').mp hq) heq
  · intro t hnone
    rw [hsettings]
    refine h.rest t fun p fd hp => ?_
    rw [← hterminal]
    exact hnone p fd ((hholds p fd).mpr hp)

/-- Calls on the descriptor of an object. -/
theorem replaces (h : w.Restoring found) (hcustodial : w.Custodial files)
    (hp : w.objects x = some p) (hfd : p.handle = some fd) (htouches : Touches fd w.os os')
    (hqfd : q.handle = some fd) (hexclusive : q.config.exclusive = true)
    (hheld : Held found os' q fd) : (w.put os' x (some q)).Restoring found := by
  have hhere : w.Holds p fd := ⟨x, hp, hfd⟩
  -- The other objects have other terminals.
  have other {y fd' : Nat} {r : PortObject} (hne : y ≠ x) (hr : w.objects y = some r)
      (hfd' : r.handle = some fd') :
      fd' ≠ fd ∧ w.Holds r fd' ∧ w.os.terminal fd' ≠ w.os.terminal fd := by
    have hdiffers := other_fd hcustodial hp hfd hne hr hfd'
    have hthere : w.Holds r fd' := ⟨y, hr, hfd'⟩
    exact ⟨hdiffers, hthere, fun hsame => hdiffers (h.apart r p fd' fd hthere hhere hsame)⟩
  constructor
  · exact htouches.sets h.sets
  · exact put_exclusive h.exclusive os' x (by rintro q ⟨⟩; exact hexclusive)
  · intro r fd' hr
    rcases (put_holds ..).mp hr with ⟨hsame, hfd'⟩ | ⟨y, hne, hr, hfd'⟩
    · obtain rfl := Option.some.inj hsame
      obtain rfl := Option.some.inj (hqfd.symm.trans hfd')
      exact hheld
    · obtain ⟨-, hthere, hterminal⟩ := other hne hr hfd'
      exact (h.held r fd' hthere).frame (htouches.terminal fd') (htouches.exclusive _ hterminal)
        (htouches.settings _ hterminal)
  · intro r r' fd₁ fd₂ hr hr' heq
    have heq' : w.os.terminal fd₁ = w.os.terminal fd₂ := by
      rw [← htouches.terminal, ← htouches.terminal]
      exact heq
    rcases (put_holds ..).mp hr with ⟨hsame, hfd₁⟩ | ⟨y, hne, hr, hfd₁⟩ <;>
      rcases (put_holds ..).mp hr' with ⟨hsame', hfd₂⟩ | ⟨y', hne', hr', hfd₂⟩
    · obtain rfl := Option.some.inj hsame
      obtain rfl := Option.some.inj hsame'
      exact Option.some.inj (hfd₁.symm.trans hfd₂)
    · obtain rfl := Option.some.inj hsame
      obtain rfl := Option.some.inj (hqfd.symm.trans hfd₁)
      exact absurd heq'.symm (other hne' hr' hfd₂).2.2
    · obtain rfl := Option.some.inj hsame'
      obtain rfl := Option.some.inj (hqfd.symm.trans hfd₂)
      exact absurd heq' (other hne hr hfd₁).2.2
    · exact h.apart r r' fd₁ fd₂ ⟨y, hr, hfd₁⟩ ⟨y', hr', hfd₂⟩ heq'
  · intro t hnone
    have hhere' : (w.put os' x (some q)).Holds q fd := (put_holds ..).mpr (.inl ⟨rfl, hqfd⟩)
    have ht : t ≠ w.os.terminal fd := by
      have hterminal := hnone q fd hhere'
      rw [show (w.put os' x (some q)).os.terminal fd = w.os.terminal fd from
        htouches.terminal fd] at hterminal
      exact Ne.symm hterminal
    refine (htouches.settings t ht).trans (h.rest t ?_)
    rintro r fd' ⟨y, hr, hfd'⟩
    by_cases hsame : y = x
    · subst hsame
      obtain rfl := Option.some.inj (hp.symm.trans hr)
      obtain rfl := Option.some.inj (hfd.symm.trans hfd')
      exact Ne.symm ht
    · have hterminal := hnone r fd' ((put_holds ..).mpr (.inr ⟨y, hsame, hr, hfd'⟩))
      rwa [show (w.put os' x (some q)).os.terminal fd' = w.os.terminal fd' from
        htouches.terminal fd'] at hterminal

/-- An object is closed, and its terminal set as it was found. -/
theorem closes (h : w.Restoring found) (hcustodial : w.Custodial files)
    (hp : w.objects x = some p) (hfd : p.handle = some fd) (hcloses : Closes fd w.os os')
    (hset : os'.settings (w.os.terminal fd) = found (w.os.terminal fd))
    {o : Option PortObject} (ho : ∀ q, o = some q → q.handle = none ∧ q.config.exclusive = true) :
    (w.put os' x o).Restoring found := by
  have hhere : w.Holds p fd := ⟨x, hp, hfd⟩
  have hterminal {fd' : Nat} (hne : fd' ≠ fd) : os'.terminal fd' = w.os.terminal fd' := by
    unfold Os.terminal
    rw [hcloses.files, Function.update_of_ne hne]
  -- Who is left has another descriptor and another terminal.
  have other {fd' : Nat} {r : PortObject} (hr : (w.put os' x o).Holds r fd') :
      fd' ≠ fd ∧ w.Holds r fd' ∧ w.os.terminal fd' ≠ w.os.terminal fd := by
    rcases (put_holds ..).mp hr with ⟨hsame, hfd'⟩ | ⟨y, hne, hr, hfd'⟩
    · rw [(ho r hsame).1] at hfd'
      cases hfd'
    · have hdiffers := other_fd hcustodial hp hfd hne hr hfd'
      have hthere : w.Holds r fd' := ⟨y, hr, hfd'⟩
      exact ⟨hdiffers, hthere, fun hsame => hdiffers (h.apart r p fd' fd hthere hhere hsame)⟩
  constructor
  · exact hcloses.sets h.sets
  · exact put_exclusive h.exclusive os' x fun q hq => (ho q hq).2
  · intro r fd' hr
    obtain ⟨hne, hthere, hdiffers⟩ := other hr
    exact (h.held r fd' hthere).frame (hterminal hne) (hcloses.exclusive _ hdiffers)
      (hcloses.settings _ hdiffers)
  · intro r r' fd₁ fd₂ hr hr' heq
    obtain ⟨hne, hthere, -⟩ := other hr
    obtain ⟨hne', hthere', -⟩ := other hr'
    refine h.apart r r' fd₁ fd₂ hthere hthere' ?_
    rw [← hterminal hne, ← hterminal hne']
    exact heq
  · intro t hnone
    show os'.settings t = found t
    by_cases ht : t = w.os.terminal fd
    · rw [ht]
      exact hset
    · refine (hcloses.settings t ht).trans (h.rest t ?_)
      rintro r fd' ⟨y, hr, hfd'⟩
      by_cases hsame : y = x
      · subst hsame
        obtain rfl := Option.some.inj (hp.symm.trans hr)
        obtain rfl := Option.some.inj (hfd.symm.trans hfd')
        exact Ne.symm ht
      · have hholds : (w.put os' x o).Holds r fd' :=
          (put_holds ..).mpr (.inr ⟨y, hsame, hr, hfd'⟩)
        rw [← hterminal (other hholds).1]
        exact hnone r fd' hholds

/-- A new object has a terminal that nobody has. -/
theorem opens (h : w.Restoring found) (hcustodial : w.Custodial files) (hx : w.objects x = none)
    (hfree : w.os.files fd = none) {port : List UInt8} {opens : List (Except Int Nat)}
    (hidle : w.os.exclusive (w.os.device port) = false)
    (htouches : Touches fd (w.os.withFile fd port opens) os') (hqfd : q.handle = some fd)
    (hexclusive : q.config.exclusive = true) (hheld : Held found os' q fd) :
    (w.put os' x (some q)).Restoring found := by
  have hport := w.os.withFile_terminal fd port opens
  have hterminal : os'.terminal fd = w.os.device port := (htouches.terminal fd).trans hport
  have other {fd' : Nat} {r : PortObject} (hr : w.Holds r fd') :
      os'.terminal fd' = w.os.terminal fd' ∧ w.os.terminal fd' ≠ w.os.device port := by
    obtain ⟨y, hy, hfd'⟩ := hr
    have hne : fd' ≠ fd := by
      rintro rfl
      exact hcustodial.files y fd' ((owner_of hy).trans hfd') hfree
    refine ⟨?_, fun hsame => ?_⟩
    · rw [htouches.terminal]
      show (Function.update w.os.files fd _ fd').getD 0 = _
      rw [Function.update_of_ne hne]
      rfl
    · -- In exclusive mode a terminal is not opened again.
      have hbusy := (h.held r fd' ⟨y, hy, hfd'⟩).exclusive
      rw [hsame, hidle] at hbusy
      cases hbusy
  -- So two that are open are the new one and an old one, or both old.
  have heither {fd' : Nat} {r : PortObject} (hr : (w.put os' x (some q)).Holds r fd') :
      (r = q ∧ fd' = fd) ∨ w.Holds r fd' := by
    rcases (put_holds ..).mp hr with ⟨hsame, hfd'⟩ | ⟨y, hne, hr, hfd'⟩
    · obtain rfl := Option.some.inj hsame
      exact .inl ⟨rfl, (Option.some.inj (hqfd.symm.trans hfd')).symm⟩
    · exact .inr ⟨y, hr, hfd'⟩
  constructor
  · exact htouches.sets h.sets
  · exact put_exclusive h.exclusive os' x (by rintro q ⟨⟩; exact hexclusive)
  · intro r fd' hr
    rcases heither hr with ⟨rfl, rfl⟩ | hthere
    · exact hheld
    · obtain ⟨hsame, hdiffers⟩ := other hthere
      have hdiffers' : w.os.terminal fd' ≠ (w.os.withFile fd port opens).terminal fd := by
        rwa [hport]
      exact (h.held r fd' hthere).frame hsame (htouches.exclusive _ hdiffers')
        (htouches.settings _ hdiffers')
  · intro r r' fd₁ fd₂ hr hr' heq
    have heq' : os'.terminal fd₁ = os'.terminal fd₂ := heq
    rcases heither hr with ⟨rfl, rfl⟩ | hthere <;> rcases heither hr' with ⟨rfl, rfl⟩ | hthere'
    · rfl
    · rw [hterminal, (other hthere').1] at heq'
      exact absurd heq'.symm (other hthere').2
    · rw [hterminal, (other hthere).1] at heq'
      exact absurd heq' (other hthere).2
    · rw [(other hthere).1, (other hthere').1] at heq'
      exact h.apart r r' fd₁ fd₂ hthere hthere' heq'
  · intro t hnone
    have hhere : (w.put os' x (some q)).Holds q fd := (put_holds ..).mpr (.inl ⟨rfl, hqfd⟩)
    have ht : t ≠ (w.os.withFile fd port opens).terminal fd := by
      rw [← htouches.terminal]
      exact Ne.symm (hnone q fd hhere)
    refine (htouches.settings t ht).trans (h.rest t ?_)
    intro r fd' hr
    rw [← (other hr).1]
    obtain ⟨y, hy, hfd'⟩ := hr
    have hne : y ≠ x := by
      rintro rfl
      rw [hx] at hy
      cases hy
    exact hnone r fd' ((put_holds ..).mpr (.inr ⟨y, hne, hy, hfd'⟩))

/-- An object that is made. -/
theorem constructs (h : w.Restoring found) (hcustodial : w.Custodial files)
    (hx : w.objects x = none) (port : List UInt8) {config : Config}
    (hexclusive : config.exclusive = true) :
    (w.step (.construct x port config)).Restoring found := by
  unfold step
  dsimp only
  rw [hx]
  rcases construct_cases port config w.os with ⟨opens, thrown, heq⟩ |
    ⟨fd, o, hopened, ⟨thrown, heq⟩ | ⟨hthrown, hvalid, heq⟩⟩
  · rw [heq]
    exact h.unchanged (fun _ _ => Iff.rfl) h.exclusive rfl rfl (fun _ _ _ => rfl) h.sets
  · obtain ⟨hfiles, hsettings, hothers, hsets⟩ := hopened.undone h.sets
    rw [heq]
    refine h.unchanged (fun _ _ => Iff.rfl) h.exclusive hfiles hsettings (fun p fd' hp => ?_) hsets
    -- A terminal that is held is in exclusive mode, and this one was not.
    refine hothers _ fun hsame => ?_
    have hbusy := (h.held p fd' hp).exclusive
    rw [hsame, hopened.idle] at hbusy
    cases hbusy
  · obtain ⟨opens, htouches⟩ := hopened.touches
    have hterminal : o.os.terminal fd = w.os.device port :=
      (htouches.terminal fd).trans (w.os.withFile_terminal fd port opens)
    have hrestore : o.state.restore = true := by
      by_contra hfalse
      exact (hopened.unread (Bool.eq_false_iff.mpr hfalse)).2 hthrown
    have hfound : o.state.original = found (w.os.device port) :=
      (hopened.read hrestore).trans (h.found_of_idle hopened.idle)
    rw [heq]
    refine h.opens hcustodial hx hopened.free hopened.idle htouches rfl hexclusive ?_
    constructor
    · rw [hterminal]
      exact hopened.exclusive hthrown hexclusive
    · rw [hterminal, ← hfound, ← hrestore]
      rfl
    · rw [hterminal, ← hfound]
      exact hopened.settled hthrown h.sets hvalid

/-- An object that is closed, or destroyed. -/
theorem closesObject (h : w.Restoring found) (hcustodial : w.Custodial files)
    (hp : w.objects x = some p) {o : Option PortObject}
    (ho : ∀ q, o = some q → q.handle = none ∧ q.config.exclusive = true) :
    (w.put (p.close w.os).1 x o).Restoring found := by
  cases hhandle : p.handle with
  | some fd =>
      have hheld := h.held p fd ⟨x, hp, hhandle⟩
      have hclose := close_open hhandle hheld.state w.os
      have hcloses := closeNative_closes fd p.config ⟨found (w.os.terminal fd), true⟩ w.os
      have hrestores := closeNative_restores fd p.config
        (show (State.mk (found (w.os.terminal fd)) true).restore = true from rfl) h.sets
      rw [← hclose] at hcloses hrestores
      exact h.closes hcustodial hp hhandle hcloses hrestores ho
  | none =>
      have hos := close_closed hhandle w.os
      rw [hos]
      exact h.unchanged (put_holds_closed hp hhandle w.os fun q hq => (ho q hq).1)
        (put_exclusive h.exclusive w.os x fun q hq => (ho q hq).2) rfl rfl (fun _ _ _ => rfl) h.sets

/-- An object is made from one that was moved from. -/
theorem moves (h : w.Restoring found) {y : Nat} (hx : ∀ r, w.objects x = some r → r.handle = none)
    (hy : w.objects y = some q) (hxy : x ≠ y) :
    ((w.put w.os y (some q.movedFrom)).put w.os x (some q)).Restoring found := by
  -- The same descriptors are open, one of them in another object.
  refine h.unchanged (fun r fd => ?_) ?_ rfl rfl (fun _ _ _ => rfl) h.sets
  · rw [put_holds]
    constructor
    · rintro (⟨hsame, hfd⟩ | ⟨z, -, hz, hfd⟩)
      · obtain rfl := Option.some.inj hsame
        exact ⟨y, hy, hfd⟩
      · have hmoved : (w.put w.os y (some q.movedFrom)).Holds r fd := ⟨z, hz, hfd⟩
        rcases (put_holds ..).mp hmoved with ⟨hsame, hfd⟩ | ⟨z', -, hz', hfd⟩
        · obtain rfl := Option.some.inj hsame
          cases hfd
        · exact ⟨z', hz', hfd⟩
    · rintro ⟨z, hz, hfd⟩
      by_cases hzy : z = y
      · subst hzy
        obtain rfl := Option.some.inj (hy.symm.trans hz)
        exact .inl ⟨rfl, hfd⟩
      · refine .inr ⟨z, ?_, ?_, hfd⟩
        · rintro rfl
          rw [hx r hz] at hfd
          cases hfd
        · exact (Function.update_of_ne hzy ..).trans hz
  · have hmoved := put_exclusive h.exclusive w.os y (o := some q.movedFrom)
      (by rintro r ⟨⟩; exact h.exclusive y q hy)
    exact put_exclusive hmoved w.os x (by rintro r ⟨⟩; exact h.exclusive y q hy)

/-- Calls that leave the terminal alone, on an object that keeps its descriptor and its state. -/
theorem spares (h : w.Restoring found) (hcustodial : w.Custodial files)
    (hp : w.objects x = some p) (hclosed : p.handle = none → os' = w.os)
    (hopen : ∀ fd, p.handle = some fd → Spares fd w.os os') (hhandle : q.handle = p.handle)
    (hstate : q.state = p.state) (hexclusive : q.config.exclusive = true)
    (hrequested : ∀ original : Termios, original.requested q.config = original.requested p.config) :
    (w.put os' x (some q)).Restoring found := by
  -- A closed port changes nothing at all, and an open one only its own terminal.
  cases hfd : p.handle with
  | none =>
      rw [hclosed hfd]
      refine h.unchanged (put_holds_closed hp hfd w.os ?_)
        (put_exclusive h.exclusive w.os x ?_) rfl rfl (fun _ _ _ => rfl) h.sets
      · rintro q ⟨⟩
        exact hhandle.trans hfd
      · rintro q ⟨⟩
        exact hexclusive
  | some fd =>
      have hspares := hopen fd hfd
      have hheld := h.held p fd ⟨x, hp, hfd⟩
      refine h.replaces hcustodial hp hfd hspares.toTouches (hhandle.trans hfd) hexclusive ?_
      constructor
      · rw [hspares.terminal, hspares.sameExclusive]
        exact hheld.exclusive
      · rw [hspares.terminal, hstate]
        exact hheld.state
      · rw [hspares.terminal, hspares.sameSettings, hrequested]
        exact hheld.settled

end Restoring

/-- Every object that is made asks for exclusive mode. -/
def Command.Exclusive : Command → Prop
  | .construct _ _ config => config.exclusive = true
  | _ => True

/-- **One command** leaves the terminals as they should be. -/
theorem step_restoring {found : Nat → Termios} {files : Nat → Option Nat} (h : w.Restoring found)
    (hcustodial : w.Custodial files) {command : Command} (hexclusive : command.Exclusive) :
    (w.step command).Restoring found := by
  cases command with
  | construct x port config =>
      cases hx : w.objects x with
      | none => exact h.constructs hcustodial hx port hexclusive
      | some p =>
          unfold step
          dsimp only
          rw [hx]
          exact h
  | moveConstruct x y =>
      unfold step
      dsimp only
      split
      · rename_i p hx hy
        refine h.moves ?_ hy ?_
        · intro r hr
          rw [hx] at hr
          cases hr
        · rintro rfl
          rw [hx] at hy
          cases hy
      · exact h
  | moveAssign x y =>
      unfold step
      dsimp only
      split
      · exact h
      · rename_i hxy
        split
        · rename_i p q hx hy
          -- First `x` is closed, then it takes over from `y`.
          have hclosed := h.closesObject hcustodial hx (o := some (p.close w.os).2)
            (by rintro r ⟨⟩; exact ⟨rfl, h.exclusive x p hx⟩)
          have hy' : (w.put (p.close w.os).1 x (some (p.close w.os).2)).objects y = some q :=
            (Function.update_of_ne (Ne.symm hxy) ..).trans hy
          have hmoved := hclosed.moves (x := x) ?_ hy' hxy
          · have hsame : ((w.put (p.close w.os).1 x (some (p.close w.os).2)).put (p.close w.os).1 y
                (some q.movedFrom)).put (p.close w.os).1 x (some q)
                = (w.put (p.close w.os).1 y (some q.movedFrom)).put (p.close w.os).1 x
                    (some q) := by
              unfold put
              dsimp only
              rw [Function.update_comm (Ne.symm hxy), Function.update_idem,
                Function.update_comm hxy]
            rw [← hsame]
            exact hmoved
          · intro r hr
            have hr' : Function.update w.objects x (some (p.close w.os).2) x = some r := hr
            rw [Function.update_self] at hr'
            obtain rfl := Option.some.inj hr'
            rfl
        · exact h
  | close x =>
      unfold step
      dsimp only
      split
      · exact h
      · rename_i p hx
        exact h.closesObject hcustodial hx (by rintro q ⟨⟩; exact ⟨rfl, h.exclusive x p hx⟩)
  | destroy x =>
      unfold step
      dsimp only
      split
      · exact h
      · rename_i p hx
        exact h.closesObject hcustodial hx (by rintro q ⟨⟩)
  | setBaudRate x value =>
      unfold step
      dsimp only
      split
      · exact h
      · rename_i p hx
        cases hhandle : p.handle with
        | none =>
            rw [setBaudRate_closed hhandle]
            refine h.spares hcustodial hx (fun _ => rfl) (fun fd hfd => ?_) rfl rfl
              (h.exclusive x p hx) fun _ => rfl
            rw [hhandle] at hfd
            cases hfd
        | some fd =>
            have hheld := h.held p fd ⟨x, hx, hhandle⟩
            have hsets := setBaudRate_open hhandle hheld.state value w.os
            have hsettled := hsets.settled h.sets hheld.settled
            have hkept : (p.setBaudRate value w.os).2.1.handle = p.handle ∧
                (p.setBaudRate value w.os).2.1.state = p.state ∧
                (p.setBaudRate value w.os).2.1.config.exclusive = p.config.exclusive := by
              rcases hsets.object with hsame | hchanged
              · rw [hsame]
                exact ⟨rfl, rfl, rfl⟩
              · rw [hchanged]
                exact ⟨rfl, rfl, rfl⟩
            refine h.replaces hcustodial hx hhandle hsets.touches (hkept.1.trans hhandle)
              (hkept.2.2.trans (h.exclusive x p hx)) ?_
            constructor
            · rw [hsets.touches.terminal, hsets.exclusive]
              exact hheld.exclusive
            · rw [hsets.touches.terminal, hkept.2.1]
              exact hheld.state
            · rw [hsets.touches.terminal]
              exact hsettled
  | setTimeout x value =>
      unfold step
      dsimp only
      split
      · exact h
      · rename_i p hx
        refine h.spares hcustodial hx (fun _ => rfl) (fun fd _ => .refl fd w.os) ?_ ?_ ?_ ?_
        · rfl
        · rfl
        · exact h.exclusive x p hx
        · exact fun _ => rfl
  | drain x =>
      unfold step
      dsimp only
      split
      · exact h
      · rename_i p hx
        have hsame : ({ w with os := (p.drain w.os).1 } : World)
            = w.put (p.drain w.os).1 x (some p) := by
          unfold put
          rw [← hx, Function.update_eq_self]
        rw [hsame]
        refine h.spares hcustodial hx (fun hclosed => ?_) (fun fd hfd => ?_) rfl rfl
          (h.exclusive x p hx) fun _ => rfl
        · unfold PortObject.drain
          rw [hclosed]
        · have hdrain := drainFrom_spares fd w.os w.os.drains
          unfold PortObject.drain
          rw [hfd]
          dsimp only
          split
          · rename_i os₁ number heq
            rwa [heq] at hdrain
          · rename_i os₁ heq
            rwa [heq] at hdrain
  | flush x input =>
      unfold step
      dsimp only
      split
      · exact h
      · rename_i p hx
        obtain ⟨hhandle, hconfig, hstate, hclosed, hopen⟩ := flush_spares p input w.os
        refine h.spares hcustodial hx hclosed hopen hhandle hstate ?_ ?_
        · rw [hconfig]
          exact h.exclusive x p hx
        · intro original
          rw [hconfig]
  | operate x operation start s =>
      unfold step
      dsimp only
      split
      · exact h
      · rename_i p hx
        refine h.spares hcustodial hx (fun hclosed => ?_) (fun fd hfd => ?_) ?_ ?_ ?_ ?_
        · unfold PortObject.used
          rw [hclosed]
        · unfold PortObject.used
          rw [hfd]
          exact called_spares fd w.os
        · rfl
        · rfl
        · exact h.exclusive x p hx
        · exact fun _ => rfl

/-- A run whose opens are exclusive keeps the terminals restorable, by induction on the commands. -/
theorem run_restoring {found : Nat → Termios} {files : Nat → Option Nat} (h : w.Restoring found)
    (hcustodial : w.Custodial files) {commands : List Command}
    (hexclusive : ∀ command ∈ commands, command.Exclusive) : (w.run commands).Restoring found := by
  induction commands generalizing w with
  | nil => exact h
  | cons command commands ih =>
      obtain ⟨hfirst, hlater⟩ := List.forall_mem_cons.mp hexclusive
      exact ih (step_restoring h hcustodial hfirst) (step_custodial hcustodial command) hlater

/-- Before the program every terminal is as it was found. -/
theorem start_restoring {os : Os} (hsets : os.sets = []) :
    (World.start os).Restoring os.settings where
  sets := hsets
  exclusive := by rintro x p ⟨⟩
  held := by rintro p fd ⟨x, ⟨⟩, -⟩
  apart := by rintro p q fd fd' ⟨x, ⟨⟩, -⟩
  rest := fun _ _ => rfl

/-- A port is opened, moved, set to another rate, and closed with its object. -/
def movedProgram : List Command :=
  [.construct 0 (text "/dev/ttyUSB0") {}, .moveConstruct 1 0, .setBaudRate 1 115200, .destroy 0,
    .destroy 1]

end World

end SerialRpc
