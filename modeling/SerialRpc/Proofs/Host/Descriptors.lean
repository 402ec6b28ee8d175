import SerialRpc.Proofs.Host.Lifecycle

/-!
# `SerialRpc.Proofs.Host.Descriptors`: what becomes of the descriptors of a program

`descriptors_kept`: every call is on a descriptor that an object has opened and not closed yet, and
every descriptor has one object that will close it. This holds when the constructor throws, and over
moves, whatever the operating system answers. Each command is an entry or more in the ledger, or
hands a descriptor from one object to another.
-/

set_option autoImplicit false

namespace SerialRpc

open Custody SerialPort

namespace World

open Os PortObject

/-- The descriptor that an object has. -/
def owner (w : World) (x : Nat) : Option Nat := (w.objects x).bind PortObject.handle

/-- What an object holds is the handle in it. -/
theorem owner_of {w : World} {x : Nat} {p : PortObject} (h : w.objects x = some p) :
    w.owner x = p.handle := by
  rw [owner, h]
  rfl

/-- Putting an object in its place changes what that object holds, and no other. -/
theorem put_owner (w : World) (os : Os) (x : Nat) (p : Option PortObject) :
    (w.put os x p).owner = Function.update w.owner x (p.bind PortObject.handle) := by
  funext y
  by_cases hsame : y = x
  · subst hsame
    show (Function.update w.objects y p y).bind PortObject.handle = _
    rw [Function.update_self, Function.update_self]
  · show (Function.update w.objects x p y).bind PortObject.handle = _
    rw [Function.update_of_ne hsame, Function.update_of_ne hsame]
    rfl

/-- An object is replaced by one with the same descriptor. -/
theorem put_owner_same {w : World} {x : Nat} {p q : PortObject} (h : w.objects x = some p)
    (hsame : q.handle = p.handle) (os : Os) : (w.put os x (some q)).owner = w.owner := by
  rw [put_owner, Option.bind_some, hsame, ← owner_of h, Function.update_eq_self]

/-- `found` is what the descriptors referred to before the program. -/
structure Custodial (found : Nat → Option Nat) (w : World) : Prop where
  kept : Kept w.os.ledger w.owner
  files : ∀ x fd, w.owner x = some fd → w.os.files fd ≠ none
  foreign : ∀ fd, found fd ≠ none → w.os.files fd = found fd ∧ ∀ x, w.owner x ≠ some fd

variable {found : Nat → Option Nat} {w w' : World}

/-- Nothing changes but answers that are used up. -/
theorem Custodial.idle (h : w.Custodial found) (hledger : w'.os.ledger = w.os.ledger)
    (hfiles : w'.os.files = w.os.files) (howner : w'.owner = w.owner) : w'.Custodial found where
  kept := by
    rw [hledger, howner]
    exact h.kept
  files := by
    rw [hfiles, howner]
    exact h.files
  foreign := by
    rw [hfiles, howner]
    exact h.foreign

/-- Calls on the descriptor of an object. -/
theorem Custodial.touches (h : w.Custodial found) {x fd : Nat} (hfd : w.owner x = some fd)
    (htouches : Touches fd w.os w'.os) (howner : w'.owner = w.owner) : w'.Custodial found where
  kept := by
    obtain ⟨n, hn⟩ := htouches.ledger
    rw [hn, howner]
    exact h.kept.uses hfd n
  files := by
    rw [htouches.files, howner]
    exact h.files
  foreign := by
    rw [htouches.files, howner]
    exact h.foreign

/-- The descriptor of an object is closed. -/
theorem Custodial.closes (h : w.Custodial found) {x fd : Nat} (hfd : w.owner x = some fd)
    (hcloses : Closes fd w.os w'.os) (howner : w'.owner = Function.update w.owner x none) :
    w'.Custodial found where
  kept := by
    obtain ⟨n, hn⟩ := hcloses.ledger
    rw [hn, howner]
    exact (h.kept.uses hfd n).release hfd
  files := by
    intro y fd' hy
    rw [howner] at hy
    -- The object has released its descriptor, and no other object held it.
    by_cases hsame : y = x
    · subst hsame
      rw [Function.update_self] at hy
      cases hy
    · rw [Function.update_of_ne hsame] at hy
      have hother : fd' ≠ fd := by
        rintro rfl
        exact hsame (h.kept.alone y x fd' hy hfd)
      rw [hcloses.files, Function.update_of_ne hother]
      exact h.files y fd' hy
  -- What was open before the program is another descriptor, so it stays open.
  foreign := by
    intro fd' hfound
    obtain ⟨hfile, hnone⟩ := h.foreign fd' hfound
    have hother : fd' ≠ fd := by
      rintro rfl
      exact hnone x hfd
    refine ⟨by rw [hcloses.files, Function.update_of_ne hother, hfile], fun y => ?_⟩
    rw [howner]
    by_cases hsame : y = x
    · subst hsame
      rw [Function.update_self]
      rintro ⟨⟩
    · rw [Function.update_of_ne hsame]
      exact hnone y

/-- A new object has a new descriptor. -/
theorem Custodial.opens (h : w.Custodial found) {x fd : Nat} (hnone : w.owner x = none)
    (hfree : w.os.files fd = none) {port : List UInt8} {opens : List (Except Int Nat)}
    (htouches : Touches fd (w.os.withFile fd port opens) w'.os)
    (howner : w'.owner = Function.update w.owner x (some fd)) : w'.Custodial found where
  kept := by
    obtain ⟨n, hn⟩ := htouches.ledger
    -- A number that `open` returns is free, and the ones that objects have are not.
    have hnew : ∀ y, w.owner y ≠ some fd := fun y hy => h.files y fd hy hfree
    rw [hn, howner]
    exact (h.kept.acquire hnew hnone).uses (Function.update_self ..) n
  files := by
    intro y fd' hy
    rw [htouches.files]
    show Function.update w.os.files fd _ fd' ≠ none
    by_cases hsame : fd' = fd
    · subst hsame
      rw [Function.update_self]
      rintro ⟨⟩
    · rw [Function.update_of_ne hsame]
      rw [howner] at hy
      by_cases hyx : y = x
      · subst hyx
        rw [Function.update_self] at hy
        exact absurd (Option.some.inj hy).symm hsame
      · rw [Function.update_of_ne hyx] at hy
        exact h.files y fd' hy
  foreign := by
    intro fd' hfound
    obtain ⟨hfile, hothers⟩ := h.foreign fd' hfound
    have hother : fd' ≠ fd := by
      rintro rfl
      exact hfound (hfile.symm.trans hfree)
    refine ⟨?_, fun y => ?_⟩
    · rw [htouches.files]
      exact (Function.update_of_ne hother ..).trans hfile
    · rw [howner]
      by_cases hsame : y = x
      · subst hsame
        rw [Function.update_self]
        exact fun hsome => hother (Option.some.inj hsome).symm
      · rw [Function.update_of_ne hsame]
        exact hothers y

/-- An object that was moved from hands its descriptor on. -/
theorem Custodial.moves (h : w.Custodial found) {x y : Nat} (hnone : w.owner x = none)
    (hos : w'.os = w.os)
    (howner : w'.owner = Function.update (Function.update w.owner y none) x (w.owner y)) :
    w'.Custodial found where
  kept := by
    rw [hos, howner]
    exact h.kept.move hnone y
  files := by
    intro z fd hz
    rw [hos]
    rw [howner] at hz
    -- The object that is moved to holds what the other one held, which holds nothing now.
    by_cases hzx : z = x
    · subst hzx
      rw [Function.update_self] at hz
      exact h.files y fd hz
    · rw [Function.update_of_ne hzx] at hz
      by_cases hzy : z = y
      · subst hzy
        rw [Function.update_self] at hz
        cases hz
      · rw [Function.update_of_ne hzy] at hz
        exact h.files z fd hz
  -- No descriptor changes its file, and none found before the program has an owner.
  foreign := by
    intro fd hfound
    obtain ⟨hfile, hothers⟩ := h.foreign fd hfound
    rw [hos, howner]
    refine ⟨hfile, fun z => ?_⟩
    by_cases hzx : z = x
    · subst hzx
      rw [Function.update_self]
      exact hothers y
    · rw [Function.update_of_ne hzx]
      by_cases hzy : z = y
      · subst hzy
        rw [Function.update_self]
        rintro ⟨⟩
      · rw [Function.update_of_ne hzy]
        exact hothers z

/-- An object that is made. -/
theorem Custodial.constructs (h : w.Custodial found) {x : Nat} (hnone : w.objects x = none)
    (port : List UInt8) (config : Config) :
    (w.step (.construct x port config)).Custodial found := by
  have howner : w.owner x = none := by
    rw [owner, hnone]
    rfl
  unfold step
  dsimp only
  rw [hnone]
  rcases construct_cases port config w.os with ⟨opens, thrown, heq⟩ |
    ⟨fd, o, hopened, ⟨thrown, heq⟩ | ⟨hthrown, hvalid, heq⟩⟩
  · rw [heq]
    exact h.idle rfl rfl rfl
  · -- The descriptor is opened, and closed again.
    obtain ⟨opens, htouches⟩ := hopened.touches
    have hmiddle : (w.put o.os x (some (made port config (some fd) o.state))).Custodial found :=
      h.opens howner hopened.free htouches (put_owner w o.os x _)
    have hfd : (w.put o.os x (some (made port config (some fd) o.state))).owner x = some fd := by
      rw [put_owner, Function.update_self]
      rfl
    rw [heq]
    refine hmiddle.closes hfd (closeNative_closes fd config o.state o.os) ?_
    rw [put_owner, Function.update_idem, ← howner, Function.update_eq_self]
    rfl
  · obtain ⟨opens, htouches⟩ := hopened.touches
    rw [heq]
    exact h.opens howner hopened.free htouches (put_owner w o.os x _)

/-- An object that is closed, or destroyed. -/
theorem Custodial.closesObject (h : w.Custodial found) {x : Nat} {p : PortObject}
    (hp : w.objects x = some p) {q : Option PortObject} (hq : q.bind PortObject.handle = none) :
    (w.put (p.close w.os).1 x q).Custodial found := by
  have howner := owner_of hp
  have hput := put_owner w (p.close w.os).1 x q
  rw [hq] at hput
  cases hhandle : p.handle with
  | none =>
      rw [hhandle] at howner
      refine h.idle ?_ ?_ ?_
      · exact congrArg Os.ledger (close_closed hhandle w.os)
      · exact congrArg Os.files (close_closed hhandle w.os)
      · rw [hput, ← howner, Function.update_eq_self]
  | some fd =>
      rw [hhandle] at howner
      obtain ⟨state, hstate⟩ := state_of_handle hhandle
      have hcloses := closeNative_closes fd p.config state w.os
      rw [← close_open hhandle hstate] at hcloses
      exact h.closes howner hcloses hput

/-- **One command** keeps the descriptors. -/
theorem step_custodial (h : w.Custodial found) (command : Command) :
    (w.step command).Custodial found := by
  cases command with
  | construct x port config =>
      cases hx : w.objects x with
      | none => exact h.constructs hx port config
      | some p =>
          unfold step
          dsimp only
          rw [hx]
          exact h
  | moveConstruct x y =>
      unfold step
      dsimp only
      split
      · rename_i p hx hy
        have howner : w.owner x = none := by
          rw [owner, hx]
          rfl
        refine h.moves (y := y) howner rfl ?_
        rw [put_owner, put_owner, owner_of hy]
        rfl
      · exact h
  | moveAssign x y =>
      unfold step
      dsimp only
      split
      · exact h
      · rename_i hxy
        split
        · rename_i p q hx hy
          -- First `x` is closed, then it takes over from `y`.
          have hclosed := h.closesObject hx (q := some (p.close w.os).2) rfl
          have hput := put_owner w (p.close w.os).1 x (some (p.close w.os).2)
          have hqy : (w.put (p.close w.os).1 x (some (p.close w.os).2)).owner y = q.handle := by
            rw [hput, Function.update_of_ne (Ne.symm hxy), owner_of hy]
          refine hclosed.moves (x := x) (y := y) ?_ rfl ?_
          · rw [hput, Function.update_self]
            rfl
          · rw [hqy, hput, put_owner, put_owner]
            show Function.update (Function.update w.owner y none) x q.handle
              = Function.update (Function.update (Function.update w.owner x none) y none) x q.handle
            have hcomm : Function.update (Function.update w.owner x none) y none
                = Function.update (Function.update w.owner y none) x none :=
              Function.update_comm hxy _ _ _
            rw [hcomm, Function.update_idem]
        · exact h
  | close x =>
      unfold step
      dsimp only
      split
      · exact h
      · rename_i p hx
        exact h.closesObject hx rfl
  | destroy x =>
      unfold step
      dsimp only
      split
      · exact h
      · rename_i p hx
        exact h.closesObject hx rfl
  | setBaudRate x value =>
      unfold step
      dsimp only
      split
      · exact h
      · rename_i p hx
        cases hhandle : p.handle with
        | none =>
            rw [setBaudRate_closed hhandle]
            exact h.idle rfl rfl (put_owner_same hx rfl _)
        | some fd =>
            obtain ⟨state, hstate⟩ := state_of_handle hhandle
            have hsets := setBaudRate_open hhandle hstate value w.os
            refine h.touches ((owner_of hx).trans hhandle) hsets.touches (put_owner_same hx ?_ _)
            rcases hsets.object with hsame | hchanged
            · rw [hsame]
            · rw [hchanged]
  | setTimeout x value =>
      unfold step
      dsimp only
      split
      · exact h
      · rename_i p hx
        refine h.idle rfl rfl (put_owner_same hx ?_ _)
        rfl
  | drain x =>
      unfold step
      dsimp only
      split
      · exact h
      · rename_i p hx
        unfold PortObject.drain
        split
        · exact h
        · rename_i fd hhandle
          have hdrain := (drainFrom_spares fd w.os w.os.drains).toTouches
          have howner := (owner_of hx).trans hhandle
          split
          · rename_i os₁ number heq
            rw [heq] at hdrain
            exact h.touches howner hdrain rfl
          · rename_i os₁ heq
            rw [heq] at hdrain
            exact h.touches howner hdrain rfl
  | flush x input =>
      unfold step
      dsimp only
      split
      · exact h
      · rename_i p hx
        obtain ⟨hsame, -, -, hclosed, hopen⟩ := flush_spares p input w.os
        have howner := put_owner_same hx hsame (p.flush input w.os).1
        cases hhandle : p.handle with
        | none =>
            have hos := hclosed hhandle
            exact h.idle (congrArg Os.ledger hos) (congrArg Os.files hos) howner
        | some fd =>
            exact h.touches ((owner_of hx).trans hhandle) (hopen fd hhandle).toTouches howner
  | operate x operation start s =>
      unfold step
      dsimp only
      split
      · exact h
      · rename_i p hx
        unfold PortObject.used
        split
        · refine h.idle rfl rfl (put_owner_same hx ?_ _)
          rfl
        · rename_i fd hhandle
          refine h.touches ((owner_of hx).trans hhandle) (called_spares fd w.os).toTouches
            (put_owner_same hx ?_ _)
          rfl

/-- Every run of commands keeps custody, by induction on the commands. -/
theorem run_custodial (h : w.Custodial found) (commands : List Command) :
    (w.run commands).Custodial found := by
  induction commands generalizing w with
  | nil => exact h
  | cons command commands ih => exact ih (step_custodial h command)

/-- Before the program no object holds anything, so it has custody of nothing. -/
theorem start_custodial (os : Os) : (start os).Custodial os.files where
  kept := .start
  files := by rintro x fd ⟨⟩
  foreign := fun fd _ => ⟨rfl, by rintro x ⟨⟩⟩

/-- **No descriptor is lost, and none is closed twice.** In every state of every program, whatever
the system calls answer: every call so far was on a descriptor that an object had opened and not
closed yet, and each descriptor that is open belongs to one object. What the process had open before
is still open, and a descriptor that no object has was closed as often as it was opened. -/
theorem descriptors_kept (os : Os) (commands : List Command) :
    Kept ((start os).run commands).os.ledger ((start os).run commands).owner ∧
      (∀ fd, os.files fd ≠ none → ((start os).run commands).os.files fd = os.files fd) ∧
      ∀ fd, (∀ x, ((start os).run commands).owner x ≠ some fd) →
        ((start os).run commands).os.ledger.count (.acquired fd)
          = ((start os).run commands).os.ledger.count (.released fd) := by
  have hrun := run_custodial (start_custodial os) commands
  exact ⟨hrun.kept, fun fd hfound => (hrun.foreign fd hfound).1, fun fd => hrun.kept.balanced⟩

end World

end SerialRpc
