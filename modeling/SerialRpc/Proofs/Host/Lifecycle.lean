import SerialRpc.Host.Lifecycle
import SerialRpc.Proofs.Host.Termios

/-!
# `SerialRpc.Proofs.Host.Lifecycle`: what the setup and control methods do

One statement for each method, whatever the operating system answers. A system call is on one
descriptor and one terminal (`Os.Touches`), and most of them leave the terminal alone
(`Os.Spares`). `open_native` may stop in the middle, and `Opened` says what it has done by then.

`setup_carries` is about the read-back at the end of `apply_config`. `tcsetattr` may apply only some
of the settings. The constructor and `set_baud_rate` still return only if the terminal has the frame
format and the rate that they were asked for.
-/

set_option autoImplicit false

namespace SerialRpc

open Custody SerialPort

/-! ### System calls -/

namespace Os

/-- From `os` to `os'` by calls on a descriptor. -/
structure Touches (fd : Nat) (os os' : Os) : Prop where
  device : os'.device = os.device
  files : os'.files = os.files
  ledger : ∃ n, os'.ledger = os.ledger ++ List.replicate n (.used fd)
  settings : ∀ t, t ≠ os.terminal fd → os'.settings t = os.settings t
  exclusive : ∀ t, t ≠ os.terminal fd → os'.exclusive t = os.exclusive t
  sets : os.sets = [] → os'.sets = []

/-- The calls do not change the terminal either. -/
structure Spares (fd : Nat) (os os' : Os) : Prop extends Touches fd os os' where
  sameSettings : os'.settings = os.settings
  sameExclusive : os'.exclusive = os.exclusive

variable {fd : Nat} {os os' os'' : Os}

/-- No call at all. -/
theorem Touches.refl (fd : Nat) (os : Os) : Touches fd os os where
  device := rfl
  files := rfl
  ledger := ⟨0, (List.append_nil _).symm⟩
  settings := fun _ _ => rfl
  exclusive := fun _ _ => rfl
  sets := id

/-- Calls on a descriptor do not change which terminal any descriptor is of. -/
theorem Touches.terminal (h : Touches fd os os') (fd' : Nat) :
    os'.terminal fd' = os.terminal fd' := by
  unfold Os.terminal
  rw [h.files]

/-- The calls of two stretches are calls on the same descriptor. -/
theorem Touches.trans (h : Touches fd os os') (h' : Touches fd os' os'') : Touches fd os os'' where
  device := h'.device.trans h.device
  files := h'.files.trans h.files
  ledger := by
    obtain ⟨n, hn⟩ := h.ledger
    obtain ⟨m, hm⟩ := h'.ledger
    refine ⟨n + m, ?_⟩
    rw [hm, hn, List.append_assoc, List.replicate_append_replicate]
  settings := fun t ht => (h'.settings t (by rwa [h.terminal])).trans (h.settings t ht)
  exclusive := fun t ht => (h'.exclusive t (by rwa [h.terminal])).trans (h.exclusive t ht)
  sets := fun hsets => h'.sets (h.sets hsets)

/-- No call at all spares the terminal. -/
theorem Spares.refl (fd : Nat) (os : Os) : Spares fd os os where
  toTouches := .refl fd os
  sameSettings := rfl
  sameExclusive := rfl

/-- Two stretches that spare the terminal make one. -/
theorem Spares.trans (h : Spares fd os os') (h' : Spares fd os' os'') : Spares fd os os'' where
  toTouches := h.toTouches.trans h'.toTouches
  sameSettings := h'.sameSettings.trans h.sameSettings
  sameExclusive := h'.sameExclusive.trans h.sameExclusive

/-- A call that is only recorded spares the terminal. -/
theorem called_spares (fd : Nat) (os : Os) : Spares fd os (os.called fd) where
  device := rfl
  files := rfl
  ledger := ⟨1, rfl⟩
  settings := fun _ _ => rfl
  exclusive := fun _ _ => rfl
  sets := id
  sameSettings := rfl
  sameExclusive := rfl

/-- Reading the settings spares the terminal. -/
theorem tcgetattr_spares (fd : Nat) (os : Os) : Spares fd os (os.tcgetattr fd).1 := by
  have hcalled := called_spares fd os
  unfold tcgetattr
  split
  · exact hcalled
  · exact { hcalled with }
  · exact { hcalled with }

/-- `tcgetattr` reads the terminal. -/
theorem tcgetattr_reads {applied : Termios} (h : os.tcgetattr fd = (os', .ok applied)) :
    applied = os.settings (os.terminal fd) := by
  unfold tcgetattr at h
  split at h <;> cases h <;> rfl

/-- So does flushing its queues. -/
theorem tcflush_spares (fd : Nat) (os : Os) : Spares fd os (os.tcflush fd).1 := by
  have hcalled := called_spares fd os
  unfold tcflush
  split
  · exact hcalled
  · exact { hcalled with }

/-- So does draining, however often it is interrupted. -/
theorem drainFrom_spares (fd : Nat) (os : Os) (answers : List Int) :
    Spares fd os (os.drainFrom fd answers).1 := by
  induction answers generalizing os with
  | nil => exact { called_spares fd os with }
  | cons number answers ih =>
      rw [drainFrom]
      split
      · exact (called_spares fd os).trans (ih _)
      · exact { called_spares fd os with }

/-- Exclusive access is set by a call on the descriptor. -/
theorem setExclusive_touches (fd : Nat) (on : Bool) (os : Os) :
    Touches fd os (os.setExclusive fd on).1 := by
  have hcalled := (called_spares fd os).toTouches
  have hother : ∀ t, t ≠ os.terminal fd →
      Function.update os.exclusive (os.terminal fd) on t = os.exclusive t :=
    fun t ht => Function.update_of_ne ht ..
  unfold setExclusive
  dsimp only
  split
  · exact { hcalled with exclusive := hother }
  · exact { hcalled with exclusive := hother }
  · exact { hcalled with }

/-- It leaves the settings alone. -/
theorem setExclusive_settings (fd : Nat) (on : Bool) (os : Os) :
    (os.setExclusive fd on).1.settings = os.settings := by
  unfold setExclusive
  dsimp only
  split <;> rfl

/-- When it succeeds, the terminal is in exclusive mode, or is no longer. -/
theorem setExclusive_done {on : Bool} (h : os.setExclusive fd on = (os', none)) :
    os'.exclusive (os.terminal fd) = on := by
  unfold setExclusive at h
  dsimp only at h
  split at h
  · cases h
    exact Function.update_self ..
  · cases h
    exact Function.update_self ..
  · cases h

/-- Settings take effect on the terminal of the descriptor only. -/
theorem settle_touches (fd : Nat) (options : Termios) (os : Os) :
    Touches fd os (os.settle fd options) :=
  { called_spares fd os with
      settings := fun _ ht => Function.update_of_ne ht .. }

/-- So does a call that sets them, refused or not. -/
theorem tcsetattr_touches (fd : Nat) (options : Termios) (os : Os) :
    Touches fd os (os.tcsetattr fd options).1 := by
  have hsettle := settle_touches fd
  unfold tcsetattr
  split
  · exact hsettle options os
  · rename_i hsets
    exact { called_spares fd os with
      sets := fun hnil => by rw [hnil] at hsets; cases hsets }
  · rename_i hsets
    exact { hsettle _ os with
      sets := fun hnil => by rw [hnil] at hsets; cases hsets }

/-- It leaves exclusive access alone. -/
theorem tcsetattr_exclusive (fd : Nat) (options : Termios) (os : Os) :
    (os.tcsetattr fd options).1.exclusive = os.exclusive := by
  unfold tcsetattr
  split <;> rfl

/-- `tcsetattr`, where it does what it is asked for. -/
theorem tcsetattr_plain (h : os.sets = []) (fd : Nat) (options : Termios) :
    os.tcsetattr fd options = (os.settle fd options, none) := by
  unfold tcsetattr
  rw [h]

/-- The settings that took effect are those asked for. -/
theorem settle_settings (fd : Nat) (options : Termios) (os : Os) :
    (os.settle fd options).settings (os.terminal fd) = options := Function.update_self ..

end Os

namespace Os

/-- From `os` to `os'` by calls on a descriptor, the last of which closes it. -/
structure Closes (fd : Nat) (os os' : Os) : Prop where
  device : os'.device = os.device
  files : os'.files = Function.update os.files fd none
  ledger : ∃ n, os'.ledger = os.ledger ++ List.replicate n (.used fd) ++ [.released fd]
  settings : ∀ t, t ≠ os.terminal fd → os'.settings t = os.settings t
  exclusive : ∀ t, t ≠ os.terminal fd → os'.exclusive t = os.exclusive t
  sets : os.sets = [] → os'.sets = []

/-- Calls on a descriptor and then the call that closes it. -/
theorem Touches.close {fd : Nat} {os os' : Os} (h : Touches fd os os') :
    Closes fd os (os'.closePort fd) where
  device := h.device
  files := by
    show Function.update os'.files fd none = _
    rw [h.files]
  ledger := by
    obtain ⟨n, hn⟩ := h.ledger
    refine ⟨n, ?_⟩
    show os'.ledger ++ [.released fd] = _
    rw [hn]
  settings := h.settings
  exclusive := h.exclusive
  sets := h.sets

/-- What `open` has done when it gives a descriptor. -/
def withFile (os : Os) (fd : Nat) (port : List UInt8) (opens : List (Except Int Nat)) : Os :=
  { os with
      opens := opens
      files := Function.update os.files fd (some (os.device port))
      ledger := os.ledger ++ [.acquired fd] }

/-- A descriptor just opened is of the device of its port. -/
theorem withFile_terminal (os : Os) (fd : Nat) (port : List UInt8)
    (opens : List (Except Int Nat)) : (os.withFile fd port opens).terminal fd = os.device port := by
  show (Function.update os.files fd _ fd).getD 0 = _
  rw [Function.update_self]
  rfl

/-- `open` gives no descriptor, or one that is free, of a terminal that is not in exclusive mode. -/
theorem openPort_cases {os os' : Os} {port : List UInt8} {answer : Except Int Nat}
    (h : os.openPort port = (os', answer)) :
    (∃ number opens, answer = .error number ∧ os' = { os with opens := opens }) ∨
      ∃ fd opens, answer = .ok fd ∧ os.files fd = none ∧ os.exclusive (os.device port) = false ∧
        os' = os.withFile fd port opens := by
  -- The only way through is the last: the port was free, and its descriptor is the next to be
  -- opened.
  unfold openPort at h
  split at h
  · cases h
    exact .inl ⟨_, os.opens, rfl, rfl⟩
  · cases h
    exact .inl ⟨_, _, rfl, rfl⟩
  · split at h
    · cases h
      exact .inl ⟨_, _, rfl, rfl⟩
    · rename_i hidle
      split at h
      · cases h
        exact .inl ⟨_, _, rfl, rfl⟩
      · rename_i hfree
        cases h
        exact .inr ⟨_, _, rfl, Option.not_isSome_iff_eq_none.mp hfree, Bool.not_eq_true _ ▸ hidle,
          rfl⟩

end Os

/-! ### Calls of the object -/

namespace PortObject

open Os

variable {port : List UInt8} {fd : Nat} {original : Termios} {config : Config} {os os' : Os}

/-- `apply_config` is a `tcsetattr` and maybe a `tcgetattr`. -/
theorem applyConfig_touches (port : List UInt8) (fd : Nat) (original : Termios) (config : Config)
    (os : Os) :
    Touches fd os (applyConfig port fd original config os).1 ∧
      (applyConfig port fd original config os).1.exclusive = os.exclusive := by
  unfold applyConfig
  split
  · exact ⟨.refl fd os, rfl⟩
  · -- Configuring is a write of the settings and a read to check them, both on the descriptor.
    rename_i options hrequested
    have hset := tcsetattr_touches fd options os
    have hexclusive := tcsetattr_exclusive fd options os
    split
    · rename_i os₁ number heq
      rw [heq] at hset hexclusive
      exact ⟨hset, hexclusive⟩
    · rename_i os₁ heq
      rw [heq] at hset hexclusive
      have hget := tcgetattr_spares fd os₁
      have hboth : Touches fd os (os₁.tcgetattr fd).1 ∧
          (os₁.tcgetattr fd).1.exclusive = os.exclusive :=
        ⟨hset.trans hget.toTouches, hget.sameExclusive.trans hexclusive⟩
      split
      · rename_i os₂ number hread
        rwa [hread] at hboth
      · rename_i os₂ applied hread
        rw [hread] at hboth
        split_ifs <;> exact hboth

/-- Where `tcsetattr` does what it is asked for, the terminal is set, whatever is thrown. -/
theorem applyConfig_settings (port : List UInt8) (fd : Nat) (hsets : os.sets = [])
    {options : Termios} (hrequested : original.requested config = some options) :
    (applyConfig port fd original config os).1.settings (os.terminal fd) = options := by
  have hsettled := settle_settings fd options os
  have hget := (tcgetattr_spares fd (os.settle fd options)).sameSettings
  unfold applyConfig
  rw [hrequested]
  dsimp only
  rw [tcsetattr_plain hsets]
  dsimp only
  split
  · rename_i os₂ number hread
    rw [hread] at hget
    exact (congrFun hget _).trans hsettled
  · rename_i os₂ applied hread
    rw [hread] at hget
    split_ifs <;> exact (congrFun hget _).trans hsettled

/-- What `apply_config` returns with was read back. -/
theorem applyConfig_carries (hvalid : Termios.Valid config)
    (h : applyConfig port fd original config os = (os', none)) :
    (os'.settings (os.terminal fd)).Carries config := by
  obtain ⟨code, hcode⟩ := hvalid.baudRate
  unfold applyConfig at h
  split at h
  · cases h
  · rename_i options hrequested
    have hset := tcsetattr_touches fd options os
    split at h
    · cases h
    · rename_i os₁ heq
      rw [heq] at hset
      have hget := tcgetattr_spares fd os₁
      split at h
      · cases h
      · rename_i os₂ applied hread
        have happlied := tcgetattr_reads hread
        rw [hread] at hget
        split at h
        · cases h
        · rename_i hmask
          split at h
          · cases h
          · rename_i hspeed
            cases h
            rw [hset.terminal] at happlied
            rw [show os'.settings = os₁.settings from hget.sameSettings, ← happlied]
            -- Both comparisons of what was read back have passed.
            refine Termios.carries_of_read_back hvalid hcode hrequested (not_not.mp hmask) ?_
            rw [hcode, Option.any_some, bne_iff_ne, not_not] at hspeed
            exact hspeed.symm

/-! ### Closing -/

/-- What `close_native` does before it closes the descriptor. -/
theorem closeNative_touches (fd : Nat) (config : Config) (state : State) (os : Os) :
    ∃ before, Touches fd os before ∧ closeNative fd config state os = before.closePort fd ∧
      (state.restore = false → before.settings = os.settings) ∧
      (state.restore = true → os.sets = [] →
        before.settings (os.terminal fd) = state.original) := by
  have hdrain := drainFrom_spares fd os os.drains
  unfold closeNative
  dsimp only
  generalize (os.drainFrom fd os.drains).1 = os₁ at *
  -- The settings that were found are put back.
  have hrestored : ∃ os₂, Touches fd os os₂ ∧
      (if state.restore then (os₁.tcsetattr fd state.original).1 else os₁) = os₂ ∧
      (state.restore = false → os₂.settings = os.settings) ∧
      (state.restore = true → os.sets = [] → os₂.settings (os.terminal fd) = state.original) := by
    refine ⟨_, ?_, rfl, fun hfalse => ?_, fun htrue hsets => ?_⟩
    · split
      · exact hdrain.toTouches.trans (tcsetattr_touches fd state.original os₁)
      · exact hdrain.toTouches
    · rw [if_neg (Bool.eq_false_iff.mp hfalse)]
      exact hdrain.sameSettings
    · rw [if_pos htrue, tcsetattr_plain (hdrain.sets hsets), ← hdrain.terminal]
      exact settle_settings fd state.original os₁
  obtain ⟨os₂, htouches, hos₂, hfalse, htrue⟩ := hrestored
  rw [hos₂]
  have hreleased : ∃ os₃, Touches fd os os₃ ∧
      (if config.exclusive then (os₂.setExclusive fd false).1 else os₂) = os₃ ∧
      os₃.settings = os₂.settings := by
    refine ⟨_, ?_, rfl, ?_⟩
    · split
      · exact htouches.trans (setExclusive_touches fd false os₂)
      · exact htouches
    · split
      · exact setExclusive_settings fd false os₂
      · rfl
  obtain ⟨os₃, htouches₃, hos₃, hsame⟩ := hreleased
  rw [hos₃]
  have hflush := tcflush_spares fd os₃
  refine ⟨_, htouches₃.trans hflush.toTouches, rfl, fun h => ?_, fun h hsets => ?_⟩
  · rw [hflush.sameSettings, hsame, hfalse h]
  · rw [hflush.sameSettings, hsame, htrue h hsets]

/-- `close_native` makes calls on the descriptor and closes it, whatever the calls answer. -/
theorem closeNative_closes (fd : Nat) (config : Config) (state : State) (os : Os) :
    Closes fd os (closeNative fd config state os) := by
  obtain ⟨before, htouches, heq, -⟩ := closeNative_touches fd config state os
  rw [heq]
  exact htouches.close

/-- Where `tcsetattr` does what it is asked for, the terminal is set as it was found. -/
theorem closeNative_restores (fd : Nat) (config : Config) {state : State}
    (hrestore : state.restore = true) (hsets : os.sets = []) :
    (closeNative fd config state os).settings (os.terminal fd) = state.original := by
  obtain ⟨before, -, heq, -, hrestored⟩ := closeNative_touches fd config state os
  rw [heq]
  exact hrestored hrestore hsets

/-- Where no settings were found, none are put back. -/
theorem closeNative_unread {state : State} (hunread : state.restore = false) :
    (closeNative fd config state os).settings = os.settings := by
  obtain ⟨before, -, heq, hsame, -⟩ := closeNative_touches fd config state os
  rw [heq]
  exact hsame hunread

/-! ### Opening -/

/-- What `open_native` has done when it has a descriptor. -/
structure Opened (port : List UInt8) (config : Config) (os : Os) (fd : Nat) (o : Opening) :
    Prop where
  free : os.files fd = none
  idle : os.exclusive (os.device port) = false
  touches : ∃ opens, Touches fd (os.withFile fd port opens) o.os
  unread : o.state.restore = false → o.os.settings = os.settings ∧ o.thrown ≠ none
  read : o.state.restore = true → o.state.original = os.settings (os.device port)
  exclusive : o.thrown = none → config.exclusive = true →
    o.os.exclusive (os.device port) = true
  settled : o.thrown = none → os.sets = [] → Termios.Valid config →
    o.state.original.requested config = some (o.os.settings (os.device port))
  carries : o.thrown = none → Termios.Valid config →
    (o.os.settings (os.device port)).Carries config

/-- Exclusive mode, where it is asked for. -/
theorem setExclusive_asked {on : Bool} {answer : Option Int}
    (h : (if config.exclusive then os.setExclusive fd on else (os, none)) = (os', answer)) :
    Touches fd os os' ∧ os'.settings = os.settings ∧
      (answer = none → config.exclusive = true → os'.exclusive (os.terminal fd) = on) := by
  split at h
  · have htouches := setExclusive_touches fd on os
    have hsame := setExclusive_settings fd on os
    rw [h] at htouches hsame
    refine ⟨htouches, hsame, ?_⟩
    rintro rfl -
    exact setExclusive_done h
  · rename_i hshared
    cases h
    exact ⟨.refl fd os, rfl, fun _ hexclusive => absurd hexclusive hshared⟩

/-- `open_native` fails without a descriptor, or it has opened one. -/
theorem openNative_cases (port : List UInt8) (config : Config) {state : State} (os : Os)
    (hunread : state.restore = false) :
    (∃ opens thrown, openNative port config state os
        = ⟨{ os with opens := opens }, none, state, some thrown⟩) ∨
      ∃ fd, (openNative port config state os).handle = some fd ∧
        Opened port config os fd (openNative port config state os) := by
  unfold openNative
  split
  · rename_i os₁ number hopen
    -- `open` fails.
    rcases openPort_cases hopen with ⟨number', opens, hanswer, rfl⟩ | ⟨fd, opens, ⟨⟩, -⟩
    exact .inl ⟨opens, _, rfl⟩
  · rename_i os₁ fd hopen
    rcases openPort_cases hopen with ⟨number', opens, ⟨⟩, -⟩ |
      ⟨fd', opens, hanswer, hfree, hidle, rfl⟩
    cases hanswer
    right
    have hterminal := os.withFile_terminal fd port opens
    split
    · -- No exclusive mode.
      rename_i os₂ number hask
      obtain ⟨htouches, hsame, -⟩ := setExclusive_asked hask
      refine ⟨fd, rfl, hfree, hidle, ⟨opens, htouches⟩, fun _ => ⟨hsame, ?_⟩, ?_, ?_, ?_, ?_⟩
      · rintro ⟨⟩
      · intro hread
        rw [show state.restore = true from hread] at hunread
        cases hunread
      all_goals rintro ⟨⟩
    · rename_i os₂ hask
      obtain ⟨htouches, hsame, hexclusive⟩ := setExclusive_asked hask
      have hread := tcgetattr_spares fd os₂
      split
      · -- Not a terminal.
        rename_i os₃ number hget
        rw [hget] at hread
        refine ⟨fd, rfl, hfree, hidle, ⟨opens, htouches.trans hread.toTouches⟩,
          fun _ => ⟨hread.sameSettings.trans hsame, ?_⟩, ?_, ?_, ?_, ?_⟩
        · rintro ⟨⟩
        · intro hread
          rw [show state.restore = true from hread] at hunread
          cases hunread
        all_goals rintro ⟨⟩
      · rename_i os₃ original hget
        -- The settings that are kept for closing are those of the terminal before `open`.
        have horiginal := tcgetattr_reads hget
        rw [hget] at hread
        have hfound : original = os.settings (os.device port) := by
          rw [horiginal, htouches.terminal, hterminal, hsame]
          rfl
        have htouches₃ := htouches.trans hread.toTouches
        obtain ⟨happly, hsameExclusive⟩ := applyConfig_touches port fd original config os₃
        have hterminal₃ : os₃.terminal fd = os.device port :=
          (htouches₃.terminal fd).trans hterminal
        split
        · -- Not configured.
          rename_i os₄ thrown hconfig
          rw [hconfig] at happly
          refine ⟨fd, rfl, hfree, hidle, ⟨opens, htouches₃.trans happly⟩, ?_, fun _ => hfound, ?_,
            ?_, ?_⟩
          all_goals rintro ⟨⟩
        · rename_i os₄ hconfig
          -- All calls have succeeded; the flush changes no setting.
          have hflush := tcflush_spares fd os₄
          have hcarries (hvalid : Termios.Valid config) := applyConfig_carries hvalid hconfig
          have hsettings (hsets : os₃.sets = []) {options : Termios}
              (hrequested : original.requested config = some options) :=
            applyConfig_settings port fd hsets hrequested
          rw [hconfig] at happly hsameExclusive hsettings
          rw [hterminal₃] at hcarries hsettings
          refine ⟨fd, rfl, hfree, hidle,
            ⟨opens, (htouches₃.trans happly).trans hflush.toTouches⟩, ?_, fun _ => hfound, ?_, ?_,
            ?_⟩
          · rintro ⟨⟩
          · rintro - hasked
            have hset := hexclusive rfl hasked
            rw [hterminal] at hset
            show (os₄.tcflush fd).1.exclusive _ = true
            rw [hflush.sameExclusive, show os₄.exclusive = os₃.exclusive from hsameExclusive,
              show os₃.exclusive = os₂.exclusive from hread.sameExclusive]
            exact hset
          · rintro - hsets hvalid
            obtain ⟨code, hcode⟩ := hvalid.baudRate
            have hrequested := Termios.requested_eq original hcode
            show original.requested config = some ((os₄.tcflush fd).1.settings _)
            rw [hflush.sameSettings, hsettings (htouches₃.sets hsets) hrequested]
            exact hrequested
          · rintro - hvalid
            show ((os₄.tcflush fd).1.settings _).Carries config
            rw [hflush.sameSettings]
            exact hcarries hvalid

/-- Closing takes back what `open_native` has done, however far that got. -/
theorem Opened.undone {o : Opening} (h : Opened port config os fd o) (hsets : os.sets = []) :
    (closeNative fd config o.state o.os).files = os.files ∧
      (closeNative fd config o.state o.os).settings = os.settings ∧
      (∀ t, t ≠ os.device port →
        (closeNative fd config o.state o.os).exclusive t = os.exclusive t) ∧
      (closeNative fd config o.state o.os).sets = [] := by
  obtain ⟨opens, htouches⟩ := h.touches
  have hcloses := closeNative_closes fd config o.state o.os
  have hfile := os.withFile_terminal fd port opens
  have hterminal : o.os.terminal fd = os.device port := (htouches.terminal fd).trans hfile
  have hsets' : o.os.sets = [] := htouches.sets hsets
  refine ⟨?_, ?_, fun t ht => ?_, hcloses.sets hsets'⟩
  · rw [hcloses.files, htouches.files]
    show Function.update (Function.update os.files fd _) fd none = os.files
    rw [Function.update_idem, ← h.free, Function.update_eq_self]
  · -- The terminal of the port is put back if its settings were read; no other was touched.
    funext t
    by_cases ht : t = os.device port
    · subst ht
      cases hrestore : o.state.restore with
      | false =>
          rw [closeNative_unread hrestore]
          exact congrFun (h.unread hrestore).1 _
      | true =>
          have hput := closeNative_restores fd config hrestore hsets'
          rw [hterminal] at hput
          exact hput.trans (h.read hrestore)
    · rw [hcloses.settings t (by rwa [hterminal]), htouches.settings t (by rwa [hfile])]
      rfl
  · rw [hcloses.exclusive t (by rwa [hterminal]), htouches.exclusive t (by rwa [hfile])]
    rfl

/-! ### The object -/

/-- Closing a closed port does nothing. -/
theorem close_closed {p : PortObject} (h : p.handle = none) (os : Os) : (p.close os).1 = os := by
  unfold close
  dsimp only
  split
  · rfl
  · rename_i fd hfd
    rw [h] at hfd
    cases hfd

/-- Closing an open port is `close_native` on its descriptor. -/
theorem close_open {p : PortObject} (h : p.handle = some fd) {state : State}
    (hstate : p.state = some state) (os : Os) :
    (p.close os).1 = closeNative fd p.config state os := by
  unfold close
  dsimp only
  split
  · rename_i hnone
    rw [h] at hnone
    cases hnone
  · rename_i fd' hfd
    obtain rfl : fd = fd' := Option.some.inj (h.symm.trans hfd)
    congr 1
    exact Option.get_of_eq_some _ hstate

/-- A port that is open has its state. -/
theorem state_of_handle {p : PortObject} (h : p.handle = some fd) :
    ∃ state, p.state = some state :=
  Option.isSome_iff_exists.mp (p.state_of_open (by rw [h]; rfl))

/-- The constructor throws before it has a descriptor, or it throws and closes the descriptor, or
it leaves an object with the descriptor. -/
theorem construct_cases (port : List UInt8) (config : Config) (os : Os) :
    (∃ opens thrown, construct port config os = ({ os with opens := opens }, .error thrown)) ∨
      ∃ fd o, Opened port config os fd o ∧
        ((∃ thrown, construct port config os
            = (closeNative fd config o.state o.os, .error thrown)) ∨
          o.thrown = none ∧ Termios.Valid config ∧
            construct port config os = (o.os, .ok (made port config (some fd) o.state))) := by
  unfold construct
  split
  · rename_i thrown hvalidate
    exact .inl ⟨os.opens, thrown, rfl⟩
  · rename_i hvalidate
    have hvalid := Termios.validate_none hvalidate
    rcases openNative_cases port config os (show noState.restore = false from rfl) with
      ⟨opens, thrown, hopening⟩ | ⟨fd, hhandle, hopened⟩
    · rw [hopening]
      exact .inl ⟨opens, thrown, rfl⟩
    · right
      refine ⟨fd, _, hopened, ?_⟩
      -- The destructor does not run, so the constructor closes what `open_native` left open.
      generalize openNative port config noState os = o at *
      obtain ⟨os', handle, state, thrown⟩ := o
      obtain rfl : handle = some fd := hhandle
      cases thrown with
      | none => exact .inr ⟨rfl, hvalid, rfl⟩
      | some thrown =>
          have hclose := close_open (p := made port config (some fd) state) rfl rfl os'
          refine .inl ⟨thrown, ?_⟩
          show (((made port config (some fd) state).close os').1, Except.error thrown) = _
          rw [hclose]
          rfl

/-- What `set_baud_rate` does to an open port. -/
structure SetsRate (p : PortObject) (value : Nat) (os : Os) (fd : Nat) (state : State) : Prop where
  touches : Touches fd os (p.setBaudRate value os).1
  exclusive : (p.setBaudRate value os).1.exclusive = os.exclusive
  object : (p.setBaudRate value os).2.1 = p ∨
    (p.setBaudRate value os).2.1 = { p with config := { p.config with baudRate := value } }
  /-- The terminal is set as the configuration says. -/
  settled : os.sets = [] → state.original.requested p.config = some (os.settings (os.terminal fd)) →
    state.original.requested (p.setBaudRate value os).2.1.config
      = some ((p.setBaudRate value os).1.settings (os.terminal fd))
  carries : (p.setBaudRate value os).2.2 = none →
    (p.setBaudRate value os).2.1.config = { p.config with baudRate := value } ∧
      ((p.setBaudRate value os).1.settings (os.terminal fd)).Carries
        { p.config with baudRate := value }
  thrown : (p.setBaudRate value os).2.2 ≠ none → (p.setBaudRate value os).2.1 = p

/-- A closed port refuses a new baud rate. -/
theorem setBaudRate_closed {p : PortObject} (h : p.handle = none) (value : Nat) (os : Os) :
    p.setBaudRate value os = (os, p, some closedError) := by
  unfold setBaudRate
  split
  · rfl
  · rename_i fd hfd
    rw [h] at hfd
    cases hfd

/-- An open port asks the terminal for it. -/
theorem setBaudRate_changes {p : PortObject} (h : p.handle = some fd) {state : State}
    (hstate : p.state = some state) (value : Nat) (os : Os) :
    p.setBaudRate value os = p.changeRate fd state.original value os := by
  unfold setBaudRate
  split
  · rename_i hnone
    rw [h] at hnone
    cases hnone
  · rename_i fd' hfd
    obtain rfl : fd = fd' := Option.some.inj (h.symm.trans hfd)
    congr 2
    exact Option.get_of_eq_some _ hstate

/-- So on an open port a new rate is set, or the configuration and the terminal are as they were. -/
theorem setBaudRate_open {p : PortObject} (h : p.handle = some fd) {state : State}
    (hstate : p.state = some state) (value : Nat) (os : Os) : SetsRate p value os fd state := by
  have hchanges := setBaudRate_changes h hstate value os
  have hdrain := drainFrom_spares fd os os.drains
  -- Nothing has been changed yet.
  have early {os₁ : Os} {thrown : SetupError} (hspares : Spares fd os os₁)
      (heq : p.setBaudRate value os = (os₁, p, some thrown)) : SetsRate p value os fd state := by
    constructor <;> rw [heq]
    · exact hspares.toTouches
    · exact hspares.sameExclusive
    · exact .inl rfl
    · intro hsets hrequested
      exact hrequested.trans (congrArg some (congrFun hspares.sameSettings _).symm)
    · rintro ⟨⟩
    · exact fun _ => rfl
  unfold changeRate at hchanges
  dsimp only at hchanges
  split at hchanges
  · exact early (.refl fd os) hchanges
  · rename_i hvalidate
    have hvalid := Termios.validate_none hvalidate
    split at hchanges
    · rename_i os₁ number heq
      rw [heq] at hdrain
      exact early hdrain hchanges
    · rename_i os₁ heq
      rw [heq] at hdrain
      have hterminal : os₁.terminal fd = os.terminal fd := hdrain.terminal fd
      obtain ⟨happly, hexclusive⟩ := applyConfig_touches p.port fd state.original
        { p.config with baudRate := value } os₁
      have hexclusive₁ : os₁.exclusive = os.exclusive := hdrain.sameExclusive
      split at hchanges
      · -- The rate is refused.
        rename_i os₂ thrown hconfig
        rw [hconfig] at happly hexclusive
        obtain ⟨hback, hexclusiveBack⟩ :=
          applyConfig_touches p.port fd state.original p.config os₂
        have htouches : Touches fd os os₂ := hdrain.toTouches.trans happly
        constructor <;> rw [hchanges]
        · exact htouches.trans hback
        · exact hexclusiveBack.trans (hexclusive.trans hexclusive₁)
        · exact .inl rfl
        · intro hsets hrequested
          have hset := applyConfig_settings p.port fd (htouches.sets hsets) hrequested
          rw [htouches.terminal] at hset
          exact hrequested.trans (congrArg some hset.symm)
        · rintro ⟨⟩
        · exact fun _ => rfl
      · rename_i os₂ hconfig
        have hset (hsets : os₁.sets = []) {options : Termios}
            (hrequested : state.original.requested { p.config with baudRate := value }
              = some options) :=
          applyConfig_settings p.port fd hsets hrequested
        have hcarries := applyConfig_carries hvalid hconfig
        rw [hconfig] at happly hexclusive hset
        rw [hterminal] at hcarries hset
        constructor <;> rw [hchanges]
        · exact hdrain.toTouches.trans happly
        · exact hexclusive.trans hexclusive₁
        · exact .inr rfl
        · rintro hsets -
          obtain ⟨code, hcode⟩ := hvalid.baudRate
          have hrequested := Termios.requested_eq state.original hcode
          refine hrequested.trans (congrArg some ?_)
          exact (hset (hdrain.sets hsets) hrequested).symm
        · exact fun _ => ⟨rfl, hcarries⟩
        · exact fun hthrown => absurd rfl hthrown

/-- **What was read back.** Whatever `tcsetattr` makes of the settings: when the constructor
returns, the port is open on the terminal behind its path, and when `set_baud_rate` returns, it is
at the new rate. In both cases the terminal has the data bits, the stop bits, the parity and the
rate of the port's `config`. When `set_baud_rate` throws, the `config` is what it was. -/
theorem setup_carries (os : Os) :
    (∀ port config os' p, construct port config os = (os', .ok p) →
      ∃ fd, p.handle = some fd ∧ os'.files fd = some (os.device port) ∧ p.config = config ∧
        (os'.settings (os.device port)).Carries config) ∧
      (∀ (p : PortObject) value os' q, p.setBaudRate value os = (os', q, none) →
        ∃ fd, p.handle = some fd ∧ q.handle = some fd ∧ q.config.baudRate = value ∧
          (os'.settings (os.terminal fd)).Carries q.config) ∧
      ∀ (p : PortObject) value os' q thrown, p.setBaudRate value os = (os', q, some thrown) →
        q.config = p.config ∧ q.handle = p.handle := by
  refine ⟨fun port config os' p h => ?_, fun p value os' q h => ?_,
    fun p value os' q thrown h => ?_⟩
  · rcases construct_cases port config os with ⟨opens, thrown, heq⟩ |
      ⟨fd, o, hopened, ⟨thrown, heq⟩ | ⟨hthrown, hvalid, heq⟩⟩
    · rw [heq] at h
      cases h
    · rw [heq] at h
      cases h
    · rw [heq] at h
      cases h
      obtain ⟨opens, htouches⟩ := hopened.touches
      -- Only the last of the three ends leaves an object.
      refine ⟨fd, rfl, ?_, rfl, hopened.carries hthrown hvalid⟩
      rw [htouches.files]
      exact Function.update_self ..
  · cases hfd : p.handle with
    | none =>
        rw [setBaudRate_closed hfd] at h
        cases h
    | some fd =>
        obtain ⟨state, hstate⟩ := state_of_handle hfd
        have hsets := setBaudRate_open hfd hstate value os
        obtain ⟨hconfig, hcarries⟩ := hsets.carries (by rw [h])
        have hobject := hsets.object
        rw [h] at hconfig hcarries hobject
        -- `config` is changed at the end, when the terminal carries it.
        have hconfig' : q.config = { p.config with baudRate := value } := hconfig
        refine ⟨fd, rfl, ?_, ?_, ?_⟩
        · rcases hobject with hsame | hchanged
          · exact (congrArg PortObject.handle hsame).trans hfd
          · exact (congrArg PortObject.handle hchanged).trans hfd
        · rw [hconfig']
        · rw [hconfig']
          exact hcarries
  · cases hfd : p.handle with
    | none =>
        rw [setBaudRate_closed hfd] at h
        cases h
        exact ⟨rfl, hfd⟩
    | some fd =>
        obtain ⟨state, hstate⟩ := state_of_handle hfd
        have hsame := (setBaudRate_open hfd hstate value os).thrown (by rw [h]; rintro ⟨⟩)
        rw [h] at hsame
        obtain rfl : q = p := hsame
        exact ⟨rfl, hfd⟩

/-- A system with one terminal, on which every call succeeds. -/
def plainOs : Os where
  device := fun _ => 0
  files := fun _ => none
  settings := fun _ => noState.original
  exclusive := fun _ => false
  opens := [.ok 3]
  ioctls := []
  gets := []
  sets := []
  drains := []
  flushes := []
  ledger := []

example : ((construct (text "/dev/ttyUSB0")
    { baudRate := 115200, parity := .odd } plainOs).2.toOption
    |>.bind PortObject.handle) = some 3 := by
  decide +kernel

/-- The flush family leaves the descriptor and the terminal alone. -/
theorem flush_spares (p : PortObject) (input : Bool) (os : Os) :
    (p.flush input os).2.1.handle = p.handle ∧ (p.flush input os).2.1.config = p.config ∧
      (p.flush input os).2.1.state = p.state ∧ (p.handle = none → (p.flush input os).1 = os) ∧
      ∀ fd, p.handle = some fd → Spares fd os (p.flush input os).1 := by
  unfold flush
  dsimp only
  -- The read buffer is dropped first, which the descriptor and the settings do not see.
  have hflushed : ∃ q : PortObject, (if input then
      { p with
          reader := p.reader.reset p.reader.isOpen id
          reader_open := p.reader_open }
      else p) = q ∧ q.handle = p.handle ∧ q.config = p.config ∧ q.state = p.state := by
    cases input <;> exact ⟨_, rfl, rfl, rfl, rfl⟩
  obtain ⟨q, hq, hhandle, hconfig, hstate⟩ := hflushed
  rw [hq]
  split
  · rename_i hnone
    rw [hnone] at hhandle
    refine ⟨hnone.trans hhandle, hconfig, hstate, fun _ => rfl, fun fd hsome => ?_⟩
    rw [← hhandle] at hsome
    cases hsome
  · rename_i fd hsome
    have hspares := tcflush_spares fd os
    have hfd : p.handle = some fd := hhandle.symm.trans hsome
    have hopen (os' : Os) (h : Spares fd os os') (fd' : Nat) (hfd' : p.handle = some fd') :
        Spares fd' os os' := by
      obtain rfl : fd = fd' := Option.some.inj (hfd.symm.trans hfd')
      exact h
    split
    · rename_i os₁ number heq
      rw [heq] at hspares
      refine ⟨hhandle, hconfig, hstate, fun hnone => ?_, hopen os₁ hspares⟩
      rw [hfd] at hnone
      cases hnone
    · rename_i os₁ heq
      rw [heq] at hspares
      refine ⟨hhandle, hconfig, hstate, fun hnone => ?_, hopen os₁ hspares⟩
      rw [hfd] at hnone
      cases hnone

end PortObject

end SerialRpc
