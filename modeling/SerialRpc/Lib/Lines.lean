import SerialRpc.Lib.LineBuffer
import Mathlib.Data.List.ReduceOption

/-!
# `SerialRpc.Lib.Lines`: lines that end with CR, LF or CRLF

`completeLines` are the lines of a text that have ended. A reader that works element by element
cannot look ahead, and so it ends a line at the CR and passes over an LF that follows: `step`. It
keeps at most `max` elements of a line.

* `Reads` says that the reader has come from one state to another without leaving its line, or
  with the last element just ended it. `Reads.parts` takes apart what it has read: the rest of a
  pair, the line, what was too much, and the end.
* `heard` are the lines that a caller gets who starts anew at each interruption, `none`.
  `heard_iff` compares them with the complete lines: they are the same if and only if no
  interruption comes within a line that ends later.
-/

set_option autoImplicit false

namespace Lines

variable {α : Type} [DecidableEq α] (cr lf : α) (max : Nat)

/-- The ends of lines. -/
def IsEnd (c : α) : Prop := c = cr ∨ c = lf

instance : DecidablePred (IsEnd cr lf) := fun c => inferInstanceAs (Decidable (c = cr ∨ c = lf))

/-- The lines of a text that have ended, the first of which starts with `line`. -/
def completeLines (line : List α) : List α → List (List α)
  | [] => []
  | [c] => if IsEnd cr lf c then [line] else []
  | c :: d :: text =>
      if c = cr ∧ d = lf then line :: completeLines [] text
      else if IsEnd cr lf c then line :: completeLines [] (d :: text)
      else completeLines (line ++ [c]) (d :: text)

/-- Where a reader is. -/
structure State (α : Type) where
  /-- The last element was a CR. -/
  afterCr : Bool
  /-- The line so far. -/
  line : List α

/-- One element: where it brings the reader, and whether it ends the line. -/
def step (s : State α) (c : α) : State α × Bool :=
  -- The rest of a pair, whose CR has ended the line before.
  if s.afterCr = true ∧ c = lf then (⟨false, s.line⟩, false)
  else if c = lf then (⟨false, s.line⟩, true)
  else if c = cr then (⟨true, s.line⟩, true)
  -- Too much.
  else if max ≤ s.line.length then (⟨false, s.line⟩, false)
  else (⟨false, s.line ++ [c]⟩, false)

/-- The reader comes from one state to another, and the last element may have ended its line. -/
inductive Reads : State α → List α → State α → Bool → Prop
  | nil (s : State α) : Reads s [] s false
  | ended {s s' : State α} {c : α} : step cr lf max s c = (s', true) → Reads s [c] s' true
  | more {s s₁ s' : State α} {c : α} {cs : List α} {e : Bool} :
      step cr lf max s c = (s₁, false) → Reads s₁ cs s' e → Reads s (c :: cs) s' e

variable {cr lf max}

/-- What a step can do. -/
theorem step_cases (max : Nat) (hne : cr ≠ lf) (s : State α) (c : α) :
    (s.afterCr = true ∧ c = lf ∧ step cr lf max s c = (⟨false, s.line⟩, false)) ∨
    (IsEnd cr lf c ∧ ¬ (s.afterCr = true ∧ c = lf) ∧
      step cr lf max s c = (⟨decide (c = cr), s.line⟩, true)) ∨
    (¬ IsEnd cr lf c ∧ max ≤ s.line.length ∧ step cr lf max s c = (⟨false, s.line⟩, false)) ∨
    (¬ IsEnd cr lf c ∧ s.line.length < max ∧
      step cr lf max s c = (⟨false, s.line ++ [c]⟩, false)) := by
  unfold step
  split_ifs with hpair hlf hcr hfull
  · exact .inl ⟨hpair.1, hpair.2, rfl⟩
  · have hother : decide (c = cr) = false := decide_eq_false fun heq => hne (heq.symm.trans hlf)
    rw [hother]
    exact .inr (.inl ⟨.inr hlf, hpair, rfl⟩)
  · rw [decide_eq_true hcr]
    exact .inr (.inl ⟨.inl hcr, hpair, rfl⟩)
  · exact .inr (.inr (.inl ⟨fun hend => hend.elim hcr hlf, hfull, rfl⟩))
  · exact .inr (.inr (.inr ⟨fun hend => hend.elim hcr hlf, Nat.lt_of_not_le hfull, rfl⟩))

/-- Reading goes on where it stopped within a line. -/
theorem Reads.trans {s₁ s₂ s₃ : State α} {cs ds : List α} {e : Bool}
    (h : Reads cr lf max s₁ cs s₂ false) (h' : Reads cr lf max s₂ ds s₃ e) :
    Reads cr lf max s₁ (cs ++ ds) s₃ e := by
  generalize hended : false = e' at h
  induction h with
  | nil s => exact h'
  | ended hstep => cases hended
  | more hstep _ ih => exact .more hstep (ih h' hended)

/-- A line ends with a byte. -/
theorem Reads.ne_nil {s s' : State α} {cs : List α} (h : Reads cr lf max s cs s' true) :
    cs ≠ [] := by
  cases h <;> exact List.cons_ne_nil _ _

/-! ### What a reader has read -/

/-- What a reader has read, in four parts: the LF of a pair, what it has added to its line, what
was too much, and the end. -/
structure Parts (cr lf : α) (max : Nat) (s s' : State α) (e : Bool)
    (swallowed added excess ending : List α) : Prop where
  /-- Only behind a CR. -/
  swallowed_or : swallowed = [] ∨ s.afterCr = true ∧ swallowed = [lf]
  line : s'.line = s.line ++ added
  text : ∀ c ∈ added ++ excess, ¬ IsEnd cr lf c
  room : added ≠ [] → s'.line.length ≤ max
  full : excess ≠ [] → max ≤ s'.line.length
  ending_or : e = false ∧ ending = [] ∨ e = true ∧ (ending = [lf] ∨ ending = [cr])

section

variable {s s' : State α} {e : Bool} {c : α} {swallowed added excess ending : List α}

omit [DecidableEq α] in
/-- The parts of no bytes. -/
theorem Parts.nil (s : State α) : Parts cr lf max s s false [] [] [] [] where
  swallowed_or := .inl rfl
  line := (List.append_nil _).symm
  text := by simp
  room := fun hne => absurd rfl hne
  full := fun hne => absurd rfl hne
  ending_or := .inl ⟨rfl, rfl⟩

omit [DecidableEq α] in
/-- The parts of one byte that ends the line. -/
theorem Parts.ended (s : State α) (flag : Bool) (hc : IsEnd cr lf c) :
    Parts cr lf max s ⟨flag, s.line⟩ true [] [] [] [c] where
  swallowed_or := .inl rfl
  line := (List.append_nil _).symm
  text := by simp
  room := fun hne => absurd rfl hne
  full := fun hne => absurd rfl hne
  ending_or := .inr ⟨rfl, hc.symm.imp (congrArg ([·])) (congrArg ([·]))⟩

omit [DecidableEq α] in
/-- Only behind a CR is anything passed over. -/
theorem Parts.swallowed_nil {line : List α}
    (h : Parts cr lf max ⟨false, line⟩ s' e swallowed added excess ending) : swallowed = [] := by
  rcases h.swallowed_or with hnil | ⟨hcr, -⟩
  · exact hnil
  · cases hcr

omit [DecidableEq α] in
/-- The LF of a pair in front. -/
theorem Parts.swallow (hcr : s.afterCr = true)
    (h : Parts cr lf max ⟨false, s.line⟩ s' e [] added excess ending) :
    Parts cr lf max s s' e [lf] added excess ending where
  swallowed_or := .inr ⟨hcr, rfl⟩
  line := h.line
  text := h.text
  room := h.room
  full := h.full
  ending_or := h.ending_or

omit [DecidableEq α] in
/-- One element more in front than the line has room for. -/
theorem Parts.discard (hc : ¬ IsEnd cr lf c) (hfull : max ≤ s.line.length)
    (h : Parts cr lf max ⟨false, s.line⟩ s' e [] added excess ending) :
    added = [] ∧ Parts cr lf max s s' e [] [] (c :: excess) ending := by
  -- The line is full, and so nothing is added later either.
  have hadded : added = [] := by
    by_contra hadded
    have hlength := h.room hadded
    have hpos := List.length_pos_iff.mpr hadded
    rw [h.line, List.length_append] at hlength
    dsimp only at hlength
    omega
  subst hadded
  have hline : s'.line = s.line := h.line.trans (List.append_nil _)
  exact ⟨rfl,
    { swallowed_or := .inl rfl
      line := h.line
      text := List.forall_mem_cons.mpr ⟨hc, h.text⟩
      room := fun hne => absurd rfl hne
      full := fun _ => by rw [hline]; exact hfull
      ending_or := h.ending_or }⟩

omit [DecidableEq α] in
/-- One more element of the line in front. -/
theorem Parts.keep (hc : ¬ IsEnd cr lf c) (hroom : s.line.length < max)
    (h : Parts cr lf max ⟨false, s.line ++ [c]⟩ s' e [] added excess ending) :
    Parts cr lf max s s' e [] (c :: added) excess ending := by
  have hline : s'.line = s.line ++ c :: added := by
    rw [h.line]
    simp
  exact
    { swallowed_or := .inl rfl
      line := hline
      text := List.forall_mem_cons.mpr ⟨hc, h.text⟩
      room := fun _ => by
        by_cases hadded : added = []
        · rw [hline, hadded, List.length_append, List.length_singleton]
          exact hroom
        · exact h.room hadded
      full := h.full
      ending_or := h.ending_or }

end

/-- **The parts of what a line is read from**: a line feed that belongs to the line before, what is
added, what is too much, and the end. -/
theorem Reads.parts (hne : cr ≠ lf) {s s' : State α} {cs : List α} {e : Bool}
    (h : Reads cr lf max s cs s' e) :
    ∃ swallowed added excess ending, cs = swallowed ++ added ++ excess ++ ending ∧
      Parts cr lf max s s' e swallowed added excess ending := by
  -- By induction on the reading. The last byte of it is the one that ends the line.
  induction h with
  | nil s => exact ⟨[], [], [], [], rfl, .nil s⟩
  | @ended s s' c hstep =>
      obtain ⟨-, -, h⟩ | ⟨hend, -, h⟩ | ⟨-, -, h⟩ | ⟨-, -, h⟩ := step_cases max hne s c
      all_goals
        rw [h] at hstep
        cases hstep
      exact ⟨[], [], [], [c], rfl, .ended s _ hend⟩
  | @more s s₁ s' c cs e hstep _ ih =>
      obtain ⟨swallowed, added, excess, ending, rfl, parts⟩ := ih
      -- One more byte goes in front of the part it belongs to: the swallowed, the added or the
      -- excess.
      obtain ⟨hcr, rfl, h⟩ | ⟨-, -, h⟩ | ⟨htext, hfull, h⟩ | ⟨htext, hroom, h⟩ :=
        step_cases max hne s c
      all_goals
        rw [h] at hstep
        cases hstep
      all_goals obtain rfl := parts.swallowed_nil
      · exact ⟨[c], added, excess, ending, rfl, parts.swallow hcr⟩
      · obtain ⟨rfl, hdiscard⟩ := parts.discard htext hfull
        exact ⟨[], [], c :: excess, ending, rfl, hdiscard⟩
      · exact ⟨[], c :: added, excess, ending, rfl, parts.keep htext hroom⟩

/-! ### Complete lines, element by element -/

variable (cr lf)

/-- The complete lines of a text that a reader is within, who has not cut any line. -/
def linesFrom (afterCr : Bool) (line : List α) : List α → List (List α)
  | [] => []
  | c :: text =>
      if afterCr = true ∧ c = lf then linesFrom false line text
      else if IsEnd cr lf c then line :: linesFrom (decide (c = cr)) [] text
      else linesFrom false (line ++ [c]) text

variable {cr lf}

/-- Without looking ahead, the same lines. -/
theorem linesFrom_eq (hne : cr ≠ lf) (line text : List α) :
    linesFrom cr lf false line text = completeLines cr lf line text := by
  have hafter (d : α) (text : List α) (hd : d ≠ lf) :
      linesFrom cr lf true [] (d :: text) = linesFrom cr lf false [] (d :: text) := by
    simp [linesFrom, hd]
  fun_induction completeLines cr lf line text with
  | case1 => rfl
  | case2 => simp [linesFrom, *]
  | case3 => simp [linesFrom, *]
  | case4 line c d text hpair ih =>
      -- The LF is passed over.
      obtain ⟨rfl, rfl⟩ := hpair
      have hend : IsEnd c d c := .inl rfl
      simp [linesFrom, hend, ih]
  | case5 line c d text hpair hend ih =>
      rw [linesFrom, if_neg (by simp), if_pos hend, ← ih]
      by_cases hc : c = cr
      · rw [decide_eq_true hc, hafter d text fun hd => hpair ⟨hc, hd⟩]
      · rw [decide_eq_false hc]
  | case6 line c d text hpair hend ih =>
      rw [linesFrom, if_neg (by simp), if_neg hend, ih]

/-! ### Reading with interruptions -/

/-- The texts between the ends of lines are no longer than `max`. -/
def Within (cr lf : α) (max : Nat) (text : List α) : Prop :=
  ∀ part ∈ text.splitOnP (fun c => IsEnd cr lf c), part.length ≤ max

instance (text : List α) : Decidable (Within cr lf max text) :=
  inferInstanceAs
    (Decidable (∀ part ∈ text.splitOnP (fun c => IsEnd cr lf c), part.length ≤ max))

/-- A text that starts within a line. -/
theorem splitOnP_append {line : List α} (hline : ∀ x ∈ line, ¬ IsEnd cr lf x) (text : List α) :
    (line ++ text).splitOnP (fun c => IsEnd cr lf c)
      = (text.splitOnP (fun c => IsEnd cr lf c)).modifyHead (line ++ ·) :=
  LineBuffer.splitOnP_within (by simpa using hline) text

/-- Behind the end of a line, the lines are no longer than `max` either. -/
theorem Within.tail {line text : List α} {c : α} (hline : ∀ x ∈ line, ¬ IsEnd cr lf x)
    (hc : IsEnd cr lf c) (h : Within cr lf max (line ++ c :: text)) : Within cr lf max text := by
  intro part hpart
  refine h part ?_
  rw [List.splitOnP_append_cons_of_forall_mem (by simpa using hline) c (by simpa using hc)]
  exact List.mem_cons_of_mem line hpart

/-- A line is part of one of the texts. -/
theorem Within.length_le {line : List α} (text : List α) (hline : ∀ x ∈ line, ¬ IsEnd cr lf x)
    (h : Within cr lf max (line ++ text)) : line.length ≤ max := by
  unfold Within at h
  rw [splitOnP_append hline] at h
  cases hparts : text.splitOnP (fun c => IsEnd cr lf c) with
  | nil => exact absurd hparts (List.splitOnP_ne_nil _ _)
  | cons part parts =>
      have hpart := h (line ++ part) (by rw [hparts]; exact List.mem_cons_self)
      rw [List.length_append] at hpart
      exact Nat.le_of_add_right_le hpart

variable (cr lf max)

/-- The lines that a caller gets who reads them one by one and starts anew at each
interruption. -/
def heard (s : State α) : List (Option α) → List (List α)
  | [] => []
  | none :: events => heard ⟨s.afterCr, []⟩ events
  | some c :: events =>
      let next := step cr lf max s c
      if next.2 then next.1.line :: heard ⟨next.1.afterCr, []⟩ events
      else heard next.1 events

/-- Within a line. -/
def MidLine (text : List α) : Prop := ∃ c ∈ text.getLast?, ¬ IsEnd cr lf c

/-- Behind `text`, no interruption comes within a line that ends later. -/
def Spares (text : List α) (events : List (Option α)) : Prop :=
  ∀ before after, events = before ++ none :: after →
    MidLine cr lf (text ++ before.reduceOption) → ∀ c ∈ after.reduceOption, ¬ IsEnd cr lf c

variable {cr lf max}

omit [DecidableEq α] in
/-- A line that has ended says nothing about what comes behind it. -/
theorem midLine_append_cons {c : α} (hc : IsEnd cr lf c) (line text : List α) :
    MidLine cr lf (line ++ c :: text) ↔ MidLine cr lf text := by
  unfold MidLine
  cases text with
  | nil => simp [hc]
  | cons d text => simp [List.getLast?_append, List.getLast?_cons]

omit [DecidableEq α] in
/-- Without an end the text stands in a line, if there is any. -/
theorem midLine_iff {line : List α} (hline : ∀ x ∈ line, ¬ IsEnd cr lf x) :
    MidLine cr lf line ↔ line ≠ [] := by
  constructor
  · rintro ⟨c, hc, -⟩ rfl
    cases hc
  · intro hnil
    exact ⟨line.getLast hnil, List.getLast?_eq_some_getLast hnil,
      hline _ (List.getLast_mem hnil)⟩

omit [DecidableEq α] in
/-- The places of an element in a list, which is the first or later. -/
theorem forall_split_cons {x y : α} {xs : List α} {P : List α → List α → Prop} :
    (∀ before after, x :: xs = before ++ y :: after → P before after) ↔
      (x = y → P [] xs) ∧ ∀ before after, xs = before ++ y :: after → P (x :: before) after := by
  constructor
  · intro h
    refine ⟨?_, fun before after hsplit => h (x :: before) after (congrArg (x :: ·) hsplit)⟩
    rintro rfl
    exact h [] xs rfl
  · rintro ⟨hfirst, hlater⟩ before after hsplit
    cases before with
    | nil =>
        obtain ⟨rfl, rfl⟩ := List.cons_eq_cons.mp hsplit
        exact hfirst rfl
    | cons head before =>
        obtain ⟨rfl, rfl⟩ := List.cons_eq_cons.mp hsplit
        exact hlater before after rfl

omit [DecidableEq α] in
/-- A timeout is harmless between two lines, or where no line ends later on. -/
theorem spares_none {text : List α} {events : List (Option α)} :
    Spares cr lf text (none :: events) ↔
      (MidLine cr lf text → ∀ c ∈ events.reduceOption, ¬ IsEnd cr lf c) ∧
      Spares cr lf text events := by
  simp [Spares, forall_split_cons]

omit [DecidableEq α] in
/-- A byte is part of the text from then on. -/
theorem spares_some {text : List α} {c : α} {events : List (Option α)} :
    Spares cr lf text (some c :: events) ↔ Spares cr lf (text ++ [c]) events := by
  simp [Spares, forall_split_cons]

omit [DecidableEq α] in
/-- An end makes a new start. -/
theorem spares_end {text : List α} {c : α} {events : List (Option α)} (hc : IsEnd cr lf c) :
    Spares cr lf (text ++ [c]) events ↔ Spares cr lf [] events := by
  unfold Spares
  simp only [List.append_assoc, List.singleton_append, List.nil_append,
    midLine_append_cons hc]

/-- What is heard when a byte ends the line. -/
theorem heard_ended {s s' : State α} {c : α} (h : step cr lf max s c = (s', true))
    (events : List (Option α)) :
    heard cr lf max s (some c :: events) = s'.line :: heard cr lf max ⟨s'.afterCr, []⟩ events := by
  rw [heard, h]
  rfl

/-- What is heard when it does not. -/
theorem heard_more {s s' : State α} {c : α} (h : step cr lf max s c = (s', false))
    (events : List (Option α)) :
    heard cr lf max s (some c :: events) = heard cr lf max s' events := by
  rw [heard, h]
  rfl

/-- Without interruptions a caller hears the line that has ended. -/
theorem Reads.heard_append {s s' : State α} {cs : List α} {e : Bool}
    (h : Reads cr lf max s cs s' e) (events : List (Option α)) :
    heard cr lf max s (cs.map some ++ events)
      = if e then s'.line :: heard cr lf max ⟨s'.afterCr, []⟩ events
        else heard cr lf max s' events := by
  induction h with
  | nil s => rfl
  | ended hstep => exact heard_ended hstep events
  | more hstep _ ih =>
      rw [List.map_cons, List.cons_append, heard_more hstep]
      exact ih

/-- What is heard is the complete lines if and only if what an interruption has lost, `lost`, is no
part of one of them. -/
theorem heard_from_iff (hne : cr ≠ lf) (events : List (Option α)) (afterCr : Bool)
    (lost line : List α) (htext : ∀ x ∈ lost ++ line, ¬ IsEnd cr lf x)
    (hafter : afterCr = true → lost ++ line = [])
    (hwithin : Within cr lf max (lost ++ line ++ events.reduceOption)) :
    heard cr lf max ⟨afterCr, line⟩ events
        = linesFrom cr lf afterCr (lost ++ line) events.reduceOption ↔
      (lost ≠ [] → ∀ c ∈ events.reduceOption, ¬ IsEnd cr lf c) ∧
      Spares cr lf (lost ++ line) events := by
  -- `lost ++ line` is what the text says of the line, and `line` what the caller has of it.
  induction events generalizing afterCr lost line with
  | nil =>
      have hspares : Spares cr lf (lost ++ line) [] := by
        intro before after hsplit
        cases before <;> cases hsplit
      simp [heard, linesFrom, hspares]
  | cons event events ih =>
      cases event with
      | none =>
          -- What has been read of the line is lost too.
          have hlost : ∀ x ∈ (lost ++ line) ++ [], ¬ IsEnd cr lf x := by simpa using htext
          have hrest := ih afterCr (lost ++ line) [] hlost (by simpa using hafter)
            (by simpa using hwithin)
          have hnil : lost ≠ [] → lost ++ line ≠ [] := by
            intro hlost
            exact List.append_ne_nil_of_left_ne_nil hlost line
          rw [List.append_nil] at hrest
          rw [heard, List.reduceOption_cons_of_none, hrest, spares_none, midLine_iff htext]
          tauto
      | some c =>
          rw [List.reduceOption_cons_of_some] at hwithin ⊢
          rw [spares_some]
          have hnext (hother : ¬ IsEnd cr lf c) : ∀ x ∈ lost ++ (line ++ [c]), ¬ IsEnd cr lf x := by
            rw [← List.append_assoc]
            intro x hx
            rcases List.mem_append.mp hx with hx | hx
            · exact htext x hx
            · rw [List.mem_singleton.mp hx]
              exact hother
          obtain ⟨hcr, hlf, hstep⟩ | ⟨hend, hpair, hstep⟩ | ⟨hother, hfull, hstep⟩ |
            ⟨hother, hroom, hstep⟩ := step_cases max hne ⟨afterCr, line⟩ c
          · -- The LF of a pair, in front of the line.
            obtain ⟨rfl, rfl⟩ := List.append_eq_nil_iff.mp (hafter hcr)
            have hend : IsEnd cr lf c := .inr hlf
            have hrest := ih false [] [] htext (by simp) (hwithin.tail htext hend)
            rw [heard_more hstep, linesFrom, if_pos ⟨hcr, hlf⟩, spares_end hend, hrest]
            simp
          · -- The caller gets what has not been lost of the line.
            have hrest := ih (decide (c = cr)) [] [] (by simp)
              (by simp) (hwithin.tail htext hend)
            have hline : line = lost ++ line ↔ lost = [] := by simp
            have hlost : (lost ≠ [] → ∀ x ∈ c :: events.reduceOption, ¬ IsEnd cr lf x)
                ↔ lost = [] := by
              simp [hend]
            rw [heard_ended hstep, linesFrom, if_neg hpair, if_pos hend, spares_end hend,
              List.cons_eq_cons, hline, hlost]
            simpa using fun _ => hrest
          · -- The line has room.
            have hlength := Within.length_le events.reduceOption (hnext hother)
              (by simpa using hwithin)
            rw [List.length_append, List.length_append, List.length_singleton] at hlength
            dsimp only at hfull
            omega
          · -- One more element of the line.
            have hpair : ¬ (afterCr = true ∧ c = lf) := fun h => hother (.inr h.2)
            have hrest := ih false lost (line ++ [c]) (hnext hother) (by simp)
              (by simpa using hwithin)
            rw [heard_more hstep, linesFrom, if_neg hpair, if_neg hother, List.append_assoc, hrest]
            simp [hother]

/-- From the start. -/
theorem heard_iff (hne : cr ≠ lf) {events : List (Option α)}
    (hwithin : Within cr lf max events.reduceOption) :
    heard cr lf max ⟨false, []⟩ events = completeLines cr lf [] events.reduceOption ↔
      Spares cr lf [] events := by
  have h := heard_from_iff hne events false [] [] (by simp) (by simp)
    (by simpa using hwithin)
  rw [← linesFrom_eq hne]
  simpa using h

/-! ### Scripts -/

/-- A text in chunks. An interruption is a chunk that is empty. -/
def scriptEvents (script : List (List α)) : List (Option α) :=
  script.flatMap fun chunk => if chunk.isEmpty then [none] else chunk.map some

omit [DecidableEq α] in
/-- The bytes of a script are those of its chunks. -/
theorem scriptEvents_reduceOption (script : List (List α)) :
    (scriptEvents script).reduceOption = script.flatten := by
  induction script with
  | nil => rfl
  | cons chunk script ih =>
      rw [scriptEvents, List.flatMap_cons, List.reduceOption_append, List.flatten_cons]
      refine congrArg₂ (· ++ ·) ?_ ih
      cases chunk with
      | nil => rfl
      | cons c chunk => simp [List.reduceOption]

omit [DecidableEq α] in
/-- A whole chunk is part of the text from then on. -/
theorem spares_map {text chunk : List α} {events : List (Option α)} :
    Spares cr lf text (chunk.map some ++ events) ↔ Spares cr lf (text ++ chunk) events := by
  induction chunk generalizing text with
  | nil => simp
  | cons c chunk ih =>
      rw [List.map_cons, List.cons_append, spares_some, ih, List.append_assoc,
        List.singleton_append]

omit [DecidableEq α] in
/-- There is one timeout for each chunk at most. -/
theorem scriptEvents_length_le (script : List (List α)) :
    (scriptEvents script).length ≤ script.length + script.flatten.length := by
  induction script with
  | nil => exact Nat.le_refl 0
  | cons chunk script ih =>
      have hchunk : (if chunk.isEmpty then [none] else chunk.map some).length
          ≤ 1 + chunk.length := by
        split_ifs <;> simp
      rw [scriptEvents, List.flatMap_cons, List.length_append, List.flatten_cons,
        List.length_append, List.length_cons]
      rw [scriptEvents] at ih
      omega

omit [DecidableEq α] in
/-- Without interruptions there is only the text. -/
theorem scriptEvents_text {script : List (List α)} (h : ∀ chunk ∈ script, chunk ≠ []) :
    scriptEvents script = script.flatten.map some := by
  induction script with
  | nil => rfl
  | cons chunk script ih =>
      obtain ⟨hchunk, hscript⟩ := List.forall_mem_cons.mp h
      have hevents : chunk.isEmpty = false := by simpa using hchunk
      rw [List.flatten_cons, List.map_append, ← ih hscript, scriptEvents, List.flatMap_cons,
        hevents]
      rfl

omit [DecidableEq α] in
/-- No interruption of a script comes within a line that ends later. -/
theorem spares_scriptEvents (text : List α) (script : List (List α)) :
    Spares cr lf text (scriptEvents script) ↔
      ∀ before after, script = before ++ [] :: after →
        MidLine cr lf (text ++ before.flatten) → ∀ c ∈ after.flatten, ¬ IsEnd cr lf c := by
  induction script generalizing text with
  | nil =>
      constructor <;> intro _ before after hsplit <;> cases before <;> cases hsplit
  | cons chunk script ih =>
      cases chunk with
      | nil =>
          have hevents : scriptEvents ([] :: script) = none :: scriptEvents script := rfl
          rw [hevents, spares_none, ih, scriptEvents_reduceOption, forall_split_cons]
          simp
      | cons c chunk =>
          have hevents : scriptEvents ((c :: chunk) :: script)
              = (c :: chunk).map some ++ scriptEvents script := rfl
          rw [hevents, spares_map, ih, forall_split_cons]
          simp

end Lines
