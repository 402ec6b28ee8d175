import SerialRpc.Lib.MsgPack
import Mathlib.Computability.StateTransition

/-!
# `SerialRpc.Lib.MsgPackWalk`: walking over MessagePack objects without recursion

A walk keeps two things: how many objects it still has to pass, and the bytes that are left.
One round (`exactRound`) passes the header and the body of the first object owed, and owes
its children instead. `reaches_iff` says that this flat walk knows the recursive grammar: it
comes to owing nothing exactly behind so many complete objects.

`Plain levels` are the objects without an extension whose containers are nested no deeper
than `levels`, for readers that have no extension type and bound their recursion.

The first section is about any deterministic step function.
-/

set_option autoImplicit false

namespace MsgPack

open StateTransition

/-! ### Deterministic steps -/

section Steps

variable {σ : Type} {f g : σ → Option σ} {a b c : σ}

/-- From a state without a next one nothing else is reached. -/
theorem reaches_of_none (h : f a = none) (hab : Reaches f a b) : a = b := by
  cases hab.cases_head with
  | inl heq => exact heq
  | inr hnext =>
      obtain ⟨d, hd, -⟩ := hnext
      rw [h] at hd
      cases hd

/-- One step, and the rest of the way. -/
theorem reaches_step (h : f a = some b) (hac : Reaches f a c) (hne : a ≠ c) : Reaches f b c := by
  cases hac.cases_head with
  | inl heq => exact absurd heq hne
  | inr hnext =>
      obtain ⟨d, hd, hdc⟩ := hnext
      rw [Option.mem_def, h] at hd
      cases hd
      exact hdc

/-- Every state on the way lies before the end. -/
theorem reaches_end (hab : Reaches f a b) (hac : Reaches f a c) (hend : f c = none) :
    Reaches f b c := by
  cases reaches_total hab hac with
  | inl hbc => exact hbc
  | inr hcb =>
      rw [reaches_of_none hend hcb]
      exact .refl

/-- Two step functions that agree on the way of the first one go the same way. -/
theorem reaches_congr (h : ∀ s, Reaches f a s → f s = g s) : Reaches f a b ↔ Reaches g a b := by
  constructor
  · intro hab
    induction hab with
    | refl => exact .refl
    | tail hprev hstep ih =>
        rw [h _ hprev] at hstep
        exact ih.tail hstep
  · intro hab
    induction hab with
    | refl => exact .refl
    | tail hprev hstep ih =>
        rw [← h _ ih] at hstep
        exact ih.tail hstep

end Steps

/-! ### Sequences, header by header -/

/-- A sequence has at least one byte for each object. -/
theorem Sequence.le_length {n : Nat} {bs : List UInt8} (h : Sequence n bs) : n ≤ bs.length := by
  induction n generalizing bs with
  | zero => exact Nat.zero_le _
  | succ n ih =>
      obtain ⟨⟩ | ⟨first, others⟩ := h
      obtain ⟨t, header, length, children⟩ := first
      have hone := (token_length header).1
      have hothers := ih others
      simp only [List.length_append]
      omega

/-- A sequence falls into a front and a back of any number of objects. -/
theorem Sequence.split {m n : Nat} {bs : List UInt8} (h : Sequence (m + n) bs) :
    ∃ front back, bs = front ++ back ∧ Sequence m front ∧ Sequence n back := by
  induction m generalizing bs with
  | zero =>
      rw [Nat.zero_add] at h
      exact ⟨[], bs, rfl, .nil, h⟩
  | succ m ih =>
      rw [Nat.succ_add] at h
      obtain ⟨⟩ | ⟨first, others⟩ := h
      rename_i object rest
      obtain ⟨front, back, rfl, hfront, hback⟩ := ih others
      exact ⟨object ++ front, back, (List.append_assoc _ _ _).symm, .cons first hfront, hback⟩

/-- A sequence that is not empty starts with a header. -/
theorem Sequence.exists_token {n : Nat} {bs : List UInt8} (h : Sequence (n + 1) bs) :
    ∃ t k, token bs = some (t, k) := by
  obtain ⟨⟩ | ⟨first, others⟩ := h
  obtain ⟨t, header, length, children⟩ := first
  rw [List.append_assoc, List.append_assoc]
  exact ⟨t, _, token_append header _⟩

/-- A header with its body, and behind it its children and more objects. -/
theorem Sequence.of_children {n k : Nat} {bs : List UInt8} {t : Token}
    (htoken : token bs = some (t, k)) (hbody : k + t.bodyBytes ≤ bs.length)
    (h : Sequence (t.children + n) (bs.drop (k + t.bodyBytes))) : Sequence (n + 1) bs := by
  obtain ⟨tail, rest, hsplit, hchildren, hothers⟩ := h.split
  have hhead := token_take htoken
  have hk := (token_length htoken).2
  -- The bytes are the header, the body, the children and what is behind the object.
  have hbs : bs = bs.take k ++ (bs.drop k).take t.bodyBytes ++ tail ++ rest := by
    rw [List.append_assoc _ tail, ← hsplit, ← List.drop_drop, List.append_assoc,
      List.take_append_drop, List.take_append_drop]
  rw [hbs]
  refine .cons (.mk t hhead ?_ hchildren) hothers
  rw [List.length_take, List.length_drop]
  omega

/-! ### The walk -/

/-- The first `k` bytes are `n` complete objects. -/
def Front (n : Nat) (bs : List UInt8) (k : Nat) : Prop := k ≤ bs.length ∧ Sequence n (bs.take k)

/-- No object has no bytes. -/
theorem front_zero {bs : List UInt8} {k : Nat} (h : Front 0 bs k) : k = 0 := by
  obtain ⟨hk, hseq⟩ := h
  generalize hfront : bs.take k = front at hseq
  cases hseq
  have hlen := congrArg List.length hfront
  rw [List.length_take, List.length_nil] at hlen
  omega

/-- Objects at the front: the header of the first one, and then its children and the others. -/
theorem front_succ {n k j : Nat} {bs : List UInt8} {t : Token} (h : token bs = some (t, j)) :
    Front (n + 1) bs k ↔
      j + t.bodyBytes ≤ k ∧ j + t.bodyBytes ≤ bs.length ∧
        Front (t.children + n) (bs.drop (j + t.bodyBytes)) (k - (j + t.bodyBytes)) := by
  constructor
  · intro hfront
    obtain ⟨hk, hseq⟩ := hfront
    obtain ⟨t', j', htoken⟩ := hseq.exists_token
    -- The front has a header, and it is the header of the whole.
    have hsame := token_append htoken (bs.drop k)
    rw [List.take_append_drop, h] at hsame
    cases hsame
    obtain ⟨hbody, hrest⟩ := hseq.of_token htoken
    rw [List.length_take, Nat.min_eq_left hk] at hbody
    refine ⟨hbody, by omega, ?_, ?_⟩
    · rw [List.length_drop]
      omega
    · rwa [List.drop_take] at hrest
  · intro hfront
    obtain ⟨hbody, hroom, hk, hseq⟩ := hfront
    rw [List.length_drop] at hk
    have hjk := (token_length h).1
    have htoken : token (bs.take k) = some (t, j) := by
      have hhead := token_append (token_take h) ((bs.take k).drop j)
      have hj : (bs.take j).length = j := by
        rw [List.length_take]
        have := (token_length h).2
        omega
      have htake : bs.take j ++ (bs.take k).drop j = bs.take k := by
        have htwice := List.take_append_drop j (bs.take k)
        rwa [List.take_take, Nat.min_eq_left (by omega)] at htwice
      rwa [htake, hj] at hhead
    refine ⟨by omega, .of_children htoken ?_ ?_⟩
    · rw [List.length_take]
      omega
    · rw [List.drop_take]
      exact hseq

/-- One round of a walk: what is owed, and the bytes that are left. -/
def exactRound (s : Nat × List UInt8) : Option (Nat × List UInt8) :=
  match s.1 with
  | 0 => none
  | n + 1 =>
      (token s.2).bind fun h =>
        if h.2 + h.1.bodyBytes ≤ s.2.length then
          some (h.1.children + n, s.2.drop (h.2 + h.1.bodyBytes))
        else none

/-- The walk ends when no object is left to skip. -/
theorem exactRound_zero (bs : List UInt8) : exactRound (0, bs) = none := rfl

/-- What a round does. -/
theorem exactRound_cases {s s' : Nat × List UInt8} (h : exactRound s = some s') :
    ∃ n t k, s.1 = n + 1 ∧ token s.2 = some (t, k) ∧ k + t.bodyBytes ≤ s.2.length ∧
      s' = (t.children + n, s.2.drop (k + t.bodyBytes)) := by
  obtain ⟨owed, bs⟩ := s
  cases owed with
  | zero => cases h
  | succ n =>
      obtain ⟨⟨t, k⟩, htoken, hround⟩ := Option.bind_eq_some_iff.mp h
      split at hround
      · rename_i hroom
        cases hround
        exact ⟨n, t, k, rfl, htoken, hroom, rfl⟩
      · cases hround

/-- One round skips a header and its body, and counts the children. -/
theorem exactRound_token {n k : Nat} {bs : List UInt8} {t : Token} (h : token bs = some (t, k))
    (hroom : k + t.bodyBytes ≤ bs.length) :
    exactRound (n + 1, bs) = some (t.children + n, bs.drop (k + t.bodyBytes)) := by
  simp only [exactRound, h, Option.bind_some, if_pos hroom]

/-- A walk leaves no more bytes than it had. -/
theorem reaches_length {s s' : Nat × List UInt8} (h : Reaches exactRound s s') :
    s'.2.length ≤ s.2.length := by
  induction h with
  | refl => exact Nat.le_refl _
  | tail _ hstep ih =>
      obtain ⟨_, _, _, _, _, _, rfl⟩ := exactRound_cases hstep
      simp only [List.length_drop]
      omega

/-- Complete objects are walked over. -/
theorem Front.reaches {n k : Nat} {bs : List UInt8} (h : Front n bs k) :
    Reaches exactRound (n, bs) (0, bs.drop k) := by
  -- Every round takes at least the format byte off the bytes.
  induction hlen : bs.length using Nat.strong_induction_on generalizing n k bs with
  | _ len ih =>
      cases n with
      | zero =>
          rw [front_zero h]
          exact .refl
      | succ n =>
          obtain ⟨t, j, htake⟩ := h.2.exists_token
          have htoken := token_append htake (bs.drop k)
          rw [List.take_append_drop] at htoken
          obtain ⟨hbody, hroom, hfront⟩ := (front_succ htoken).mp h
          have hj := (token_length htoken).1
          have hnext := ih (bs.drop (j + t.bodyBytes)).length
            (by rw [List.length_drop]; omega) hfront rfl
          rw [List.drop_drop, Nat.add_sub_cancel' hbody] at hnext
          exact .head (exactRound_token htoken hroom) hnext

/-- A walk that comes to its end has passed complete objects. -/
theorem front_of_reaches {s : Nat × List UInt8} {rest : List UInt8}
    (h : Reaches exactRound s (0, rest)) : ∃ k, Front s.1 s.2 k ∧ rest = s.2.drop k := by
  induction h using Relation.ReflTransGen.head_induction_on with
  | refl => exact ⟨0, ⟨Nat.zero_le _, .nil⟩, rfl⟩
  | head hstep _ ih =>
      rename_i s s'
      obtain ⟨n, t, k, howed, htoken, hroom, rfl⟩ := exactRound_cases hstep
      obtain ⟨j, hfront, hrest⟩ := ih
      refine ⟨k + t.bodyBytes + j, ?_, by rw [hrest, List.drop_drop]⟩
      rw [howed, front_succ htoken, Nat.add_sub_cancel_left]
      exact ⟨Nat.le_add_right _ _, hroom, hfront⟩

/-- The flat walk knows the recursive grammar. -/
theorem reaches_iff {n : Nat} {bs rest : List UInt8} :
    Reaches exactRound (n, bs) (0, rest) ↔ ∃ k, Front n bs k ∧ rest = bs.drop k := by
  constructor
  · exact front_of_reaches
  · rintro ⟨k, hfront, rfl⟩
    exact hfront.reaches

/-- A walk never owes more than `2 ^ 33` objects for each byte it has passed. -/
theorem reaches_owed {s s' : Nat × List UInt8} (h : Reaches exactRound s s') :
    s'.1 + 2 ^ 33 * s'.2.length ≤ s.1 + 2 ^ 33 * s.2.length := by
  induction h with
  | refl => exact Nat.le_refl _
  | tail _ hstep ih =>
      obtain ⟨n, t, k, howed, htoken, hroom, rfl⟩ := exactRound_cases hstep
      have hsizes := (token_sizes htoken).2
      have hk := (token_length htoken).1
      simp only [List.length_drop]
      omega

/-- The end of some objects at the front is where the walk says it is. -/
theorem Front.unique {n j k : Nat} {bs : List UInt8} (hj : Front n bs j) (hk : Front n bs k) :
    j = k := by
  have hway := reaches_end hj.reaches hk.reaches (exactRound_zero _)
  have hsame := reaches_of_none (exactRound_zero _) hway
  have hlen := congrArg (fun s => s.2.length) hsame
  simp only [List.length_drop] at hlen
  have hj' := hj.1
  have hk' := hk.1
  omega

/-! ### Plain objects -/

mutual

/-- A complete object without an extension in it, whose parts lie in fewer than `levels`
containers. -/
inductive Plain : Nat → List UInt8 → Prop where
  | mk {levels : Nat} {head body tail : List UInt8} (t : Token) (header : Spells t head)
      (kind : t.kind ≠ .ext) (length : body.length = t.bodyBytes)
      (children : PlainSequence levels t.children tail) : Plain (levels + 1) (head ++ body ++ tail)

/-- So many of them in a row. -/
inductive PlainSequence : Nat → Nat → List UInt8 → Prop where
  | nil {levels : Nat} : PlainSequence levels 0 []
  | cons {levels n : Nat} {bs rest : List UInt8} (first : Plain levels bs)
      (others : PlainSequence levels n rest) : PlainSequence levels (n + 1) (bs ++ rest)

end

mutual

/-- A plain object is an object. -/
theorem Plain.object {levels : Nat} {bs : List UInt8} : Plain levels bs → Object bs
  | .mk t header _ length children => .mk t header length children.sequence

/-- A sequence of plain objects is one of objects. -/
theorem PlainSequence.sequence {levels n : Nat} {bs : List UInt8} :
    PlainSequence levels n bs → Sequence n bs
  | .nil => .nil
  | .cons first others => .cons first.object others.sequence

end

/-- The first `k` bytes are a plain object. -/
def PlainFront (levels : Nat) (bs : List UInt8) (k : Nat) : Prop :=
  k ≤ bs.length ∧ Plain levels (bs.take k)

/-- The first `k` bytes are so many plain objects. -/
def PlainFronts (levels n : Nat) (bs : List UInt8) (k : Nat) : Prop :=
  k ≤ bs.length ∧ PlainSequence levels n (bs.take k)

/-- A plain object is its header, its body and its children. -/
theorem plainFront_iff {levels k : Nat} {bs : List UInt8} :
    PlainFront (levels + 1) bs k ↔
      ∃ t j i, token bs = some (t, j) ∧ t.kind ≠ .ext ∧ j + t.bodyBytes ≤ bs.length ∧
        PlainFronts levels t.children (bs.drop (j + t.bodyBytes)) i ∧ k = j + t.bodyBytes + i := by
  constructor
  · intro h
    obtain ⟨hk, hplain⟩ := h
    generalize hfront : bs.take k = front at hplain
    obtain ⟨t, header, kind, length, children⟩ := hplain
    rename_i head body tail
    -- The object ends at `k`, so its three parts stand one behind the other in `bs`.
    have hbs := (List.take_append_drop k bs).symm
    have hlen := congrArg List.length hfront
    rw [List.length_take, Nat.min_eq_left hk] at hlen
    simp only [List.length_append] at hlen
    rw [hfront] at hbs
    generalize bs.drop k = rest at hbs
    have hdrop : bs.drop (head.length + t.bodyBytes) = tail ++ rest := by
      rw [hbs, ← length, ← List.length_append, List.append_assoc (head ++ body), List.drop_left]
    refine ⟨t, head.length, tail.length, ?_, kind, by omega, ⟨?_, ?_⟩, by omega⟩
    · rw [hbs, List.append_assoc, List.append_assoc]
      exact token_append header _
    · rw [hdrop, List.length_append]
      omega
    · rw [hdrop, List.take_left]
      exact children
  · intro h
    obtain ⟨t, j, i, htoken, kind, hbody, ⟨hi, children⟩, rfl⟩ := h
    rw [List.length_drop] at hi
    refine ⟨by omega, ?_⟩
    rw [List.take_add, List.take_add]
    refine .mk t (token_take htoken) kind ?_ children
    rw [List.length_take, List.length_drop]
    omega

/-- No plain object has no bytes. -/
theorem plainFronts_zero {levels k : Nat} {bs : List UInt8} :
    PlainFronts levels 0 bs k ↔ k = 0 := by
  constructor
  · intro h
    exact front_zero ⟨h.1, h.2.sequence⟩
  · rintro rfl
    exact ⟨Nat.zero_le _, .nil⟩

/-- A row of plain objects is the first one and the others. -/
theorem plainFronts_succ {levels n k : Nat} {bs : List UInt8} :
    PlainFronts levels (n + 1) bs k ↔
      ∃ j i, PlainFront levels bs j ∧ PlainFronts levels n (bs.drop j) i ∧ k = j + i := by
  constructor
  · intro h
    obtain ⟨hk, hseq⟩ := h
    generalize hfront : bs.take k = front at hseq
    -- The front is an object and `n` more, so the bytes split in the same places.
    obtain ⟨⟩ | ⟨first, others⟩ := hseq
    rename_i object rest
    have hbs : bs = object ++ (rest ++ bs.drop k) := by
      rw [← List.append_assoc, ← hfront, List.take_append_drop]
    have hlen := congrArg List.length hfront
    rw [List.length_take, Nat.min_eq_left hk, List.length_append] at hlen
    refine ⟨object.length, rest.length, ⟨by omega, ?_⟩, ⟨?_, ?_⟩, hlen⟩
    · rw [hbs, List.take_left]
      exact first
    · rw [List.length_drop]
      omega
    · rw [hbs, List.drop_left, List.take_left]
      exact others
  · -- And the parts put together are a front again.
    intro h
    obtain ⟨j, i, ⟨hj, first⟩, ⟨hi, others⟩, rfl⟩ := h
    rw [List.length_drop] at hi
    refine ⟨by omega, ?_⟩
    rw [List.take_add]
    exact .cons first others

/-! ### Containers on the way -/

/-- The elements of an array, the pairs of a map. -/
def Token.count : Token → Option Nat
  | array len => some len
  | map len => some len
  | _ => none

/-- A reader of plain objects comes to a container header with `count` elements or pairs in
it and `behind` bytes behind it: the objects in front of the header are complete. -/
inductive ContainerAt : Nat → List UInt8 → Nat → Nat → Prop where
  | header {levels k count : Nat} {bs : List UInt8} {t : Token} (token : token bs = some (t, k))
      (container : t.count = some count) : ContainerAt (levels + 1) bs count (bs.length - k)
  | part {levels k i j count behind : Nat} {bs : List UInt8} {t : Token}
      (token : token bs = some (t, k)) (child : i < t.children)
      (front : PlainFronts levels i (bs.drop k) j)
      (inside : ContainerAt levels (bs.drop (k + j)) count behind) :
      ContainerAt (levels + 1) bs count behind

/-- The same among `n` objects in a row. -/
def ContainerAmong (levels n : Nat) (bs : List UInt8) (count behind : Nat) : Prop :=
  ∃ i j, i < n ∧ PlainFronts levels i bs j ∧ ContainerAt levels (bs.drop j) count behind

/-- There is no container among no objects. -/
theorem containerAmong_zero {levels count behind : Nat} {bs : List UInt8} :
    ¬ ContainerAmong levels 0 bs count behind := by
  intro h
  obtain ⟨i, j, hi, -⟩ := h
  exact Nat.not_lt_zero i hi

/-- It is in the first object, or that one is complete and it is among the others. -/
theorem containerAmong_succ {levels n count behind : Nat} {bs : List UInt8} :
    ContainerAmong levels (n + 1) bs count behind ↔
      ContainerAt levels bs count behind ∨
        ∃ k, PlainFront levels bs k ∧ ContainerAmong levels n (bs.drop k) count behind := by
  constructor
  · intro h
    -- The container is in the first object, or behind it.
    obtain ⟨i, j, hi, hfront, hat⟩ := h
    cases i with
    | zero =>
        obtain rfl := plainFronts_zero.mp hfront
        exact Or.inl hat
    | succ i =>
        obtain ⟨k, l, hfirst, hothers, rfl⟩ := plainFronts_succ.mp hfront
        refine Or.inr ⟨k, hfirst, i, l, Nat.lt_of_succ_lt_succ hi, hothers, ?_⟩
        rwa [List.drop_drop]
  · -- And back: an object in front of it moves it by its length.
    intro h
    rcases h with hat | hothers
    · exact ⟨0, 0, Nat.succ_pos n, plainFronts_zero.mpr rfl, hat⟩
    · obtain ⟨k, hfirst, i, j, hi, hfront, hat⟩ := hothers
      rw [List.drop_drop] at hat
      exact ⟨i + 1, k + j, Nat.succ_lt_succ hi, plainFronts_succ.mpr ⟨k, j, hfirst, hfront, rfl⟩,
        hat⟩

/-- No reader comes to anything without a header. -/
theorem not_containerAt {levels count behind : Nat} {bs : List UInt8} (h : token bs = none) :
    ¬ ContainerAt levels bs count behind := by
  intro hat
  cases hat with
  | header htoken =>
      rw [h] at htoken
      cases htoken
  | part htoken =>
      rw [h] at htoken
      cases htoken

/-- A container header comes to itself and to what is among its children. -/
theorem containerAt_iff {levels k count behind : Nat} {bs : List UInt8} {t : Token}
    (h : token bs = some (t, k)) :
    ContainerAt (levels + 1) bs count behind ↔
      t.count = some count ∧ behind = bs.length - k ∨
        ContainerAmong levels t.children (bs.drop k) count behind := by
  constructor
  · -- The container is the token itself, or among its children.
    intro hat
    cases hat with
    | header htoken hcontainer =>
        rw [h] at htoken
        cases htoken
        exact Or.inl ⟨hcontainer, rfl⟩
    | part htoken hi hfront hinside =>
        rw [h] at htoken
        cases htoken
        rw [← List.drop_drop] at hinside
        exact Or.inr ⟨_, _, hi, hfront, hinside⟩
  · -- The same two cases the other way round.
    intro hat
    rcases hat with hheader | hamong
    · obtain ⟨hcontainer, rfl⟩ := hheader
      exact .header h hcontainer
    · obtain ⟨i, j, hi, hfront, hinside⟩ := hamong
      rw [List.drop_drop] at hinside
      exact .part h hi hfront hinside

end MsgPack
