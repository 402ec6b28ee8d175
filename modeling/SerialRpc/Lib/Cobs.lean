import Mathlib.Data.List.Basic

/-!
# `SerialRpc.Lib.Cobs`: Consistent Overhead Byte Stuffing on lists

COBS rewrites a message so that it contains no `0x00`. The message is cut into groups.
A group is a run of at most 254 non-zero bytes, written as one code byte (the run's
length plus one) followed by the run. A group with code below `0xff` stands for the run
and a zero; a full group (`0xff`) stands for the run alone. The last group never stands
for a zero.

`encode` chooses the groups greedily and omits the group that would follow a full group
at the end of the message. `decode` accepts any sequence of groups.

* `decode_encode`: the round trip.
* `encode_ne_zero`: no `0x00` in the output.
* `encode_length_le`: the overhead is one byte for each 254, plus one.
* `decodePartial_length_le`: what is decoded is shorter than its block.
* `eq_encode_of_decode`: what decodes to a message is its block, but for the empty block and
  an empty group behind a full one.

`decodePartial` also says what had been produced when a malformed block was given up. A
decoder that works in place leaves these bytes behind.
-/

set_option autoImplicit false

namespace Cobs

/-- The code byte of a group that holds `n` bytes. -/
def codeByte (n : Nat) : UInt8 := UInt8.ofNat (n + 1)

/-- The block for a message whose open group already holds `g`. A group closes at a zero,
at its 254th byte, or at the end of the message. -/
def encodeFrom (g : List UInt8) : List UInt8 → List UInt8
  | [] => codeByte g.length :: g
  | b :: m =>
      if b = 0 then codeByte g.length :: (g ++ encodeFrom [] m)
      else if g.length + 1 = 254 then
        0xff :: ((g ++ [b]) ++ if m = [] then [] else encodeFrom [] m)
      else encodeFrom (g ++ [b]) m

/-- The COBS block of a message. -/
def encode (m : List UInt8) : List UInt8 := encodeFrom [] m

/-- The zero that stands after a group: none after a full group or at the end. -/
def separator (code : UInt8) (tail : List UInt8) : List UInt8 :=
  if code ≠ 0xff ∧ tail ≠ [] then [0] else []

/-- Decoding group by group: the bytes produced, up to the first error if there is one,
and whether the block was well formed. A block is malformed when it has a zero byte or a
group that runs past its end. -/
def decodePartial : List UInt8 → List UInt8 × Bool
  | [] => ([], true)
  | code :: rest =>
      if code = 0 then ([], false)
      else if rest.length < code.toNat - 1 then ([], false)
      else if 0 ∈ rest.take (code.toNat - 1) then
        ((rest.take (code.toNat - 1)).takeWhile (· ≠ 0), false)
      else
        let tail := decodePartial (rest.drop (code.toNat - 1))
        (rest.take (code.toNat - 1) ++ separator code (rest.drop (code.toNat - 1)) ++ tail.1,
          tail.2)
termination_by block => block.length
decreasing_by
  rw [List.length_drop, List.length_cons]
  omega

/-- The message of a block, or `none` when the block is malformed. -/
def decode (block : List UInt8) : Option (List UInt8) :=
  if (decodePartial block).2 then some (decodePartial block).1 else none

/-- A code byte counts itself and its group. -/
theorem codeByte_toNat {n : Nat} (h : n < 255) : (codeByte n).toNat = n + 1 := by
  simp only [codeByte, UInt8.toNat_ofNat']
  omega

/-- It is no delimiter. -/
theorem codeByte_ne_zero {n : Nat} (h : n < 255) : codeByte n ≠ 0 := by
  intro h0
  have := codeByte_toNat h
  rw [h0] at this
  simp at this

/-- It is full for a group of 254 bytes only, behind which no zero is meant. -/
theorem codeByte_eq_full {n : Nat} (h : n < 255) : codeByte n = 0xff ↔ n = 254 := by
  constructor
  · intro h0
    have := codeByte_toNat h
    rw [h0] at this
    simp at this
    omega
  · rintro rfl
    rfl

/-! ### The encoder's output -/

/-- There is a code byte at least. -/
theorem encodeFrom_ne_nil (g m : List UInt8) : encodeFrom g m ≠ [] := by
  induction m generalizing g with
  | nil => simp [encodeFrom]
  | cons b m ih =>
      rw [encodeFrom]
      split
      · simp
      · split
        · simp
        · exact ih _

/-- So the code of nothing is a byte as well. -/
theorem encode_ne_nil (m : List UInt8) : encode m ≠ [] := encodeFrom_ne_nil [] m

/-- No zero in a block, as long as the open group holds none. -/
theorem encodeFrom_ne_zero (g m : List UInt8) (hlen : g.length < 254) (hg : 0 ∉ g) :
    0 ∉ encodeFrom g m := by
  induction m generalizing g with
  | nil =>
      have hcode := codeByte_ne_zero (n := g.length) (by omega)
      simp [encodeFrom, hg, Ne.symm hcode]
  | cons b m ih =>
      have hcode := codeByte_ne_zero (n := g.length) (by omega)
      rw [encodeFrom]
      split
      · simp [hg, Ne.symm hcode, ih [] (by simp) (by simp)]
      · rename_i hb
        split
        · have htail : 0 ∉ (if m = [] then [] else encodeFrom [] m) := by
            split
            · simp
            · exact ih [] (by simp) (by simp)
          simp [hg, Ne.symm hb, htail]
        · exact ih (g ++ [b]) (by simp; omega) (by simp [hg, Ne.symm hb])

/-- COBS output contains no `0x00`. -/
theorem encode_ne_zero (m : List UInt8) : 0 ∉ encode m :=
  encodeFrom_ne_zero [] m (by simp) (by simp)

/-- The overhead of a block whose open group holds `g`. -/
theorem encodeFrom_length_le (g m : List UInt8) (hlen : g.length < 254) :
    (encodeFrom g m).length
      ≤ g.length + m.length + (g.length + m.length) / 254 + 1 := by
  induction m generalizing g with
  | nil => simp [encodeFrom]
  | cons b m ih =>
      have hfresh := ih [] (by simp)
      rw [encodeFrom]
      split
      · simp at hfresh ⊢
        omega
      · split
        · split
          · simp
            omega
          · simp at hfresh ⊢
            omega
        · have hmore := ih (g ++ [b]) (by simp; omega)
          simp at hmore ⊢
          have hassoc : g.length + 1 + m.length = g.length + (m.length + 1) := by omega
          rwa [hassoc] at hmore

/-- A block is at most one byte for each 254 longer than the message, plus one. -/
theorem encode_length_le (m : List UInt8) :
    (encode m).length ≤ m.length + m.length / 254 + 1 := by
  simpa [encode] using encodeFrom_length_le [] m (by simp)

/-- A block is never shorter than what it still has to carry. -/
theorem length_lt_encodeFrom (g m : List UInt8) :
    g.length + m.length < (encodeFrom g m).length := by
  induction m generalizing g with
  | nil => simp [encodeFrom]
  | cons b m ih =>
      have hfresh := ih []
      rw [encodeFrom]
      split
      · simp at hfresh ⊢
        omega
      · split
        · split
          · simp_all
          · simp at hfresh ⊢
            omega
        · have hmore := ih (g ++ [b])
          simp at hmore ⊢
          omega

/-! ### The decoder's output -/

/-- One group, decoded: the run, the zero it may stand for, then the rest. -/
theorem decodePartial_group (code : UInt8) (run tail : List UInt8) (hcode : code ≠ 0)
    (hlen : code.toNat = run.length + 1) (hrun : 0 ∉ run) :
    decodePartial (code :: (run ++ tail))
      = (run ++ separator code tail ++ (decodePartial tail).1, (decodePartial tail).2) := by
  rw [decodePartial]
  have hpred : code.toNat - 1 = run.length := by omega
  have hroom : ¬ (run ++ tail).length < run.length := by simp
  rw [hpred, if_neg hcode, if_neg hroom]
  simp [hrun]

/-- What was encoded is decoded, from any open group on. -/
theorem decodePartial_encodeFrom (g m : List UInt8) (hlen : g.length < 254) (hg : 0 ∉ g) :
    decodePartial (encodeFrom g m) = (g ++ m, true) := by
  induction m generalizing g with
  | nil =>
      have h := decodePartial_group (codeByte g.length) g [] (codeByte_ne_zero (by omega))
        (codeByte_toNat (by omega)) hg
      simp only [List.append_nil] at h
      rw [encodeFrom, h]
      simp [decodePartial, separator]
  | cons b m ih =>
      -- Three cases: a zero ends the group, the group is full, or it grows by the byte.
      have hnotFull : codeByte g.length ≠ 0xff := by
        rw [Ne, codeByte_eq_full (by omega)]
        omega
      rw [encodeFrom]
      split
      · rename_i hb
        rw [decodePartial_group _ _ _ (codeByte_ne_zero (by omega)) (codeByte_toNat (by omega))
          hg, ih [] (by simp) (by simp)]
        simp [separator, hnotFull, encodeFrom_ne_nil, hb]
      · rename_i hb
        split
        · rename_i hfull
          rw [decodePartial_group 0xff (g ++ [b]) _ (by decide) (by simpa using by omega)
            (by simp [hg, Ne.symm hb])]
          split
          · rename_i hm
            simp [decodePartial, separator, hm]
          · rw [ih [] (by simp) (by simp)]
            simp [separator]
        · rw [ih (g ++ [b]) (by simp; omega) (by simp [hg, Ne.symm hb])]
          simp

/-- The round trip. -/
theorem decode_encode (m : List UInt8) : decode (encode m) = some m := by
  have h := decodePartial_encodeFrom [] m (by simp) (by simp)
  simp [decode, encode, h]

/-- A zero stands after a group only when something follows it. -/
theorem separator_length_le (code : UInt8) (tail : List UInt8) :
    (separator code tail).length = 0 ∨
      (separator code tail).length = 1 ∧ 0 < tail.length := by
  unfold separator
  split
  · rename_i h
    exact Or.inr ⟨rfl, List.length_pos_of_ne_nil h.2⟩
  · exact Or.inl rfl

/-- Decoding never grows a block. A non-empty block gives strictly fewer bytes. -/
theorem decodePartial_length_le (block : List UInt8) :
    (decodePartial block).1.length ≤ block.length - 1 := by
  induction block using decodePartial.induct with
  | case1 => simp [decodePartial]
  | case2 rest => simp [decodePartial]
  | case3 code rest hcode hshort => simp [decodePartial, hcode, hshort]
  | case4 code rest hcode hshort hzero =>
      have hle := (List.takeWhile_prefix (· ≠ 0) (l := rest.take (code.toNat - 1))).length_le
      rw [decodePartial, if_neg hcode, if_neg hshort, if_pos hzero]
      simp only [List.length_take] at hle
      simp only [List.length_cons]
      omega
  | case5 code rest hcode hshort hzero ih =>
      rw [decodePartial, if_neg hcode, if_neg hshort, if_neg hzero]
      have hsep := separator_length_le code (rest.drop (code.toNat - 1))
      simp only [List.length_drop, List.length_cons, List.length_append, List.length_take]
        at ih hsep ⊢
      omega

/-! ### The blocks of a message -/

/-- Nothing decodes to nothing. -/
@[simp] theorem decode_nil : decode [] = some [] := by
  simp [decode, decodePartial]

/-- Decoding the first group and the rest. -/
theorem decode_group {code : UInt8} {run : List UInt8} (tail : List UInt8)
    (hlen : code.toNat = run.length + 1) (hrun : 0 ∉ run) :
    decode (code :: (run ++ tail))
      = (decode tail).map fun m => run ++ separator code tail ++ m := by
  have hcode : code ≠ 0 := by
    intro h
    simp [h] at hlen
  rw [decode, decodePartial_group code run tail hcode hlen hrun, decode]
  split <;> simp

/-- A block that decodes starts with a group. -/
theorem exists_group {code : UInt8} {rest m : List UInt8} (h : decode (code :: rest) = some m) :
    ∃ run tail, rest = run ++ tail ∧ code.toNat = run.length + 1 ∧ 0 ∉ run := by
  have hwf : (decodePartial (code :: rest)).2 = true := by
    rw [decode, Option.ite_none_right_eq_some] at h
    exact h.1
  rw [decodePartial] at hwf
  by_cases hcode : code = 0
  · simp [hcode] at hwf
  by_cases hshort : rest.length < code.toNat - 1
  · simp [hcode, hshort] at hwf
  by_cases hzero : 0 ∈ rest.take (code.toNat - 1)
  · simp [hcode, hshort, hzero] at hwf
  have hpos : code.toNat ≠ 0 := by
    intro h0
    exact hcode (UInt8.toNat_inj.mp h0)
  refine ⟨rest.take (code.toNat - 1), rest.drop (code.toNat - 1),
    (List.take_append_drop _ _).symm, ?_, hzero⟩
  rw [List.length_take]
  omega

/-- Non-zero bytes that do not fill the group join it. -/
theorem encodeFrom_run (g run m : List UInt8) (hlen : g.length + run.length < 254)
    (hrun : 0 ∉ run) : encodeFrom g (run ++ m) = encodeFrom (g ++ run) m := by
  induction run generalizing g with
  | nil => simp
  | cons b run ih =>
      rw [List.mem_cons, not_or] at hrun
      rw [List.length_cons] at hlen
      have hroom : ¬ g.length + 1 = 254 := by omega
      rw [List.cons_append, encodeFrom, if_neg (Ne.symm hrun.1), if_neg hroom,
        ih (g ++ [b]) (by simp; omega) hrun.2, List.append_assoc]
      rfl

/-- A message that ends in its first group. -/
theorem encode_run {run : List UInt8} (hlen : run.length < 254) (hrun : 0 ∉ run) :
    encode run = codeByte run.length :: run := by
  have h := encodeFrom_run [] run [] (by simpa using hlen) hrun
  rwa [List.append_nil] at h

/-- A message whose first group ends at a zero. -/
theorem encode_run_zero {run : List UInt8} (m : List UInt8) (hlen : run.length < 254)
    (hrun : 0 ∉ run) : encode (run ++ 0 :: m) = codeByte run.length :: (run ++ encode m) := by
  have h := encodeFrom_run [] run (0 :: m) (by simpa using hlen) hrun
  rwa [List.nil_append, encodeFrom, if_pos rfl] at h

/-- A message that starts with a full group. -/
theorem encode_full {run : List UInt8} (m : List UInt8) (hlen : run.length = 254)
    (hrun : 0 ∉ run) : encode (run ++ m) = 0xff :: (run ++ if m = [] then [] else encode m) := by
  have hne : run ≠ [] := List.ne_nil_of_length_pos (by omega)
  have hsplit := List.dropLast_append_getLast hne
  generalize run.getLast hne = b at hsplit
  generalize run.dropLast = front at hsplit
  subst hsplit
  rw [List.length_append, List.length_singleton] at hlen
  simp only [List.mem_append, List.mem_singleton, not_or] at hrun
  have h := encodeFrom_run [] front ([b] ++ m) (by rw [List.length_nil]; omega) hrun.1
  rw [← List.append_assoc, List.nil_append, List.singleton_append, encodeFrom,
    if_neg (Ne.symm hrun.2), if_pos hlen] at h
  exact h

/-- The last group of the block is a full one. -/
def EndsFull (block : List UInt8) : Prop :=
  ∃ front run, block = front ++ 0xff :: run ∧ run.length = 254 ∧ 0 ∉ run ∧
    (decode front).isSome = true

/-- A group in front leaves the last group as it is. -/
theorem EndsFull.cons {block run : List UInt8} {code : UInt8} (h : EndsFull block)
    (hlen : code.toNat = run.length + 1) (hrun : 0 ∉ run) :
    EndsFull (code :: (run ++ block)) := by
  obtain ⟨front, last, rfl, hfull, hlast, hfront⟩ := h
  refine ⟨code :: (run ++ front), last, by simp, hfull, hlast, ?_⟩
  rw [decode_group front hlen hrun, Option.isSome_map]
  exact hfront

/-- The code byte of a group that is not full. -/
theorem eq_codeByte {code : UInt8} {n : Nat} (h : code.toNat = n + 1) : code = codeByte n := by
  rw [codeByte, ← h, UInt8.ofNat_toNat]

/-- What decodes to a message is its block, but for the empty block and for an empty group
behind a full one. Induction on the length of the block, group by group. -/
theorem eq_encode_of_decode {block m : List UInt8} (h : decode block = some m) :
    block = encode m ∨ (block = [] ∧ m = []) ∨
      (block = encode m ++ [0x01] ∧ EndsFull (encode m)) := by
  -- By strong induction on the length: the block behind the first group is shorter.
  induction hn : block.length using Nat.strongRecOn generalizing block m with
  | ind n ih =>
  subst hn
  cases block with
  | nil =>
      rw [decode_nil, Option.some.injEq] at h
      exact Or.inr (Or.inl ⟨rfl, h.symm⟩)
  | cons code rest =>
      obtain ⟨run, tail, rfl, hlen, hrun⟩ := exists_group h
      rw [decode_group tail hlen hrun, Option.map_eq_some_iff] at h
      obtain ⟨rest, htail, rfl⟩ := h
      have hshorter : tail.length < (code :: (run ++ tail)).length := by
        rw [List.length_cons, List.length_append]
        omega
      -- That block is of one of the three kinds, by the induction hypothesis.
      have hcases := ih tail.length hshorter htail rfl
      by_cases hfull : code = 0xff
      · -- A full group stands for its bytes, and what follows is a block of its own.
        subst hfull
        have hrunLen : run.length = 254 := by
          have : (0xff : UInt8).toNat = 255 := rfl
          omega
        have hends : EndsFull (0xff :: run) := ⟨[], run, rfl, hrunLen, hrun, by simp⟩
        rw [separator, if_neg (by simp), List.append_nil, encode_full rest hrunLen hrun]
        by_cases hrest : rest = []
        · subst hrest
          rw [if_pos rfl, List.append_nil]
          rcases hcases with rfl | ⟨rfl, -⟩ | ⟨-, hno⟩
          · exact Or.inr (Or.inr ⟨rfl, hends⟩)
          · exact Or.inl (by rw [List.append_nil])
          · -- The block of the empty message has no full group.
            obtain ⟨front, last, hblock, hlast, -⟩ := hno
            have := congrArg List.length hblock
            simp [encode, encodeFrom] at this
            omega
        · rw [if_neg hrest]
          rcases hcases with rfl | ⟨-, hno⟩ | ⟨rfl, hlast⟩
          · exact Or.inl rfl
          · exact absurd hno hrest
          · exact Or.inr (Or.inr ⟨by simp, hlast.cons hlen hrun⟩)
      · -- Any other group stands for a zero too, when something follows.
        have hrunLen : run.length < 254 := by
          have hlt := code.toNat_lt
          have hne : code.toNat ≠ 255 := fun h255 => hfull (UInt8.toNat_inj.mp h255)
          omega
        have hcode := eq_codeByte hlen
        by_cases hnil : tail = []
        · subst hnil
          have hrest : rest = [] := by
            rw [decode_nil, Option.some.injEq] at htail
            exact htail.symm
          subst hrest
          rw [separator, if_neg (by simp), List.append_nil, List.append_nil,
            encode_run hrunLen hrun, ← hcode]
          exact Or.inl rfl
        · rw [separator, if_pos ⟨hfull, hnil⟩, List.append_assoc, List.singleton_append,
            encode_run_zero rest hrunLen hrun, ← hcode]
          rcases hcases with rfl | ⟨hno, -⟩ | ⟨rfl, hlast⟩
          · exact Or.inl rfl
          · exact absurd hno hnil
          · exact Or.inr (Or.inr ⟨by simp, hlast.cons hlen hrun⟩)

end Cobs
