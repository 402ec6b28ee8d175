import SerialRpc.Framing.Codec
import SerialRpc.Lib.Buffer
import SerialRpc.Lib.Cobs

/-!
# `SerialRpc.Proofs.Framing.Encoder`: the streaming encoder writes the COBS block

`CobsStreamEncoder` works in the caller's buffer: it reserves a slot for a code byte,
stores the group behind it, and patches the slot when the group closes. `Writing` says
what the buffer holds between two bytes, and `feed_finish` is the induction over the
message: with room for the block, `feed` and `finish` leave `Cobs.encode` of the message.

* `Counting.finish_overflow`: without that room, `finish` answers 0.
* `feed_append`: feeding in two calls, the first with `more_follows`, is feeding once.
* `cobsEncode_eq`, `frameEncode_eq`: the buffer and the length after the two functions,
  with `cobsEncode_overflow`, `frameEncode_overflow` for a capacity that is too small.
* `frameBytes_eq`: a frame is `00`, the block of the payload and its CRC, `00`.

The buffer behind the written part is always a suffix of the old one, so a write never
lands past the end of the block.
-/

set_option autoImplicit false

namespace SerialRpc

open Buffer (set_append_cons)

namespace CobsStreamEncoder

/-- `put_one_` leaves the capacity alone. -/
@[simp] theorem putOne_cap (e : CobsStreamEncoder) (b : UInt8) (more : Bool) :
    (e.putOne b more).cap = e.cap := by
  simp only [putOne, storeByte, closeGroup]
  repeat' split
  all_goals rfl

/-- `put_one_` writes inside the buffer. -/
@[simp] theorem putOne_out_length (e : CobsStreamEncoder) (b : UInt8) (more : Bool) :
    (e.putOne b more).out.length = e.out.length := by
  simp only [putOne, storeByte, closeGroup]
  repeat' split
  all_goals simp

/-- Feeding keeps the length of the output buffer. -/
@[simp] theorem feed_out_length (e : CobsStreamEncoder) (m : List UInt8) (more : Bool) :
    (e.feed m more).out.length = e.out.length := by
  induction m generalizing e with
  | nil => rfl
  | cons b m ih =>
      rw [feed]
      split
      · rfl
      · rw [ih, putOne_out_length]

/-- So does finishing. -/
@[simp] theorem finish_out_length (e : CobsStreamEncoder) :
    e.finish.1.out.length = e.out.length := by
  simp only [finish]
  repeat' split
  all_goals simp

/-- The encoder's counters between two bytes of the message: `d` bytes of closed groups, a
reserved slot, and `k` bytes of the open group. -/
structure Counting (e : CobsStreamEncoder) (d k : Nat) : Prop where
  ok : e.ok = true
  codep : e.codep = d
  encode : e.encode = d + 1 + k
  code : e.code = Cobs.codeByte k
  group : k < 254

/-- A new encoder has an empty group open at the start of its buffer. -/
theorem counting_new (out : List UInt8) (cap : Nat) : (new out cap).Counting 0 0 where
  ok := rfl
  codep := rfl
  encode := rfl
  code := rfl
  group := by simp

section
variable {e : CobsStreamEncoder} {d k : Nat}

/-- A zero closes the open group and reserves the next slot. -/
theorem Counting.putOne_zero (h : e.Counting d k) (hcap : d < e.cap) (more : Bool) :
    e.putOne 0 more =
      { e with
          out := e.out.set e.codep e.code
          code := 1
          codep := e.encode
          encode := e.encode + 1 } := by
  have hcodep : ¬ e.cap ≤ e.codep := by rw [h.codep]; omega
  simp [putOne, storeByte, closeGroup, h.ok, hcodep]

/-- A non-zero byte that does not fill the group joins it. -/
theorem Counting.putOne_store (h : e.Counting d k) {b : UInt8} (hb : b ≠ 0)
    (hcap : d + 1 + k < e.cap) (hroom : k + 1 < 254) (more : Bool) :
    e.putOne b more =
      { e with
          out := e.out.set e.encode b
          encode := e.encode + 1
          code := Cobs.codeByte (k + 1) } := by
  have hencode : ¬ e.cap ≤ e.encode := by rw [h.encode]; omega
  have hcode : e.code + 1 = Cobs.codeByte (k + 1) := by simp [h.code, Cobs.codeByte]
  have hopen : Cobs.codeByte (k + 1) ≠ 0xff := by
    rw [Ne, Cobs.codeByte_eq_full (by omega)]
    omega
  simp [putOne, storeByte, h.ok, hencode, hb, hcode, hopen]

/-- The byte that fills the group writes the code `0xff`. A slot is reserved only when
more bytes follow. -/
theorem Counting.putOne_full (h : e.Counting d k) {b : UInt8} (hb : b ≠ 0)
    (hcap : d + 1 + k < e.cap) (hfull : k + 1 = 254) (more : Bool) :
    e.putOne b more =
      { e with
          out := (e.out.set e.encode b).set e.codep 0xff
          code := 1
          codep := e.encode + 1
          encode := if more then e.encode + 2 else e.encode + 1 } := by
  have hencode : ¬ e.cap ≤ e.encode := by rw [h.encode]; omega
  have hcodep : ¬ e.cap ≤ e.codep := by rw [h.codep]; omega
  have hcode : e.code + 1 = 0xff := by
    rw [h.code, Cobs.codeByte, show k = 253 by omega]
    rfl
  cases more <;> simp [putOne, storeByte, closeGroup, h.ok, hencode, hcodep, hb, hcode]

/-- A non-zero byte past the capacity is refused. -/
theorem Counting.putOne_refused (h : e.Counting d k) {b : UInt8} (hb : b ≠ 0)
    (hcap : e.cap ≤ d + 1 + k) (more : Bool) : (e.putOne b more).ok = false := by
  simp [putOne, storeByte, hb, h.encode, hcap]

/-- A zero is refused when the reserved slot lies past the capacity. -/
theorem Counting.putOne_zero_refused (h : e.Counting d k) (hcap : e.cap ≤ d) (more : Bool) :
    (e.putOne 0 more).ok = false := by
  simp [putOne, storeByte, closeGroup, h.ok, h.codep, hcap]

/-- A zero closes the group and opens an empty one behind it. -/
theorem Counting.after_zero (h : e.Counting d k) (hcap : d < e.cap) (more : Bool) :
    (e.putOne 0 more).Counting (d + 1 + k) 0 := by
  rw [h.putOne_zero hcap]
  exact ⟨h.ok, h.encode, by rw [h.encode], rfl, by simp⟩

/-- Any other byte lengthens the group, as long as it is not full. -/
theorem Counting.after_store (h : e.Counting d k) {b : UInt8} (hb : b ≠ 0)
    (hcap : d + 1 + k < e.cap) (hroom : k + 1 < 254) (more : Bool) :
    (e.putOne b more).Counting d (k + 1) := by
  rw [h.putOne_store hb hcap hroom]
  refine ⟨h.ok, h.codep, ?_, rfl, hroom⟩
  show e.encode + 1 = _
  rw [h.encode]
  omega

/-- The byte that fills the group closes it, if more bytes follow. -/
theorem Counting.after_full (h : e.Counting d k) {b : UInt8} (hb : b ≠ 0)
    (hcap : d + 1 + k < e.cap) (hfull : k + 1 = 254) :
    (e.putOne b true).Counting (d + 255) 0 := by
  rw [h.putOne_full hb hcap hfull]
  refine ⟨h.ok, ?_, ?_, rfl, by simp⟩
  · show e.encode + 1 = _
    rw [h.encode]
    omega
  · show e.encode + 2 = _
    rw [h.encode]
    omega

/-- `finish` on an open group writes its code byte. -/
theorem Counting.finish_eq (h : e.Counting d k) (hcap : d < e.cap) :
    e.finish = ({ e with out := e.out.set e.codep e.code }, e.encode) := by
  have hlt : e.codep < e.encode := by rw [h.codep, h.encode]; omega
  have hcodep : ¬ e.cap ≤ e.codep := by rw [h.codep]; omega
  simp only [finish, h.ok, hlt, hcodep, if_true, if_false, Bool.true_eq_false]

/-- `finish` answers 0 when the reserved slot lies past the capacity. -/
theorem Counting.finish_refused (h : e.Counting d k) (hcap : e.cap ≤ d) : e.finish.2 = 0 := by
  have hlt : e.codep < e.encode := by rw [h.codep, h.encode]; omega
  have hcodep : e.cap ≤ e.codep := by rw [h.codep]; omega
  simp only [finish, h.ok, hlt, hcodep, if_true, if_false, Bool.true_eq_false]

end

/-! ### What the buffer holds -/

/-- Between two bytes of the message the buffer holds the closed groups `done`, the
reserved slot, the open group `g`, and the untouched rest. -/
structure Writing (e : CobsStreamEncoder) (done : List UInt8) (slot : UInt8)
    (g rest : List UInt8) : Prop extends e.Counting done.length g.length where
  out : e.out = done ++ slot :: (g ++ rest)

section
variable {e : CobsStreamEncoder} {done g rest : List UInt8} {slot : UInt8}

/-- A zero patches the slot of the group it closes. -/
theorem Writing.after_zero {next : UInt8} (h : e.Writing done slot g (next :: rest))
    (hcap : done.length < e.cap) (more : Bool) :
    (e.putOne 0 more).Writing (done ++ Cobs.codeByte g.length :: g) next [] rest where
  toCounting := by
    have hcount := h.toCounting.after_zero hcap more
    rwa [show done.length + 1 + g.length = (done ++ Cobs.codeByte g.length :: g).length by
      simp; omega] at hcount
  out := by
    rw [h.toCounting.putOne_zero hcap]
    show e.out.set e.codep e.code = _
    rw [h.out, h.codep, h.code, set_append_cons]
    simp

/-- The index behind the open group, in the buffer. -/
theorem Writing.set_encode {old b : UInt8} (h : e.Writing done slot g (old :: rest)) :
    e.out.set e.encode b = done ++ slot :: ((g ++ [b]) ++ rest) := by
  have hlen : e.encode = (done ++ slot :: g).length := by
    rw [h.encode]
    simp
    omega
  rw [h.out, show done ++ slot :: (g ++ old :: rest) = (done ++ slot :: g) ++ old :: rest by simp,
    hlen, set_append_cons]
  simp

/-- A stored byte extends the open group. -/
theorem Writing.after_store {old b : UInt8} (h : e.Writing done slot g (old :: rest))
    (hb : b ≠ 0) (hcap : done.length + 1 + g.length < e.cap) (hroom : g.length + 1 < 254)
    (more : Bool) : (e.putOne b more).Writing done slot (g ++ [b]) rest where
  toCounting := by
    have hcount := h.toCounting.after_store hb hcap hroom more
    rwa [show g.length + 1 = (g ++ [b]).length by simp] at hcount
  out := by
    rw [h.toCounting.putOne_store hb hcap hroom]
    exact h.set_encode

/-- The byte that fills the group, in the buffer. -/
theorem Writing.set_full {old b : UInt8} (h : e.Writing done slot g (old :: rest)) :
    (e.out.set e.encode b).set e.codep 0xff = done ++ 0xff :: ((g ++ [b]) ++ rest) := by
  rw [h.set_encode, h.codep, set_append_cons]

/-- A full group is closed, and the next slot reserved when more follows. -/
theorem Writing.after_full {old next b : UInt8} (h : e.Writing done slot g (old :: next :: rest))
    (hb : b ≠ 0) (hcap : done.length + 1 + g.length < e.cap) (hfull : g.length + 1 = 254) :
    (e.putOne b true).Writing (done ++ 0xff :: (g ++ [b])) next [] rest where
  toCounting := by
    have hcount := h.toCounting.after_full hb hcap hfull
    rwa [show done.length + 255 = (done ++ 0xff :: (g ++ [b])).length by
      simp; omega] at hcount
  out := by
    rw [h.toCounting.putOne_full hb hcap hfull]
    show (e.out.set e.encode b).set e.codep 0xff = _
    rw [h.set_full]
    simp

/-- A fresh encoder over a non-empty buffer. -/
theorem writing_new (slot : UInt8) (rest : List UInt8) (cap : Nat) :
    (new (slot :: rest) cap).Writing [] slot [] rest where
  toCounting := counting_new _ _
  out := rfl

/-- The encoder succeeds and flushes to `bytes`, in front of a suffix of the old buffer. -/
structure Flushes (e : CobsStreamEncoder) (bytes rest : List UInt8) : Prop where
  ok : e.ok = true
  out : ∃ rest', rest' <:+ rest ∧ e.finish.1.out = bytes ++ rest'
  size : e.finish.2 = bytes.length

/-- What is left of the old buffer may be part of a longer buffer. -/
theorem Flushes.of_suffix {bytes rest' : List UInt8} (h : e.Flushes bytes rest)
    (hsuffix : rest <:+ rest') : e.Flushes bytes rest' := by
  obtain ⟨ok, ⟨behind, hbehind, out⟩, size⟩ := h
  exact ⟨ok, ⟨behind, hbehind.trans hsuffix, out⟩, size⟩

/-- At the end of the message the open group is closed. -/
theorem Writing.finish_flushes (h : e.Writing done slot g rest) (hcap : done.length < e.cap) :
    e.Flushes (done ++ Cobs.encodeFrom g []) rest := by
  have hfinish := h.toCounting.finish_eq hcap
  constructor
  · exact h.ok
  · refine ⟨rest, List.suffix_refl _, ?_⟩
    rw [hfinish]
    show e.out.set e.codep e.code = _
    rw [h.out, h.codep, h.code, set_append_cons]
    simp [Cobs.encodeFrom]
  · rw [hfinish]
    show e.encode = _
    rw [h.encode, Cobs.encodeFrom, List.length_append, List.length_cons]
    omega

/-- A message that ends on a full group: no slot was reserved, and nothing is left to flush. -/
theorem Writing.full_flushes {old b : UInt8} (h : e.Writing done slot g (old :: rest)) (hb : b ≠ 0)
    (hcap : done.length + 1 + g.length < e.cap) (hfull : g.length + 1 = 254) :
    (e.putOne b false).Flushes (done ++ 0xff :: (g ++ [b])) rest := by
  rw [h.toCounting.putOne_full hb hcap hfull, h.set_full]
  constructor
  · exact h.ok
  · refine ⟨rest, List.suffix_refl _, ?_⟩
    simp [finish, h.ok]
  · simp [finish, h.ok, h.encode]
    omega

/-- The rest of the message, fed with nothing following it and flushed: the closed groups and
the block of what the open group and the message carry. Induction on the message. `Writing`
is what each byte keeps. -/
theorem Writing.feed_finish (m : List UInt8) :
    ∀ {e : CobsStreamEncoder} {done g rest : List UInt8} {slot : UInt8},
      e.Writing done slot g rest → e.cap ≤ e.out.length →
      (done ++ Cobs.encodeFrom g m).length ≤ e.cap →
      (e.feed m false).Flushes (done ++ Cobs.encodeFrom g m) rest := by
  induction m with
  | nil =>
      intro e done g rest slot h _ hcap
      rw [Cobs.encodeFrom, List.length_append, List.length_cons] at hcap
      exact h.finish_flushes (by omega)
  | cons b m ih =>
      intro e done g rest slot h hbuf hcap
      have hlong := Cobs.length_lt_encodeFrom g (b :: m)
      have houtLen := congrArg List.length h.out
      simp only [List.length_cons, List.length_append] at hlong houtLen hcap
      -- There is room for the byte, so the untouched rest is not empty.
      obtain ⟨next, rest, rfl⟩ : ∃ next rest', rest = next :: rest' :=
        List.exists_cons_of_length_pos (by omega)
      have hfeed : e.feed (b :: m) false = (e.putOne b (!m.isEmpty)).feed m false := by
        simp [feed, h.ok]
      have hroom : (e.putOne b (!m.isEmpty)).cap ≤ (e.putOne b (!m.isEmpty)).out.length := by
        simpa using hbuf
      rw [hfeed]
      by_cases hb : b = 0
      · -- The group closes and the next one is open and empty.
        subst hb
        have hnext := h.after_zero (by omega) (!m.isEmpty)
        have hblock : done ++ Cobs.encodeFrom g (0 :: m)
            = (done ++ Cobs.codeByte g.length :: g) ++ Cobs.encodeFrom [] m := by
          simp [Cobs.encodeFrom]
        rw [hblock]
        refine (ih hnext hroom ?_).of_suffix (List.suffix_cons _ _)
        rwa [← hblock, putOne_cap, List.length_append]
      · by_cases hfull : g.length + 1 = 254
        · cases m with
          | nil =>
              have hblock : done ++ Cobs.encodeFrom g [b] = done ++ 0xff :: (g ++ [b]) := by
                simp [Cobs.encodeFrom, hb, hfull]
              rw [hblock]
              exact (h.full_flushes hb (by omega) hfull).of_suffix (List.suffix_cons _ _)
          | cons b' m =>
              have hblock : done ++ Cobs.encodeFrom g (b :: b' :: m)
                  = (done ++ 0xff :: (g ++ [b])) ++ Cobs.encodeFrom [] (b' :: m) := by
                rw [Cobs.encodeFrom]
                simp [hb, hfull]
              have hpos := Cobs.length_lt_encodeFrom [] (b' :: m)
              have hblockLen := congrArg List.length hblock
              simp only [List.length_cons, List.length_append, List.length_nil] at hpos hblockLen
              rw [List.length_cons] at houtLen
              -- The slot reserved for the next group lies inside the buffer.
              obtain ⟨slot', rest, rfl⟩ : ∃ slot' rest', rest = slot' :: rest' :=
                List.exists_cons_of_length_pos (by omega)
              have hnext := h.after_full hb (by omega) hfull
              rw [hblock]
              refine (ih hnext hroom ?_).of_suffix
                ((List.suffix_cons _ _).trans (List.suffix_cons _ _))
              rwa [← hblock, putOne_cap, List.length_append]
        · have hnext := h.after_store hb (by omega) (by have := h.group; omega) (!m.isEmpty)
          have hblock : Cobs.encodeFrom g (b :: m) = Cobs.encodeFrom (g ++ [b]) m := by
            simp [Cobs.encodeFrom, hb, hfull]
          rw [hblock] at hcap ⊢
          refine (ih hnext hroom ?_).of_suffix (List.suffix_cons _ _)
          rwa [putOne_cap, List.length_append]

end

/-! ### Overflow -/

/-- Overflow is sticky. -/
theorem feed_of_not_ok {e : CobsStreamEncoder} (h : e.ok = false) (m : List UInt8)
    (more : Bool) : e.feed m more = e := by
  cases m with
  | nil => rfl
  | cons b m => simp [feed, h]

/-- An encoder that has failed yields no bytes. -/
theorem finish_of_not_ok {e : CobsStreamEncoder} (h : e.ok = false) : e.finish.2 = 0 := by
  simp [finish, h]

/-- Without room for the block, `finish` answers 0. Induction on the message. The bytes
stored so far lie inside the capacity, so it is the reserved slot or the next byte that
does not fit. -/
theorem Counting.finish_overflow (m : List UInt8) :
    ∀ {e : CobsStreamEncoder} {d : Nat} {g : List UInt8}, e.Counting d g.length →
      (g = [] ∨ d + 1 + g.length ≤ e.cap) → e.cap < d + (Cobs.encodeFrom g m).length →
      (e.feed m false).finish.2 = 0 := by
  induction m with
  | nil =>
      intro e d g h hroom hcap
      simp only [Cobs.encodeFrom, List.length_cons] at hcap
      rcases hroom with rfl | hroom
      · exact h.finish_refused (by simp at hcap; omega)
      · omega
  | cons b m ih =>
      intro e d g h hroom hcap
      have hgroup := h.group
      have hfeed : e.feed (b :: m) false = (e.putOne b (!m.isEmpty)).feed m false := by
        simp [feed, h.ok]
      have hrefused : (e.putOne b (!m.isEmpty)).ok = false →
          (e.feed (b :: m) false).finish.2 = 0 := by
        intro hno
        rw [hfeed, feed_of_not_ok hno]
        exact finish_of_not_ok hno
      -- Either this byte is refused, and nothing repairs that, or the overflow is still to come.
      by_cases hb : b = 0
      · subst hb
        by_cases hslot : e.cap ≤ d
        · exact hrefused (h.putOne_zero_refused hslot _)
        · rw [Cobs.encodeFrom, if_pos rfl] at hcap
          rw [hfeed]
          refine ih (g := []) (h.after_zero (by omega) _) (Or.inl rfl) ?_
          rw [putOne_cap]
          simp at hcap
          omega
      · by_cases hbyte : e.cap ≤ d + 1 + g.length
        · exact hrefused (h.putOne_refused hb hbyte _)
        · rw [Cobs.encodeFrom, if_neg hb] at hcap
          by_cases hfull : g.length + 1 = 254
          · rw [if_pos hfull] at hcap
            cases m with
            | nil =>
                simp at hcap
                omega
            | cons b' m =>
                rw [hfeed]
                refine ih (g := []) (h.after_full hb (by omega) hfull) (Or.inl rfl) ?_
                rw [putOne_cap]
                simp at hcap
                omega
          · rw [if_neg hfull] at hcap
            have hnext := h.after_store hb (by omega) (by omega) (!m.isEmpty)
            rw [show g.length + 1 = (g ++ [b]).length by simp] at hnext
            rw [hfeed]
            refine ih hnext (Or.inr ?_) ?_
            · rw [putOne_cap]
              simp
              omega
            · rwa [putOne_cap]

/-! ### Several `feed` calls -/

/-- Feeding `a` with `more_follows` and then a non-empty `b` is feeding `a ++ b`. -/
theorem feed_append (e : CobsStreamEncoder) (a b : List UInt8) (more : Bool) (hb : b ≠ []) :
    (e.feed a true).feed b more = e.feed (a ++ b) more := by
  induction a generalizing e with
  | nil => rfl
  | cons x a ih =>
      cases hok : e.ok with
      | false => simp [feed, hok, feed_of_not_ok hok]
      | true =>
          have hempty : (a ++ b).isEmpty = false := by simp [hb]
          simp only [List.cons_append, feed, hok, Bool.true_eq_false, if_false]
          rw [ih, hempty]
          simp

end CobsStreamEncoder

/-! ### `cobs_encode` and `frame_encode` -/

open CobsStreamEncoder in
/-- With room for the block, the encoder succeeds and leaves the block at the front of the
buffer. -/
theorem encoder_eq (m out : List UInt8) (cap : Nat) (hbuf : cap ≤ out.length)
    (hcap : (Cobs.encode m).length ≤ cap) :
    ((new out cap).feed m false).Flushes (Cobs.encode m) out := by
  have hpos := List.length_pos_of_ne_nil (Cobs.encode_ne_nil m)
  obtain ⟨slot, rest, rfl⟩ : ∃ slot rest, out = slot :: rest :=
    List.exists_cons_of_length_pos (by omega)
  exact ((writing_new slot rest cap).feed_finish m hbuf hcap).of_suffix (List.suffix_cons _ _)

/-- `cobs_encode` with room for the block: the block, and its length. -/
theorem cobsEncode_eq (m out : List UInt8) (cap : Nat) (hbuf : cap ≤ out.length)
    (hcap : (Cobs.encode m).length ≤ cap) :
    (cobsEncode m out cap).2 = (Cobs.encode m).length ∧
      (cobsEncode m out cap).1.take (Cobs.encode m).length = Cobs.encode m := by
  obtain ⟨hok, ⟨rest, -, hout⟩, hsize⟩ := encoder_eq m out cap hbuf hcap
  simp [cobsEncode, hok, hout, hsize]

open CobsStreamEncoder in
/-- Without room for the block, the encoder answers 0. -/
theorem encoder_overflow (m out : List UInt8) (cap : Nat)
    (hcap : cap < (Cobs.encode m).length) : ((new out cap).feed m false).finish.2 = 0 :=
  Counting.finish_overflow (g := []) m (counting_new out cap) (Or.inl rfl)
    (by rw [Nat.zero_add]; exact hcap)

/-- `cobs_encode` without room for the block answers 0. -/
theorem cobsEncode_overflow (m out : List UInt8) (cap : Nat)
    (hcap : cap < (Cobs.encode m).length) : (cobsEncode m out cap).2 = 0 := by
  have h := encoder_overflow m out cap hcap
  simp only [cobsEncode]
  split
  · rfl
  · exact h

/-- The block a frame carries: the payload and its CRC. -/
def frameBody (payload : List UInt8) : List UInt8 := Cobs.encode (payload ++ crcBe payload)

/-- The CRC takes two bytes. -/
@[simp] theorem crcBe_length (payload : List UInt8) : (crcBe payload).length = 2 := rfl

/-- A frame's block is never longer than the buffers are sized for. -/
theorem frameBody_length_le (payload : List UInt8) :
    (frameBody payload).length ≤ cobsMaxEncodedSize (payload.length + 2) := by
  simpa [frameBody, cobsMaxEncodedSize] using Cobs.encode_length_le (payload ++ crcBe payload)

/-- The block of a payload of at most `n` bytes fits what is sized for `n`. -/
theorem frameBody_length_le_of_le {payload : List UInt8} {n : Nat} (h : payload.length ≤ n) :
    (frameBody payload).length ≤ cobsMaxEncodedSize (n + 2) := by
  have hbody := frameBody_length_le payload
  have hmono : (payload.length + 2) / 254 ≤ (n + 2) / 254 := Nat.div_le_div_right (by omega)
  simp only [cobsMaxEncodedSize] at *
  omega

open CobsStreamEncoder in
/-- `frame_encode` with room for the frame: the delimiters around the block of the payload
and its CRC, and the frame's length. -/
theorem frameEncode_eq (payload out : List UInt8) (cap : Nat) (hbuf : cap ≤ out.length)
    (hcap : (frameBody payload).length + 2 ≤ cap) :
    (frameEncode payload out cap).2 = (frameBody payload).length + 2 ∧
      (frameEncode payload out cap).1.take ((frameBody payload).length + 2)
        = 0 :: frameBody payload ++ [0] := by
  obtain ⟨first, tail, rfl⟩ : ∃ first tail, out = first :: tail :=
    List.exists_cons_of_length_pos (by omega)
  simp only [List.length_cons] at hbuf
  have hne : crcBe payload ≠ [] := by simp [crcBe]
  have happend := feed_append (new tail (cap - 2)) payload (crcBe payload) false hne
  obtain ⟨hok, ⟨rest, -, hout⟩, hsize⟩ :=
    encoder_eq (payload ++ crcBe payload) tail (cap - 2) (by omega)
      (show (frameBody payload).length ≤ cap - 2 by omega)
  rw [← happend] at hok hout hsize
  rw [show Cobs.encode (payload ++ crcBe payload) = frameBody payload from rfl] at hout hsize
  -- Overflow is sticky, so the first of the two `feed` calls had room too.
  have hfirst : ((new tail (cap - 2)).feed payload true).ok = true := by
    cases hcase : ((new tail (cap - 2)).feed payload true).ok with
    | true => rfl
    | false =>
        rw [feed_of_not_ok hcase] at hok
        exact hcase.symm.trans hok
  have hpos : 0 < (frameBody payload).length := List.length_pos_of_ne_nil (Cobs.encode_ne_nil _)
  -- The closing delimiter has a byte of its own behind the block.
  have hlen : (frameBody payload ++ rest).length = tail.length := by
    rw [← hout]
    simp [new]
  obtain ⟨last, rest, rfl⟩ : ∃ last rest', rest = last :: rest' := by
    refine List.exists_cons_of_length_pos ?_
    rw [List.length_append] at hlen
    omega
  have hcap2 : ¬ cap < 2 := by omega
  have hclose : (0 :: (frameBody payload ++ last :: rest)).set
      (1 + (frameBody payload).length) 0 = (0 :: frameBody payload) ++ 0 :: rest := by
    rw [Nat.add_comm]
    simp
  have hbody : (frameBody payload).length ≠ 0 := by omega
  have hframe : frameEncode payload (first :: tail) cap
      = ((0 :: frameBody payload) ++ 0 :: rest, (frameBody payload).length + 2) := by
    simp only [frameEncode, hcap2, if_false, List.set_cons_zero, List.drop_succ_cons,
      List.drop_zero, hfirst, hok, Bool.true_eq_false, hout, hsize]
    rw [if_neg hbody]
    simp only [List.take_succ_cons, List.take_zero, List.cons_append, List.nil_append]
    exact congrArg (·, _) hclose
  rw [hframe]
  refine ⟨rfl, ?_⟩
  have htake : (((0 :: frameBody payload) ++ [0]) ++ rest).take ((frameBody payload).length + 2)
      = (0 :: frameBody payload) ++ [0] := List.take_left' (by simp)
  simpa using htake

open CobsStreamEncoder in
/-- `frame_encode` without room for the frame answers 0. -/
theorem frameEncode_overflow (payload out : List UInt8) (cap : Nat)
    (hcap : cap < (frameBody payload).length + 2) : (frameEncode payload out cap).2 = 0 := by
  have happend (enc : CobsStreamEncoder) := feed_append enc payload (crcBe payload) false
    (by simp [crcBe])
  simp only [frameEncode]
  split
  · rfl
  · split
    · rfl
    · split
      · rfl
      · have h := encoder_overflow (payload ++ crcBe payload) ((out.set 0 0).drop 1) (cap - 2)
          (show cap - 2 < (frameBody payload).length by omega)
        rw [← happend] at h
        rw [if_pos h]

/-- `frame_encode` keeps the length of its buffer. -/
theorem frameEncode_out_length (payload out : List UInt8) (cap : Nat) :
    (frameEncode payload out cap).1.length = out.length := by
  simp only [frameEncode]
  repeat' split
  all_goals simp [CobsStreamEncoder.new]
  all_goals omega

/-- The bytes of a frame. -/
theorem frameBytes_eq (payload : List UInt8) :
    frameBytes payload = 0 :: frameBody payload ++ [0] := by
  have hcap : (frameBody payload).length + 2 ≤ frameMaxSize payload.length := by
    have := frameBody_length_le payload
    simp only [frameMaxSize]
    omega
  obtain ⟨hsize, hout⟩ := frameEncode_eq payload
    (List.replicate (frameMaxSize payload.length) 0) (frameMaxSize payload.length)
    (by simp) hcap
  simp only [frameBytes]
  rw [hsize, hout]

/-- A frame is its body between two delimiters. -/
theorem frameBytes_length (payload : List UInt8) :
    (frameBytes payload).length = (frameBody payload).length + 2 := by
  rw [frameBytes_eq]
  simp

/-- `frame_encode` into a buffer of `frame_max_size(n)` bytes. -/
theorem frameEncode_fits {payload : List UInt8} {n : Nat} (h : payload.length ≤ n)
    {out : List UInt8} (hout : out.length = frameMaxSize n) :
    (frameEncode payload out out.length).2 = (frameBytes payload).length ∧
      (frameEncode payload out out.length).1.take (frameBytes payload).length
        = frameBytes payload := by
  have hbody := frameBody_length_le_of_le h
  have hroom : (frameBody payload).length + 2 ≤ out.length := by
    rw [hout, frameMaxSize]
    omega
  obtain ⟨hsize, hbytes⟩ := frameEncode_eq payload out out.length (Nat.le_refl _) hroom
  rw [← frameBytes_eq] at hbytes
  rw [frameBytes_length]
  exact ⟨hsize, hbytes⟩

end SerialRpc
