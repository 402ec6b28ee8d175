import SerialRpc.Proofs.Msgpack.Skip
import SerialRpc.Proofs.Msgpack.Sticky

/-!
# `SerialRpc.Proofs.Msgpack.Atomic`: a read takes one object or nothing

A read of an error-free reader has two outcomes (`ReadOp.Atomic`). It takes the bytes of the
object or header that it decodes, or it sets the flag and leaves the cursor and the output
parameter as they were.

`atomic_iff`: of all operations only `skip` can do something else, on a target whose
`size_t` is too small for the sizes it adds up. `Misled` is this case: a sum wraps, and the
loop comes to its end all the same.

Where a `double` is a `float`, `read(double&)` is `read(float&)`.
-/

set_option autoImplicit false

namespace SerialRpc

open MsgPack StateTransition

namespace ReadOp

variable {w : SizeT} {α : Type}

/-- The bytes are the one object or header that a call decodes at `pos`, and `after` is the
call with what its output parameter holds then. -/
def Decodes (pos : Nat) (bs : List UInt8) : (op after : ReadOp) → Prop
  | nil, nil => Spells .nil bs
  | bool _, bool v => Spells (.bool v) bs
  | signed maxVal _, signed maxVal' v =>
      maxVal' = maxVal ∧ Spells (.int v) bs ∧ -(maxVal : Int) - 1 ≤ v ∧ v ≤ maxVal
  | unsigned maxVal _, unsigned maxVal' v =>
      maxVal' = maxVal ∧ Spells (.int v) bs ∧ v ≤ maxVal
  | float _, float bits => ∃ t, Reader.asFloat t = some bits ∧ Spells t bs
  | double _, double bits => ∃ t, Reader.asDouble t = some bits ∧ Spells t bs
  | str _, str span =>
      ∃ head body, bs = head ++ body ∧ Spells (.str body.length) head ∧
        span = ⟨pos + head.length, body.length⟩
  | strCopy cap dst, strCopy cap' dst' =>
      ∃ head body, bs = head ++ body ∧ Spells (.str body.length) head ∧ body.length < cap ∧
        cap' = cap ∧ dst' = Reader.cString dst body
  | bin _, bin span =>
      ∃ head body, bs = head ++ body ∧ Spells (.bin body.length) head ∧
        span = ⟨pos + head.length, body.length⟩
  | array _, array n => Spells (.array n) bs
  | map _, map n => Spells (.map n) bs
  | skip, skip => Object bs
  | _, _ => False

/-- The call takes the bytes it decodes, all of them in the buffer, or changes only the
flag. -/
def Atomic (r : Reader w) (op : ReadOp) : Prop :=
  (∃ bs more, r.rest = bs ++ more ∧ (op.exec r).1 = r.advance bs.length ∧
      Decodes r.pos bs op (op.exec r).2) ∨
    (op.exec r).1 = r.flagged ∧ (op.exec r).2 = op

/-- In some round of `skip` a sum wraps, and the loop comes to its end all the same. -/
def Misled (w : SizeT) (bs : List UInt8) : Prop :=
  ∃ s rest, Reaches (Reader.walkRound w) (1, bs) s ∧ Reader.Wraps w s ∧
    Reaches (Reader.walkRound w) s (0, rest)

/-! ### What the parsers take -/

/-- A parser that takes bytes from the front with the property `P`. -/
def Takes (parse : List UInt8 → Option (α × Nat)) (P : α → List UInt8 → Prop) : Prop :=
  ∀ bs x k, parse bs = some (x, k) → k ≤ bs.length ∧ P x (bs.take k)

/-- A read of a header takes the bytes of a token it accepts, or nothing. -/
theorem header_takes (f : Token → Option α) :
    Takes (Reader.header f) fun x bs => ∃ t, f t = some x ∧ Spells t bs := by
  intro bs x k h
  exact ⟨(Reader.header_length h).2, Reader.spells_of_header h⟩

/-- A header and its body. -/
def Blob (f : Token → Option Nat) (sizes : Nat × Nat) (bs : List UInt8) : Prop :=
  ∃ t head body, bs = head ++ body ∧ f t = some body.length ∧ Spells t head ∧
    sizes = (head.length, body.length)

/-- A read of a header with bytes behind it takes both, or nothing. -/
theorem blob_takes (f : Token → Option Nat) : Takes (Reader.blob f) (Blob f) := by
  intro bs x k h
  obtain ⟨t, head, body, more, hf, hspells, rfl, hp⟩ := Reader.spells_of_blob h
  cases hp
  refine ⟨by simp only [List.length_append]; omega, t, head, body, ?_, hf, hspells, rfl⟩
  rw [List.take_left]

/-- So does one that is limited to a capacity. -/
theorem blobWithin_takes (f : Token → Option Nat) (cap : Nat) :
    Takes (Reader.blobWithin f cap) fun body bs =>
      ∃ t head, bs = head ++ body ∧ f t = some body.length ∧ Spells t head ∧
        body.length < cap := by
  intro bs x k h
  obtain ⟨s, hblob, hs⟩ := Option.bind_eq_some_iff.mp h
  obtain ⟨t, head, body, more, hf, hspells, rfl, rfl⟩ := Reader.spells_of_blob hblob
  simp only [Option.ite_none_right_eq_some, Option.some.injEq, Prod.mk.injEq] at hs
  obtain ⟨hcap, rfl, rfl⟩ := hs
  have hbody : ((head ++ body ++ more).drop head.length).take body.length = body := by
    rw [List.append_assoc, List.drop_left, List.take_left]
  rw [hbody]
  refine ⟨by simp only [List.length_append]; omega, t, head, ?_, hf, hspells, hcap⟩
  rw [List.take_left]

/-- A call that is an atomic read of what a parser takes. -/
theorem atomic_of_takes {r : Reader w} {op : ReadOp} {parse : List UInt8 → Option (α × Nat)}
    {P : α → List UInt8 → Prop} (htakes : Takes parse P) (make : α → ReadOp)
    (hexec : op.exec r = ((r.answerOf parse).1, ((r.answerOf parse).2.map make).getD op))
    (hdecodes : ∀ x bs, P x bs → Decodes r.pos bs op (make x)) : Atomic r op := by
  rw [Atomic, hexec]
  unfold Reader.answerOf
  cases hparse : parse r.rest with
  | none => exact Or.inr ⟨rfl, rfl⟩
  | some p =>
      obtain ⟨x, k⟩ := p
      obtain ⟨hk, hP⟩ := htakes r.rest x k hparse
      have hlen : (r.rest.take k).length = k := by
        rw [List.length_take]
        exact Nat.min_eq_left hk
      refine Or.inl ⟨r.rest.take k, r.rest.drop k, (List.take_append_drop k _).symm, ?_, ?_⟩
      · rw [hlen]
      · exact hdecodes x _ hP

/-- The same for a read that stores what it finds. -/
theorem exec_store (r : Reader w) (parse : List UInt8 → Option (α × Nat)) (make : α → ReadOp)
    (out : α) :
    ((Reader.store out (r.answerOf parse)).1, make (Reader.store out (r.answerOf parse)).2)
      = ((r.answerOf parse).1, ((r.answerOf parse).2.map make).getD (make out)) := by
  rw [Option.getD_map]
  rfl

/-! ### The operations -/

/-- Every operation but `skip` is atomic on every target. -/
theorem atomic_of_ne_skip (r : Reader w) {op : ReadOp} (h : op ≠ skip) : Atomic r op := by
  cases op with
  -- A read of a header takes one token, which says what was read.
  | nil =>
      refine atomic_of_takes (header_takes Reader.asNil) (fun _ => nil) ?_ ?_
      · rw [exec, Reader.readNil_eq]
        cases (r.answerOf (Reader.header Reader.asNil)).2 <;> rfl
      · rintro x bs ⟨t, ht, hspells⟩
        cases t <;> cases ht
        exact hspells
  | bool out =>
      refine atomic_of_takes (header_takes Reader.asBool) bool ?_ ?_
      · rw [exec, Reader.readBool_eq]
        exact exec_store r _ bool out
      · rintro x bs ⟨t, ht, hspells⟩
        cases t <;> cases ht
        exact hspells
  | signed maxVal out =>
      refine atomic_of_takes (header_takes (Reader.asInt (-(maxVal : Int) - 1) maxVal))
        (signed maxVal) ?_ ?_
      · rw [exec, Reader.readSigned_eq]
        exact exec_store r _ (signed maxVal) out
      · rintro x bs ⟨t, ht, hspells⟩
        obtain ⟨rfl, hrange⟩ := Reader.asInt_eq_some.mp ht
        exact ⟨rfl, hspells, hrange⟩
  | unsigned maxVal out =>
      refine atomic_of_takes (header_takes (Reader.asNat maxVal)) (unsigned maxVal) ?_ ?_
      · rw [exec, Reader.readUnsigned_eq]
        exact exec_store r _ (unsigned maxVal) out
      · rintro x bs ⟨t, ht, hspells⟩
        obtain ⟨rfl, hrange⟩ := Reader.asNat_eq_some.mp ht
        exact ⟨rfl, hspells, hrange⟩
  | float out =>
      refine atomic_of_takes (header_takes Reader.asFloat) float ?_ fun _ _ hbits => hbits
      rw [exec, Reader.readFloat_eq]
      exact exec_store r _ float out
  | double out =>
      refine atomic_of_takes (header_takes Reader.asDouble) double ?_ fun _ _ hbits => hbits
      rw [exec, Reader.readDouble_eq]
      exact exec_store r _ double out
  -- A string or a bin is taken with its bytes, and the copy of a string only if it fits.
  | str out =>
      refine atomic_of_takes (blob_takes (Reader.asStr w))
        (fun s => str (Reader.spanAt r.pos s)) ?_ ?_
      · rw [exec, Reader.readStr_eq]
        cases (r.answerOf (Reader.blob (Reader.asStr w))).2 <;> rfl
      · rintro x bs ⟨t, head, body, hbs, ht, hspells, rfl⟩
        obtain ⟨rfl, -⟩ := Reader.asStr_eq_some.mp ht
        exact ⟨head, body, hbs, hspells, rfl⟩
  | strCopy cap dst =>
      refine atomic_of_takes (blobWithin_takes (Reader.asStr w) cap)
        (fun s => strCopy cap (Reader.cString dst s)) ?_ ?_
      · rw [exec, Reader.readStrCopy_eq]
        cases (r.answerOf (Reader.blobWithin (Reader.asStr w) cap)).2 <;> rfl
      · rintro body bs ⟨t, head, hbs, ht, hspells, hcap⟩
        obtain ⟨rfl, -⟩ := Reader.asStr_eq_some.mp ht
        exact ⟨head, body, hbs, hspells, hcap, rfl, rfl⟩
  | bin out =>
      refine atomic_of_takes (blob_takes (Reader.asBin w))
        (fun s => bin (Reader.spanAt r.pos s)) ?_ ?_
      · rw [exec, Reader.readBin_eq]
        cases (r.answerOf (Reader.blob (Reader.asBin w))).2 <;> rfl
      · rintro x bs ⟨t, head, body, hbs, ht, hspells, rfl⟩
        obtain ⟨rfl, -⟩ := (asBin_eq_some_iff w t _).mp ht
        exact ⟨head, body, hbs, hspells, rfl⟩
  | array out =>
      refine atomic_of_takes (header_takes (Reader.asArray w)) array ?_ ?_
      · rw [exec, Reader.readArray_eq]
        exact exec_store r _ array out
      · rintro n bs ⟨t, ht, hspells⟩
        obtain ⟨rfl, -⟩ := Reader.asArray_eq_some.mp ht
        exact hspells
  | map out =>
      refine atomic_of_takes (header_takes (Reader.asMap w)) map ?_ ?_
      · rw [exec, Reader.readMap_eq]
        exact exec_store r _ map out
      · rintro n bs ⟨t, ht, hspells⟩
        cases t with
        | map len =>
            obtain ⟨rfl, -⟩ := (asLength_eq_some_iff w len n).mp ht
            exact hspells
        | _ => cases ht
  | skip => exact absurd rfl h

/-- `skip` is atomic unless it is misled. -/
theorem atomic_skip_iff {r : Reader w} (herr : r.error = false)
    (hbuf : r.buf.length < 2 ^ w.bits) : Atomic r skip ↔ ¬ Misled w r.rest := by
  have hsmall := Reader.small_rest hbuf
  constructor
  · rintro hatomic ⟨s, rest, hreach, hwraps, hend⟩
    obtain ⟨k, hk, hpassed, hskip⟩ | ⟨hnever, -⟩ := Reader.skip_cases herr
    · obtain ⟨bs, more, hrest, hexec, hobject⟩ | ⟨hexec, -⟩ := hatomic
      · -- What was passed over is an object, and on the way over an object nothing wraps.
        have hfront : Front 1 r.rest bs.length := by
          refine ⟨by rw [hrest]; simp, ?_⟩
          rw [hrest, List.take_left]
          exact Object.sequence hobject
        have hlen := Nat.lt_of_le_of_lt r.rest_length_le hbuf
        exact (Reader.fits_iff hsmall).mpr (Reader.fits_of_front hfront hlen) s hreach hwraps
      · have herror : r.skip.error = true := congrArg Reader.error hexec
        rw [hskip] at herror
        exact absurd (herr.symm.trans herror) (by decide)
    · exact hnever rest (hreach.trans hend)
  · intro hmisled
    obtain ⟨k, hk, hpassed, hskip⟩ | ⟨-, hskip⟩ := Reader.skip_cases herr
    · -- Every round lies before the end, so none of them wraps.
      have hfits : Reader.Fits w (1, r.rest) := by
        refine (Reader.fits_iff hsmall).mp fun s hreach hwraps => hmisled ?_
        exact ⟨s, _, hreach, hwraps, reaches_end hreach hpassed (Reader.walkRound_zero _)⟩
      obtain ⟨j, hfront, hskip'⟩ | ⟨-, hskip'⟩ := Reader.skip_of_fits herr hbuf hfits
      · refine Or.inl ⟨r.rest.take j, r.rest.drop j, (List.take_append_drop j _).symm, ?_, ?_⟩
        · rw [List.length_take, Nat.min_eq_left hfront.1]
          exact hskip'
        · exact hfront.2.object
      · exact Or.inr ⟨hskip', rfl⟩
    · exact Or.inr ⟨hskip, rfl⟩

end ReadOp

/-- Every read of an error-free reader takes one object or header, or changes only the flag,
unless it is a `skip` that is misled. -/
theorem atomic_iff (w : SizeT) (r : Reader w) (op : ReadOp) (herr : r.error = false)
    (hbuf : r.buf.length < 2 ^ w.bits) :
    ReadOp.Atomic r op ↔ (op = .skip → ¬ ReadOp.Misled w r.rest) := by
  by_cases hskip : op = .skip
  · rw [hskip, ReadOp.atomic_skip_iff herr hbuf]
    exact ⟨fun h _ => h, fun h => h rfl⟩
  · exact ⟨fun _ h => absurd h hskip, fun _ => ReadOp.atomic_of_ne_skip r hskip⟩

/-- A string cut short, on AVR. -/
theorem atomic_iff_witness :
    ReadOp.Atomic (Reader.new .avr [0xa3, 0x61]) (.strCopy 8 [1, 2, 3]) :=
  (atomic_iff .avr (.new .avr [0xa3, 0x61]) (.strCopy 8 [1, 2, 3]) rfl (by decide)).mpr
    fun h => absurd h (by decide)

/-- On AVR `skip` takes two bytes of a header of three, which are no object. -/
theorem atomic_fails :
    ¬ ∀ (w : SizeT) (r : Reader w) (op : ReadOp), r.error = false →
      r.buf.length < 2 ^ w.bits → ReadOp.Atomic r op := by
  intro h
  have hskip : (Reader.new .avr [0xda, 0xff, 0xff]).skip
      = (Reader.new .avr [0xda, 0xff, 0xff]).advance 2 :=
    Reader.skip_single (n := 0) rfl (by decide) (by decide)
  obtain ⟨bs, more, hrest, hexec, hobject⟩ | ⟨hexec, -⟩ :=
    h .avr (.new .avr [0xda, 0xff, 0xff]) .skip rfl (by decide)
  · have hlen : bs.length = 2 := by
      have hpos : ((Reader.new .avr [0xda, 0xff, 0xff]).skip).pos = _ :=
        congrArg Reader.pos hexec
      rw [hskip] at hpos
      exact (Nat.add_left_cancel hpos).symm
    have hbs : bs = [0xda, 0xff] := by
      have htake := congrArg (List.take bs.length) hrest
      rw [List.take_left, hlen] at htake
      exact htake.symm
    obtain ⟨t, k, htoken⟩ := (show Object bs from hobject).sequence.exists_token
    rw [hbs, show token [0xda, 0xff] = none by decide] at htoken
    cases htoken
  · have herror : ((Reader.new .avr [0xda, 0xff, 0xff]).skip).error = true :=
      congrArg Reader.error hexec
    rw [hskip] at herror
    cases herror

end SerialRpc
