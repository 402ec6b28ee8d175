import SerialRpc.Proofs.Msgpack.Reader

/-!
# `SerialRpc.Proofs.Msgpack.Sticky`: what a read does after an error

`ReadOp` is a call of a read operation together with its output parameter, and `exec` is
the call. The class comment of `Reader` promises that reads are no-ops once `error()` is
true. Only `skip` and `type` look at the flag. Any other read goes ahead when the bytes at
the cursor are an object it accepts.

`sticky_iff` says so for every run: the promise is kept in exactly those runs in which
every read after the error is a `skip` or meets bytes it does not accept.
-/

set_option autoImplicit false

namespace SerialRpc

open MsgPack

/-- A call of a read operation and its output parameter. The integer overloads are given by
the maximum of their type. -/
inductive ReadOp where
  | nil
  | bool (out : Bool)
  | signed (maxVal : Nat) (out : Int)
  | unsigned (maxVal : Nat) (out : Nat)
  | float (out : UInt32)
  | double (out : UInt64)
  | str (out : Reader.Span)
  | strCopy (cap : Nat) (dst : List UInt8)
  | bin (out : Reader.Span)
  | array (out : Nat)
  | map (out : Nat)
  | skip
deriving DecidableEq

namespace ReadOp

variable {w : SizeT}

/-- The call: the reader after it, and the call with its output parameter after it. -/
def exec (r : Reader w) : ReadOp → Reader w × ReadOp
  | nil => (r.readNil, nil)
  | bool out => ((r.readBool out).1, bool (r.readBool out).2)
  | signed maxVal out => ((r.readSigned maxVal out).1, signed maxVal (r.readSigned maxVal out).2)
  | unsigned maxVal out =>
      ((r.readUnsigned maxVal out).1, unsigned maxVal (r.readUnsigned maxVal out).2)
  | float out => ((r.readFloat out).1, float (r.readFloat out).2)
  | double out => ((r.readDouble out).1, double (r.readDouble out).2)
  | str out => ((r.readStr out).1, str (r.readStr out).2)
  | strCopy cap dst => ((r.readStrCopy cap dst).1, strCopy cap (r.readStrCopy cap dst).2)
  | bin out => ((r.readBin out).1, bin (r.readBin out).2)
  | array out => ((r.readArray out).1, array (r.readArray out).2)
  | map out => ((r.readMap out).1, map (r.readMap out).2)
  | skip => (r.skip, skip)

/-- The reader after a sequence of calls. -/
def run (r : Reader w) (ops : List ReadOp) : Reader w := ops.foldl (fun r op => (op.exec r).1) r

/-- The call leaves the cursor and its output parameter as they were. -/
def Unchanged (r : Reader w) (op : ReadOp) : Prop := (op.exec r).1.pos = r.pos ∧ (op.exec r).2 = op

/-- The bytes start with a complete object, or a header, that the operation accepts on an
error-free reader. `skip` is not asked: it looks at the flag first. -/
def Accepts (w : SizeT) (bs : List UInt8) : ReadOp → Prop
  | nil => ∃ k, token bs = some (.nil, k)
  | bool _ => ∃ v k, token bs = some (.bool v, k)
  | signed maxVal _ =>
      ∃ v k, token bs = some (.int v, k) ∧ -(maxVal : Int) - 1 ≤ v ∧ v ≤ maxVal
  | unsigned maxVal _ => ∃ v k, token bs = some (.int v, k) ∧ 0 ≤ v ∧ v ≤ maxVal
  | float _ | double _ =>
      ∃ t k, token bs = some (t, k) ∧ (t.kind = .float ∨ t.kind = .int)
  | str _ => ∃ n k, token bs = some (.str n, k) ∧ n ≤ w.max ∧ k + n ≤ bs.length
  | strCopy cap _ =>
      ∃ n k, token bs = some (.str n, k) ∧ n ≤ w.max ∧ k + n ≤ bs.length ∧ n < cap
  | bin _ => ∃ n k, token bs = some (.bin n, k) ∧ n ≤ w.max ∧ k + n ≤ bs.length
  | array _ => ∃ n k, token bs = some (.array n, k) ∧ n ≤ w.max
  | map _ => ∃ n k, token bs = some (.map n, k) ∧ n ≤ w.max
  | skip => False

/-- Once the flag is set, every further call of the sequence is a no-op. -/
def Sticky (r : Reader w) (ops : List ReadOp) : Prop :=
  ∀ before op after, ops = before ++ op :: after → (run r before).error = true →
    Unchanged (run r before) op

/-! ### One call -/

/-- A read that finds something moves the cursor. One that finds nothing changes only the
flag. -/
theorem answerOf_unchanged_iff {α β : Type} (r : Reader w)
    (parse : List UInt8 → Option (α × Nat)) (hsize : ∀ x k, parse r.rest = some (x, k) → 0 < k)
    (make : α → β) (out : β) :
    (r.answerOf parse).1.pos = r.pos ∧ ((r.answerOf parse).2.map make).getD out = out ↔
      parse r.rest = none := by
  unfold Reader.answerOf
  cases hparse : parse r.rest with
  | none => simp [Reader.flagged]
  | some p =>
      have hk := hsize p.1 p.2 hparse
      simp only [Reader.advance, reduceCtorEq, iff_false, not_and]
      omega

/-- The same for a read that stores what it finds. -/
theorem store_unchanged_iff {α : Type} (r : Reader w) (parse : List UInt8 → Option (α × Nat))
    (hsize : ∀ x k, parse r.rest = some (x, k) → 0 < k) (out : α) :
    (Reader.store out (r.answerOf parse)).1.pos = r.pos ∧
        (Reader.store out (r.answerOf parse)).2 = out ↔ parse r.rest = none := by
  have h := answerOf_unchanged_iff r parse hsize id out
  rwa [Option.map_id_apply] at h

/-- A header that is accepted takes at least one byte. -/
theorem header_pos {α : Type} (f : Token → Option α) (bs : List UInt8) :
    ∀ x k, Reader.header f bs = some (x, k) → 0 < k := by
  intro x k h
  simp only [Reader.header, Option.bind_eq_some_iff, Option.map_eq_some_iff, Prod.mk.injEq] at h
  obtain ⟨p, hp, y, -, -, rfl⟩ := h
  exact (token_length hp).1

/-- So does a header with bytes behind it. -/
theorem blob_pos (f : Token → Option Nat) (bs : List UInt8) :
    ∀ x k, Reader.blob f bs = some (x, k) → 0 < k := by
  intro x k h
  simp only [Reader.blob, Option.bind_eq_some_iff, Option.ite_none_right_eq_some,
    Option.some.injEq, Prod.mk.injEq] at h
  obtain ⟨p, hp, -, -, rfl⟩ := h
  have := header_pos f bs p.1 p.2 hp
  omega

/-- So does one that is limited to a capacity. -/
theorem blobWithin_pos (f : Token → Option Nat) (cap : Nat) (bs : List UInt8) :
    ∀ x k, Reader.blobWithin f cap bs = some (x, k) → 0 < k := by
  intro x k h
  simp only [Reader.blobWithin, Option.bind_eq_some_iff, Option.ite_none_right_eq_some,
    Option.some.injEq, Prod.mk.injEq] at h
  obtain ⟨p, hp, -, -, rfl⟩ := h
  exact blob_pos f bs p.1 p.2 hp

/-- A header parser that takes the tokens `make y` with `P y` finds nothing exactly when no
such token stands at the front. -/
theorem header_eq_none_iff {α β : Type} {f : Token → Option α} (make : β → Token)
    (P : β → Prop) (hf : ∀ t, f t ≠ none ↔ ∃ y, t = make y ∧ P y) (bs : List UInt8) :
    Reader.header f bs = none ↔ ¬ ∃ y k, token bs = some (make y, k) ∧ P y := by
  unfold Reader.header
  cases htoken : token bs with
  | none => simp
  | some p =>
      obtain ⟨t, k⟩ := p
      have ht := hf t
      simp only [Option.bind_some, Option.map_eq_none_iff, Option.some.injEq, Prod.mk.injEq]
      rw [← not_iff_not, not_not]
      refine ht.trans ⟨?_, ?_⟩
      · rintro ⟨y, rfl, hy⟩
        exact ⟨y, k, ⟨rfl, rfl⟩, hy⟩
      · rintro ⟨y, k', ⟨rfl, rfl⟩, hy⟩
        exact ⟨y, rfl, hy⟩

/-- The same for a parser that also wants the body. -/
theorem blob_eq_none_iff {f : Token → Option Nat} {make : Nat → Token} {P : Nat → Prop}
    (hf : ∀ t n, f t = some n ↔ t = make n ∧ P n) (bs : List UInt8) :
    Reader.blob f bs = none ↔
      ¬ ∃ n k, token bs = some (make n, k) ∧ P n ∧ k + n ≤ bs.length := by
  unfold Reader.blob Reader.header
  -- Nothing is there.
  cases htoken : token bs with
  | none => simp
  | some p =>
      have hlen := (token_length htoken).2
      obtain ⟨t, k⟩ := p
      simp only [Option.bind_some, Option.some.injEq, Prod.mk.injEq] at hlen ⊢
      -- The header is of another kind.
      cases ht : f t with
      | none =>
          simp only [Option.map_none, Option.bind_none, true_iff]
          rintro ⟨n, k', ⟨rfl, rfl⟩, hP, -⟩
          rw [(hf _ n).mpr ⟨rfl, hP⟩] at ht
          simp at ht
      -- The header is right, and it is the bytes that are missing.
      | some n =>
          obtain ⟨rfl, hP⟩ := (hf t n).mp ht
          simp only [Option.map_some, Option.bind_some, ite_eq_right_iff, reduceCtorEq, imp_false]
          refine not_congr ⟨fun hroom => ⟨n, k, ⟨rfl, rfl⟩, hP, by omega⟩, ?_⟩
          rintro ⟨n', k', ⟨hmake, rfl⟩, hP', hroom⟩
          have hn' := (hf (make n) n').mpr ⟨hmake, hP'⟩
          rw [ht, Option.some.injEq] at hn'
          omega

/-- The same for a parser that also wants the body within a capacity. -/
theorem blobWithin_eq_none_iff {f : Token → Option Nat} {make : Nat → Token} {P : Nat → Prop}
    (hf : ∀ t n, f t = some n ↔ t = make n ∧ P n) (cap : Nat) (bs : List UInt8) :
    Reader.blobWithin f cap bs = none ↔
      ¬ ∃ n k, token bs = some (make n, k) ∧ P n ∧ k + n ≤ bs.length ∧ n < cap := by
  -- A length beyond the capacity is as good as one that `f` refuses.
  have hcut : ∀ t n, ((f t).filter fun n => decide (n < cap)) = some n ↔
      t = make n ∧ P n ∧ n < cap := by
    intro t n
    rw [Option.filter_eq_some_iff, hf, decide_eq_true_eq, and_assoc]
  have hsame : Reader.blobWithin f cap bs = none ↔
      Reader.blob (fun t => (f t).filter fun n => decide (n < cap)) bs = none := by
    unfold Reader.blobWithin Reader.blob Reader.header
    cases token bs with
    | none => simp
    | some p =>
        cases hp : f p.1 with
        | none => simp [hp]
        | some n =>
            by_cases hcap : n < cap
            · simp [hp, hcap, Option.filter]
              omega
            · simp [hp, hcap, Option.filter]
              omega
  rw [hsame, blob_eq_none_iff hcut]
  simp only [and_assoc, and_comm]

/-- `size_t` can hold a length. -/
theorem asLength_eq_some_iff (w : SizeT) (len n : Nat) :
    Reader.asLength w len = some n ↔ len = n ∧ n ≤ w.max := by
  unfold Reader.asLength
  constructor
  · intro h
    simp only [Option.ite_none_right_eq_some, Option.some.injEq] at h
    omega
  · rintro ⟨rfl, h⟩
    rw [if_pos h]

/-- What is read as a string: a string token of a length that a `size_t` holds. -/
theorem asStr_eq_some_iff (w : SizeT) (t : Token) (n : Nat) :
    Reader.asStr w t = some n ↔ t = .str n ∧ n ≤ w.max := by
  cases t <;> simp [Reader.asStr, asLength_eq_some_iff]

/-- What is read as a bin: a bin token of such a length. -/
theorem asBin_eq_some_iff (w : SizeT) (t : Token) (n : Nat) :
    Reader.asBin w t = some n ↔ t = .bin n ∧ n ≤ w.max := by
  cases t <;> simp [Reader.asBin, asLength_eq_some_iff]

/-- On a reader whose flag is set, a call is a no-op exactly when it does not accept what
stands at the cursor. -/
theorem unchanged_iff (r : Reader w) (herror : r.error = true) (op : ReadOp) :
    Unchanged r op ↔ ¬ op.Accepts w r.rest := by
  cases op with
  | nil =>
      have h := answerOf_unchanged_iff r (Reader.header Reader.asNil) (header_pos _ _) id ()
      simp only [Unchanged, exec, and_true, Reader.readNil_eq] at h ⊢
      rw [h, header_eq_none_iff (fun _ : Unit => .nil)
        (fun _ => True)
        (by intro t; cases t <;> simp [Reader.asNil])]
      simp [Accepts]
  | bool out =>
      simp only [Unchanged, exec, bool.injEq, Reader.readBool_eq]
      rw [store_unchanged_iff r _ (header_pos _ _), header_eq_none_iff .bool
        (fun _ => True) (by intro t; cases t <;> simp [Reader.asBool])]
      simp [Accepts]
  | signed maxVal out =>
      simp only [Unchanged, exec, signed.injEq, true_and, Reader.readSigned_eq]
      rw [store_unchanged_iff r _ (header_pos _ _), header_eq_none_iff .int
        (fun v => -(maxVal : Int) - 1 ≤ v ∧ v ≤ maxVal)
        (by intro t; cases t <;> simp [Reader.asInt])]
      rfl
  | unsigned maxVal out =>
      simp only [Unchanged, exec, unsigned.injEq, true_and, Reader.readUnsigned_eq]
      rw [store_unchanged_iff r _ (header_pos _ _), header_eq_none_iff .int
        (fun v => 0 ≤ v ∧ v ≤ (maxVal : Int))
        (by intro t; cases t <;> simp [Reader.asNat])]
      rfl
  | float out =>
      simp only [Unchanged, exec, float.injEq, Reader.readFloat_eq]
      rw [store_unchanged_iff r _ (header_pos _ _), header_eq_none_iff id
        (fun t => t.kind = .float ∨ t.kind = .int)
        (by intro t; cases t <;> simp [Reader.asFloat, Token.kind])]
      rfl
  | double out =>
      simp only [Unchanged, exec, double.injEq, Reader.readDouble_eq]
      rw [store_unchanged_iff r _ (header_pos _ _), header_eq_none_iff id
        (fun t => t.kind = .float ∨ t.kind = .int)
        (by intro t; cases t <;> simp [Reader.asDouble, Token.kind])]
      rfl
  | str out =>
      simp only [Unchanged, exec, str.injEq, Reader.readStr_eq]
      rw [answerOf_unchanged_iff r _ (blob_pos _ _), blob_eq_none_iff (asStr_eq_some_iff w)]
      rfl
  | strCopy cap dst =>
      simp only [Unchanged, exec, strCopy.injEq, true_and, Reader.readStrCopy_eq]
      rw [answerOf_unchanged_iff r _ (blobWithin_pos _ _ _),
        blobWithin_eq_none_iff (asStr_eq_some_iff w)]
      rfl
  | bin out =>
      simp only [Unchanged, exec, bin.injEq, Reader.readBin_eq]
      rw [answerOf_unchanged_iff r _ (blob_pos _ _), blob_eq_none_iff (asBin_eq_some_iff w)]
      rfl
  | array out =>
      simp only [Unchanged, exec, array.injEq, Reader.readArray_eq]
      rw [store_unchanged_iff r _ (header_pos _ _), header_eq_none_iff .array
        (fun n => n ≤ w.max)
        (by intro t; cases t <;> simp [Reader.asArray, Reader.asLength])]
      rfl
  | map out =>
      simp only [Unchanged, exec, map.injEq, Reader.readMap_eq]
      rw [store_unchanged_iff r _ (header_pos _ _), header_eq_none_iff .map
        (fun n => n ≤ w.max)
        (by intro t; cases t <;> simp [Reader.asMap, Reader.asLength])]
      rfl
  -- The one operation that looks at the flag first.
  | skip => simp [Unchanged, exec, Accepts, Reader.skip, herror]

end ReadOp

/-- The promise of the class comment, for every buffer and every sequence of calls: it is
kept exactly when every read made after the error is a `skip` or meets bytes at the cursor
that it does not accept. -/
theorem sticky_iff (w : SizeT) (buf : List UInt8) (ops : List ReadOp) :
    ReadOp.Sticky (Reader.new w buf) ops ↔
      ∀ before op after, ops = before ++ op :: after →
        (ReadOp.run (Reader.new w buf) before).error = true →
        ¬ op.Accepts w (ReadOp.run (Reader.new w buf) before).rest := by
  constructor
  · intro h before op after hops herror
    exact (ReadOp.unchanged_iff _ herror op).mp (h before op after hops herror)
  · intro h before op after hops herror
    exact (ReadOp.unchanged_iff _ herror op).mpr (h before op after hops herror)

/-- The promise is not kept in general: after `read(bool&)` has failed on a nil, `read_nil`
takes it. -/
theorem sticky_fails :
    ¬ ∀ (w : SizeT) (buf : List UInt8) (ops : List ReadOp),
      ReadOp.Sticky (Reader.new w buf) ops := by
  intro h
  have hunchanged := h .host64 [0xc0] [.bool false, .nil] [.bool false] .nil [] rfl (by decide)
  exact absurd hunchanged.1 (by decide)

end SerialRpc
