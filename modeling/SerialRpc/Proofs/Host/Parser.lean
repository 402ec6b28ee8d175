import SerialRpc.Host.Value
import SerialRpc.Proofs.Msgpack.Reader

/-!
# `SerialRpc.Proofs.Host.Parser`: `Value::decode` is a list parser

`parseNested` reads one object off the front of some bytes and gives its length. It knows
no reader, no cursor and no error flag. `decodeNested_follows` says that `decode_` on an
error-free reader is this parser on the bytes from the cursor on, so where the bytes stand
in a buffer does not matter.

`parseNested_local`: what an object parses to does not depend on what follows it.
-/

set_option autoImplicit false

namespace SerialRpc

open MsgPack Reader

namespace Value

variable {α : Type}

/-! ### The parser -/

/-- The outcome of one read, as a value. -/
def parseLeaf (answer : Option (α × Nat)) (make : α → Value) : Except ProtocolError (Value × Nat) :=
  match answer with
  | some (x, k) => .ok (make x, k)
  | none => .error malformedInput

/-- The outcome of reading a count, and then so many parts behind it. -/
def parseCounted (answer : Option (Nat × Nat))
    (parts : Nat → Nat → Except ProtocolError (List α × Nat)) (make : List α → Value) :
    Except ProtocolError (Value × Nat) :=
  match answer with
  | some (n, k) =>
      match parts n k with
      | .ok (xs, j) => .ok (make xs, k + j)
      | .error e => .error e
  | none => .error malformedInput

/-- So many parts in a row. -/
def parseMany (parse : List UInt8 → Except ProtocolError (α × Nat)) :
    Nat → List UInt8 → Except ProtocolError (List α × Nat)
  | 0, _ => .ok ([], 0)
  | n + 1, bs =>
      match parse bs with
      | .error e => .error e
      | .ok (x, k) =>
          match parseMany parse n (bs.drop k) with
          | .error e => .error e
          | .ok (xs, j) => .ok (x :: xs, k + j)

/-- A key and its value. -/
def parseEntry (parse : List UInt8 → Except ProtocolError (Value × Nat)) (bs : List UInt8) :
    Except ProtocolError ((Value × Value) × Nat) :=
  match parse bs with
  | .error e => .error e
  | .ok (key, k) =>
      match parse (bs.drop k) with
      | .error e => .error e
      | .ok (value, j) => .ok ((key, value), k + j)

/-- One object, with so many levels of nesting allowed. -/
def parseNested : Nat → List UInt8 → Except ProtocolError (Value × Nat)
  | 0, _ => .error nestingExceedsMaxDepth
  | levels + 1, bs =>
      match typeAt bs with
      | .nil => parseLeaf (header Reader.asNil bs) fun _ => nil
      | .boolean => parseLeaf (header Reader.asBool bs) bool
      | .int =>
          parseLeaf (header (Reader.asInt (-(maxSigned 64 : Nat) - 1) (maxSigned 64)) bs) fun v =>
            int (.ofInt v)
      | .uint => parseLeaf (header (Reader.asNat (maxUnsigned 64)) bs) fun v => uint (.ofNat v)
      | .float => parseLeaf (header Reader.asDouble bs) double
      | .str =>
          parseLeaf (blob (Reader.asStr .host64) bs) fun sizes =>
            str ((bs.drop sizes.1).take sizes.2)
      | .bin =>
          parseLeaf (blob (Reader.asBin .host64) bs) fun sizes =>
            bin ((bs.drop sizes.1).take sizes.2)
      | .array =>
          parseCounted (header (Reader.asArray .host64) bs)
            (fun n k => parseMany (parseNested levels) n (bs.drop k)) array
      | .map =>
          parseCounted (header (Reader.asMap .host64) bs)
            (fun n k => parseMany (parseEntry (parseNested levels)) n (bs.drop k)) map
      | .ext => .error unsupportedType
      | .invalid => .error unsupportedType

/-! ### `decode_` follows it -/

/-- An answer of a parser at the cursor of a reader: the cursor moves behind the object. -/
def atCursor (r : Reader .host64) (answer : Except ProtocolError (α × Nat)) :
    Except ProtocolError (α × Reader .host64) :=
  answer.map fun p => (p.1, r.advance p.2)

/-- A decoder of error-free readers that follows a parser. -/
def Follows (dec : Reader .host64 → Except ProtocolError (α × Reader .host64))
    (parse : List UInt8 → Except ProtocolError (α × Nat)) : Prop :=
  ∀ r : Reader .host64, r.error = false → dec r = atCursor r (parse r.rest)

/-- The check after a read looks at this one read only. -/
theorem checked_store {β : Type} {r : Reader .host64} (herr : r.error = false)
    (parse : List UInt8 → Option (α × Nat)) (out : α)
    (next : α → Reader .host64 → Except ProtocolError β) :
    checked (store out (r.answerOf parse)) next
      = match parse r.rest with
        | some (x, k) => next x (r.advance k)
        | none => .error malformedInput := by
  unfold checked store answerOf
  cases parse r.rest with
  | none => simp [flagged]
  | some p => simp [advance, herr]

/-- The same for a read whose value is a span of the buffer. -/
theorem checked_span {r : Reader .host64} (herr : r.error = false)
    (f : Token → Option Nat) (out : Span) (make : List UInt8 → Value) :
    checked ((r.answerOf (blob f)).1, ((r.answerOf (blob f)).2.map (spanAt r.pos)).getD out)
        (fun s r => .ok (make (r.bytes s), r))
      = atCursor r (parseLeaf (blob f r.rest) fun sizes =>
          make ((r.rest.drop sizes.1).take sizes.2)) := by
  unfold checked answerOf parseLeaf atCursor
  cases blob f r.rest with
  | none => simp [flagged, Except.map]
  | some p => simp [advance, herr, Except.map, Reader.bytes, spanAt, Reader.rest, List.drop_drop]

/-- A loop over elements follows the parser of a row of them. -/
theorem decodeMany_follows {dec : Reader .host64 → Except ProtocolError (α × Reader .host64)}
    {parse : List UInt8 → Except ProtocolError (α × Nat)} (h : Follows dec parse) (n : Nat) :
    Follows (decodeMany dec n) (parseMany parse n) := by
  induction n with
  | zero =>
      intro r herr
      rfl
  | succ n ih =>
      intro r herr
      simp only [decodeMany, parseMany, h r herr]
      cases parse r.rest with
      | error e => rfl
      | ok p =>
          have hrest := ih (r.advance p.2) herr
          rw [rest_advance] at hrest
          simp only [atCursor, Except.map, Bind.bind, Except.bind] at hrest ⊢
          rw [hrest]
          cases parseMany parse n (r.rest.drop p.2) with
          | error e => rfl
          | ok q => simp [Pure.pure, Except.pure]

/-- The decoder of an entry follows the parser of two objects in a row. -/
theorem decodeEntry_follows {dec : Reader .host64 → Except ProtocolError (Value × Reader .host64)}
    {parse : List UInt8 → Except ProtocolError (Value × Nat)} (h : Follows dec parse) :
    Follows (decodeEntry dec) (parseEntry parse) := by
  intro r herr
  simp only [decodeEntry, parseEntry, h r herr]
  cases parse r.rest with
  | error e => rfl
  | ok p =>
      have hrest := h (r.advance p.2) herr
      rw [rest_advance] at hrest
      simp only [atCursor, Except.map, Bind.bind, Except.bind] at hrest ⊢
      rw [hrest]
      cases parse (r.rest.drop p.2) with
      | error e => rfl
      | ok q => simp [Pure.pure, Except.pure]

/-- A container: the count and then the parts. -/
theorem checked_counted {r : Reader .host64} (herr : r.error = false)
    (f : Token → Option Nat) {dec : Nat → Reader .host64 →
      Except ProtocolError (List α × Reader .host64)}
    {parse : Nat → List UInt8 → Except ProtocolError (List α × Nat)}
    (h : ∀ n, Follows (dec n) (parse n)) (make : List α → Value) :
    checked (store 0 (r.answerOf (header f))) (fun n r => do
        let (xs, r) ← dec n r
        return (make xs, r))
      = atCursor r (parseCounted (header f r.rest) (fun n k => parse n (r.rest.drop k)) make) := by
  rw [checked_store herr]
  unfold parseCounted
  cases header f r.rest with
  | none => rfl
  | some p =>
      have hparts := h p.1 (r.advance p.2) herr
      rw [rest_advance] at hparts
      simp only [hparts]
      cases parse p.1 (r.rest.drop p.2) with
      | error e => rfl
      | ok q => simp [atCursor, Except.map, Bind.bind, Except.bind, Pure.pure, Except.pure]

/-- `decode_` follows the parser, at every level. -/
theorem decodeNested_follows (levels : Nat) :
    Follows (decodeNested levels) (parseNested levels) := by
  induction levels with
  | zero =>
      intro r herr
      rw [decodeNested, herr]
      rfl
  | succ levels ih =>
      intro r herr
      -- All types but the containers are one read, which fails as the parser does.
      have hleaf {α : Type} (parse : List UInt8 → Option (α × Nat)) (out : α) (make : α → Value) :
          checked (store out (r.answerOf parse)) (fun v r => .ok (make v, r))
            = atCursor r (parseLeaf (parse r.rest) make) := by
        rw [checked_store herr]
        cases parse r.rest <;> rfl
      rw [decodeNested, herr, parseNested, type_eq herr]
      simp only [Bool.false_eq_true, if_false]
      cases typeAt r.rest with
      | nil =>
          rw [readNil_eq]
          exact hleaf (header Reader.asNil) () fun _ => nil
      | boolean =>
          rw [readBool_eq]
          exact hleaf _ false bool
      | int =>
          rw [readSigned_eq]
          exact hleaf _ 0 fun v => int (.ofInt v)
      | uint =>
          rw [readUnsigned_eq]
          exact hleaf _ 0 fun v => uint (.ofNat v)
      | float =>
          rw [readDouble_eq]
          exact hleaf _ 0 double
      | str =>
          rw [readStr_eq]
          exact checked_span herr _ _ str
      | bin =>
          rw [readBin_eq]
          exact checked_span herr _ _ bin
      | array =>
          rw [readArray_eq]
          exact checked_counted herr _ (decodeMany_follows ih) array
      | map =>
          rw [readMap_eq]
          exact checked_counted herr _ (decodeMany_follows (decodeEntry_follows ih)) map
      | ext => rfl
      | invalid => rfl

/-- `Value::decode` on an error-free reader. -/
theorem decode_eq {r : Reader .host64} (herr : r.error = false) :
    decode r = atCursor r (parseNested (kMaxDepth + 1) r.rest) :=
  decodeNested_follows _ r herr

/-! ### What follows an object does not matter -/

/-- A parser that reads a front of the bytes and never looks further. -/
def Local (parse : List UInt8 → Except ProtocolError (α × Nat)) : Prop :=
  ∀ bs x k, parse bs = .ok (x, k) → k ≤ bs.length ∧ ∀ more, parse (bs ++ more) = .ok (x, k)

/-- Two local parsers in a row. -/
theorem Local.drop {parse : List UInt8 → Except ProtocolError (α × Nat)} (h : Local parse)
    {bs : List UInt8} {k : Nat} (hk : k ≤ bs.length) {x : α} {j : Nat}
    (hparse : parse (bs.drop k) = .ok (x, j)) :
    k + j ≤ bs.length ∧ ∀ more, parse ((bs ++ more).drop k) = .ok (x, j) := by
  obtain ⟨hj, hmore⟩ := h _ x j hparse
  rw [List.length_drop] at hj
  refine ⟨by omega, fun more => ?_⟩
  rw [List.drop_append_of_le_length hk]
  exact hmore more

/-- Many objects in a row are parsed locally. -/
theorem Local.many {parse : List UInt8 → Except ProtocolError (α × Nat)} (h : Local parse)
    (n : Nat) : Local (parseMany parse n) := by
  -- By induction on the number of objects. The first is parsed locally, and the others behind it.
  induction n with
  | zero =>
      intro bs xs k hparse
      cases hparse
      exact ⟨Nat.zero_le _, fun more => rfl⟩
  | succ n ih =>
      intro bs xs k hparse
      rw [parseMany] at hparse
      cases hfirst : parse bs with
      | error e => simp [hfirst] at hparse
      | ok p =>
          obtain ⟨x, kx⟩ := p
          obtain ⟨hkx, hfirst'⟩ := h bs x kx hfirst
          cases hothers : parseMany parse n (bs.drop kx) with
          | error e => simp [hfirst, hothers] at hparse
          | ok q =>
              obtain ⟨ys, j⟩ := q
              obtain ⟨hj, hothers'⟩ := ih.drop hkx hothers
              simp only [hfirst, hothers, Except.ok.injEq, Prod.mk.injEq] at hparse
              obtain ⟨rfl, rfl⟩ := hparse
              refine ⟨hj, fun more => ?_⟩
              simp only [parseMany, hfirst', hothers']

/-- So are a key and its value. -/
theorem Local.entry {parse : List UInt8 → Except ProtocolError (Value × Nat)} (h : Local parse) :
    Local (parseEntry parse) := by
  intro bs entry k hparse
  rw [parseEntry] at hparse
  cases hkey : parse bs with
  | error e => simp [hkey] at hparse
  | ok p =>
      obtain ⟨key, kk⟩ := p
      obtain ⟨hkk, hkey'⟩ := h bs key kk hkey
      cases hvalue : parse (bs.drop kk) with
      | error e => simp [hkey, hvalue] at hparse
      | ok q =>
          obtain ⟨value, j⟩ := q
          obtain ⟨hj, hvalue'⟩ := h.drop hkk hvalue
          simp only [hkey, hvalue, Except.ok.injEq, Prod.mk.injEq] at hparse
          obtain ⟨rfl, rfl⟩ := hparse
          refine ⟨hj, fun more => ?_⟩
          simp only [parseEntry, hkey', hvalue']

/-- An object that is one read. -/
theorem parseLeaf_local {f : List UInt8 → Option (α × Nat)}
    (hlen : ∀ bs p, f bs = some p → p.2 ≤ bs.length)
    (happend : ∀ bs p more, f bs = some p → f (bs ++ more) = some p)
    {make : List UInt8 → α → Value}
    (hmake : ∀ bs p more, f bs = some p → make (bs ++ more) p.1 = make bs p.1) :
    Local fun bs => parseLeaf (f bs) (make bs) := by
  intro bs v k hparse
  cases hf : f bs with
  | none => simp [hf, parseLeaf] at hparse
  | some p =>
      simp only [hf, parseLeaf, Except.ok.injEq, Prod.mk.injEq] at hparse
      obtain ⟨rfl, rfl⟩ := hparse
      refine ⟨hlen bs p hf, fun more => ?_⟩
      simp only [happend bs p more hf, parseLeaf, hmake bs p more hf]

/-- A header is parsed locally. -/
theorem parseHeader_local (f : Token → Option α) (make : α → Value) :
    Local fun bs => parseLeaf (header f bs) make :=
  parseLeaf_local (fun _ _ h => (header_length h).2) (fun _ _ more h => header_append h more)
    fun _ _ _ _ => rfl

/-- So is a header with bytes behind it. -/
theorem parseBlob_local (f : Token → Option Nat) (make : List UInt8 → Value) :
    Local fun bs => parseLeaf (blob f bs) fun sizes => make ((bs.drop sizes.1).take sizes.2) := by
  refine parseLeaf_local (fun _ _ h => (blob_length h).2.1) (fun _ _ more h => blob_append h more)
    fun bs p more h => ?_
  obtain ⟨-, hlen, hsum⟩ := blob_length h
  rw [List.drop_append_of_le_length (by omega), List.take_append_of_le_length]
  rw [List.length_drop]
  omega

/-- So is a header with a number of objects behind it. -/
theorem parseCounted_local (f : Token → Option Nat)
    {parse : Nat → List UInt8 → Except ProtocolError (List α × Nat)} (h : ∀ n, Local (parse n))
    (make : List α → Value) :
    Local fun bs => parseCounted (header f bs) (fun n k => parse n (bs.drop k)) make := by
  intro bs v k hparse
  cases hheader : header f bs with
  | none => simp [hheader, parseCounted] at hparse
  | some p =>
      obtain ⟨n, kh⟩ := p
      have hkh := (header_length hheader).2
      cases hparts : parse n (bs.drop kh) with
      | error e => simp [hheader, parseCounted, hparts] at hparse
      | ok q =>
          obtain ⟨xs, j⟩ := q
          obtain ⟨hj, hparts'⟩ := (h n).drop hkh hparts
          simp only [hheader, parseCounted, hparts, Except.ok.injEq, Prod.mk.injEq] at hparse
          obtain ⟨rfl, rfl⟩ := hparse
          refine ⟨hj, fun more => ?_⟩
          simp only [header_append hheader, parseCounted, hparts']

/-- An object is parsed alike whatever follows it. -/
theorem parseNested_local (levels : Nat) : Local (parseNested levels) := by
  induction levels with
  | zero =>
      intro bs v k hparse
      cases hparse
  | succ levels ih =>
      -- The format byte decides the case, and it is the same with more bytes behind it.
      intro bs v k hparse
      have htype (more : List UInt8) (hbs : bs ≠ []) : typeAt (bs ++ more) = typeAt bs := by
        cases bs with
        | nil => exact absurd rfl hbs
        | cons b bs => rfl
      have hbs : bs ≠ [] := by
        rintro rfl
        cases hparse
      have hcase {parse : List UInt8 → Except ProtocolError (Value × Nat)} (hlocal : Local parse)
          (heq : ∀ cs, typeAt cs = typeAt bs → parseNested (levels + 1) cs = parse cs) :
          k ≤ bs.length ∧ ∀ more, parseNested (levels + 1) (bs ++ more) = .ok (v, k) := by
        rw [heq bs rfl] at hparse
        obtain ⟨hk, hmore⟩ := hlocal bs v k hparse
        refine ⟨hk, fun more => ?_⟩
        rw [heq _ (htype more hbs)]
        exact hmore more
      cases hty : typeAt bs with
      | nil => exact hcase (parseHeader_local _ _) fun cs hcs => by rw [parseNested, hcs, hty]
      | boolean => exact hcase (parseHeader_local _ _) fun cs hcs => by rw [parseNested, hcs, hty]
      | int => exact hcase (parseHeader_local _ _) fun cs hcs => by rw [parseNested, hcs, hty]
      | uint => exact hcase (parseHeader_local _ _) fun cs hcs => by rw [parseNested, hcs, hty]
      | float => exact hcase (parseHeader_local _ _) fun cs hcs => by rw [parseNested, hcs, hty]
      | str => exact hcase (parseBlob_local _ _) fun cs hcs => by rw [parseNested, hcs, hty]
      | bin => exact hcase (parseBlob_local _ _) fun cs hcs => by rw [parseNested, hcs, hty]
      | array =>
          exact hcase (parseCounted_local _ ih.many _) fun cs hcs => by rw [parseNested, hcs, hty]
      | map =>
          exact hcase (parseCounted_local _ ih.entry.many _) fun cs hcs => by
            rw [parseNested, hcs, hty]
      | ext => simp [parseNested, hty] at hparse
      | invalid => simp [parseNested, hty] at hparse

/-! ### Errors -/

/-- What the parser can fail with. -/
def parseErrors : List ProtocolError := [nestingExceedsMaxDepth, unsupportedType, malformedInput]

/-- A scalar fails with an error of the decoder. -/
theorem parseLeaf_errors {answer : Option (α × Nat)} {make : α → Value} {e : ProtocolError}
    (h : parseLeaf answer make = .error e) : e ∈ parseErrors := by
  cases answer with
  | none =>
      obtain rfl : malformedInput = e := Except.error.inj h
      simp [parseErrors]
  | some p => cases h

/-- So does a container, if its parts do. -/
theorem parseCounted_errors {answer : Option (Nat × Nat)}
    {parts : Nat → Nat → Except ProtocolError (List α × Nat)} {make : List α → Value}
    {e : ProtocolError} (hparts : ∀ n k e, parts n k = .error e → e ∈ parseErrors)
    (h : parseCounted answer parts make = .error e) : e ∈ parseErrors := by
  cases answer with
  | none =>
      obtain rfl : malformedInput = e := Except.error.inj h
      simp [parseErrors]
  | some p =>
      simp only [parseCounted] at h
      cases hfailed : parts p.1 p.2 with
      | ok q =>
          rw [hfailed] at h
          cases h
      | error e' =>
          rw [hfailed] at h
          obtain rfl : e' = e := Except.error.inj h
          exact hparts p.1 p.2 e' hfailed

/-- So do many objects in a row, by induction on their number. -/
theorem parseMany_errors {parse : List UInt8 → Except ProtocolError (α × Nat)}
    (hparse : ∀ bs e, parse bs = .error e → e ∈ parseErrors) (n : Nat) (bs : List UInt8)
    (e : ProtocolError) (h : parseMany parse n bs = .error e) : e ∈ parseErrors := by
  -- By induction on the number of objects: the error is that of the first to fail.
  induction n generalizing bs with
  | zero => cases h
  | succ n ih =>
      rw [parseMany] at h
      cases hfirst : parse bs with
      | error e' =>
          rw [hfirst] at h
          obtain rfl : e' = e := Except.error.inj h
          exact hparse bs e' hfirst
      | ok p =>
          simp only [hfirst] at h
          cases hothers : parseMany parse n (bs.drop p.2) with
          | error e' =>
              rw [hothers] at h
              obtain rfl : e' = e := Except.error.inj h
              exact ih (bs.drop p.2) hothers
          | ok q =>
              rw [hothers] at h
              cases h

/-- So do a key and its value. -/
theorem parseEntry_errors {parse : List UInt8 → Except ProtocolError (Value × Nat)}
    (hparse : ∀ bs e, parse bs = .error e → e ∈ parseErrors) (bs : List UInt8) (e : ProtocolError)
    (h : parseEntry parse bs = .error e) : e ∈ parseErrors := by
  rw [parseEntry] at h
  cases hkey : parse bs with
  | error e' =>
      rw [hkey] at h
      obtain rfl : e' = e := Except.error.inj h
      exact hparse bs e' hkey
  | ok p =>
      simp only [hkey] at h
      cases hvalue : parse (bs.drop p.2) with
      | error e' =>
          rw [hvalue] at h
          obtain rfl : e' = e := Except.error.inj h
          exact hparse (bs.drop p.2) e' hvalue
      | ok q =>
          rw [hvalue] at h
          cases h

/-- The parser fails with one of `parseErrors` only. -/
theorem parseNested_errors (levels : Nat) (bs : List UInt8) (e : ProtocolError)
    (h : parseNested levels bs = .error e) : e ∈ parseErrors := by
  induction levels generalizing bs e with
  | zero =>
      obtain rfl : nestingExceedsMaxDepth = e := Except.error.inj h
      simp [parseErrors]
  | succ levels ih =>
      rw [parseNested] at h
      cases hty : typeAt bs <;> simp only [hty] at h
      case array => exact parseCounted_errors (fun n k => parseMany_errors ih n (bs.drop k)) h
      case map =>
        exact parseCounted_errors
          (fun n k => parseMany_errors (parseEntry_errors ih) n (bs.drop k)) h
      case ext | invalid =>
        obtain rfl : unsupportedType = e := Except.error.inj h
        simp [parseErrors]
      all_goals exact parseLeaf_errors h

end Value

end SerialRpc
