import SerialRpc.Proofs.Host.Value
import SerialRpc.Proofs.Msgpack.Skip

/-!
# `SerialRpc.Proofs.Host.Skipping`: `Value::decode` and `skip` agree on the end of an object

`decode` is a recursion over the typed reads, `skip` a loop with a count. Both are compared
with the grammar: `parses_iff` says that the parser of `decode` takes exactly the plain
objects whose parts lie in at most `kMaxDepth` containers, and `skip` takes every object.
-/

set_option autoImplicit false

namespace SerialRpc

open MsgPack Reader

namespace Value

variable {α : Type}

/-- The parser takes the first `k` bytes. -/
def Parses (levels : Nat) (bs : List UInt8) (k : Nat) : Prop :=
  ∃ v, parseNested levels bs = .ok (v, k)

/-- The parser takes the first `k` bytes as `n` objects in a row. -/
def ParsesMany (levels n : Nat) (bs : List UInt8) (k : Nat) : Prop :=
  ∃ vs, parseMany (parseNested levels) n bs = .ok (vs, k)

/-! ### One object is a header, a body and its children -/

/-- The answer of a read that gives a value when its header and body are there. -/
theorem parseLeaf_iff {answer : Option (α × Nat)} {make : α → Value} {k : Nat} :
    (∃ v, parseLeaf answer make = .ok (v, k)) ↔ ∃ x, answer = some (x, k) := by
  cases answer with
  | none => simp [parseLeaf]
  | some p =>
      obtain ⟨x, j⟩ := p
      simp [parseLeaf]

/-- The answer of a count and of the parts behind it. -/
theorem parseCounted_iff {answer : Option (Nat × Nat)} {n j : Nat} (h : answer = some (n, j))
    {parts : Nat → Nat → Except ProtocolError (List α × Nat)} {make : List α → Value} {k : Nat} :
    (∃ v, parseCounted answer parts make = .ok (v, k)) ↔
      ∃ i, (∃ xs, parts n j = .ok (xs, i)) ∧ k = j + i := by
  rw [h]
  simp only [parseCounted]
  cases hparts : parts n j with
  | error e => simp
  | ok q =>
      obtain ⟨xs, i⟩ := q
      constructor
      · rintro ⟨v, hv⟩
        cases hv
        exact ⟨i, ⟨xs, rfl⟩, rfl⟩
      · rintro ⟨i', ⟨xs', hxs⟩, rfl⟩
        cases hxs
        exact ⟨_, rfl⟩

/-- No part at all. -/
theorem parsesMany_zero {levels k : Nat} {bs : List UInt8} : ParsesMany levels 0 bs k ↔ k = 0 := by
  constructor
  · rintro ⟨vs, hvs⟩
    cases hvs
    rfl
  · rintro rfl
    exact ⟨[], rfl⟩

/-- `n + 1` objects are one and `n` more behind it. -/
theorem parsesMany_succ {levels n k : Nat} {bs : List UInt8} :
    ParsesMany levels (n + 1) bs k ↔
      ∃ j i, Parses levels bs j ∧ ParsesMany levels n (bs.drop j) i ∧ k = j + i := by
  constructor
  · -- The first object, and the others behind it.
    rintro ⟨vs, hvs⟩
    rw [parseMany] at hvs
    cases hfirst : parseNested levels bs with
    | error e => simp [hfirst] at hvs
    | ok p =>
        obtain ⟨v, j⟩ := p
        cases hothers : parseMany (parseNested levels) n (bs.drop j) with
        | error e => simp [hfirst, hothers] at hvs
        | ok q =>
            obtain ⟨ws, i⟩ := q
            simp only [hfirst, hothers, Except.ok.injEq, Prod.mk.injEq] at hvs
            exact ⟨j, i, ⟨v, hfirst⟩, ⟨ws, hothers⟩, hvs.2.symm⟩
  · rintro ⟨j, i, ⟨v, hfirst⟩, ⟨ws, hothers⟩, rfl⟩
    exact ⟨v :: ws, by simp only [parseMany, hfirst, hothers]⟩

/-- An entry of a map is two objects in a row. -/
theorem parseEntry_iff {levels k : Nat} {bs : List UInt8} :
    (∃ e, parseEntry (parseNested levels) bs = .ok (e, k)) ↔
      ∃ j i, Parses levels bs j ∧ Parses levels (bs.drop j) i ∧ k = j + i := by
  constructor
  · rintro ⟨e, he⟩
    rw [parseEntry] at he
    cases hkey : parseNested levels bs with
    | error e => simp [hkey] at he
    | ok p =>
        obtain ⟨key, j⟩ := p
        cases hvalue : parseNested levels (bs.drop j) with
        | error e => simp [hkey, hvalue] at he
        | ok q =>
            obtain ⟨value, i⟩ := q
            simp only [hkey, hvalue, Except.ok.injEq, Prod.mk.injEq] at he
            exact ⟨j, i, ⟨key, hkey⟩, ⟨value, hvalue⟩, he.2.symm⟩
  · rintro ⟨j, i, ⟨key, hkey⟩, ⟨value, hvalue⟩, rfl⟩
    exact ⟨(key, value), by simp only [parseEntry, hkey, hvalue]⟩

/-- `n` entries are `2 * n` objects. -/
theorem parseEntries_iff {levels n k : Nat} {bs : List UInt8} :
    (∃ es, parseMany (parseEntry (parseNested levels)) n bs = .ok (es, k)) ↔
      ParsesMany levels (2 * n) bs k := by
  induction n generalizing bs k with
  | zero =>
      rw [Nat.mul_zero, parsesMany_zero]
      constructor
      · rintro ⟨es, hes⟩
        cases hes
        rfl
      · rintro rfl
        exact ⟨[], rfl⟩
  | succ n ih =>
      have hentries : (∃ es, parseMany (parseEntry (parseNested levels)) (n + 1) bs = .ok (es, k)) ↔
          ∃ j i, (∃ e, parseEntry (parseNested levels) bs = .ok (e, j)) ∧
            ParsesMany levels (2 * n) (bs.drop j) i ∧ k = j + i := by
        constructor
        · rintro ⟨es, hes⟩
          rw [parseMany] at hes
          cases hfirst : parseEntry (parseNested levels) bs with
          | error e => simp [hfirst] at hes
          | ok p =>
              obtain ⟨e, j⟩ := p
              cases hothers : parseMany (parseEntry (parseNested levels)) n (bs.drop j) with
              | error e => simp [hfirst, hothers] at hes
              | ok q =>
                  obtain ⟨fs, i⟩ := q
                  simp only [hfirst, hothers, Except.ok.injEq, Prod.mk.injEq] at hes
                  exact ⟨j, i, ⟨e, rfl⟩, ih.mp ⟨fs, hothers⟩, hes.2.symm⟩
        · rintro ⟨j, i, ⟨e, hfirst⟩, hothers, rfl⟩
          obtain ⟨fs, hfs⟩ := ih.mpr hothers
          exact ⟨e :: fs, by simp only [parseMany, hfirst, hfs]⟩
      -- An entry gives its two objects to the row.
      rw [hentries, Nat.mul_succ, parsesMany_succ]
      simp only [parsesMany_succ, parseEntry_iff]
      constructor
      · rintro ⟨_, i, ⟨j, j', hkey, hvalue, rfl⟩, hothers, rfl⟩
        rw [← List.drop_drop] at hothers
        exact ⟨j, j' + i, hkey, ⟨j', i, hvalue, hothers, rfl⟩, Nat.add_assoc j j' i⟩
      · rintro ⟨j, _, hkey, ⟨j', i, hvalue, hothers, rfl⟩, rfl⟩
        rw [List.drop_drop] at hothers
        exact ⟨j + j', i, ⟨j, j', hkey, hvalue, rfl⟩, hothers, (Nat.add_assoc j j' i).symm⟩

/-- A 64-bit host accepts every length of a header. -/
theorem asLength_header {bs : List UInt8} {t : Token} {k len : Nat} (h : token bs = some (t, k))
    (hlen : len ≤ t.bodyBytes + t.children) : asLength .host64 len = some len := by
  have hsizes := token_sizes h
  rw [asLength, if_pos]
  simp only [SizeT.max, SizeT.host64]
  omega

/-- Every integer object is read, as signed or as unsigned. -/
theorem parses_int {levels j : Nat} {bs : List UInt8} {v : Int}
    (h : token bs = some (.int v, j)) : Parses (levels + 1) bs j := by
  cases bs with
  | nil => cases h
  | cons b bs =>
      have htable := lead_inTable b
      have hunsigned (hpos : 0 ≤ v) (hlt : v < 2 ^ 64) :
          header (Reader.asNat (maxUnsigned 64)) (b :: bs) = some (v.toNat, j) := by
        rw [header, h, Option.bind_some, Reader.asNat,
          if_pos ⟨hpos, by simp only [maxUnsigned]; omega⟩]
        rfl
      have hsigned (hlow : -2 ^ 63 ≤ v) (hhigh : v < 2 ^ 63) :
          header (Reader.asInt (-(maxSigned 64 : Nat) - 1) (maxSigned 64)) (b :: bs)
            = some (v, j) := by
        rw [header, h, Option.bind_some, Reader.asInt,
          if_pos ⟨by simp only [maxSigned]; omega, by simp only [maxSigned]; omega⟩]
        rfl
      cases hlead : lead b with
      | reserved => simp [token, hlead] at h
      | value t =>
          -- A fixint: its sign decides which of the two reads takes it.
          rw [token_value hlead] at h
          have ht : t = .int v := (Prod.mk.inj (Option.some.inj h)).1
          rw [hlead, ht, Lead.inTable, decide_eq_true_eq] at htable
          by_cases hpos : 0 ≤ v
          · have htype : typeAt (b :: bs) = .uint := by
              rw [typeAt, hlead, ht, typeOf, if_pos hpos]
            rw [Parses, parseNested, htype]
            exact parseLeaf_iff.mpr ⟨_, hunsigned hpos (by omega)⟩
          · have htype : typeAt (b :: bs) = .int := by
              rw [typeAt, hlead, ht, typeOf, if_neg hpos]
            rw [Parses, parseNested, htype]
            exact parseLeaf_iff.mpr ⟨_, hsigned (by omega) (by omega)⟩
      | sized family width =>
          -- Up to eight bytes, so the value is in the range of its read.
          rw [token_sized hlead] at h
          rw [hlead, Lead.inTable, decide_eq_true_eq] at htable
          obtain ⟨n, hnumber, hp⟩ := Option.map_eq_some_iff.mp h
          have ht := (Prod.mk.inj hp).1
          have hpow : 256 ^ width ≤ 2 ^ 64 := by
            obtain rfl | rfl | rfl | rfl := htable <;> decide
          have hlt := number_lt hnumber
          cases family with
          | uint =>
              have hv : (n : Int) = v := Token.int.inj ht
              rw [Parses, parseNested, show typeAt (b :: bs) = .uint by rw [typeAt, hlead]; rfl]
              exact parseLeaf_iff.mpr ⟨_, hunsigned (by omega) (by omega)⟩
          | int =>
              have hv : twosComplement width n = v := Token.int.inj ht
              have hrange := twosComplement_range hlt
              rw [hv] at hrange
              rw [Parses, parseNested, show typeAt (b :: bs) = .int by rw [typeAt, hlead]; rfl]
              exact parseLeaf_iff.mpr ⟨_, hsigned (by omega) (by omega)⟩
          | float =>
              simp only [Family.token] at ht
              split at ht <;> cases ht
          | _ => cases ht

/-- Without a header the parser takes nothing. -/
theorem not_parses {levels k : Nat} {bs : List UInt8} (h : token bs = none) :
    ¬ Parses (levels + 1) bs k := by
  have hheader {β : Type} (f : Token → Option β) : header f bs = none := by
    rw [header, h]
    rfl
  have hblob (f : Token → Option Nat) : blob f bs = none := by
    rw [blob, hheader]
    rfl
  rintro ⟨v, hv⟩
  rw [parseNested] at hv
  cases hty : typeAt bs <;> simp [hty, hheader, hblob, parseLeaf, parseCounted] at hv

/-- The length of an object that is one read. -/
theorem parses_leaf (make : α → Value) {levels j k : Nat} {bs : List UInt8}
    {answer : Option (α × Nat)} {x : α}
    (hparse : parseNested (levels + 1) bs = parseLeaf answer make)
    (hanswer : answer = some (x, j)) : Parses (levels + 1) bs k ↔ k = j := by
  rw [Parses, hparse, parseLeaf_iff, hanswer]
  simp [eq_comm]

/-- A string or binary is taken when its body is there. -/
theorem parses_blob {levels j k len : Nat} {bs : List UInt8} {f : Token → Option Nat}
    {make : Nat × Nat → Value}
    (hparse : parseNested (levels + 1) bs = parseLeaf (blob f bs) make)
    (hheader : header f bs = some (len, j)) :
    Parses (levels + 1) bs k ↔ j + len ≤ bs.length ∧ k = j + len := by
  have hj := (header_length hheader).2
  rw [Parses, hparse, parseLeaf_iff, blob, hheader, Option.bind_some]
  simp only at hj ⊢
  by_cases hroom : len ≤ bs.length - j
  · rw [if_pos hroom]
    constructor
    · rintro ⟨sizes, hsizes⟩
      cases hsizes
      omega
    · rintro ⟨-, rfl⟩
      exact ⟨_, rfl⟩
  · rw [if_neg hroom]
    simp only [reduceCtorEq, exists_false, false_iff]
    omega

/-- What the parser takes as one object. -/
theorem parses_succ {levels k : Nat} {bs : List UInt8} :
    Parses (levels + 1) bs k ↔
      ∃ t j i, token bs = some (t, j) ∧ t.kind ≠ .ext ∧ j + t.bodyBytes ≤ bs.length ∧
        ParsesMany levels t.children (bs.drop (j + t.bodyBytes)) i ∧ k = j + t.bodyBytes + i := by
  cases htoken : token bs with
  | none =>
      refine iff_of_false (not_parses htoken) ?_
      rintro ⟨t, j, i, h, -⟩
      cases h
  | some p =>
      obtain ⟨t, j⟩ := p
      have hj := (token_length htoken).2
      have hright : (∃ t' j' i, some (t, j) = some (t', j') ∧ t'.kind ≠ .ext ∧
            j' + t'.bodyBytes ≤ bs.length ∧
            ParsesMany levels t'.children (bs.drop (j' + t'.bodyBytes)) i ∧
            k = j' + t'.bodyBytes + i) ↔
          t.kind ≠ .ext ∧ j + t.bodyBytes ≤ bs.length ∧
            ∃ i, ParsesMany levels t.children (bs.drop (j + t.bodyBytes)) i ∧
              k = j + t.bodyBytes + i := by
        constructor
        · rintro ⟨t', j', i, h, hkind, hroom, hmany, hk⟩
          cases h
          exact ⟨hkind, hroom, i, hmany, hk⟩
        · rintro ⟨hkind, hroom, i, hmany, hk⟩
          exact ⟨t, j, i, rfl, hkind, hroom, hmany, hk⟩
      have haccept {β : Type} {f : Token → Option β} {x : β} (hf : f t = some x) :
          header f bs = some (x, j) := by
        rw [header, htoken, Option.bind_some, hf]
        rfl
      have htype (hkind : t.kind ≠ .int) := typeAt_of_token htoken hkind
      -- An object that is its header.
      have hleaf (hkind : t.kind ≠ .ext) (hbody : t.bodyBytes = 0) (hchildren : t.children = 0)
          (hparses : Parses (levels + 1) bs k ↔ k = j) :
          Parses (levels + 1) bs k ↔
            t.kind ≠ .ext ∧ j + t.bodyBytes ≤ bs.length ∧
              ∃ i, ParsesMany levels t.children (bs.drop (j + t.bodyBytes)) i ∧
                k = j + t.bodyBytes + i := by
        rw [hparses, hbody, hchildren]
        simp only [parsesMany_zero, exists_eq_left, Nat.add_zero]
        exact ⟨fun hk => ⟨hkind, hj, hk⟩, fun h => h.2.2⟩
      rw [hright]
      cases t with
      | nil =>
          refine hleaf (by decide) rfl rfl
            (parses_leaf (fun _ => nil) ?_ (haccept (f := Reader.asNil) rfl))
          rw [parseNested, htype (by decide)]
          rfl
      | bool v =>
          refine hleaf (by simp [Token.kind]) rfl rfl
            (parses_leaf bool ?_ (haccept (f := Reader.asBool) rfl))
          rw [parseNested, htype (by simp [Token.kind])]
          rfl
      | int v =>
          -- The parser is a function, so `j` is the only length.
          refine hleaf (by simp [Token.kind]) rfl rfl ⟨?_, ?_⟩
          · rintro ⟨u, hu⟩
            have hint : Parses (levels + 1) bs j := parses_int htoken
            obtain ⟨u', hu'⟩ := hint
            rw [hu] at hu'
            exact (Prod.mk.inj (Except.ok.inj hu')).2
          · rintro rfl
            exact parses_int htoken
      | float32 bits =>
          refine hleaf (by simp [Token.kind]) rfl rfl
            (parses_leaf double ?_ (haccept (f := Reader.asDouble) rfl))
          rw [parseNested, htype (by simp [Token.kind])]
          rfl
      | float64 bits =>
          refine hleaf (by simp [Token.kind]) rfl rfl
            (parses_leaf double ?_ (haccept (f := Reader.asDouble) rfl))
          rw [parseNested, htype (by simp [Token.kind])]
          rfl
      | str len =>
          have hlen := asLength_header htoken (Nat.le_add_right len 0)
          have htake : parseNested (levels + 1) bs
              = parseLeaf (blob (Reader.asStr .host64) bs) fun sizes =>
                  str ((bs.drop sizes.1).take sizes.2) := by
            rw [parseNested, htype (by simp [Token.kind])]
            rfl
          rw [parses_blob htake (haccept hlen)]
          simp [Token.kind, Token.bodyBytes, Token.children, parsesMany_zero]
      | bin len =>
          have hlen := asLength_header htoken (Nat.le_add_right len 0)
          have htake : parseNested (levels + 1) bs
              = parseLeaf (blob (Reader.asBin .host64) bs) fun sizes =>
                  bin ((bs.drop sizes.1).take sizes.2) := by
            rw [parseNested, htype (by simp [Token.kind])]
            rfl
          rw [parses_blob htake (haccept hlen)]
          simp [Token.kind, Token.bodyBytes, Token.children, parsesMany_zero]
      | array len =>
          have hlen := asLength_header htoken (Nat.le_add_left len 0)
          have hheader := haccept (f := Reader.asArray .host64) hlen
          rw [Parses, parseNested, htype (by simp [Token.kind])]
          simp only [Token.kind, typeOfKind, parseCounted_iff hheader]
          simp [Token.bodyBytes, Token.children, ParsesMany, hj]
      | map len =>
          have hlen := asLength_header htoken (show len ≤ 0 + 2 * len by omega)
          have hheader := haccept (f := Reader.asMap .host64) hlen
          rw [Parses, parseNested, htype (by simp [Token.kind])]
          simp only [Token.kind, typeOfKind, parseCounted_iff hheader, parseEntries_iff]
          simp [Token.bodyBytes, Token.children, hj]
      | ext len =>
          -- No extension is taken, on either side.
          rw [Parses, parseNested, htype (by simp [Token.kind])]
          simp [Token.kind, typeOfKind]

/-! ### The parser takes plain objects -/

/-- So many objects in a row, given what is taken as one. -/
theorem parsesMany_iff {levels : Nat}
    (h : ∀ bs k, Parses levels bs k ↔ PlainFront levels bs k) (n : Nat) (bs : List UInt8)
    (k : Nat) : ParsesMany levels n bs k ↔ PlainFronts levels n bs k := by
  induction n generalizing bs k with
  | zero => rw [parsesMany_zero, plainFronts_zero]
  | succ n ih => simp only [parsesMany_succ, plainFronts_succ, h, ih]

/-- The parser takes exactly the plain objects. -/
theorem parses_iff (levels : Nat) (bs : List UInt8) (k : Nat) :
    Parses levels bs k ↔ PlainFront levels bs k := by
  induction levels generalizing bs k with
  | zero =>
      constructor
      · rintro ⟨v, hv⟩
        cases hv
      · rintro ⟨-, hplain⟩
        cases hplain
  | succ levels ih => simp only [parses_succ, plainFront_iff, parsesMany_iff ih]

/-- On a 64-bit host, what `decode` takes `skip` passes over, and what `skip` passes over
`decode` takes, unless it holds an extension or is nested deeper than `kMaxDepth`. -/
theorem decode_skip_agree {r : Reader .host64} (herr : r.error = false)
    (hbuf : r.buf.length < 2 ^ 31) :
    (∀ v r', decode r = .ok (v, r') → r.skip = r') ∧
      (r.skip.error = false →
        Plain (kMaxDepth + 1) (r.rest.take (r.skip.pos - r.pos)) →
        ∃ v, decode r = .ok (v, r.skip)) := by
  have hwide : r.buf.length < 2 ^ SizeT.host64.bits :=
    Nat.lt_of_lt_of_le hbuf (Nat.pow_le_pow_right (by decide) (by decide))
  have hdecode := decode_eq herr
  constructor
  · -- What is taken is a plain object, and `skip` passes over every object.
    intro v r' hok
    rw [hdecode] at hok
    cases hparse : parseNested (kMaxDepth + 1) r.rest with
    | error e =>
        rw [hparse] at hok
        cases hok
    | ok p =>
        obtain ⟨v', k⟩ := p
        rw [hparse] at hok
        cases hok
        obtain ⟨hk, hplain⟩ := (parses_iff _ r.rest k).mp ⟨_, hparse⟩
        exact skip_of_front herr hwide ⟨hk, hplain.object.sequence⟩
  · -- `skip` passed over an object, and the parser takes it if it is a plain one.
    intro hok hplain
    have hfits := fits_host64 (Nat.lt_of_le_of_lt r.rest_length_le hbuf)
    obtain ⟨k, hk, hskip⟩ | ⟨-, hskip⟩ := skip_of_fits herr hwide hfits
    · have hpos : r.skip.pos - r.pos = k := by
        rw [hskip]
        exact Nat.add_sub_cancel_left _ _
      rw [hpos] at hplain
      obtain ⟨v, hparse⟩ := (parses_iff _ r.rest k).mpr ⟨hk.1, hplain⟩
      refine ⟨v, ?_⟩
      rw [hdecode, hparse, hskip]
      rfl
    · rw [hskip] at hok
      cases hok

/-- A map with a string key, and a byte behind it. -/
theorem decode_skip_agree_witness :
    (Reader.new .host64 [0x81, 0xa1, 0x61, 0x92, 0x01, 0xc0, 0xff]).skip
        = (Reader.new .host64 [0x81, 0xa1, 0x61, 0x92, 0x01, 0xc0, 0xff]).advance 6 ∧
      ∃ v, decode (Reader.new .host64 [0x81, 0xa1, 0x61, 0x92, 0x01, 0xc0, 0xff])
        = .ok (v, (Reader.new .host64 [0x81, 0xa1, 0x61, 0x92, 0x01, 0xc0, 0xff]).skip) := by
  have hdecode : decode (Reader.new .host64 [0x81, 0xa1, 0x61, 0x92, 0x01, 0xc0, 0xff])
      = .ok (map [(str [0x61], array [uint 1, nil])],
          (Reader.new .host64 [0x81, 0xa1, 0x61, 0x92, 0x01, 0xc0, 0xff]).advance 6) := rfl
  have hagree := decode_skip_agree
    (r := Reader.new .host64 [0x81, 0xa1, 0x61, 0x92, 0x01, 0xc0, 0xff]) rfl (by decide)
  have hskip := hagree.1 _ _ hdecode
  have hplain := (parses_iff (kMaxDepth + 1) [0x81, 0xa1, 0x61, 0x92, 0x01, 0xc0, 0xff] 6).mp
    ⟨_, rfl⟩
  refine ⟨hskip, hagree.2 (by rw [hskip]; rfl) ?_⟩
  rw [hskip]
  exact hplain.2

end Value

end SerialRpc
