import SerialRpc.Device.Signature
import SerialRpc.Proofs.Device.Requests

/-!
# `SerialRpc.Proofs.Device.Signature`: what `rpc.list` says about a handler

`SigBuf.Appends` says what a function that writes into a `SigBuf` appends: the whole text if there
is room for it, and otherwise its beginning. Such functions compose (`Appends.comp`), and so each
`SigToken` appends the text of the `shape` of its type (`sigToken_appends`).

* `signature_written`: what is read from the buffer as a C string is the signature, cut where the
  room ends, on every target, and `rpc.list` announces the same.
* `signature_unambiguous`: two signatures that were not cut are the same exactly when they show the
  same.
-/

set_option autoImplicit false

namespace SerialRpc

open Bracketed Server ServerSize

/-! ### Appending -/

/-- What is cut anyway may be cut before. -/
theorem take_take_append {α : Type} (n : Nat) (xs ys : List α) :
    (xs.take n ++ ys).take n = (xs ++ ys).take n := by
  rw [List.take_append, List.take_append, List.take_take, List.length_take, Nat.min_self]
  rcases Nat.le_total n xs.length with h | h
  · simp [h]
  · simp [h]

namespace SigBuf

/-- A copy does not change the size of the buffer. -/
theorem copy_length (buf : List UInt8) (len : Nat) (s : List UInt8) :
    (copy buf len s).1.length = buf.length := by
  induction s generalizing buf len with
  | nil => rfl
  | cons c s ih =>
      rw [copy]
      split
      · rw [ih, List.length_set]
      · rfl

/-- The loop of `append` writes what there is room for. -/
theorem copy_take {buf : List UInt8} {len : Nat} (s : List UInt8)
    (h : (buf = [] ∧ len = 0) ∨ len < buf.length) :
    (copy buf len s).1.take (copy buf len s).2 = (buf.take len ++ s).take (buf.length - 1) := by
  induction s generalizing buf len with
  | nil =>
      have hlen : len ≤ buf.length - 1 := by
        rcases h with ⟨-, rfl⟩ | hlt
        · exact Nat.zero_le _
        · exact Nat.le_sub_one_of_lt hlt
      rw [copy, List.append_nil, List.take_take, Nat.min_eq_right hlen]
  | cons c s ih =>
      rw [copy]
      split
      · rename_i hroom
        have hlt : len < buf.length := Nat.lt_of_succ_lt hroom
        have hset : (buf.set len c).take (len + 1) = buf.take len ++ [c] := by
          rw [List.take_add_one, List.take_set_of_le (Nat.le_refl len),
            List.getElem?_set_self hlt]
          rfl
        rw [ih (.inr (by rw [List.length_set]; exact hroom)), hset, List.length_set,
          List.append_assoc]
        rfl
      · rename_i hroom
        -- The terminator needs the last byte.
        have hfull : (buf.take len).length = buf.length - 1 := by
          rw [List.length_take]
          rcases h with ⟨rfl, rfl⟩ | hlt
          · rfl
          · omega
        rw [← hfull, List.take_left]

/-- The loop for a token in flash stops at the terminator. -/
theorem copyToken_eq (buf : List UInt8) (len : Nat) (tok : List UInt8) :
    copyToken buf len tok = copy buf len (tok.takeWhile (· ≠ 0)) := by
  induction tok generalizing buf len with
  | nil => rfl
  | cons c tok ih =>
      by_cases hc : c = 0
      · rw [copyToken, if_pos hc, List.takeWhile_cons_of_neg (by simpa using hc), copy]
      · rw [copyToken, if_neg hc, List.takeWhile_cons_of_pos (by simpa using hc), copy, ih]
        by_cases hroom : buf.length ≤ len + 1
        · rw [if_pos hroom, if_neg (Nat.not_lt.mpr hroom)]
        · rw [if_neg hroom, if_pos (Nat.lt_of_not_le hroom)]

/-- Both compilers append a token alike. -/
theorem appendToken_eq (avr : Bool) (b : SigBuf) (tok : CString) :
    b.appendToken avr tok = b.append (tok.memory.takeWhile (· ≠ 0)) := by
  have hfront (l : List UInt8) : l.take (l.idxOf 0) = l.takeWhile (· ≠ 0) := by
    induction l with
    | nil => rfl
    | cons c l ih =>
        by_cases hc : c = 0
        · rw [hc, List.idxOf_cons_self, List.take_zero, List.takeWhile_cons_of_neg (by simp)]
        · rw [List.idxOf_cons_ne _ hc, List.take_succ_cons, ih,
            List.takeWhile_cons_of_pos (by simpa using hc)]
  cases avr with
  | false =>
      rw [appendToken, if_neg Bool.false_ne_true, strlen, hfront]
  | true =>
      rw [appendToken, if_pos rfl, append]
      simp only [copyToken_eq]

/-- What a function appends, as far as there is room. -/
def Appends (f : SigBuf → SigBuf) (s : List UInt8) : Prop :=
  ∀ b : SigBuf, (f b).buf.length = b.buf.length ∧
    (f b).written = (b.written ++ s).take (b.buf.length - 1)

/-- What is written of a buffer that is terminated at `len`. -/
theorem written_terminate {buf : List UInt8} {len : Nat}
    (h : (buf = [] ∧ len = 0) ∨ len < buf.length) :
    (terminate buf len h).written = buf.take len := by
  rw [written, terminate]
  exact List.take_set_of_le (Nat.le_refl len)

/-- `append` appends its text, cut where the room ends. -/
theorem append_appends (s : List UInt8) : Appends (fun b => b.append s) s := by
  intro b
  constructor
  · show ((copy b.buf b.len s).1.set _ 0).length = b.buf.length
    rw [List.length_set, copy_length]
  · show (terminate _ _ _).written = _
    rw [written_terminate, copy_take s b.bound, written]

/-- Two texts, one behind the other. -/
theorem Appends.comp {f g : SigBuf → SigBuf} {s t : List UInt8} (hf : Appends f s)
    (hg : Appends g t) : Appends (fun b => g (f b)) (s ++ t) := by
  intro b
  obtain ⟨hlength, hwritten⟩ := hf b
  obtain ⟨hlength', hwritten'⟩ := hg (f b)
  constructor
  · rw [hlength', hlength]
  · rw [hwritten', hlength, hwritten, take_take_append, List.append_assoc]

/-- A token without a zero byte in it. -/
theorem appendToken_appends (avr : Bool) {s : String} {bytes : List UInt8} (hs : text s = bytes)
    (h : 0 ∉ bytes) : Appends (fun b => b.appendToken avr (literal s)) bytes := by
  have hmemory : (literal s).memory.takeWhile (· ≠ 0) = bytes := by
    have hne : ∀ c ∈ bytes, decide (c ≠ 0) = true := by
      intro c hc
      exact decide_eq_true fun hzero => h (hzero ▸ hc)
    show (text s ++ [0]).takeWhile _ = bytes
    rw [hs, List.takeWhile_append_of_pos hne, List.takeWhile_cons_of_neg (by simp),
      List.append_nil]
  intro b
  show (b.appendToken avr (literal s)).buf.length = _ ∧ (b.appendToken avr (literal s)).written = _
  rw [appendToken_eq, hmemory]
  exact append_appends bytes b

/-- A token appends its text, from flash or from memory. -/
theorem token_appends (avr : Bool) (s : String) (h : 0 ∉ text s) :
    Appends (fun b => b.appendToken avr (literal s)) (text s) :=
  appendToken_appends avr rfl h

/-- The digits come last one first. -/
theorem uintDigits_reverse {room n : Nat} (hpos : 0 < n) (h : n < 10 ^ room) :
    (uintDigits room n).reverse = Decimal.numeral n := by
  induction room generalizing n with
  | zero =>
      rw [Nat.pow_zero] at h
      omega
  | succ room ih =>
      rw [uintDigits, if_neg (Nat.pos_iff_ne_zero.mp hpos), List.reverse_cons]
      by_cases hsmall : n < 10
      · have hdone : uintDigits room (n / 10) = [] := by
          rw [Nat.div_eq_of_lt hsmall]
          cases room <;> rfl
        rw [hdone, Nat.mod_eq_of_lt hsmall, Decimal.numeral_of_lt hsmall]
        rfl
      · have hquotient : n / 10 < 10 ^ room := by
          rw [Nat.pow_succ] at h
          omega
        rw [ih (by omega) hquotient, Decimal.numeral_of_le (Nat.le_of_not_lt hsmall)]

/-- Twenty digits are enough for a `size_t`. -/
theorem appendUint_appends {n : Nat} (h : n < 2 ^ 64) :
    Appends (fun b => b.appendUint n) (Decimal.numeral n) := by
  have hdigits : (if n = 0 then [Decimal.digit 0] else (uintDigits 20 n).reverse)
      = Decimal.numeral n := by
    split
    · rename_i hzero
      rw [hzero, Decimal.numeral_of_lt (by decide)]
    · rename_i hzero
      exact uintDigits_reverse (Nat.pos_of_ne_zero hzero) (Nat.lt_trans h (by decide))
  unfold appendUint
  rw [hdigits]
  exact append_appends _

end SigBuf

open SigBuf

/-! ### Tokens -/

/-- The comma of the tokens is that of the spelling. -/
theorem comma_text : text "," = sigSpelling.sep .comma := by decide +kernel

/-- The separators in front of all types but the first. -/
theorem sigList_rest (target : SigTarget) {tokens : List (SigBuf → SigBuf)} {ts : List SigTerm}
    (h : List.Forall₂ (fun f t => Appends f (sigSpelling.text t)) tokens ts) :
    Appends (sigList target tokens false)
      (ts.flatMap fun t => sigSpelling.sep .comma ++ sigSpelling.text t) := by
  induction h with
  | nil =>
      intro b
      refine ⟨rfl, ?_⟩
      rw [sigList, List.flatMap_nil, List.append_nil, written, List.take_take]
      have hbound := b.bound
      congr 1
      omega
  | cons htoken _ ih =>
      have hcomma := appendToken_appends target.avr comma_text (by decide)
      exact (hcomma.comp htoken).comp ih

/-- A list between two brackets. -/
theorem sigList_appends (target : SigTarget) {k : SigBracket} {opening closing : String}
    (hopening : text opening = [sigSpelling.opening k])
    (hclosing : text closing = [sigSpelling.closing k])
    {tokens : List (SigBuf → SigBuf)} {ts : List SigTerm}
    (h : List.Forall₂ (fun f t => Appends f (sigSpelling.text t)) tokens ts) :
    Appends (fun b =>
        (sigList target tokens true (b.appendToken target.avr (literal opening))).appendToken
          target.avr (literal closing))
      (sigSpelling.text (.ofList k .comma ts)) := by
  have hfront := appendToken_appends target.avr hopening (by cases k <;> decide)
  have hback := appendToken_appends target.avr hclosing (by cases k <;> decide)
  cases h with
  | nil => exact hfront.comp hback
  | cons htoken hrest =>
      rw [Spelling.text_ofList_cons]
      exact (hfront.comp (htoken.comp (sigList_rest target hrest))).comp hback

/-- The token of an integer type appends its atom. -/
theorem intToken_appends (target : SigTarget) (type : ArgInt) :
    Appends (fun b => b.appendToken target.avr (intToken type)) type.atom.text := by
  unfold intToken ArgInt.atom
  split_ifs
  all_goals exact token_appends target.avr _ (by decide +kernel)

/-- `SigToken` appends the text of what it shows of the type. -/
theorem sigToken_appends (target : SigTarget) {t : ArgType} (h : t.Counted) :
    Appends (sigToken target t) (sigSpelling.text (t.shape target)) := by
  have hopening : text "[" = [sigSpelling.opening .bracket] := by decide +kernel
  have hclosing : text "]" = [sigSpelling.closing .bracket] := by decide +kernel
  have hfront := appendToken_appends target.avr hopening (by decide)
  have hback := appendToken_appends target.avr hclosing (by decide)
  induction t with
  | bool => exact token_appends target.avr "bool" (by decide +kernel)
  | int type => exact intToken_appends target type
  | float => exact token_appends target.avr "f32" (by decide +kernel)
  | double =>
      show Appends (fun b => b.appendToken target.avr (doubleToken target)) _
      unfold doubleToken ArgType.shape
      split_ifs
      all_goals exact token_appends target.avr _ (by decide +kernel)
  | cstr => exact token_appends target.avr "str" (by decide +kernel)
  | string => exact token_appends target.avr "str" (by decide +kernel)
  -- A bracket, the elements, a bracket: each part appends its own text to what is there.
  | vector element ih => exact hfront.comp ((ih h).comp hback)
  | array element n ih =>
      have hsemicolon : text ";" = sigSpelling.sep .semicolon := by decide +kernel
      have hsep := appendToken_appends target.avr hsemicolon (by decide)
      have hitems := (ih h.1).comp (hsep.comp (appendUint_appends h.2))
      exact hfront.comp (hitems.comp hback)
  | pair first second ihfirst ihsecond =>
      exact sigList_appends target hopening hclosing
        (.cons (ihfirst h.1) (.cons (ihsecond h.2) .nil))
  | tuple n element ih =>
      refine sigList_appends target hopening hclosing ?_
      rw [List.forall₂_iff_get]
      refine ⟨by simp, fun i hi hi' => ?_⟩
      simp only [List.get_eq_getElem, List.getElem_ofFn]
      exact ih _ (h _)

/-- A parameter list between its parentheses. -/
theorem params_appends (target : SigTarget) {args : List ArgType} (h : ∀ t ∈ args, t.Counted) :
    Appends (fun b =>
        (sigList target (args.map (sigToken target)) true
          (b.appendToken target.avr (literal "("))).appendToken target.avr (literal ")"))
      (sigSpelling.text (.ofList .paren .comma (args.map (ArgType.shape target)))) := by
  have hopening : text "(" = [sigSpelling.opening .paren] := by decide +kernel
  have hclosing : text ")" = [sigSpelling.closing .paren] := by decide +kernel
  refine sigList_appends target hopening hclosing ?_
  rw [List.forall₂_map_left_iff, List.forall₂_map_right_iff, List.forall₂_same]
  exact fun t ht => sigToken_appends target (h t ht)

/-- The text of a signature: the parameters, the arrow and the result. -/
theorem signatureText_eq (target : SigTarget) (b : Bound) :
    b.signatureText target
      = sigSpelling.text (b.shape target).1 ++
          (text "->" ++ sigSpelling.text (b.shape target).2) := by
  rw [Bound.signatureText, Bound.signature, List.flatten_append, List.flatten_cons,
    Spelling.flatten_pieces, Spelling.flatten_pieces]

/-- `write_sig` appends the signature. -/
theorem writeSig_appends (target : SigTarget) {b : Bound} (h : b.Counted) :
    Appends (b.writeSig target) (b.signatureText target) := by
  have harrow := token_appends target.avr "->" (by decide +kernel)
  rw [signatureText_eq]
  cases b with
  | typed result args =>
      have hresult : Appends (resultToken target result)
          (sigSpelling.text (Bound.shape target (.typed result args)).2) := by
        cases result with
        | none => exact token_appends target.avr "nil" (by decide +kernel)
        | some t => exact sigToken_appends target (h.1 t rfl)
      exact (params_appends target h.2).comp (harrow.comp hresult)
  | raw =>
      have hopening : text "(" = [sigSpelling.opening .paren] := by decide +kernel
      have hclosing : text ")" = [sigSpelling.closing .paren] := by decide +kernel
      have hfront := appendToken_appends target.avr hopening (by decide)
      have hback := appendToken_appends target.avr hclosing (by decide)
      have hellipsis := token_appends target.avr "..." (by decide +kernel)
      have hany := token_appends target.avr "any" (by decide +kernel)
      exact (hfront.comp (hellipsis.comp hback)).comp (harrow.comp hany)

/-! ### Reading -/

/-- The atoms that stand for no number. -/
def SigAtom.words : List SigAtom :=
  [bool, i8, i16, i32, i64, u8, u16, u32, u64, f32, f64, str, nil, ellipsis, any]

/-- Brackets and separators. -/
def IsMark (c : UInt8) : Prop :=
  c = 0x28 ∨ c = 0x29 ∨ c = 0x5b ∨ c = 0x5d ∨ c = 0x2c ∨ c = 0x3b

instance : DecidablePred IsMark := fun _ => inferInstanceAs (Decidable (_ ∨ _))

/-- An atom is a number or one of the words. -/
theorem SigAtom.number_or_word (a : SigAtom) : (∃ n, a = number n) ∨ a ∈ words := by
  cases a with
  | number n => exact .inl ⟨n, rfl⟩
  | _ => exact .inr (by simp [words])

/-- A word is not empty, no digit begins it, and there is no mark and no zero byte in it. -/
theorem SigAtom.word_text {a : SigAtom} (h : a ∈ words) :
    (∃ c ∈ a.text.head?, ¬ Decimal.IsDigit c) ∧ ∀ c ∈ a.text, ¬ IsMark c ∧ c ≠ 0 := by
  have hwords : ∀ a ∈ words,
      (a.text.head?.any fun c => decide (¬ Decimal.IsDigit c)) = true ∧
        (a.text.all fun c => decide (¬ IsMark c ∧ c ≠ 0)) = true := by
    decide +kernel
  obtain ⟨hhead, hall⟩ := hwords a h
  obtain ⟨c, hc, hdigit⟩ := (Option.any_eq_true _ _).mp hhead
  exact ⟨⟨c, hc, of_decide_eq_true hdigit⟩,
    fun c hc => of_decide_eq_true (List.all_eq_true.mp hall c hc)⟩

/-- Digits are no marks. -/
theorem not_mark_of_isDigit {c : UInt8} (h : Decimal.IsDigit c) : ¬ IsMark c ∧ c ≠ 0 := by
  obtain ⟨hlow, hhigh⟩ := h
  constructor
  · rintro (rfl | rfl | rfl | rfl | rfl | rfl) <;> revert hlow hhigh <;> decide
  · rintro rfl
    revert hlow
    decide

/-- No atom has a mark or a zero in it. -/
theorem SigAtom.not_mark (a : SigAtom) : ∀ c ∈ a.text, ¬ IsMark c ∧ c ≠ 0 := by
  rcases a.number_or_word with ⟨n, rfl⟩ | hword
  · exact fun c hc => not_mark_of_isDigit (Decimal.isDigit_of_mem_numeral c hc)
  · exact (word_text hword).2

/-- No atom is empty. -/
theorem SigAtom.text_ne_nil (a : SigAtom) : a.text ≠ [] := by
  rcases a.number_or_word with ⟨n, rfl⟩ | hword
  · exact Decimal.numeral_ne_nil n
  · obtain ⟨⟨c, hc, -⟩, -⟩ := word_text hword
    rintro hnil
    rw [hnil] at hc
    cases hc

/-- A word is no numeral. -/
theorem SigAtom.word_ne_number {a : SigAtom} (ha : a ∈ words) (n : Nat) :
    a.text ≠ (number n).text := by
  intro heq
  obtain ⟨⟨c, hc, hdigit⟩, -⟩ := word_text ha
  rw [heq] at hc
  exact hdigit (Decimal.isDigit_of_mem_numeral c (List.mem_of_mem_head? hc))

/-- An atom can be read back from its text. -/
theorem SigAtom.text_injective {a b : SigAtom} (h : a.text = b.text) : a = b := by
  have hwords : ∀ a ∈ words, ∀ b ∈ words, a.text = b.text → a = b := by decide +kernel
  rcases a.number_or_word with ⟨m, rfl⟩ | ha
  · rcases b.number_or_word with ⟨n, rfl⟩ | hb
    · exact congrArg number (Decimal.numeral_injective h)
    · exact absurd h.symm (word_ne_number hb m)
  · rcases b.number_or_word with ⟨n, rfl⟩ | hb
    · exact absurd h (word_ne_number ha n)
    · exact hwords a ha b hb h

/-- An atom does not begin with a mark. -/
theorem SigAtom.text_ne_mark (a : SigAtom) {c : UInt8} (hc : IsMark c) (r r' : List UInt8) :
    a.text ++ r ≠ c :: r' := by
  obtain ⟨d, ds, hd⟩ := List.exists_cons_of_ne_nil a.text_ne_nil
  intro heq
  have hmark := (a.not_mark d (by rw [hd]; exact List.mem_cons_self)).1
  rw [hd, List.cons_append] at heq
  obtain ⟨rfl, -⟩ := List.cons.inj heq
  exact hmark hc

/-- Opening brackets are marks. -/
theorem isMark_opening (k : SigBracket) : IsMark (sigSpelling.opening k) := by
  cases k <;> decide

/-- So are closing ones. -/
theorem isMark_closing (k : SigBracket) : IsMark (sigSpelling.closing k) := by
  cases k <;> decide

/-- What may come behind an atom begins with a mark. -/
theorem stopsAt_of_ends {r : List UInt8} (h : sigSpelling.Ends r) : StopsAt IsMark r := by
  rcases h with rfl | ⟨k, t, rfl⟩ | ⟨s, t, rfl⟩
  · rintro c ⟨⟩
  · rintro c ⟨⟩
    exact isMark_closing k
  · cases s with
    | comma =>
        rintro c ⟨⟩
        decide
    | semicolon =>
        rintro c ⟨⟩
        decide

/-- **The spelling of signatures is readable.** -/
theorem sigSpelling_readable : sigSpelling.Readable where
  opening k k' h := by cases k <;> cases k' <;> first | rfl | exact absurd h (by decide)
  sep {s s'} {r r'} h := by
    have hhead := congrArg List.head? h
    cases s <;> cases s' <;> first | rfl | exact absurd hhead (by simp [sigSpelling])
  leaf {a b} {r r'} hr hr' h := by
    have hwords := append_inj_of_stops (fun c hc => (a.not_mark c hc).1)
      (fun c hc => (b.not_mark c hc).1) (stopsAt_of_ends hr) (stopsAt_of_ends hr') h
    exact SigAtom.text_injective hwords.1
  sep_closing s k r r' h := by
    have hhead := congrArg List.head? h
    cases s <;> cases k <;> exact absurd hhead (by simp [sigSpelling])
  leaf_opening a k r r' := a.text_ne_mark (isMark_opening k) r r'
  leaf_closing a k r r' := a.text_ne_mark (isMark_closing k) r r'
  opening_closing k k' := by cases k <;> cases k' <;> decide

/-- The parameters are written between parentheses. -/
theorem Bound.before_arrow (target : SigTarget) (b : Bound) (r : List UInt8) :
    sigSpelling.Before (b.shape target).1 r := by
  cases b with
  | typed result args => cases args <;> trivial
  | raw => trivial

/-- The whole signature says what it shows. -/
theorem signatureText_injective (target : SigTarget) {a b : Bound}
    (h : a.signatureText target = b.signatureText target) : a.shape target = b.shape target := by
  rw [signatureText_eq, signatureText_eq] at h
  obtain ⟨hparams, hrest⟩ := sigSpelling_readable.text_append_inj _ _ (a.before_arrow target _)
    (b.before_arrow target _) h
  have hresult := sigSpelling_readable.text_injective (List.append_cancel_left hrest)
  exact Prod.ext hparams hresult

/-! ### The text as a C string -/

mutual

/-- There is no zero in the text of a term. -/
theorem SigTerm.ne_zero : (t : SigTerm) → ∀ c ∈ sigSpelling.text t, c ≠ 0
  | .leaf a => fun c hc => (a.not_mark c hc).2
  | .empty k => by cases k <;> simp [Spelling.text, sigSpelling]
  | .group k items => by
      intro c hc
      rw [Spelling.text, List.mem_cons, List.mem_append, List.mem_singleton] at hc
      rcases hc with rfl | hc | rfl
      · cases k <;> decide
      · exact SigItems.ne_zero items c hc
      · cases k <;> decide

/-- Nor in that of items. -/
theorem SigItems.ne_zero : (items : Items SigBracket SigSep SigAtom) →
    ∀ c ∈ sigSpelling.itemsText items, c ≠ 0
  | .last t => SigTerm.ne_zero t
  | .more t s rest => by
      intro c hc
      rw [Spelling.itemsText, List.mem_append, List.mem_append] at hc
      rcases hc with hc | hc | hc
      · exact SigTerm.ne_zero t c hc
      · cases s
        all_goals
          rw [List.mem_singleton.mp hc]
          decide
      · exact SigItems.ne_zero rest c hc

end

/-- So a signature is a C string. -/
theorem signatureText_ne_zero (target : SigTarget) (b : Bound) :
    ∀ c ∈ b.signatureText target, c ≠ 0 := by
  have harrow : 0 ∉ text "->" := by decide +kernel
  intro c hc
  rw [signatureText_eq, List.mem_append, List.mem_append] at hc
  rcases hc with hc | hc | hc
  · exact SigTerm.ne_zero _ c hc
  · rintro rfl
    exact harrow hc
  · exact SigTerm.ne_zero _ c hc

/-- A text without zeros, and a terminator behind it. -/
theorem SigBuf.cstr_eq (b : SigBuf) (hroom : b.buf ≠ []) (h : ∀ c ∈ b.written, c ≠ 0) :
    cstr b.buf = b.written := by
  have hterminated : b.buf[b.len]? = some 0 :=
    b.terminated.resolve_left fun hnil => hroom hnil.1
  obtain ⟨hlt, hzero⟩ := List.getElem?_eq_some_iff.mp hterminated
  have hsplit : b.buf = b.written ++ 0 :: b.buf.drop (b.len + 1) := by
    rw [written, ← hzero, ← List.drop_eq_getElem_cons hlt, List.take_append_drop]
  have hall : ∀ c ∈ b.written, decide (c ≠ 0) = true := fun c hc => decide_eq_true (h c hc)
  rw [hsplit, cstr, List.takeWhile_append_of_pos hall, List.takeWhile_cons_of_neg (by simp),
    List.append_nil]

/-- The tokens of an entry, cut where the room ends. -/
theorem foldl_sigAppend {cap : Nat} (tokens : List (List UInt8)) {buf : List UInt8}
    (h : buf.length ≤ cap - 1) :
    tokens.foldl (sigAppend cap) buf = (buf ++ tokens.flatten).take (cap - 1) := by
  induction tokens generalizing buf with
  | nil => rw [List.foldl_nil, List.flatten_nil, List.append_nil, List.take_of_length_le h]
  | cons token tokens ih =>
      have hstep : sigAppend cap buf token = (buf ++ token).take (cap - 1) := by
        rw [sigAppend, List.take_append, List.take_of_length_le h]
      rw [List.foldl_cons, hstep, ih (List.length_take_le _ _), take_take_append,
        List.flatten_cons, List.append_assoc]

variable {sz : ServerSize} {σ : Type}

/-- What `rpc.list` announces of a handler. -/
theorem signature_eq (target : SigTarget) {b : Bound} {entry : Entry sz.sizeT σ}
    (h : entry.writeSig = b.signature target) :
    signature entry = (b.signatureText target).take (kSigBufSize - 1) := by
  rw [signature, h, foldl_sigAppend _ (Nat.zero_le _), List.nil_append]
  rfl

/-- Whatever the memory was and whatever target the code is for, the C string in the buffer is the
signature, cut where the room ends, and nothing behind the buffer is written. With the buffer of
`rpc.list` it is what the device announces. -/
theorem signature_written (target : SigTarget) {b : Bound} (h : b.Counted) {memory : List UInt8}
    (hroom : memory ≠ []) :
    (b.writeSig target (.new memory)).buf.length = memory.length ∧
      cstr (b.writeSig target (.new memory)).buf
        = (b.signatureText target).take (memory.length - 1) ∧
      ∀ {sz : ServerSize} {σ : Type} (entry : Entry sz.sizeT σ),
        entry.writeSig = b.signature target → memory.length = kSigBufSize →
        signature entry = cstr (b.writeSig target (.new memory)).buf := by
  have hnew : (SigBuf.new memory).written = [] := by
    rw [SigBuf.new, written_terminate, List.take_zero]
  have hmemory : (SigBuf.new memory).buf.length = memory.length := by
    rw [SigBuf.new, terminate, List.length_set]
  obtain ⟨hlength, hwritten⟩ := writeSig_appends target h (.new memory)
  rw [hmemory] at hlength
  rw [hnew, hmemory, List.nil_append] at hwritten
  have hbuf : (b.writeSig target (.new memory)).buf ≠ [] := by
    intro hnil
    rw [hnil] at hlength
    exact hroom (List.length_eq_zero_iff.mp hlength.symm)
  -- No character of a signature is a zero, so the first one in the buffer is the terminator.
  have hcstr : cstr (b.writeSig target (.new memory)).buf
      = (b.signatureText target).take (memory.length - 1) := by
    rw [SigBuf.cstr_eq _ hbuf, hwritten]
    rw [hwritten]
    exact fun c hc => signatureText_ne_zero target b c (List.mem_of_mem_take hc)
  refine ⟨hlength, hcstr, ?_⟩
  intro sz σ entry hentry hsize
  rw [signature_eq target hentry, hcstr, hsize]

/-- A handler of five parameters fills a buffer of 16 bytes. -/
def fiveParameters : Bound := .typed none [.bool, .float, .string, .vector .cstr, .double]

/-- A buffer of 16 bytes cuts it. -/
theorem signature_written_five :
    cstr (fiveParameters.writeSig ⟨true, false⟩ (.new (List.replicate 16 0xff))).buf
        = text "(bool,f32,str,[" ∧
      (fiveParameters.writeSig ⟨true, false⟩ (.new (List.replicate 16 0xff))).buf.length = 16 := by
  have hcounted : fiveParameters.Counted := by
    simp [fiveParameters, Bound.Counted, ArgType.Counted]
  obtain ⟨hlength, hcstr, -⟩ := signature_written ⟨true, false⟩ hcounted
    (show List.replicate 16 (0xff : UInt8) ≠ [] from List.cons_ne_nil _ _)
  refine ⟨hcstr.trans ?_, hlength⟩
  decide +kernel

/-- Two handlers whose signatures are not cut are announced alike exactly when their signatures show
the same parameters and the same result. -/
theorem signature_unambiguous (target : SigTarget) {a b : Bound} {e e' : Entry sz.sizeT σ}
    (he : e.writeSig = a.signature target) (he' : e'.writeSig = b.signature target)
    (hwhole : (a.signatureText target).length ≤ kSigBufSize - 1)
    (hwhole' : (b.signatureText target).length ≤ kSigBufSize - 1) :
    signature e = signature e' ↔ a.shape target = b.shape target := by
  rw [signature_eq target he, signature_eq target he', List.take_of_length_le hwhole,
    List.take_of_length_le hwhole']
  constructor
  · exact fun htext => signatureText_injective target htext
  · intro hshape
    rw [Bound.signatureText, Bound.signatureText, Bound.signature, Bound.signature, hshape]

/-- The entry of a handler that does nothing. -/
def idleEntry (target : SigTarget) (b : Bound) : Entry small.sizeT Unit :=
  ⟨[0x66], fun _ state => .done (⟨[], none⟩, state), b.signature target⟩

/-- A `std::vector<bool>` and a `std::tuple<bool>` are shown alike. -/
theorem signature_unambiguous_vector :
    signature (idleEntry ⟨false, true⟩ (.typed none [.vector .bool]))
      = signature (idleEntry ⟨false, true⟩ (.typed none [.tuple 1 fun _ => .bool])) := by
  exact signature_unambiguous ⟨false, true⟩ (a := .typed none [.vector .bool])
    (b := .typed none [.tuple 1 fun _ => .bool]) rfl rfl (by decide +kernel) (by decide +kernel)
    |>.mpr rfl

end SerialRpc
