import SerialRpc.Proofs.Host.Json
import SerialRpc.Proofs.Text
import SerialRpc.Lib.Bracketed

/-!
# `SerialRpc.Proofs.Host.Rendering`: what `to_string` tells of a value

`Value::to_string` is what error messages, events and results show of a value. Its text is a
bracketed one (`appendToString_eq`), whose leaves are read back: an escaped string ends at its
closing quote (`escaped_inj`), and everything else in front of the next separator or bracket.

* `value_rendered_alike`: two values have the same text exactly when they look alike: the same
  tree, the same strings, numbers with the same digits and blobs of the same size.
-/

set_option autoImplicit false

namespace SerialRpc

open Bracketed

/-! ### Escaped strings -/

/-- What `append_json_escaped` makes of a character. -/
def escaped (c : UInt8) : List UInt8 := appendJsonEscaped [c]

/-- A string is escaped byte by byte. -/
theorem appendJsonEscaped_eq (s : List UInt8) : appendJsonEscaped s = s.flatMap escaped := by
  induction s with
  | nil => rfl
  | cons c s ih =>
      rw [List.flatMap_cons, ← ih, escaped, appendJsonEscaped, appendJsonEscaped,
        appendJsonEscaped, List.flatMap_cons, List.flatMap_singleton]

/-- The character that some text begins with, as a reader of JSON strings takes it. -/
def unescaped : List UInt8 → UInt8
  | 0x5c :: 0x75 :: _ :: _ :: high :: low :: _ =>
      (nibble high).getD 0 <<< 4 ||| (nibble low).getD 0
  | 0x5c :: 0x6e :: _ => 0x0a
  | 0x5c :: 0x72 :: _ => 0x0d
  | 0x5c :: 0x74 :: _ => 0x09
  | 0x5c :: c :: _ => c
  | c :: _ => c
  | [] => 0

/-- The seven kinds of characters. -/
theorem escaped_cases (c : UInt8) :
    (c = 0x22 ∧ escaped c = [0x5c, 0x22]) ∨ (c = 0x5c ∧ escaped c = [0x5c, 0x5c]) ∨
    (c = 0x0a ∧ escaped c = [0x5c, 0x6e]) ∨ (c = 0x0d ∧ escaped c = [0x5c, 0x72]) ∨
    (c = 0x09 ∧ escaped c = [0x5c, 0x74]) ∨
    (c < 0x20 ∧ escaped c
      = [0x5c, 0x75, 0x30, 0x30, hexDigit (c >>> 4), hexDigit (c &&& 0x0f)]) ∨
    ((c ≠ 0x22 ∧ c ≠ 0x5c ∧ 0x20 ≤ c) ∧ escaped c = [c]) := by
  -- The texts of the escapes, as bytes.
  have hquote : text "\\\"" = [0x5c, 0x22] := by decide +kernel
  have hbackslash : text "\\\\" = [0x5c, 0x5c] := by decide +kernel
  have hlf : text "\\n" = [0x5c, 0x6e] := by decide +kernel
  have hcr : text "\\r" = [0x5c, 0x72] := by decide +kernel
  have htab : text "\\t" = [0x5c, 0x74] := by decide +kernel
  have hunicode : text "\\u00" = [0x5c, 0x75, 0x30, 0x30] := by decide +kernel
  unfold escaped appendJsonEscaped
  rw [List.flatMap_singleton, hquote, hbackslash, hlf, hcr, htab, hunicode]
  -- The branches of the source, in its order.
  split_ifs with h1 h2 h3 h4 h5 h6
  · exact .inl ⟨h1, rfl⟩
  · exact .inr (.inl ⟨h2, rfl⟩)
  · exact .inr (.inr (.inl ⟨h3, rfl⟩))
  · exact .inr (.inr (.inr (.inl ⟨h4, rfl⟩)))
  · exact .inr (.inr (.inr (.inr (.inl ⟨h5, rfl⟩))))
  · exact .inr (.inr (.inr (.inr (.inr (.inl ⟨h6, rfl⟩)))))
  · exact .inr (.inr (.inr (.inr (.inr (.inr ⟨⟨h1, h2, UInt8.not_lt.mp h6⟩, rfl⟩)))))

/-- The first byte can be read back from its escape, whatever follows. -/
theorem unescaped_escaped (c : UInt8) (r : List UInt8) : unescaped (escaped c ++ r) = c := by
  obtain ⟨rfl, h⟩ | ⟨rfl, h⟩ | ⟨rfl, h⟩ | ⟨rfl, h⟩ | ⟨rfl, h⟩ | ⟨-, h⟩ |
    ⟨⟨hquote, hbackslash, -⟩, h⟩ := escaped_cases c
  · rw [h]; rfl
  · rw [h]; rfl
  · rw [h]; rfl
  · rw [h]; rfl
  · rw [h]; rfl
  · obtain ⟨hhigh, hlow⟩ := nibble_hexDigit c
    rw [h]
    show (nibble _).getD 0 <<< 4 ||| (nibble _).getD 0 = c
    rw [hhigh, hlow]
    exact halves c
  · rw [h]
    show unescaped (c :: r) = c
    unfold unescaped
    split <;> simp_all

/-- No escaped character begins with the quote. -/
theorem escaped_ne_quote (c : UInt8) (r r' : List UInt8) : escaped c ++ r ≠ 0x22 :: r' := by
  intro heq
  obtain ⟨-, h⟩ | ⟨-, h⟩ | ⟨-, h⟩ | ⟨-, h⟩ | ⟨-, h⟩ | ⟨-, h⟩ | ⟨⟨hquote, -, -⟩, h⟩ :=
    escaped_cases c
  all_goals
    rw [h] at heq
    have hfirst := (List.cons.inj heq).1
  on_goal 7 => exact hquote hfirst
  all_goals exact absurd hfirst (by decide)

/-- An escaped string says what it is and where it ends. -/
theorem escaped_inj {s s' r r' : List UInt8}
    (h : appendJsonEscaped s ++ 0x22 :: r = appendJsonEscaped s' ++ 0x22 :: r') :
    s = s' ∧ r = r' := by
  rw [appendJsonEscaped_eq, appendJsonEscaped_eq] at h
  refine flatMap_append_inj (fun c d r r' heq => ?_) escaped_ne_quote h
  rw [← unescaped_escaped c r, heq, unescaped_escaped]

/-! ### What is shown of a value -/

/-- The text of a number: digits with a sign, a point and an exponent, or the word for what is
none. -/
def IsNumberText (t : List UInt8) : Prop :=
  (t = text "nan" ∨ t = text "inf" ∨ t = text "-inf") ∨
    t ≠ [] ∧ ∀ c ∈ t, Decimal.IsDigit c ∨ c = 0x2b ∨ c = 0x2d ∨ c = 0x2e ∨ c = 0x65

/-- What `snprintf` makes of a finite `double`. -/
def PrintsNumbers (g17 : UInt64 → List UInt8) : Prop :=
  ∀ bits : UInt64, bits >>> 52 &&& 0x7ff ≠ 0x7ff →
    g17 bits ≠ [] ∧
      ∀ c ∈ g17 bits, Decimal.IsDigit c ∨ c = 0x2b ∨ c = 0x2d ∨ c = 0x2e ∨ c = 0x65

/-- The leaves of the text. -/
inductive Shown where
  | nil
  | bool (v : Bool)
  | number (t : List UInt8) (h : IsNumberText t)
  | str (s : List UInt8)
  | bin (size : Nat)

/-- Around the elements of an array, or the entries of a map. -/
inductive ShownBracket where
  | array
  | map

/-- Between two elements or entries, or between a key and its value. -/
inductive ShownSep where
  | comma
  | colon

/-- The text of a leaf. -/
def Shown.text : Shown → List UInt8
  | nil => SerialRpc.text "nil"
  | bool v => SerialRpc.text (if v then "true" else "false")
  | number t _ => t
  | str s => SerialRpc.text "\"" ++ appendJsonEscaped s ++ SerialRpc.text "\""
  | bin size => SerialRpc.text "<bin " ++ SerialRpc.text (Nat.repr size) ++ SerialRpc.text " bytes>"

/-- How `to_string` writes. -/
def shownSpelling : Spelling UInt8 ShownBracket ShownSep Shown where
  opening
    | .array => 0x5b
    | .map => 0x7b
  closing
    | .array => 0x5d
    | .map => 0x7d
  sep
    | .comma => [0x2c, 0x20]
    | .colon => [0x3a, 0x20]
  leaf := Shown.text

/-- The digits of an integer are a number. -/
theorem isNumberText_signed (i : Int) : IsNumberText (text (Int.repr i)) := by
  rw [text_intRepr]
  refine .inr ⟨Decimal.signed_ne_nil i, fun c hc => ?_⟩
  rcases Decimal.mem_signed hc with rfl | hdigit
  · exact .inr (.inr (.inl rfl))
  · exact .inl hdigit

/-- An unsigned number prints as a number text. -/
theorem isNumberText_unsigned (n : Nat) : IsNumberText (text (Nat.repr n)) :=
  isNumberText_signed n

/-- So does a double, if `%.17g` prints numbers. -/
theorem isNumberText_double {g17 : UInt64 → List UInt8} (hg : PrintsNumbers g17) (bits : UInt64) :
    IsNumberText (formatDouble g17 bits) := by
  unfold formatDouble
  dsimp only
  split_ifs with hnan hinf hsign
  · exact .inl (.inl rfl)
  · exact .inl (.inr (.inl rfl))
  · exact .inl (.inr (.inr rfl))
  · exact .inr (hg bits hinf)

namespace Value

section

variable {g17 : UInt64 → List UInt8} (hg : PrintsNumbers g17)

mutual

/-- What `to_string` shows of a value. -/
def shown : Value → Term ShownBracket ShownSep Shown
  | nil => .leaf .nil
  | bool v => .leaf (.bool v)
  | int v => .leaf (.number _ (isNumberText_signed v.toInt))
  | uint v => .leaf (.number _ (isNumberText_unsigned v.toNat))
  | double bits => .leaf (.number _ (isNumberText_double hg bits))
  | str s => .leaf (.str s)
  | bin bytes => .leaf (.bin bytes.length)
  | array elems => .ofList .array .comma (shownElems elems)
  | map entries => .ofPairs .map .colon .comma (shownEntries entries)

def shownElems : List Value → List (Term ShownBracket ShownSep Shown)
  | [] => []
  | e :: elems => shown e :: shownElems elems

def shownEntries : List (Value × Value) →
    List (Term ShownBracket ShownSep Shown × Term ShownBracket ShownSep Shown)
  | [] => []
  | (k, v) :: entries => (shown k, shown v) :: shownEntries entries

end

/-! ### The text of the tree -/

/-- The comma is spelled as it is printed between elements. -/
theorem text_comma : text ", " = shownSpelling.sep .comma := by decide +kernel

/-- So is the colon between a key and its value. -/
theorem text_colon : text ": " = shownSpelling.sep .colon := by decide +kernel

mutual

/-- `to_string` writes what is shown. -/
theorem appendToString_eq : (v : Value) → v.appendToString g17 = shownSpelling.text (v.shown hg)
  -- The scalars are their own text, and the containers are brackets around those of their parts.
  | nil => rfl
  | bool _ => rfl
  | int _ => rfl
  | uint _ => rfl
  | double _ => rfl
  | str _ => rfl
  | bin _ => rfl
  | array [] => by
      rw [appendToString, appendElems, shown, shownElems]
      decide +kernel
  | array (e :: elems) => by
      have hopening : text "[" = [shownSpelling.opening .array] := by decide +kernel
      have hclosing : text "]" = [shownSpelling.closing .array] := by decide +kernel
      rw [appendToString, appendElems, shown, shownElems, Spelling.text_ofList_cons,
        appendToString_eq e, appendElems_eq elems, hopening, hclosing]
      rfl
  | map [] => by
      rw [appendToString, appendEntries, shown, shownEntries]
      decide +kernel
  | map ((k, v) :: entries) => by
      have hopening : text "\x7b" = [shownSpelling.opening .map] := by decide +kernel
      have hclosing : text "\x7d" = [shownSpelling.closing .map] := by decide +kernel
      rw [appendToString, appendEntries, shown, shownEntries, Spelling.text_ofPairs_cons,
        appendToString_eq k, appendToString_eq v, appendEntries_eq entries, hopening, hclosing,
        text_colon, if_pos rfl, List.nil_append]
      simp only [List.append_assoc]

/-- The elements behind the first are printed with a comma before each. -/
theorem appendElems_eq : (elems : List Value) →
    appendElems g17 false elems
      = (shownElems hg elems).flatMap fun t => shownSpelling.sep .comma ++ shownSpelling.text t
  | [] => rfl
  | e :: elems => by
      rw [appendElems, shownElems, List.flatMap_cons, appendToString_eq e, appendElems_eq elems,
        if_neg Bool.false_ne_true, text_comma]

/-- So are the entries behind the first. -/
theorem appendEntries_eq : (entries : List (Value × Value)) →
    appendEntries g17 false entries
      = (shownEntries hg entries).flatMap fun p =>
          shownSpelling.sep .comma ++
            (shownSpelling.text p.1 ++ (shownSpelling.sep .colon ++ shownSpelling.text p.2))
  | [] => rfl
  | (k, v) :: entries => by
      rw [appendEntries, shownEntries, List.flatMap_cons, appendToString_eq k,
        appendToString_eq v, appendEntries_eq entries, if_neg Bool.false_ne_true, text_comma,
        text_colon]
      simp only [List.append_assoc]

end

end

end Value

/-! ### Reading the leaves -/

/-- What ends a leaf. -/
def IsStop (c : UInt8) : Prop := c = 0x2c ∨ c = 0x3a ∨ c = 0x5d ∨ c = 0x7d

instance : DecidablePred IsStop := fun _ => inferInstanceAs (Decidable (_ ∨ _))

/-- A character that a number consists of is no stop, no bracket and no quote, and no word but
those for numbers begins with it. -/
theorem number_char {c : UInt8}
    (h : Decimal.IsDigit c ∨ c = 0x2b ∨ c = 0x2d ∨ c = 0x2e ∨ c = 0x65) :
    ¬ IsStop c ∧ c ∉ [0x22, 0x5b, 0x7b, 0x3c, 0x6e, 0x74, 0x66] := by
  obtain ⟨hlow, hhigh⟩ | rfl | rfl | rfl | rfl := h
  · constructor
    · rintro (rfl | rfl | rfl | rfl) <;> revert hlow hhigh <;> decide
    · simp only [List.mem_cons, List.not_mem_nil, or_false]
      rintro (rfl | rfl | rfl | rfl | rfl | rfl | rfl) <;> revert hlow hhigh <;> decide
  all_goals decide

/-- The words that stand for no number. -/
theorem isNumberText_ne {t w : List UInt8} (h : IsNumberText t)
    (hw : w ≠ text "nan" ∧ w ≠ text "inf" ∧ w ≠ text "-inf") {c : UInt8} (hc : c ∈ w)
    (hother : c ∈ [0x22, 0x5b, 0x7b, 0x3c, 0x6e, 0x74, 0x66]) : w ≠ t := by
  rintro rfl
  rcases h with (rfl | rfl | rfl) | ⟨-, hchars⟩
  · exact hw.1 rfl
  · exact hw.2.1 rfl
  · exact hw.2.2 rfl
  · exact (number_char (hchars c hc)).2 hother

/-- Deciding that no byte of a word stops it. -/
theorem not_stop_of_all {w : List UInt8} (h : (w.all fun c => decide (¬ IsStop c)) = true) :
    ∀ c ∈ w, ¬ IsStop c :=
  fun c hc => of_decide_eq_true (List.all_eq_true.mp h c hc)

/-- No byte of a number text stops a word. -/
theorem isNumberText_not_stop {t : List UInt8} (h : IsNumberText t) : ∀ c ∈ t, ¬ IsStop c := by
  rcases h with (rfl | rfl | rfl) | ⟨-, hchars⟩
  · exact not_stop_of_all (by decide +kernel)
  · exact not_stop_of_all (by decide +kernel)
  · exact not_stop_of_all (by decide +kernel)
  · exact fun c hc => (number_char (hchars c hc)).1

/-- A number text does not begin as a string, an array or a map does. -/
theorem isNumberText_head {t : List UInt8} (h : IsNumberText t) :
    ∃ c ∈ t.head?, c ∉ [0x22, 0x5b, 0x7b] := by
  rcases h with (rfl | rfl | rfl) | ⟨hne, hchars⟩
  · exact ⟨0x6e, by decide +kernel, by decide⟩
  · exact ⟨0x69, by decide +kernel, by decide⟩
  · exact ⟨0x2d, by decide +kernel, by decide⟩
  · obtain ⟨c, cs, rfl⟩ := List.exists_cons_of_ne_nil hne
    refine ⟨c, rfl, fun hc => (number_char (hchars c List.mem_cons_self)).2 ?_⟩
    simp only [List.mem_cons, List.not_mem_nil, or_false] at hc ⊢
    tauto

namespace Shown

/-- Every leaf but a string. -/
def IsWord : Shown → Prop
  | str _ => False
  | _ => True

/-- A bin is shown by its size. -/
theorem bin_text (size : Nat) :
    (bin size).text
      = SerialRpc.text "<bin " ++ (Decimal.numeral size ++ SerialRpc.text " bytes>") := by
  show SerialRpc.text "<bin " ++ SerialRpc.text (Nat.repr size) ++ SerialRpc.text " bytes>" = _
  rw [text_repr, List.append_assoc]

/-- The quotes around a string. -/
theorem str_text (s : List UInt8) : (str s).text = 0x22 :: (appendJsonEscaped s ++ [0x22]) := by
  have hquote : SerialRpc.text "\"" = [0x22] := by decide +kernel
  show SerialRpc.text "\"" ++ appendJsonEscaped s ++ SerialRpc.text "\"" = _
  rw [hquote, List.append_assoc]
  rfl

/-- No byte of a word stops it. -/
theorem word_not_stop {a : Shown} (h : a.IsWord) : ∀ c ∈ a.text, ¬ IsStop c := by
  cases a with
  | nil => exact not_stop_of_all (by decide +kernel)
  | bool v =>
      cases v
      all_goals exact not_stop_of_all (by decide +kernel)
  | number t ht => exact isNumberText_not_stop ht
  | str s => exact h.elim
  | bin size =>
      have hfront : ∀ c ∈ SerialRpc.text "<bin ", ¬ IsStop c := not_stop_of_all (by decide +kernel)
      have hback : ∀ c ∈ SerialRpc.text " bytes>", ¬ IsStop c := not_stop_of_all (by decide +kernel)
      rw [bin_text]
      intro c hc
      rcases List.mem_append.mp hc with hc | hc
      · exact hfront c hc
      · rcases List.mem_append.mp hc with hc | hc
        · exact (number_char (.inl (Decimal.isDigit_of_mem_numeral c hc))).1
        · exact hback c hc

/-- A bin begins with an angle bracket. -/
theorem bin_head (size : Nat) : (bin size).text.head? = some 0x3c := by
  have hhead : (SerialRpc.text "<bin ").head? = some 0x3c := by decide +kernel
  rw [bin_text, List.head?_append, hhead]
  rfl

/-- A word begins with no quote and no bracket. -/
theorem word_head {a : Shown} (h : a.IsWord) : ∃ c ∈ a.text.head?, c ∉ [0x22, 0x5b, 0x7b] := by
  cases a with
  | nil => exact ⟨0x6e, by decide +kernel, by decide⟩
  | bool v =>
      cases v with
      | false => exact ⟨0x66, by decide +kernel, by decide⟩
      | true => exact ⟨0x74, by decide +kernel, by decide⟩
  | number t ht => exact isNumberText_head ht
  | str s => exact h.elim
  | bin size => exact ⟨0x3c, bin_head size, by decide⟩

/-- A blob has the text of nothing that begins with another character. -/
theorem bin_ne {size : Nat} {t : List UInt8} (h : t.head? ≠ some 0x3c) : (bin size).text ≠ t := by
  rintro rfl
  exact h (bin_head size)

/-- No other word has the text of a number. -/
theorem word_ne_number {a : Shown} (ha : a.IsWord) {t : List UInt8} (ht : IsNumberText t)
    (hother : ∀ t ht, a ≠ number t ht) : a.text ≠ t := by
  cases a with
  | nil => exact isNumberText_ne ht (by decide +kernel) (c := 0x6e) (by decide +kernel) (by decide)
  | bool v =>
      cases v with
      | false =>
          exact isNumberText_ne ht (by decide +kernel) (c := 0x66) (by decide +kernel) (by decide)
      | true =>
          exact isNumberText_ne ht (by decide +kernel) (c := 0x74) (by decide +kernel) (by decide)
  | number t' ht' => exact absurd rfl (hother t' ht')
  | str s => exact ha.elim
  | bin size =>
      refine isNumberText_ne ht ⟨bin_ne ?_, bin_ne ?_, bin_ne ?_⟩
        (List.mem_of_mem_head? (bin_head size)) (by decide)
      all_goals decide +kernel

/-- Words that print alike are the same. -/
theorem word_inj {a b : Shown} (ha : a.IsWord) (hb : b.IsWord) (h : a.text = b.text) : a = b := by
  cases a with
  | str s => exact ha.elim
  | nil =>
      cases b with
      | nil => rfl
      | bool v => cases v <;> exact absurd h (by decide +kernel)
      | number t ht => exact absurd h (word_ne_number ha ht (by rintro t ht ⟨⟩))
      | str s => exact hb.elim
      | bin size => exact absurd h.symm (bin_ne (by decide +kernel))
  | bool v =>
      cases b with
      | nil => cases v <;> exact absurd h (by decide +kernel)
      | bool v' => cases v <;> cases v' <;> first | rfl | exact absurd h (by decide +kernel)
      | number t ht => exact absurd h (word_ne_number ha ht (by rintro t ht ⟨⟩))
      | str s => exact hb.elim
      | bin size => exact absurd h.symm (bin_ne (by cases v <;> decide +kernel))
  | number t ht =>
      cases b with
      | number t' ht' =>
          obtain rfl : t = t' := h
          rfl
      | str s => exact hb.elim
      | _ => exact absurd h.symm (word_ne_number hb ht (by rintro t ht ⟨⟩))
  | bin size =>
      cases b with
      | nil => exact absurd h (bin_ne (by decide +kernel))
      | bool v => exact absurd h (bin_ne (by cases v <;> decide +kernel))
      | number t ht => exact absurd h (word_ne_number ha ht (by rintro t ht ⟨⟩))
      | str s => exact hb.elim
      | bin size' =>
          rw [bin_text, bin_text] at h
          -- `<bin ` and ` bytes>` are the same, so the digits are.
          have hdigits := List.append_cancel_right (List.append_cancel_left h)
          rw [Decimal.numeral_injective hdigits]

/-- What is shown without brackets is a word or a string. -/
theorem word_or_str (a : Shown) : a.IsWord ∨ ∃ s, a = str s := by
  cases a with
  | str s => exact .inr ⟨s, rfl⟩
  | _ => exact .inl trivial

/-- No word begins with a quote, an opening bracket or a stop. -/
theorem word_text_ne {a : Shown} (ha : a.IsWord) {c : UInt8}
    (hc : c ∈ [0x22, 0x5b, 0x7b] ∨ IsStop c) (r r' : List UInt8) : a.text ++ r ≠ c :: r' := by
  intro heq
  obtain ⟨d, hd, hother⟩ := word_head ha
  obtain ⟨ds, hds⟩ : ∃ ds, a.text = d :: ds := List.head?_eq_some_iff.mp hd
  have hstop := word_not_stop ha d (by rw [hds]; exact List.mem_cons_self)
  rw [hds, List.cons_append] at heq
  obtain ⟨rfl, -⟩ := List.cons.inj heq
  exact hc.elim hother hstop

/-- No leaf begins with an opening bracket or a stop. -/
theorem text_ne (a : Shown) {c : UInt8} (hc : c = 0x5b ∨ c = 0x7b ∨ IsStop c)
    (r r' : List UInt8) : a.text ++ r ≠ c :: r' := by
  rcases a.word_or_str with ha | ⟨s, rfl⟩
  · refine word_text_ne ha ?_ r r'
    rcases hc with rfl | rfl | hc
    · exact .inl (by decide)
    · exact .inl (by decide)
    · exact .inr hc
  · intro heq
    rw [str_text] at heq
    obtain ⟨rfl, -⟩ := List.cons.inj heq
    revert hc
    decide

end Shown

/-- What may come behind a leaf begins with a stop. -/
theorem stopsAt_of_shownEnds {r : List UInt8} (h : shownSpelling.Ends r) : StopsAt IsStop r := by
  rcases h with rfl | ⟨k, t, rfl⟩ | ⟨s, t, rfl⟩
  · rintro c ⟨⟩
  · rintro c ⟨⟩
    cases k <;> decide
  · cases s with
    | comma =>
        rintro c ⟨⟩
        decide
    | colon =>
        rintro c ⟨⟩
        decide

/-- The spelling can be read back, so the printed tree is unambiguous. -/
theorem shownSpelling_readable : shownSpelling.Readable where
  opening k k' h := by cases k <;> cases k' <;> first | rfl | exact absurd h (by decide)
  sep {s s'} {r r'} h := by
    have hhead := congrArg List.head? h
    cases s <;> cases s' <;> first | rfl | exact absurd hhead (by simp [shownSpelling])
  leaf {a b} {r r'} hr hr' h := by
    rcases a.word_or_str with ha | ⟨s, rfl⟩
    · rcases b.word_or_str with hb | ⟨s', rfl⟩
      · -- Two words end where the first stop is.
        have hwords := append_inj_of_stops (Shown.word_not_stop ha) (Shown.word_not_stop hb)
          (stopsAt_of_shownEnds hr) (stopsAt_of_shownEnds hr') h
        exact Shown.word_inj ha hb hwords.1
      · -- A string begins with a quote, and a word does not.
        have htext : a.text ++ r = (Shown.str s').text ++ r' := h
        rw [Shown.str_text] at htext
        exact absurd htext (Shown.word_text_ne ha (.inl (by decide)) _ _)
    · rcases b.word_or_str with hb | ⟨s', rfl⟩
      · have htext : (Shown.str s).text ++ r = b.text ++ r' := h
        rw [Shown.str_text] at htext
        exact absurd htext.symm (Shown.word_text_ne hb (.inl (by decide)) _ _)
      · have htext : (Shown.str s).text ++ r = (Shown.str s').text ++ r' := h
        rw [Shown.str_text, Shown.str_text] at htext
        -- Two strings end at the first quote that is not escaped.
        have hrest : (appendJsonEscaped s ++ [0x22]) ++ r
            = (appendJsonEscaped s' ++ [0x22]) ++ r' := (List.cons.inj htext).2
        rw [List.append_assoc, List.append_assoc] at hrest
        rw [(escaped_inj hrest).1]
  sep_closing s k r r' h := by
    have hhead := congrArg List.head? h
    cases s <;> cases k <;> exact absurd hhead (by simp [shownSpelling])
  leaf_opening a k r r' := a.text_ne (by cases k <;> decide) r r'
  leaf_closing a k r r' := a.text_ne (by cases k <;> decide) r r'
  opening_closing k k' := by cases k <;> cases k' <;> decide

/-! ### Values that look alike -/

namespace Value

/-- The digits of a number. -/
def digits (g17 : UInt64 → List UInt8) : Value → Option (List UInt8)
  | int v => some (Decimal.signed v.toInt)
  | uint v => some (Decimal.signed v.toNat)
  | double bits => some (formatDouble g17 bits)
  | _ => none

mutual

/-- Two values that nobody can tell apart by their texts: numbers with the same digits, blobs of
the same size, and for the rest the same value. -/
def Alike (g17 : UInt64 → List UInt8) : Value → Value → Prop
  | nil, w => w = nil
  | bool v, w => w = bool v
  | int v, w => w.digits g17 = some (Decimal.signed v.toInt)
  | uint v, w => w.digits g17 = some (Decimal.signed v.toNat)
  | double bits, w => w.digits g17 = some (formatDouble g17 bits)
  | str s, w => w = str s
  | bin bytes, w => ∃ bytes', w = bin bytes' ∧ bytes.length = bytes'.length
  | array elems, w => ∃ elems', w = array elems' ∧ AlikeElems g17 elems elems'
  | map entries, w => ∃ entries', w = map entries' ∧ AlikeEntries g17 entries entries'

/-- One by one. -/
def AlikeElems (g17 : UInt64 → List UInt8) : List Value → List Value → Prop
  | [], es => es = []
  | e :: elems, es => ∃ e' elems', es = e' :: elems' ∧ Alike g17 e e' ∧ AlikeElems g17 elems elems'

/-- One by one, in the same order. -/
def AlikeEntries (g17 : UInt64 → List UInt8) :
    List (Value × Value) → List (Value × Value) → Prop
  | [], es => es = []
  | (k, v) :: entries, es => ∃ k' v' entries', es = (k', v') :: entries' ∧ Alike g17 k k' ∧
      Alike g17 v v' ∧ AlikeEntries g17 entries entries'

end

variable {g17 : UInt64 → List UInt8} (hg : PrintsNumbers g17)

/-- A number is shown as a leaf, by its digits. -/
theorem shown_number_iff {t : List UInt8} (ht : IsNumberText t) (w : Value) :
    .leaf (.number t ht) = w.shown hg ↔ w.digits g17 = some t := by
  cases w with
  | int v => simp [shown, digits, text_intRepr, eq_comm]
  | uint v =>
      have hdigits : text (Nat.repr v.toNat) = Decimal.signed v.toNat := text_intRepr v.toNat
      simp [shown, digits, hdigits, eq_comm]
  | double bits => simp [shown, digits, eq_comm]
  | nil => simp [shown, digits]
  | bool v => simp [shown, digits]
  | str s => simp [shown, digits]
  | bin bytes => simp [shown, digits]
  | array elems => cases elems <;> simp [shown, shownElems, digits, Term.ofList]
  | map entries => cases entries <;> simp [shown, shownEntries, digits, Term.ofPairs]

/-- A leaf is no array and no map. -/
theorem leaf_ne_shown_array (a : Shown) (elems : List Value) :
    .leaf a ≠ shown hg (array elems) := by
  cases elems <;> simp [shown, shownElems, Term.ofList]

/-- A map is not shown as a leaf. -/
theorem leaf_ne_shown_map (a : Shown) (entries : List (Value × Value)) :
    .leaf a ≠ shown hg (map entries) := by
  cases entries <;> simp [shown, shownEntries, Term.ofPairs]

/-- An array is no map. -/
theorem shown_array_ne_map (elems : List Value) (entries : List (Value × Value)) :
    shown hg (array elems) ≠ shown hg (map entries) := by
  cases elems <;> cases entries <;>
    simp [shown, shownElems, shownEntries, Term.ofList, Term.ofPairs]

/-- Arrays are shown alike exactly if their elements are. -/
theorem shown_array_eq_iff (elems elems' : List Value) :
    shown hg (array elems) = shown hg (array elems')
      ↔ shownElems hg elems = shownElems hg elems' := by
  rw [shown, shown]
  exact ⟨Term.ofList_inj, fun h => by rw [h]⟩

/-- Maps are shown alike exactly if their entries are. -/
theorem shown_map_eq_iff (entries entries' : List (Value × Value)) :
    shown hg (map entries) = shown hg (map entries')
      ↔ shownEntries hg entries = shownEntries hg entries' := by
  rw [shown, shown]
  exact ⟨Term.ofPairs_inj, fun h => by rw [h]⟩

mutual

/-- What is shown of two values is the same exactly when they look alike. -/
theorem shown_eq_iff : (v w : Value) → (v.shown hg = w.shown hg ↔ v.Alike g17 w)
  | nil, w => by
      rw [Alike, shown]
      cases w with
      | array elems => simpa using leaf_ne_shown_array hg .nil elems
      | map entries => simpa using leaf_ne_shown_map hg .nil entries
      | _ => simp [shown]
  | bool v, w => by
      rw [Alike, shown]
      cases w with
      | array elems => simpa using leaf_ne_shown_array hg (.bool v) elems
      | map entries => simpa using leaf_ne_shown_map hg (.bool v) entries
      | bool v' => simp [shown, eq_comm]
      | _ => simp [shown]
  -- A number is shown by its digits, and nothing tells its type.
  | int v, w => by
      rw [shown, shown_number_iff, Alike, text_intRepr]
  | uint v, w => by
      rw [shown, shown_number_iff, Alike]
      have hdigits : text (Nat.repr v.toNat) = Decimal.signed v.toNat := text_intRepr v.toNat
      rw [hdigits]
  | double bits, w => by rw [shown, shown_number_iff, Alike]
  | str s, w => by
      rw [Alike, shown]
      cases w with
      | array elems => simpa using leaf_ne_shown_array hg (.str s) elems
      | map entries => simpa using leaf_ne_shown_map hg (.str s) entries
      | str s' => simp [shown, eq_comm]
      | _ => simp [shown]
  | bin bytes, w => by
      rw [Alike, shown]
      cases w with
      | array elems => simpa using leaf_ne_shown_array hg (.bin bytes.length) elems
      | map entries => simpa using leaf_ne_shown_map hg (.bin bytes.length) entries
      | bin bytes' => simp [shown]
      | _ => simp [shown]
  | array elems, w => by
      rw [Alike]
      cases w with
      | array elems' => simp [shown_array_eq_iff, shownElems_eq_iff elems elems']
      | map entries => simpa using shown_array_ne_map hg elems entries
      | _ => simpa [shown] using (leaf_ne_shown_array hg _ elems).symm
  | map entries, w => by
      rw [Alike]
      cases w with
      | map entries' => simp [shown_map_eq_iff, shownEntries_eq_iff entries entries']
      | array elems => simpa using (shown_array_ne_map hg elems entries).symm
      | _ => simpa [shown] using (leaf_ne_shown_map hg _ entries).symm

/-- Elements are shown alike one by one. -/
theorem shownElems_eq_iff : (elems elems' : List Value) →
    (shownElems hg elems = shownElems hg elems' ↔ AlikeElems g17 elems elems')
  | [], es => by cases es <;> simp [shownElems, AlikeElems]
  | e :: elems, [] => by simp [shownElems, AlikeElems]
  | e :: elems, e' :: elems' => by
      simp [shownElems, AlikeElems, shown_eq_iff e e', shownElems_eq_iff elems elems']

/-- So are entries. -/
theorem shownEntries_eq_iff : (entries entries' : List (Value × Value)) →
    (shownEntries hg entries = shownEntries hg entries' ↔ AlikeEntries g17 entries entries')
  | [], es => by cases es <;> simp [shownEntries, AlikeEntries]
  | (k, v) :: entries, [] => by simp [shownEntries, AlikeEntries]
  | (k, v) :: entries, (k', v') :: entries' => by
      simp [shownEntries, AlikeEntries, shown_eq_iff k k', shown_eq_iff v v',
        shownEntries_eq_iff entries entries', and_assoc]

end

/-- Two values have the same text exactly when they look alike. -/
theorem value_rendered_alike {g17 : UInt64 → List UInt8} (hg : PrintsNumbers g17) (v w : Value) :
    v.appendToString g17 = w.appendToString g17 ↔ v.Alike g17 w := by
  rw [← shown_eq_iff hg, appendToString_eq hg, appendToString_eq hg]
  exact ⟨shownSpelling_readable.text_injective, fun h => by rw [h]⟩

/-- Where 3.5 prints as `3.5`, an array of it and the signed 3 has the text of one of it and the
unsigned 3. -/
theorem value_rendered_alike_three :
    (array [double 0x400c000000000000, int 3]).appendToString (fun _ => text "3.5")
      = (array [double 0x400c000000000000, uint 3]).appendToString (fun _ => text "3.5") := by
  have hprints : PrintsNumbers fun _ => text "3.5" := by
    have htext : text "3.5" = [0x33, 0x2e, 0x35] := by decide +kernel
    intro bits hbits
    rw [htext]
    simp [Decimal.IsDigit]
  have halike : (array [double 0x400c000000000000, int 3]).Alike (fun _ => text "3.5")
      (array [double 0x400c000000000000, uint 3]) := by
    have hdigits : (uint 3).digits (fun _ => text "3.5") = some (Decimal.signed 3) := by
      decide +kernel
    exact ⟨_, rfl, _, _, rfl, rfl, _, _, rfl, hdigits, rfl⟩
  exact (value_rendered_alike hprints _ _).mpr halike

end Value

end SerialRpc
