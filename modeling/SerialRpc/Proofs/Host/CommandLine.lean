import SerialRpc.Host.CommandLine
import SerialRpc.Lib.JsonText
import Mathlib.Algebra.Group.Nat.Even

/-!
# `SerialRpc.Proofs.Host.CommandLine`: what the tokenizer makes of a printed line

* `tokenize_printed`: a line of quoted strings and JSON arrays and objects gives them back.
  `derives_spans` is the induction over the grammar: within a bracket span the scanner copies a
  text of JSON and comes out at the same depth.
* `words_kept_iff`: words with quotes further in are given back if and only if each has an even
  number of double quotes.
-/

set_option autoImplicit false

namespace SerialRpc

namespace CommandLine

/-! ### One token and the rest of the line -/

/-- `tokenize` by its cases: the end of the line, a quoted token or a bare one, and then the rest.
-/
theorem tokenize_eq (line : List UInt8) :
    tokenize line =
      match skipSpace line with
      | [] => .ok []
      | c :: rest =>
          (readToken c rest).bind fun (tok, rest) => (tokenize rest).map (tok :: ·) := by
  rw [tokenize]
  split
  · rename_i hline
    rw [hline]
  · rename_i hline
    rw [hline]
    split <;> rename_i htoken <;> simp only [htoken] <;> rfl

/-- A line that starts with a token. -/
theorem tokenize_cons {c : UInt8} (hc : isSpace c = false) (tail : List UInt8) :
    tokenize (c :: tail)
      = (readToken c tail).bind fun (tok, rest) => (tokenize rest).map (tok :: ·) := by
  have hskip : skipSpace (c :: tail) = c :: tail := List.dropWhile_cons_of_neg (by simp [hc])
  rw [tokenize_eq, hskip]

/-- A line that starts with a token that is not quoted. -/
theorem tokenize_bare {c : UInt8} (hc : isSpace c = false) (hquote : ¬ (c = dquote ∨ c = squote))
    (tail : List UInt8) :
    tokenize (c :: tail)
      = (bareToken 0 false [] (c :: tail)).bind fun (text, rest) =>
          (tokenize rest).map (⟨text, false⟩ :: ·) := by
  rw [tokenize_cons hc, readToken, if_neg hquote]
  cases bareToken 0 false [] (c :: tail) <;> rfl

/-- Whitespace in front of a line. -/
theorem tokenize_blank {front : List UInt8} (hfront : ∀ c ∈ front, isSpace c = true)
    (line : List UInt8) : tokenize (front ++ line) = tokenize line := by
  have hskip : skipSpace (front ++ line) = skipSpace line := by
    induction front with
    | nil => rfl
    | cons c front ih =>
        have hc : isSpace c = true := hfront c List.mem_cons_self
        rw [skipSpace, List.cons_append, List.dropWhile_cons_of_pos hc]
        exact ih fun x hx => hfront x (List.mem_cons_of_mem c hx)
  rw [tokenize_eq, hskip, ← tokenize_eq]

/-- Nothing but whitespace. -/
theorem tokenize_blank_only {back : List UInt8} (hback : ∀ c ∈ back, isSpace c = true) :
    tokenize back = .ok [] := by
  rw [← List.append_nil back, tokenize_blank hback, tokenize_eq]
  rfl

/-- What may stand behind a token: nothing, or whitespace. -/
def EndsToken (rest : List UInt8) : Prop := ∀ c ∈ rest.head?, isSpace c = true

/-- White space is no backslash. -/
theorem ne_backslash_of_space {c : UInt8} (h : isSpace c = true) : c ≠ backslash := by
  rintro rfl
  revert h
  decide

/-- A token that is complete ends where it may. -/
theorem bareToken_ends {rest : List UInt8} (hrest : EndsToken rest) (text : List UInt8) :
    bareToken 0 false text rest = .ok (text, rest) := by
  cases rest with
  | nil => rfl
  | cons c rest =>
      have hspace : isSpace c = true := hrest c rfl
      have hstep : bareStep 0 false c = .ok none := by simp [bareStep, hspace]
      rw [bareToken_cons fun heq => absurd heq (ne_backslash_of_space hspace), hstep]
      rfl

/-! ### Quoted strings -/

/-- The quote and the backslash, escaped. -/
def escapeFor (quote : UInt8) (s : List UInt8) : List UInt8 :=
  s.flatMap fun c => if c = quote ∨ c = backslash then [backslash, c] else [c]

/-- A string as a quoted token. -/
def quoted (quote : UInt8) (s : List UInt8) : List UInt8 := quote :: (escapeFor quote s ++ [quote])

/-- In quotes a backslash takes the next byte as it stands. -/
theorem quotedToken_escape (quote : UInt8) (text : List UInt8) (d : UInt8) (rest : List UInt8) :
    quotedToken quote text (backslash :: d :: rest) = quotedToken quote (text ++ [d]) rest := by
  rw [quotedToken, if_pos rfl]

/-- Any byte but the quote and the backslash stands for itself. -/
theorem quotedToken_plain {quote c : UInt8} (hquote : c ≠ quote) (hc : c ≠ backslash)
    (text rest : List UInt8) :
    quotedToken quote text (c :: rest) = quotedToken quote (text ++ [c]) rest := by
  cases rest with
  | nil => rw [quotedToken.eq_2, if_neg hquote]
  | cons d rest => rw [quotedToken, if_neg hc, if_neg hquote]

/-- The same quote again closes the token. -/
theorem quotedToken_closes {quote : UInt8} (hquote : quote ≠ backslash) (text rest : List UInt8) :
    quotedToken quote text (quote :: rest) = .ok (text, rest) := by
  cases rest with
  | nil => rw [quotedToken, if_pos rfl]
  | cons d rest => rw [quotedToken, if_neg hquote, if_pos rfl]

/-- The loop reads back what was escaped. -/
theorem quotedToken_escapeFor {quote : UInt8} (hquote : quote ≠ backslash)
    (s text rest : List UInt8) :
    quotedToken quote text (escapeFor quote s ++ quote :: rest) = .ok (text ++ s, rest) := by
  induction s generalizing text with
  | nil =>
      rw [List.append_nil]
      exact quotedToken_closes hquote text rest
  | cons c s ih =>
      have happend : text ++ c :: s = text ++ [c] ++ s := by simp
      rw [escapeFor, List.flatMap_cons, ← escapeFor, List.append_assoc, happend, ← ih]
      by_cases hc : c = quote ∨ c = backslash
      · rw [if_pos hc]
        exact quotedToken_escape quote text c _
      · rw [if_neg hc]
        obtain ⟨hplain, hescape⟩ := not_or.mp hc
        exact quotedToken_plain hplain hescape text _

/-! ### Bracket spans -/

/-- Scanned at this depth, `t` is copied as it stands, and the scanner comes out at the same
depth. -/
def Spans (depth : Int) (t : List UInt8) : Prop :=
  ∀ text rest, bareToken depth false text (t ++ rest) = bareToken depth false (text ++ t) rest

/-- Nothing to scan. -/
theorem Spans.nil (depth : Int) : Spans depth [] := by
  intro text rest
  rw [List.append_nil, List.nil_append]

/-- Two stretches that end at the depth they began at make one. -/
theorem Spans.append {depth : Int} {s t : List UInt8} (hs : Spans depth s) (ht : Spans depth t) :
    Spans depth (s ++ t) := by
  intro text rest
  rw [List.append_assoc, hs, ht, List.append_assoc]

/-- So do a byte and a stretch. -/
theorem Spans.cons {depth : Int} {c : UInt8} {t : List UInt8} (hc : Spans depth [c])
    (ht : Spans depth t) : Spans depth (c :: t) := hc.append ht

/-- Within a span, what is plain is copied. -/
theorem spans_of_plain {depth : Int} (hdepth : 1 ≤ depth) {t : List UInt8}
    (ht : ∀ c ∈ t, JsonText.Plain c) : Spans depth t := by
  induction t with
  | nil => exact Spans.nil depth
  | cons c t ih =>
      have hrest := ih fun x hx => ht x (List.mem_cons_of_mem c hx)
      refine Spans.cons ?_ hrest
      intro text rest
      obtain ⟨hquote, hescape, hopen, hopen', hclose, hclose'⟩ := ht c List.mem_cons_self
      have hstep : bareStep depth false c = .ok (some (depth, false)) := by
        have hspan : depth ≠ 0 := by omega
        simp [bareStep, hspan, dquote, isOpening, isClosing, hquote, hopen, hopen', hclose, hclose']
      rw [List.singleton_append, bareToken_cons fun heq => absurd heq hescape, hstep]

/-- Within a nested string, what is neither quote nor backslash is copied. -/
theorem bareToken_inString {c : UInt8} (hquote : c ≠ dquote) (hescape : c ≠ backslash)
    (depth : Int) (text rest : List UInt8) :
    bareToken depth true text (c :: rest) = bareToken depth true (text ++ [c]) rest := by
  have hstep : bareStep depth true c = .ok (some (depth, true)) := by simp [bareStep, hquote]
  rw [bareToken_cons fun heq => absurd heq hescape, hstep]

/-- A backslash and the character behind it. -/
theorem bareToken_escape (depth : Int) (text : List UInt8) (d : UInt8) (rest : List UInt8) :
    bareToken depth true text (backslash :: d :: rest)
      = bareToken depth true (text ++ [backslash, d]) rest := by
  rw [bareToken, if_pos rfl, if_pos rfl]

/-- The inside of a string is copied, whatever stands in it. -/
theorem bareToken_chars {cs : List UInt8} (h : JsonText.Chars cs) (depth : Int)
    (text rest : List UInt8) :
    bareToken depth true text (cs ++ rest) = bareToken depth true (text ++ cs) rest := by
  induction h generalizing text with
  | nil => rw [List.append_nil, List.nil_append]
  | @unescaped c t hc hquote hescape ht ih =>
      rw [List.cons_append, bareToken_inString hquote hescape, ih]
      simp
  | @escape e t he ht ih =>
      rw [List.cons_append, List.cons_append]
      refine (bareToken_escape depth text e (t ++ rest)).trans ?_
      rw [ih]
      simp [backslash]
  | @unicode a b c d t ha hb hc hd ht ih =>
      obtain ⟨haq, hae⟩ := JsonText.plain_of_hex ha
      obtain ⟨hbq, hbe⟩ := JsonText.plain_of_hex hb
      obtain ⟨hcq, hce⟩ := JsonText.plain_of_hex hc
      obtain ⟨hdq, hde⟩ := JsonText.plain_of_hex hd
      -- The escape is the pair `\u`. The digits behind it stand for themselves.
      refine (bareToken_escape depth text 0x75 (a :: b :: c :: d :: (t ++ rest))).trans ?_
      rw [bareToken_inString haq hae, bareToken_inString hbq hbe, bareToken_inString hcq hce,
        bareToken_inString hdq hde, ih]
      simp [backslash]

/-- A string is copied at every depth. -/
theorem spans_of_string {t : List UInt8} (h : JsonText.IsString t) (depth : Int) :
    Spans depth t := by
  obtain ⟨cs, hcs, rfl⟩ := h
  intro text rest
  have hopen : bareStep depth false dquote = .ok (some (depth, true)) := by
    have hspace : isSpace dquote = false := by decide
    simp [bareStep, hspace]
  have hclose : bareStep depth true dquote = .ok (some (depth, false)) := by simp [bareStep]
  have hne : dquote = backslash → ∀ line : List UInt8, line = [] := by
    intro heq
    exact absurd heq (by decide)
  have hline : 0x22 :: (cs ++ [0x22]) ++ rest = dquote :: (cs ++ dquote :: rest) := by
    simp [dquote]
  rw [hline, bareToken_cons fun heq => hne heq _, hopen]
  dsimp only
  rw [bareToken_chars hcs, bareToken_cons fun heq => hne heq _, hclose]
  simp [dquote]

/-- An opening bracket is neither white space nor a quote nor a backslash. -/
theorem opening_plain {c : UInt8} (h : isOpening c = true) :
    isSpace c = false ∧ c ≠ dquote ∧ c ≠ backslash := by
  obtain rfl | rfl : c = 0x5b ∨ c = 0x7b := by simpa [isOpening] using h
  all_goals decide

/-- A closing bracket is none of the others. -/
theorem closing_plain {c : UInt8} (h : isClosing c = true) :
    isOpening c = false ∧ c ≠ dquote ∧ c ≠ backslash := by
  obtain rfl | rfl : c = 0x5d ∨ c = 0x7d := by simpa [isClosing] using h
  all_goals decide

/-- An opening bracket, unless `depth` has its largest value. -/
theorem bareToken_opening {c : UInt8} (hc : isOpening c = true) {depth : Int}
    (hdepth : depth ≠ intMax) (text rest : List UInt8) :
    bareToken depth false text (c :: rest) = bareToken (depth + 1) false (text ++ [c]) rest := by
  obtain ⟨hspace, hquote, hescape⟩ := opening_plain hc
  have hstep : bareStep depth false c = .ok (some (depth + 1, false)) := by
    simp [bareStep, hspace, hquote, hc, hdepth]
  rw [bareToken_cons fun heq => absurd heq hescape, hstep]

/-- A closing bracket where one is open. -/
theorem bareToken_closing {c : UInt8} (hc : isClosing c = true) {depth : Int} (hdepth : 0 ≤ depth)
    (text rest : List UInt8) :
    bareToken (depth + 1) false text (c :: rest) = bareToken depth false (text ++ [c]) rest := by
  obtain ⟨hother, hquote, hescape⟩ := closing_plain hc
  have hstep : bareStep (depth + 1) false c = .ok (some (depth, false)) := by
    have hspan : depth + 1 ≠ 0 := by omega
    have hlegal : ¬ depth < 0 := by omega
    simp [bareStep, hspan, hquote, hother, hc, hlegal]
  rw [bareToken_cons fun heq => absurd heq hescape, hstep]

/-- A bracket span one deeper. -/
theorem spans_of_brackets {depth : Int} (hdepth : 0 ≤ depth) (hroom : depth + 1 ≤ intMax)
    {opening closing : UInt8} (hopening : isOpening opening = true)
    (hclosing : isClosing closing = true) {t : List UInt8} (ht : Spans (depth + 1) t) :
    Spans depth (opening :: (t ++ [closing])) := by
  intro text rest
  have hlimit : depth ≠ intMax := by omega
  rw [List.cons_append, List.append_assoc, bareToken_opening hopening hlimit, ht,
    List.singleton_append, bareToken_closing hclosing hdepth]
  simp

/-- What is copied, with whitespace around it. -/
theorem spans_padded {depth : Int} (hdepth : 1 ≤ depth) {front t back : List UInt8}
    (hfront : JsonText.IsWs front) (ht : Spans depth t) (hback : JsonText.IsWs back) :
    Spans depth (front ++ t ++ back) := by
  have hspace {ws : List UInt8} (hws : JsonText.IsWs ws) : Spans depth ws :=
    spans_of_plain hdepth (JsonText.plain_of_ws hws)
  exact ((hspace hfront).append ht).append (hspace hback)

/-- How deep a text of the symbol stands at least. -/
def enclosed : JsonText.Symbol → Int
  | .array | .object => 0
  | .value | .elements | .members => 1

/-- A text of JSON is copied. Only a container may stand outside all brackets. -/
theorem derives_spans {sym : JsonText.Symbol} {n : Nat} {t : List UInt8}
    (h : JsonText.Derives sym n t) {depth : Int} (hroom : depth + n ≤ intMax)
    (hdepth : enclosed sym ≤ depth) : Spans depth t := by
  have hinside {d : Int} (hd : 0 ≤ d) : 1 ≤ d + 1 := Int.add_le_add_right hd 1
  have hspace {ws : List UInt8} (hws : JsonText.IsWs ws) {d : Int} (hd : 1 ≤ d) : Spans d ws :=
    spans_of_plain hd (JsonText.plain_of_ws hws)
  have hcomma {d : Int} (hd : 1 ≤ d) : Spans d [0x2c] :=
    spans_of_plain hd (by simp [JsonText.Plain])
  have hcolon {d : Int} (hd : 1 ≤ d) : Spans d [0x3a] :=
    spans_of_plain hd (by simp [JsonText.Plain])
  induction h generalizing depth with
  | literal ht => exact spans_of_plain hdepth (JsonText.plain_of_literal ht)
  | number ht => exact spans_of_plain hdepth (JsonText.plain_of_number ht)
  | string ht => exact spans_of_string ht depth
  | arrayValue ht ih => exact ih hroom (Int.le_trans (by decide) hdepth)
  | objectValue ht ih => exact ih hroom (Int.le_trans (by decide) hdepth)
  | @emptyArray n ws hws =>
      exact spans_of_brackets hdepth (by omega) rfl rfl (hspace hws (hinside hdepth))
  | @array n t ht ih =>
      -- The elements are one deeper, and nest one level less.
      exact spans_of_brackets hdepth (by omega) rfl rfl (ih (by omega) (hinside hdepth))
  | element hfront ht hback ih => exact spans_padded hdepth hfront (ih hroom hdepth) hback
  | elements hfront ht hback hts ih ihs =>
      have hvalue := spans_padded hdepth hfront (ih hroom hdepth) hback
      exact hvalue.append ((hcomma hdepth).cons (ihs hroom hdepth))
  | @emptyObject n ws hws =>
      exact spans_of_brackets hdepth (by omega) rfl rfl (hspace hws (hinside hdepth))
  | @object n t ht ih =>
      exact spans_of_brackets hdepth (by omega) rfl rfl (ih (by omega) (hinside hdepth))
  | member hfront hkey hgap hmid ht hback ih =>
      have hname := spans_padded hdepth hfront (spans_of_string hkey depth) hgap
      have hvalue := spans_padded hdepth hmid (ih hroom hdepth) hback
      exact hname.append ((hcolon hdepth).cons hvalue)
  | members hfront hkey hgap hmid ht hback hts ih ihs =>
      have hname := spans_padded hdepth hfront (spans_of_string hkey depth) hgap
      have hvalue := spans_padded hdepth hmid (ih hroom hdepth) hback
      have hrest := (hcomma hdepth).cons (ihs hroom hdepth)
      exact hname.append ((hcolon hdepth).cons (hvalue.append hrest))

/-! ### Arguments on a line -/

/-- An argument as it is printed: a string in quotes, or a JSON array or object nested at most `n`
deep. -/
inductive Argument (n : Nat) where
  | string (quote : UInt8) (hquote : quote = dquote ∨ quote = squote) (s : List UInt8)
  | json (t : List UInt8) (ht : JsonText.IsContainer n t)

/-- The text of an argument. -/
def Argument.print {n : Nat} : Argument n → List UInt8
  | string quote _ s => quoted quote s
  | json t _ => t

/-- The token for an argument. -/
def Argument.token {n : Nat} : Argument n → Token
  | string _ _ s => ⟨s, true⟩
  | json t _ => ⟨t, false⟩

/-- Whitespace. -/
structure Blank where
  bytes : List UInt8
  space : ∀ c ∈ bytes, isSpace c = true

/-- Whitespace between two arguments. -/
structure Gap extends Blank where
  nonempty : bytes ≠ []

/-- Arguments with whitespace between them and around them. -/
def printedLine {n : Nat} (front : Blank) (arg : Argument n) (args : List (Gap × Argument n))
    (back : Blank) : List UInt8 :=
  front.bytes ++ arg.print ++ args.flatMap (fun (gap, arg) => gap.bytes ++ arg.print) ++ back.bytes

/-- A quote is neither white space nor a backslash. -/
theorem quote_plain {quote : UInt8} (h : quote = dquote ∨ quote = squote) :
    isSpace quote = false ∧ quote ≠ backslash := by
  rcases h with rfl | rfl <;> decide

/-- A container starts with its bracket. -/
theorem container_head {n : Nat} {t : List UInt8} (h : JsonText.IsContainer n t) :
    ∃ c tail, t = c :: tail ∧ isOpening c = true := by
  rcases h with h | h <;> cases h <;> exact ⟨_, _, rfl, rfl⟩

/-- A line that starts with a container. -/
theorem tokenize_container {n : Nat} {t : List UInt8} (h : JsonText.IsContainer n t)
    (rest : List UInt8) :
    tokenize (t ++ rest)
      = (bareToken 0 false [] (t ++ rest)).bind fun (text, rest) =>
          (tokenize rest).map (⟨text, false⟩ :: ·) := by
  obtain ⟨c, tail, rfl, hopening⟩ := container_head h
  obtain ⟨hspace, hquote, -⟩ := opening_plain hopening
  have hbare : ¬ (c = dquote ∨ c = squote) := by
    rintro (rfl | rfl)
    · exact hquote rfl
    · exact absurd hopening (by decide)
  exact tokenize_bare hspace hbare (tail ++ rest)

/-- A printed argument is read as its token. -/
theorem tokenize_argument {n : Nat} (hn : (n : Int) ≤ intMax) (arg : Argument n)
    {rest : List UInt8} (hrest : EndsToken rest) :
    tokenize (arg.print ++ rest) = (tokenize rest).map (arg.token :: ·) := by
  -- A quoted string is escaped so that it ends at its own quote, and a container at its last
  -- bracket.
  cases arg with
  | string quote hquote s =>
      obtain ⟨hspace, hescape⟩ := quote_plain hquote
      have hread : quotedToken quote [] (escapeFor quote s ++ [quote] ++ rest) = .ok (s, rest) := by
        rw [List.append_assoc, List.singleton_append, quotedToken_escapeFor hescape]
        rfl
      rw [Argument.print, quoted, List.cons_append, tokenize_cons hspace, readToken, if_pos hquote,
        hread]
      rfl
  | json t ht =>
      have hspans : Spans 0 t := by
        rcases ht with ht | ht
        · exact derives_spans ht (by omega) (Int.le_refl 0)
        · exact derives_spans ht (by omega) (Int.le_refl 0)
      have hread : bareToken 0 false [] (t ++ rest) = .ok (t, rest) := by
        rw [hspans, List.nil_append]
        exact bareToken_ends hrest t
      rw [Argument.print, tokenize_container ht, hread]
      rfl

/-- What stands behind an argument ends it. -/
theorem endsToken_rest {n : Nat} (args : List (Gap × Argument n)) (back : Blank) :
    EndsToken (args.flatMap (fun (gap, arg) => gap.bytes ++ arg.print) ++ back.bytes) := by
  cases args with
  | nil => exact fun c hc => back.space c (List.mem_of_mem_head? hc)
  | cons item args =>
      obtain ⟨gap, arg⟩ := item
      rw [List.flatMap_cons, List.append_assoc, List.append_assoc]
      intro c hc
      obtain ⟨g, gs, hgap⟩ := List.exists_cons_of_ne_nil gap.nonempty
      rw [hgap] at hc
      obtain rfl : g = c := by simpa using hc
      exact gap.space g (by rw [hgap]; exact List.mem_cons_self)

/-- A printed line gives one token for each argument, in their order: the string, or the JSON text
as it stands. `2147483647` is the largest value of `depth`. -/
theorem tokenize_printed (front : Blank) (arg : Argument 2147483647)
    (args : List (Gap × Argument 2147483647)) (back : Blank) :
    tokenize (printedLine front arg args back)
      = .ok (arg.token :: args.map fun (_, arg) => arg.token) := by
  have hn : ((2147483647 : Nat) : Int) ≤ intMax := by decide
  rw [printedLine, List.append_assoc, List.append_assoc, tokenize_blank front.space]
  induction args generalizing arg with
  | nil =>
      rw [tokenize_argument hn arg (endsToken_rest [] back)]
      have hback : tokenize ([] ++ back.bytes) = .ok [] := tokenize_blank_only back.space
      rw [List.flatMap_nil, hback]
      rfl
  | cons item args ih =>
      obtain ⟨gap, next⟩ := item
      rw [tokenize_argument hn arg (endsToken_rest ((gap, next) :: args) back), List.flatMap_cons,
        List.append_assoc, List.append_assoc, tokenize_blank gap.space, ih next]
      rfl

/-- An empty array within `k` others. -/
def deepArray : Nat → List UInt8
  | 0 => [0x5b, 0x5d]
  | k + 1 => 0x5b :: (deepArray k ++ [0x5d])

/-- `k + 1` nested brackets are an array of that depth. -/
theorem derives_deepArray (k : Nat) : JsonText.Derives .array (k + 1) (deepArray k) := by
  induction k with
  | zero =>
      have hws : JsonText.IsWs [] := by simp [JsonText.IsWs]
      exact .emptyArray hws
  | succ k ih =>
      have hws : JsonText.IsWs [] := by simp [JsonText.IsWs]
      have helement := JsonText.Derives.element hws (.arrayValue ih) hws
      rw [List.nil_append, List.append_nil] at helement
      exact .array helement

/-- The opening bracket that `depth` has no room for. -/
theorem bareToken_overflow (k : Nat) {depth : Int} (hdepth : depth + k = intMax)
    (text rest : List UInt8) :
    bareToken depth false text (deepArray k ++ rest) = .error .overflow := by
  induction k generalizing depth text rest with
  | zero =>
      obtain rfl : depth = intMax := by simpa using hdepth
      rw [deepArray, List.cons_append, bareToken_cons fun heq => absurd heq (by decide)]
      rfl
  | succ k ih =>
      have hroom : depth ≠ intMax := by omega
      have hnext : depth + 1 + k = intMax := by omega
      rw [deepArray, List.cons_append, List.append_assoc, bareToken_opening rfl hroom]
      exact ih hnext _ _

/-- One bracket more than that, and a text of JSON is not given back. -/
theorem tokenize_printed_overflows :
    ¬ ∀ (n : Nat) (front : Blank) (arg : Argument n) (args : List (Gap × Argument n))
        (back : Blank),
      tokenize (printedLine front arg args back)
        = .ok (arg.token :: args.map fun (_, arg) => arg.token) := by
  intro hall
  have hblank : ∀ c ∈ ([] : List UInt8), isSpace c = true := by simp
  have hdeep : JsonText.IsContainer (2147483647 + 1) (deepArray 2147483647) :=
    .inl (derives_deepArray 2147483647)
  have hline := hall (2147483647 + 1) ⟨[], hblank⟩ (.json _ hdeep) [] ⟨[], hblank⟩
  rw [printedLine, List.nil_append, List.flatMap_nil, List.append_nil, Argument.print,
    tokenize_container hdeep, bareToken_overflow 2147483647 (by decide)] at hline
  cases hline

/-! ### Words with quotes further in -/

/-- A word: no whitespace, bracket or backslash, and no quote at its start. -/
structure Word where
  bytes : List UInt8
  nonempty : bytes ≠ []
  plain : ∀ c ∈ bytes,
    isSpace c = false ∧ isOpening c = false ∧ isClosing c = false ∧ c ≠ backslash
  bare : ∀ c ∈ bytes.head?, c ≠ dquote ∧ c ≠ squote

/-- Words with spaces between them: `gap i + 1` of them behind the word `i`. -/
def joined (gap : Nat → Nat) : List Word → List UInt8
  | [] => []
  | [word] => word.bytes
  | word :: next :: words =>
      word.bytes ++ List.replicate (gap 0 + 1) 0x20 ++ joined (fun i => gap (i + 1)) (next :: words)

/-- A word starts no quoted token. -/
theorem Word.head (word : Word) :
    ∃ c tail, word.bytes = c :: tail ∧ isSpace c = false ∧ ¬ (c = dquote ∨ c = squote) := by
  obtain ⟨c, tail, hcons⟩ := List.exists_cons_of_ne_nil word.nonempty
  have hc : c ∈ word.bytes := by
    rw [hcons]
    exact List.mem_cons_self
  obtain ⟨hdquote, hsquote⟩ := word.bare c (by rw [hcons]; rfl)
  exact ⟨c, tail, hcons, (word.plain c hc).1, not_or.mpr ⟨hdquote, hsquote⟩⟩

/-- A word is copied, and each double quote in it turns `in_json_string` over. -/
theorem bareToken_word {w : List UInt8}
    (hw : ∀ c ∈ w,
      isSpace c = false ∧ isOpening c = false ∧ isClosing c = false ∧ c ≠ backslash)
    (inJsonString : Bool) (text rest : List UInt8) :
    bareToken 0 inJsonString text (w ++ rest)
      = bareToken 0 (inJsonString != decide (w.count dquote % 2 = 1)) (text ++ w) rest := by
  -- By induction on the word: each quote in it turns the flag over.
  induction w generalizing inJsonString text with
  | nil => simp
  | cons c w ih =>
      obtain ⟨hspace, hopening, hclosing, hescape⟩ := hw c List.mem_cons_self
      have hstep : bareStep 0 inJsonString c
          = .ok (some (0, inJsonString != decide (c = dquote))) := by
        by_cases hc : c = dquote
        · subst hc
          cases inJsonString <;> simp [bareStep, hspace]
        · cases inJsonString <;> simp [bareStep, hspace, hopening, hclosing, hc]
      -- So the flag behind the word is the parity of all its quotes.
      have hparity : ((inJsonString != decide (c = dquote)) != decide (w.count dquote % 2 = 1))
          = (inJsonString != decide ((c :: w).count dquote % 2 = 1)) := by
        by_cases hc : c = dquote
        · subst hc
          rw [List.count_cons_self]
          rcases Nat.mod_two_eq_zero_or_one (w.count dquote) with hw | hw <;>
            simp [Nat.add_mod, hw]
        · simp [List.count_cons_of_ne hc, hc]
      rw [List.cons_append, bareToken_cons fun heq => absurd heq hescape, hstep]
      dsimp only
      rw [ih (fun x hx => hw x (List.mem_cons_of_mem c hx)), hparity]
      simp

/-- A word is scanned with the quote state its own quotes leave behind. -/
theorem tokenize_word (word : Word) (rest : List UInt8) :
    tokenize (word.bytes ++ rest)
      = (bareToken 0 (decide (word.bytes.count dquote % 2 = 1)) word.bytes rest).bind
          fun (text, rest) => (tokenize rest).map (⟨text, false⟩ :: ·) := by
  obtain ⟨c, tail, hcons, hspace, hquote⟩ := word.head
  have hscan := bareToken_word word.plain false [] rest
  rw [List.nil_append, Bool.false_bne] at hscan
  rw [← hscan, hcons]
  exact tokenize_bare hspace hquote (tail ++ rest)

/-- Where the quotes of a word come in pairs, the word is a token. -/
theorem tokenize_even {word : Word} (heven : Even (word.bytes.count dquote)) {rest : List UInt8}
    (hrest : EndsToken rest) :
    tokenize (word.bytes ++ rest) = (tokenize rest).map (⟨word.bytes, false⟩ :: ·) := by
  have hparity : ¬ word.bytes.count dquote % 2 = 1 := by
    rw [Nat.even_iff.mp heven]
    decide
  rw [tokenize_word, decide_eq_false hparity, bareToken_ends hrest]
  rfl

/-- Where a quote is left over, the token throws or goes on behind the word. -/
theorem tokenize_odd {word : Word} (hodd : ¬ Even (word.bytes.count dquote)) {rest : List UInt8}
    (hrest : EndsToken rest) (tokens : List Token) :
    tokenize (word.bytes ++ rest) ≠ .ok (⟨word.bytes, false⟩ :: tokens) := by
  have hparity : word.bytes.count dquote % 2 = 1 := by
    exact Nat.mod_two_ne_zero.mp (mt Nat.even_iff.mpr hodd)
  intro h
  rw [tokenize_word, decide_eq_true hparity] at h
  cases rest with
  | nil => cases h
  | cons c rest =>
      have hspace : isSpace c = true := hrest c rfl
      have hquote : c ≠ dquote := by
        rintro rfl
        revert hspace
        decide
      rw [bareToken_inString hquote (ne_backslash_of_space hspace)] at h
      cases hread : bareToken 0 true (word.bytes ++ [c]) rest with
      | error fault => rw [hread] at h; cases h
      | ok read =>
          obtain ⟨text, rest'⟩ := read
          -- The whitespace stands in the token.
          have hlonger := (bareToken_bounds hread).1.length_le
          rw [hread] at h
          have htext : text = word.bytes := by
            cases htokens : tokenize rest' with
            | error fault => simp [Except.bind, Except.map, htokens] at h
            | ok toks =>
                simp only [Except.bind, Except.map, htokens, Except.ok.injEq, List.cons.injEq,
                  Token.mk.injEq] at h
                exact h.1.1
          rw [htext, List.length_append, List.length_singleton] at hlonger
          omega

/-- The space behind a word ends it. -/
theorem endsToken_spaces (k : Nat) (rest : List UInt8) :
    EndsToken (List.replicate (k + 1) 0x20 ++ rest) := by
  intro c hc
  obtain rfl : 0x20 = c := by simpa [List.replicate_succ] using hc
  rfl

/-- Words are given back, none of them forced, if and only if each has an even number of double
quotes. -/
theorem words_kept_iff (gap : Nat → Nat) (words : List Word) :
    tokenize (joined gap words) = .ok (words.map fun word => ⟨word.bytes, false⟩) ↔
      ∀ word ∈ words, Even (word.bytes.count dquote) := by
  induction words generalizing gap with
  | nil =>
      have hempty : tokenize [] = .ok [] := tokenize_blank_only (by simp)
      simp [joined, hempty]
  | cons word words ih =>
      -- `rest` is what stands behind the first word, and `hrest` what becomes of it.
      obtain ⟨rest, hline, hends, hrest⟩ : ∃ rest, joined gap (word :: words) = word.bytes ++ rest ∧
          EndsToken rest ∧
          (tokenize rest = .ok (words.map fun word => ⟨word.bytes, false⟩) ↔
            ∀ word ∈ words, Even (word.bytes.count dquote)) := by
        cases words with
        | nil =>
            have hempty : tokenize [] = .ok [] := tokenize_blank_only (by simp)
            exact ⟨[], (List.append_nil _).symm, by simp [EndsToken], by simp [hempty]⟩
        | cons next words =>
            have hspaces : ∀ c ∈ List.replicate (gap 0 + 1) (0x20 : UInt8), isSpace c = true := by
              intro c hc
              rw [List.eq_of_mem_replicate hc]
              rfl
            refine ⟨_, by rw [joined, List.append_assoc], endsToken_spaces (gap 0) _, ?_⟩
            rw [tokenize_blank hspaces]
            exact ih fun i => gap (i + 1)
      rw [hline, List.map_cons, List.forall_mem_cons, ← hrest]
      by_cases heven : Even (word.bytes.count dquote)
      · rw [tokenize_even heven hends]
        cases tokenize rest with
        | error fault => simp [Except.map]
        | ok tokens => simp [Except.map, heven]
      · exact ⟨fun h => absurd h (tokenize_odd heven hends _), fun h => absurd h.1 heven⟩

/-- `5"`. -/
def fiveInches : Word where
  bytes := [0x35, 0x22]
  nonempty := by decide
  plain := by simp [isSpace, isOpening, isClosing, backslash]
  bare := by simp [dquote, squote]

/-- `x`. -/
def nextWord : Word where
  bytes := [0x78]
  nonempty := by decide
  plain := by simp [isSpace, isOpening, isClosing, backslash]
  bare := by simp [dquote, squote]

/-- The line `5" x` is taken for a string that does not end. -/
theorem words_kept_fails :
    tokenize (joined (fun _ => 0) [fiveInches, nextWord])
      ≠ .ok ([fiveInches, nextWord].map fun word => ⟨word.bytes, false⟩) := by
  have hodd : ¬ Even (fiveInches.bytes.count dquote) := by decide
  have hends : EndsToken [0x20, 0x78] := by simp [EndsToken, isSpace]
  exact tokenize_odd hodd hends _

end CommandLine

end SerialRpc
