import SerialRpc.Msgpack.Writer
import Mathlib.Data.List.TakeWhile

/-!
# `SerialRpc.Host.CommandLine`: the tokenizer of the command line

`tokenize` of `extras/host/tools/rpc_repl/json_value.hpp`, which splits a line that was typed into
tokens. What the source reads at `line[i]` stands here at the head of the rest of the line, and
`i + 1 < n` says that the rest has another character.

`depth` is an `int`, and C++ leaves undefined what one more bracket does to its largest value:
`Fault.overflow`.
-/

set_option autoImplicit false

namespace SerialRpc

namespace CommandLine

/-- `"`. -/
def dquote : UInt8 := 0x22

/-- `'`. -/
def squote : UInt8 := 0x27

/-- The character that escapes the next one. -/
def backslash : UInt8 := 0x5c

/-- `is_space`. -/
def isSpace (c : UInt8) : Bool := c = 0x20 || c = 0x09 || c = 0x0d || c = 0x0a

/-- `[` and `{`. -/
def isOpening (c : UInt8) : Bool := c = 0x5b || c = 0x7b

/-- `]` and `}`. -/
def isClosing (c : UInt8) : Bool := c = 0x5d || c = 0x7d

/-- `Token`. -/
structure Token where
  text : List UInt8
  /-- `forced_string`: the token was quoted. -/
  forcedString : Bool := false
deriving DecidableEq, Repr

/-- How the tokenizer fails. -/
inductive Fault where
  /-- `ParseError`, with its `what()`. -/
  | parseError (what : List UInt8)
  /-- The signed overflow of `depth`. -/
  | overflow
deriving DecidableEq, Repr

/-- The largest `int`. -/
def intMax : Int := 2147483647

/-! ### A quoted token -/

/-- The loop over a quoted token: its text, and the rest of the line behind the closing quote. -/
def quotedToken (quote : UInt8) (text : List UInt8) :
    List UInt8 → Except Fault (List UInt8 × List UInt8)
  | [] => .error (.parseError (SerialRpc.text "rpc_repl: unterminated quote in command line"))
  | [c] =>
      -- A backslash with nothing behind it escapes nothing.
      if c = quote then .ok (text, []) else quotedToken quote (text ++ [c]) []
  | c :: d :: rest =>
      if c = backslash then quotedToken quote (text ++ [d]) rest
      else if c = quote then .ok (text, d :: rest)
      else quotedToken quote (text ++ [c]) (d :: rest)

/-! ### Any other token -/

/-- What a character does that no backslash escapes: the new `depth` and `in_json_string`, or
`none` where the token ends in front of it. -/
def bareStep (depth : Int) (inJsonString : Bool) (c : UInt8) :
    Except Fault (Option (Int × Bool)) :=
  if inJsonString then .ok (some (depth, c ≠ dquote))
  else if depth = 0 ∧ isSpace c then .ok none
  -- At any depth, also where no bracket is open.
  else if c = dquote then .ok (some (depth, true))
  else if isOpening c then
    if depth = intMax then .error .overflow else .ok (some (depth + 1, false))
  else if isClosing c then
    if depth - 1 < 0 then
      .error (.parseError (SerialRpc.text
        "rpc_repl: unbalanced brackets (unexpected closing bracket) in command line"))
    else .ok (some (depth - 1, false))
  else .ok (some (depth, false))

/-- The checks behind the loop. -/
def bareEnd (depth : Int) (inJsonString : Bool) (text rest : List UInt8) :
    Except Fault (List UInt8 × List UInt8) :=
  if inJsonString then
    .error (.parseError (SerialRpc.text
      "rpc_repl: unterminated string inside brackets in command line"))
  else if depth ≠ 0 then
    .error (.parseError (SerialRpc.text "rpc_repl: unbalanced brackets in command line"))
  else .ok (text, rest)

/-- The loop over a token that is not quoted: its text, and the rest of the line. -/
def bareToken (depth : Int) (inJsonString : Bool) (text : List UInt8) :
    List UInt8 → Except Fault (List UInt8 × List UInt8)
  | [] => bareEnd depth inJsonString text []
  | [c] =>
      match bareStep depth inJsonString c with
      | .error fault => .error fault
      | .ok none => bareEnd depth inJsonString text [c]
      | .ok (some (depth, inJsonString)) => bareToken depth inJsonString (text ++ [c]) []
  | c :: d :: rest =>
      if c = backslash then
        -- A string within brackets keeps its backslashes.
        if inJsonString then bareToken depth true (text ++ [c, d]) rest
        else bareToken depth false (text ++ [d]) rest
      else
        match bareStep depth inJsonString c with
        | .error fault => .error fault
        | .ok none => bareEnd depth inJsonString text (c :: d :: rest)
        | .ok (some (depth, inJsonString)) =>
            bareToken depth inJsonString (text ++ [c]) (d :: rest)

/-! ### The line -/

/-- The loop that skips whitespace. -/
def skipSpace (line : List UInt8) : List UInt8 := line.dropWhile isSpace

/-- One token that starts with `c`, and the rest of the line. -/
def readToken (c : UInt8) (rest : List UInt8) : Except Fault (Token × List UInt8) :=
  if c = dquote ∨ c = squote then
    (quotedToken c [] rest).map fun (text, rest) => (⟨text, true⟩, rest)
  else (bareToken 0 false [] (c :: rest)).map fun (text, rest) => (⟨text, false⟩, rest)

/-- What is left behind a quoted token is no longer than the line it was cut from. -/
theorem quotedToken_length {quote : UInt8} {text line text' rest : List UInt8}
    (h : quotedToken quote text line = .ok (text', rest)) : rest.length ≤ line.length := by
  fun_induction quotedToken quote text line with
  | case1 => cases h
  | case2 =>
      cases h
      exact Nat.zero_le _
  | case3 =>
      rename_i ih
      exact Nat.le_succ_of_le (ih h)
  | case4 =>
      rename_i ih
      exact Nat.le_trans (ih h) (Nat.le_add_right _ 2)
  | case5 =>
      cases h
      exact Nat.le_succ _
  | case6 =>
      rename_i ih
      exact Nat.le_succ_of_le (ih h)

/-- The end of a bare token takes nothing of the line. -/
theorem bareEnd_rest {depth : Int} {inJsonString : Bool} {text line text' rest : List UInt8}
    (h : bareEnd depth inJsonString text line = .ok (text', rest)) :
    text' = text ∧ rest = line := by
  unfold bareEnd at h
  split at h
  · cases h
  · split at h
    · cases h
    · cases h
      exact ⟨rfl, rfl⟩

/-- A token keeps the characters that it has, and the line gets no longer. -/
theorem bareToken_bounds {depth : Int} {inJsonString : Bool} {text line text' rest : List UInt8}
    (h : bareToken depth inJsonString text line = .ok (text', rest)) :
    text <+: text' ∧ rest.length ≤ line.length := by
  have hend {depth : Int} {inJsonString : Bool} {text line : List UInt8}
      (h : bareEnd depth inJsonString text line = .ok (text', rest)) :
      text <+: text' ∧ rest.length ≤ line.length := by
    obtain ⟨rfl, rfl⟩ := bareEnd_rest h
    exact ⟨List.prefix_rfl, Nat.le_refl _⟩
  fun_induction bareToken depth inJsonString text line with
  | case1 => exact hend h
  | case2 => cases h
  | case3 => exact hend h
  | case4 =>
      rename_i ih
      obtain ⟨htext, hlength⟩ := ih h
      exact ⟨(List.prefix_append _ _).trans htext, Nat.le_succ_of_le hlength⟩
  | case5 =>
      rename_i ih
      obtain ⟨htext, hlength⟩ := ih h
      exact ⟨(List.prefix_append _ _).trans htext, Nat.le_trans hlength (Nat.le_add_right _ 2)⟩
  | case6 =>
      rename_i ih
      obtain ⟨htext, hlength⟩ := ih h
      exact ⟨(List.prefix_append _ _).trans htext, Nat.le_trans hlength (Nat.le_add_right _ 2)⟩
  | case7 => cases h
  | case8 => exact hend h
  | case9 =>
      rename_i ih
      obtain ⟨htext, hlength⟩ := ih h
      exact ⟨(List.prefix_append _ _).trans htext, Nat.le_succ_of_le hlength⟩

/-- A character that no backslash escapes. -/
theorem bareToken_cons {depth : Int} {inJsonString : Bool} {text rest : List UInt8} {c : UInt8}
    (hc : c = backslash → rest = []) :
    bareToken depth inJsonString text (c :: rest)
      = match bareStep depth inJsonString c with
        | .error fault => .error fault
        | .ok none => bareEnd depth inJsonString text (c :: rest)
        | .ok (some (depth, inJsonString)) => bareToken depth inJsonString (text ++ [c]) rest := by
  cases rest with
  | nil => rw [bareToken.eq_def]
  | cons d rest =>
      have hne : c ≠ backslash := fun heq => List.cons_ne_nil d rest (hc heq)
      rw [bareToken.eq_def]
      simp only [if_neg hne]

/-- A token ends in front of whitespace only. -/
theorem bareStep_none {depth : Int} {inJsonString : Bool} {c : UInt8}
    (h : bareStep depth inJsonString c = .ok none) : isSpace c = true := by
  unfold bareStep at h
  split at h
  · cases h
  · split at h
    · rename_i hspace
      exact hspace.2
    · -- Every other branch throws or goes on.
      exfalso
      revert h
      repeat' split
      all_goals exact fun h => nomatch h

/-- The first character of a token is not left for the next one. -/
theorem bareToken_first {c : UInt8} (hc : isSpace c = false) {line text' rest : List UInt8}
    (h : bareToken 0 false [] (c :: line) = .ok (text', rest)) : rest.length ≤ line.length := by
  by_cases hescape : c = backslash → line = []
  · rw [bareToken_cons hescape] at h
    split at h
    · cases h
    · rename_i hnone
      rw [bareStep_none hnone] at hc
      cases hc
    · exact (bareToken_bounds h).2
  · -- A backslash and the character it escapes.
    obtain ⟨rfl, hline⟩ := Classical.not_imp.mp hescape
    obtain ⟨d, line, rfl⟩ := List.exists_cons_of_ne_nil hline
    rw [bareToken, if_pos rfl] at h
    exact Nat.le_succ_of_le (bareToken_bounds h).2

/-- A token takes its bytes off the front of the line, so `tokenize` terminates. -/
theorem readToken_length {c : UInt8} (hc : isSpace c = false) {line rest : List UInt8} {tok : Token}
    (h : readToken c line = .ok (tok, rest)) : rest.length ≤ line.length := by
  unfold readToken at h
  split at h
  · cases hread : quotedToken c [] line with
    | error fault => rw [hread] at h; cases h
    | ok read =>
        rw [hread] at h
        cases h
        exact quotedToken_length hread
  · cases hread : bareToken 0 false [] (c :: line) with
    | error fault => rw [hread] at h; cases h
    | ok read =>
        rw [hread] at h
        cases h
        exact bareToken_first hc hread

/-- What stands behind the whitespace. -/
theorem skipSpace_cons {line rest : List UInt8} {c : UInt8} (h : skipSpace line = c :: rest) :
    isSpace c = false ∧ rest.length < line.length := by
  have hlength : (skipSpace line).length ≤ line.length := line.length_dropWhile_le isSpace
  rw [h] at hlength
  have hhead := List.head?_dropWhile_not isSpace line
  rw [← skipSpace, h] at hhead
  exact ⟨hhead, hlength⟩

/-- `tokenize`. -/
def tokenize (line : List UInt8) : Except Fault (List Token) :=
  match _hline : skipSpace line with
  | [] => .ok []
  | c :: rest =>
      match _htoken : readToken c rest with
      | .error fault => .error fault
      | .ok (tok, rest') => (tokenize rest').map (tok :: ·)
termination_by line.length
decreasing_by
  obtain ⟨hc, hrest⟩ := skipSpace_cons _hline
  exact Nat.lt_of_le_of_lt (readToken_length hc _htoken) hrest

end CommandLine

end SerialRpc
