import SerialRpc.Proofs.Device.Typed

/-!
# `SerialRpc.Proofs.Device.Reserving`: which room the argument decoders ask for

* `ArgFront`: the parameters of every type, read off the format. `VectorAt` are the headers
  of vectors that a decoder comes to, behind complete parameters.
* `DecodesParams`: a decoder takes what the first relation says, and reserves room for what the
  second one says. `decodes_types` goes from parts to a row of parts, `decodes_container`
  from these to a container.
* `mem_reserved_iff`: every type, by induction on the type.
-/

set_option autoImplicit false

namespace SerialRpc

open MsgPack Reader

variable {w : SizeT} {α β : Type}

/-! ### Parameters of every type -/

namespace ArgType

/-- The types of the parts behind an array header that announces `n` of them. -/
def parts : ArgType → Nat → Option (List ArgType)
  | vector element, n => some (List.replicate n element)
  | array element size, n => if n = size then some (List.replicate n element) else none
  | pair first second, n => if n = 2 then some [first, second] else none
  | tuple size element, n => if n = size then some (List.ofFn element) else none
  | bool, _ | int _, _ | float, _ | double, _ | cstr, _ | string, _ => none

/-- `std::vector`, the only type that makes room. -/
def IsVector : ArgType → Prop
  | vector _ => True
  | _ => False

end ArgType

mutual

/-- The first `k` bytes are a parameter of a type, with `need` scratch bytes for the strings
in it. -/
inductive ArgFront (w : SizeT) : ArgType → List UInt8 → Nat → Nat → Prop where
  | basic {t : ArgType} {bs : List UInt8} {param : t.Wire} {k : Nat} (hbasic : t.Basic)
      (there : wireParam w t bs = some (param, k)) : ArgFront w t bs k (scratchSize t param)
  | string {bs : List UInt8} {s : Nat × Nat} {k : Nat} (there : blob (asStr w) bs = some (s, k)) :
      ArgFront w .string bs k 0
  | container {t : ArgType} {bs : List UInt8} {n k j need : Nat} {ts : List ArgType}
      (there : header (asArray w) bs = some (n, k)) (parts : t.parts n = some ts)
      (all : ArgFronts w ts (bs.drop k) j need) : ArgFront w t bs (k + j) need

/-- The first `k` bytes are parameters of some types. -/
inductive ArgFronts (w : SizeT) : List ArgType → List UInt8 → Nat → Nat → Prop where
  | nil {bs : List UInt8} : ArgFronts w [] bs 0 0
  | cons {t : ArgType} {ts : List ArgType} {bs : List UInt8} {k j need need' : Nat}
      (first : ArgFront w t bs k need) (others : ArgFronts w ts (bs.drop k) j need') :
      ArgFronts w (t :: ts) bs (k + j) (need + need')

end

/-- A decoder with `room` scratch bytes left comes to the header of a vector of `count`
elements with `behind` bytes behind it. -/
inductive VectorAt (w : SizeT) : ArgType → Nat → List UInt8 → Nat → Nat → Prop where
  | header {t : ArgType} {room n k : Nat} {bs : List UInt8} (vector : t.IsVector)
      (there : header (asArray w) bs = some (n, k)) : VectorAt w t room bs n (bs.length - k)
  | part {t u : ArgType} {room n k j need count behind : Nat} {bs : List UInt8}
      {before after : List ArgType} (there : header (asArray w) bs = some (n, k))
      (parts : t.parts n = some (before ++ u :: after))
      (front : ArgFronts w before (bs.drop k) j need) (fits : need ≤ room)
      (inside : VectorAt w u (room - need) (bs.drop (k + j)) count behind) :
      VectorAt w t room bs count behind

/-- The same among parameters of some types in a row. -/
def VectorAmong (w : SizeT) (ts : List ArgType) (room : Nat) (bs : List UInt8)
    (count behind : Nat) : Prop :=
  ∃ before u after j need, ts = before ++ u :: after ∧ ArgFronts w before bs j need ∧
    need ≤ room ∧ VectorAt w u (room - need) (bs.drop j) count behind

/-- There is no vector among no parameters. -/
theorem vectorAmong_nil {room count behind : Nat} {bs : List UInt8} :
    ¬ VectorAmong w [] room bs count behind := by
  intro h
  obtain ⟨before, u, after, j, need, hsplit, -⟩ := h
  simp at hsplit

/-- It is in the first parameter, or that one is complete and it is among the others. -/
theorem vectorAmong_cons {t : ArgType} {ts : List ArgType} {room count behind : Nat}
    {bs : List UInt8} :
    VectorAmong w (t :: ts) room bs count behind ↔
      VectorAt w t room bs count behind ∨
        ∃ k need, ArgFront w t bs k need ∧ need ≤ room ∧
          VectorAmong w ts (room - need) (bs.drop k) count behind := by
  constructor
  · -- The vector is in the first parameter, or behind it.
    intro h
    obtain ⟨before, u, after, j, need, hsplit, hfront, hfits, hat⟩ := h
    cases before with
    | nil =>
        cases hsplit
        cases hfront
        exact Or.inl hat
    | cons t' before =>
        cases hsplit
        cases hfront with
        | cons hfirst hothers =>
            rename_i k i first rest
            refine Or.inr ⟨k, first, hfirst, by omega, before, u, after, i, rest, rfl, hothers,
              by omega, ?_⟩
            rwa [List.drop_drop, Nat.sub_sub]
  · -- And the other way round.
    intro h
    rcases h with hat | hothers
    · exact ⟨[], t, ts, 0, 0, rfl, .nil, Nat.zero_le _, hat⟩
    · obtain ⟨k, need, hfirst, hfits, before, u, after, j, rest, hsplit, hfront, hroom, hat⟩ :=
        hothers
      rw [List.drop_drop, Nat.sub_sub] at hat
      exact ⟨t :: before, u, after, k + j, need + rest, by rw [hsplit]; rfl, .cons hfirst hfront,
        by omega, hat⟩

/-- There is none where no array begins. -/
theorem not_vectorAt {t : ArgType} {room count behind : Nat} {bs : List UInt8}
    (h : header (asArray w) bs = none) : ¬ VectorAt w t room bs count behind := by
  intro hat
  cases hat with
  | header _ hthere =>
      rw [h] at hthere
      cases hthere
  | part hthere =>
      rw [h] at hthere
      cases hthere

/-- A type without parts comes to nothing. -/
theorem not_vectorAt_leaf {t : ArgType} (hvector : ¬ t.IsVector) (hparts : ∀ n, t.parts n = none)
    {room count behind : Nat} {bs : List UInt8} : ¬ VectorAt w t room bs count behind := by
  intro hat
  cases hat with
  | header hv => exact hvector hv
  | part _ hts =>
      rw [hparts] at hts
      cases hts

/-- A header of a container comes to itself and to what is among its parts. -/
theorem vectorAt_iff {t : ArgType} {room n k count behind : Nat} {bs : List UInt8}
    (h : header (asArray w) bs = some (n, k)) :
    VectorAt w t room bs count behind ↔
      (t.IsVector ∧ count = n ∧ behind = bs.length - k) ∨
        ∃ ts, t.parts n = some ts ∧ VectorAmong w ts room (bs.drop k) count behind := by
  constructor
  · -- The container itself, or a part of it.
    intro hat
    cases hat with
    | header hvector hthere =>
        rw [h] at hthere
        cases hthere
        exact Or.inl ⟨hvector, rfl, rfl⟩
    | part hthere hparts hfront hfits hinside =>
        rw [h] at hthere
        cases hthere
        rw [← List.drop_drop] at hinside
        exact Or.inr ⟨_, hparts, _, _, _, _, _, rfl, hfront, hfits, hinside⟩
  · -- The same two cases again.
    intro hat
    rcases hat with ⟨hvector, rfl, rfl⟩ | ⟨ts, hparts, hamong⟩
    · exact .header hvector h
    · obtain ⟨before, u, after, j, need, rfl, hfront, hfits, hinside⟩ := hamong
      rw [List.drop_drop] at hinside
      exact .part h hparts hfront hfits hinside

/-! ### What a decoder does, its values aside -/

/-- A decoder without its value: whether it succeeds. -/
def ran (decode : Decoder w α) (args : ThunkArgs w) : ThunkArgs w × Bool :=
  ((decode args).1, (decode args).2.isSome)

/-- The decoders of some types, one after the other. -/
def decodeTypes : List ArgType → ThunkArgs w → ThunkArgs w × Bool
  | [], args => (args, true)
  | t :: ts, args =>
      match ran (argDecode t) args with
      | (args, false) => (args, false)
      | (args, true) => decodeTypes ts args

/-- `Args` behind `k` bytes and `need` scratch bytes. -/
structure PastParams (args : ThunkArgs w) (k need : Nat) (args' : ThunkArgs w) : Prop where
  reader_eq : args'.reader = args.reader.advance k
  used_eq : args'.scratchUsed = args.scratchUsed + need
  length_eq : args'.scratch.length = args.scratch.length

/-- A decoder takes the fronts that `front` knows, when there is room for their strings, and
makes room for the vectors that `vectors` knows. -/
structure DecodesParams (w : SizeT) (front : List UInt8 → Nat → Nat → Prop)
    (vectors : Nat → List UInt8 → Nat → Nat → Prop)
    (run : ThunkArgs w → ThunkArgs w × Bool) : Prop where
  takes : ∀ args args', args.reader.error = false → run args = (args', true) →
    ∃ k need, front args.reader.rest k need ∧
      args.scratchUsed + need ≤ args.scratch.length ∧ PastParams args k need args'
  accepts : ∀ args k need, args.reader.error = false → front args.reader.rest k need →
    args.scratchUsed + need ≤ args.scratch.length →
    ∃ args', run args = (args', true) ∧ PastParams args k need args'
  reserves : ∀ args asked, args.reader.error = false →
    (asked ∈ (run args).1.reserved ↔ asked ∈ args.reserved ∨
      vectors (args.scratch.length - args.scratchUsed) args.reader.rest asked.count asked.left)

/-- One parameter behind another, with what both have reserved. -/
theorem PastParams.trans {args args' args'' : ThunkArgs w} {j k need need' : Nat}
    (h : PastParams args j need args') (h' : PastParams args' k need' args'') :
    PastParams args (j + k) (need + need') args'' where
  reader_eq := by rw [h'.reader_eq, h.reader_eq, advance_advance]
  used_eq := by rw [h'.used_eq, h.used_eq, Nat.add_assoc]
  length_eq := h'.length_eq.trans h.length_eq

/-- The room that one parameter and those behind it ask for. -/
theorem reserves_cons {t : ArgType} {ts : List ArgType}
    (hfirst : DecodesParams w (ArgFront w t) (VectorAt w t) (ran (argDecode t)))
    (hothers : DecodesParams w (ArgFronts w ts) (VectorAmong w ts) (decodeTypes ts))
    (args : ThunkArgs w) (asked : Reservation) (herror : args.reader.error = false) :
    asked ∈ (decodeTypes (t :: ts) args).1.reserved ↔ asked ∈ args.reserved ∨
      VectorAmong w (t :: ts) (args.scratch.length - args.scratchUsed) args.reader.rest
        asked.count asked.left := by
  have hused := args.used_le
  have hasked := hfirst.reserves args asked herror
  rw [vectorAmong_cons, decodeTypes]
  cases hran : ran (argDecode t) args with
  | mk args' ok =>
      rw [hran] at hasked
      cases ok with
      | false =>
          -- Nothing is decoded behind a parameter that is refused.
          constructor
          · intro hcalls
            exact (hasked.mp hcalls).imp id Or.inl
          · intro hcalls
            rcases hcalls with hold | hat | ⟨k, need, hfront, hfits, -⟩
            · exact hasked.mpr (Or.inl hold)
            · exact hasked.mpr (Or.inr hat)
            · obtain ⟨args'', hran', -⟩ := hfirst.accepts args k need herror hfront (by omega)
              rw [hran] at hran'
              cases hran'
      | true =>
          have hfollowing (k need : Nat) (hbehind : PastParams args k need args') :
              asked ∈ (decodeTypes ts args').1.reserved ↔ asked ∈ args'.reserved ∨
                VectorAmong w ts (args.scratch.length - args.scratchUsed - need)
                  (args.reader.rest.drop k) asked.count asked.left := by
            have hrest := hothers.reserves args' asked (by rw [hbehind.reader_eq]; exact herror)
            rwa [hbehind.reader_eq, hbehind.used_eq, hbehind.length_eq, rest_advance,
              ← Nat.sub_sub] at hrest
          show asked ∈ (decodeTypes ts args').1.reserved ↔ _
          constructor
          · intro hcalls
            obtain ⟨k, need, hfront, hroom, hbehind⟩ := hfirst.takes args args' herror hran
            rcases (hfollowing k need hbehind).mp hcalls with hold | hamong
            · exact (hasked.mp hold).imp id Or.inl
            · exact Or.inr (Or.inr ⟨k, need, hfront, by omega, hamong⟩)
          · intro hcalls
            obtain ⟨k, need, -, -, hbehind⟩ := hfirst.takes args args' herror hran
            rcases hcalls with hold | hat | ⟨k', need', hfront, hfits, hamong⟩
            · exact (hfollowing k need hbehind).mpr (Or.inl (hasked.mpr (Or.inl hold)))
            · exact (hfollowing k need hbehind).mpr (Or.inl (hasked.mpr (Or.inr hat)))
            · -- The decoder took the first parameter that the format shows.
              obtain ⟨args'', hran', hbehind'⟩ :=
                hfirst.accepts args k' need' herror hfront (by omega)
              rw [hran] at hran'
              cases hran'
              exact (hfollowing k' need' hbehind').mpr (Or.inr hamong)

/-- Decoders in a row. -/
theorem decodes_types {ts : List ArgType}
    (h : ∀ t ∈ ts, DecodesParams w (ArgFront w t) (VectorAt w t) (ran (argDecode t))) :
    DecodesParams w (ArgFronts w ts) (VectorAmong w ts) (decodeTypes ts) := by
  -- By induction on the types, each parameter behind the last.
  induction ts with
  | nil =>
      refine ⟨?_, ?_, ?_⟩
      · intro args args' _ hrun
        cases hrun
        exact ⟨0, 0, .nil, args.used_le, rfl, rfl, rfl⟩
      · intro args k need _ hfront _
        cases hfront
        exact ⟨args, rfl, rfl, rfl, rfl⟩
      · intro args asked _
        constructor
        · intro hasked
          exact Or.inl hasked
        · intro hasked
          exact hasked.resolve_right vectorAmong_nil
  | cons t ts ih =>
      have hfirst := h t (List.mem_cons_self ..)
      have hothers := ih fun u hu => h u (List.mem_cons_of_mem t hu)
      -- What the parameters take, what is enough to take them, and what they reserve.
      refine ⟨?_, ?_, reserves_cons hfirst hothers⟩
      · intro args args'' herror hrun
        rw [decodeTypes] at hrun
        split at hrun
        · cases hrun
        · rename_i args' hran
          obtain ⟨k, need, hfront, hroom, hbehind⟩ := hfirst.takes args args' herror hran
          obtain ⟨j, need', hfronts, hroom', hbehind'⟩ := hothers.takes args' args''
            (by rw [hbehind.reader_eq]; exact herror) hrun
          rw [hbehind.reader_eq, rest_advance] at hfronts
          rw [hbehind.used_eq, hbehind.length_eq] at hroom'
          exact ⟨k + j, need + need', .cons hfront hfronts, by omega, hbehind.trans hbehind'⟩
      · intro args k need herror hfront hroom
        cases hfront with
        | cons hfront hfronts =>
            obtain ⟨args', hran, hbehind⟩ := hfirst.accepts args _ _ herror hfront (by omega)
            rw [← rest_advance, ← hbehind.reader_eq] at hfronts
            obtain ⟨args'', hrun, hbehind'⟩ := hothers.accepts args' _ _
              (by rw [hbehind.reader_eq]; exact herror) hfronts
              (by rw [hbehind.used_eq, hbehind.length_eq]; omega)
            refine ⟨args'', ?_, hbehind.trans hbehind'⟩
            rw [decodeTypes, hran]
            exact hrun

/-! ### Containers -/

/-- What a decoder that has run leaves behind. -/
theorem ran_eq {decode : Decoder w α} {args args' : ThunkArgs w} {value : Option α}
    (h : decode args = (args', value)) : ran decode args = (args', value.isSome) := by
  rw [ran, h]

/-- A decoder that starts with that of one type and goes on with those of others. -/
theorem ran_next {t : ArgType} {ts : List ArgType} {whole : Decoder w α} {others : Decoder w β}
    (hrefused : ∀ args args', argDecode t args = (args', none) → ran whole args = (args', false))
    (htaken : ∀ args args' value, argDecode t args = (args', some value) →
      ran whole args = ran others args')
    (hothers : ∀ args, ran others args = decodeTypes ts args) (args : ThunkArgs w) :
    ran whole args = decodeTypes (t :: ts) args := by
  rw [decodeTypes]
  generalize hfirst : argDecode t args = first
  obtain ⟨args', value⟩ := first
  rw [ran_eq hfirst]
  cases value with
  | none => exact hrefused args args' hfirst
  | some value => exact (htaken args args' value hfirst).trans (hothers args')

/-- Elements in a row are decoded like parameters of one type. -/
theorem ran_elements (element : ArgType) (n : Nat) (args : ThunkArgs w) :
    ran (decodeElements (argDecode element) n) args
      = decodeTypes (List.replicate n element) args := by
  induction n generalizing args with
  | zero => rfl
  | succ n ih =>
      rw [List.replicate_succ]
      refine ran_next ?_ ?_ ih args
      · intro args args' hfirst
        simp only [ran, decodeElements, hfirst, Option.isSome_none]
      · intro args args' value hfirst
        generalize hrest : decodeElements (argDecode element) n args' = rest
        obtain ⟨args'', values⟩ := rest
        rw [ran_eq hrest]
        cases values <;> simp only [ran, decodeElements, hfirst, hrest, Option.isSome_none,
          Option.isSome_some]

/-- The parts of a tuple are decoded like parameters. -/
theorem ran_parts {n : Nat} (types : Fin n → ArgType) (args : ThunkArgs w) :
    ran (decodeParts n fun i => argDecode (types i)) args
      = decodeTypes (List.ofFn types) args := by
  induction n generalizing args with
  | zero => rfl
  | succ n ih =>
      rw [List.ofFn_succ]
      refine ran_next ?_ ?_ (ih fun i => types i.succ) args
      · intro args args' hfirst
        simp only [ran, decodeParts, hfirst, Option.isSome_none]
      · intro args args' value hfirst
        generalize hrest : decodeParts n (fun i => argDecode (types i.succ)) args' = rest
        obtain ⟨args'', values⟩ := rest
        rw [ran_eq hrest]
        cases values <;> simp only [ran, decodeParts, hfirst, hrest, Option.isSome_none,
          Option.isSome_some]

/-- One type is a list of one. -/
theorem ran_single (t : ArgType) (args : ThunkArgs w) :
    ran (argDecode t) args = decodeTypes [t] args := by
  rw [decodeTypes]
  generalize hfirst : argDecode t args = first
  obtain ⟨args', value⟩ := first
  rw [ran_eq hfirst]
  cases value <;> rfl

/-- A pair is a list of two. -/
theorem ran_both (first second : ArgType) (args : ThunkArgs w) :
    ran (decodeBoth (argDecode first) (argDecode second)) args
      = decodeTypes [first, second] args := by
  refine ran_next ?_ ?_ (ran_single second) args
  · intro args args' hfirst
    simp only [ran, decodeBoth, hfirst, Option.isSome_none]
  · intro args args' value hfirst
    generalize hsecond : argDecode second args' = back
    obtain ⟨args'', other⟩ := back
    rw [ran_eq hsecond]
    cases other <;> simp only [ran, decodeBoth, hfirst, hsecond, Option.isSome_none,
      Option.isSome_some]

/-- The `reserve` of a vector. -/
def ArgType.reserving : ArgType → Nat → ThunkArgs w → ThunkArgs w
  | .vector _, n, args => args.reserve n
  | _, _, args => args

/-- Every container: its header, the check of the count, and the parts. -/
def decodeContainer (t : ArgType) (args : ThunkArgs w) : ThunkArgs w × Bool :=
  match header (asArray w) args.reader.rest with
  | none => (args.withReader args.reader.flagged, false)
  | some (n, k) =>
      match t.parts n with
      | none => (args.withReader (args.reader.advance k), false)
      | some ts => decodeTypes ts (t.reserving n (args.withReader (args.reader.advance k)))

/-- A vector is decoded as a container. -/
theorem ran_vector (element : ArgType) {args : ThunkArgs w} (herror : args.reader.error = false) :
    ran (argDecode (.vector element)) args = decodeContainer (.vector element) args := by
  unfold argDecode decodeVector decodeContainer ran
  simp only [readArray_eq, store_answerOf]
  cases header (asArray w) args.reader.rest with
  | none => rfl
  | some p =>
      have hnoError : (args.reader.advance p.2).error = false := herror
      simp only [hnoError, Bool.false_eq_true, if_false]
      exact ran_elements element p.1 _

/-- The containers with a fixed number of parts. -/
theorem ran_expectArray {t : ArgType} {n : Nat} {ts : List ArgType} {next : Decoder w α}
    (hparts : ∀ m, t.parts m = if m = n then some ts else none)
    (hreserving : ∀ m (args : ThunkArgs w), t.reserving m args = args)
    (hnext : ∀ args, ran next args = decodeTypes ts args) {args : ThunkArgs w}
    (herror : args.reader.error = false) :
    ran (expectArray n next) args = decodeContainer t args := by
  unfold expectArray decodeContainer ran
  simp only [readArray_eq, store_answerOf]
  cases header (asArray w) args.reader.rest with
  | none => simp only [flagged, true_or, if_true, Option.isSome_none]
  | some p =>
      have hnoError : (args.reader.advance p.2).error = false := herror
      simp only [hnoError, Bool.false_eq_true, false_or, hparts, hreserving]
      by_cases hcount : p.1 = n
      · simp only [hcount, ne_eq, not_true_eq_false, if_false, if_true]
        exact hnext _
      · simp only [hcount, ne_eq, not_false_eq_true, if_true, if_false, Option.isSome_none]

/-- Only a vector makes room, for what its header says. -/
theorem mem_reserving (t : ArgType) (n : Nat) (args : ThunkArgs w) (asked : Reservation) :
    asked ∈ (t.reserving n args).reserved ↔ asked ∈ args.reserved ∨
      t.IsVector ∧ asked.count = n ∧ asked.left = args.reader.remaining := by
  cases t with
  | vector element =>
      show asked ∈ args.reserved ++ [⟨n, args.reader.remaining⟩] ↔ _
      rw [List.mem_append, List.mem_singleton]
      obtain ⟨count, left⟩ := asked
      simp [ArgType.IsVector]
  | _ => simp [ArgType.reserving, ArgType.IsVector]

/-- Nothing else changes. -/
theorem reserving_behind (t : ArgType) (n : Nat) {args args' : ThunkArgs w} {k need : Nat}
    (h : PastParams args k need args') : PastParams args k need (t.reserving n args') := by
  cases t with
  | vector element => exact ⟨h.reader_eq, h.used_eq, h.length_eq⟩
  | _ => exact h

/-- `Args` behind a header, with the record of the `reserve`. -/
theorem reserving_header (t : ArgType) (n k : Nat) (args : ThunkArgs w) :
    PastParams args k 0 (t.reserving n (args.withReader (args.reader.advance k))) :=
  reserving_behind t n ⟨rfl, rfl, rfl⟩

/-- The room that a container asks for: its own, and that of its parts. -/
theorem reserves_container {t : ArgType} (hvector : t.IsVector → ∀ n, t.parts n ≠ none)
    (hrun : ∀ args : ThunkArgs w, args.reader.error = false →
      ran (argDecode t) args = decodeContainer t args)
    (hparts : ∀ n ts, t.parts n = some ts →
      DecodesParams w (ArgFronts w ts) (VectorAmong w ts) (decodeTypes ts))
    (args : ThunkArgs w) (asked : Reservation) (herror : args.reader.error = false) :
    asked ∈ (ran (argDecode t) args).1.reserved ↔ asked ∈ args.reserved ∨
      VectorAt w t (args.scratch.length - args.scratchUsed) args.reader.rest asked.count
        asked.left := by
  -- The header decides, before any element is read.
  rw [hrun args herror]
  cases hheader : header (asArray w) args.reader.rest with
  | none =>
      rw [or_iff_left (not_vectorAt hheader)]
      simp only [decodeContainer, hheader]
      exact Iff.rfl
  | some p =>
      obtain ⟨n, k⟩ := p
      rw [vectorAt_iff hheader]
      have hbehind := reserving_header t n k args
      -- A type that does not take so many parts is refused, and a vector takes any number.
      cases hts : t.parts n with
      | none =>
          have hnot : ¬ t.IsVector := fun hv => hvector hv n hts
          simp only [decodeContainer, hheader, hts, hnot, false_and, reduceCtorEq, exists_false,
            or_false]
          exact Iff.rfl
      | some ts =>
          have hleft : (args.withReader (args.reader.advance k)).reader.remaining
              = args.reader.rest.length - k := by
            rw [remaining_eq, show (args.withReader (args.reader.advance k)).reader.rest = _ from
              rest_advance args.reader k, List.length_drop]
          -- The parts are read behind the header, with the room that is left.
          have hrest := (hparts n ts hts).reserves
            (t.reserving n (args.withReader (args.reader.advance k))) asked
            (by rw [hbehind.reader_eq]; exact herror)
          rw [mem_reserving, hleft, hbehind.reader_eq, hbehind.used_eq, hbehind.length_eq,
            Nat.add_zero, rest_advance, or_assoc] at hrest
          simp only [decodeContainer, hheader, hts, Option.some.injEq, exists_eq_left']
          exact hrest

/-- A container, given its parts. -/
theorem decodes_container {t : ArgType} (hbasic : ¬ t.Basic) (hstring : t ≠ .string)
    (hvector : t.IsVector → ∀ n, t.parts n ≠ none)
    (hrun : ∀ args : ThunkArgs w, args.reader.error = false →
      ran (argDecode t) args = decodeContainer t args)
    (hparts : ∀ n ts, t.parts n = some ts →
      DecodesParams w (ArgFronts w ts) (VectorAmong w ts) (decodeTypes ts)) :
    DecodesParams w (ArgFront w t) (VectorAt w t) (ran (argDecode t)) := by
  -- What a container takes, what is enough for it, and what it reserves.
  refine ⟨?_, ?_, reserves_container hvector hrun hparts⟩
  · intro args args' herror hran
    rw [hrun args herror, decodeContainer] at hran
    split at hran
    · cases hran
    · rename_i n k hheader
      split at hran
      · cases hran
      · rename_i ts hts
        have hbehind := reserving_header t n k args
        obtain ⟨j, need, hfronts, hroom, hbehind'⟩ := (hparts n ts hts).takes _ args'
          (by rw [hbehind.reader_eq]; exact herror) hran
        rw [hbehind.reader_eq, rest_advance] at hfronts
        rw [hbehind.used_eq, hbehind.length_eq, Nat.add_zero] at hroom
        have hall := hbehind.trans hbehind'
        rw [Nat.zero_add] at hall
        exact ⟨k + j, need, .container hheader hts hfronts, hroom, hall⟩
  · intro args i need herror hfront hroom
    cases hfront with
    | basic hb _ => exact absurd hb hbasic
    | string _ => exact absurd rfl hstring
    -- The header names a type of so many parts.
    | container hheader hts hfronts =>
        rename_i n k j ts
        have hbehind := reserving_header t n k args
        rw [← rest_advance, ← hbehind.reader_eq] at hfronts
        obtain ⟨args', hran, hbehind'⟩ := (hparts n ts hts).accepts _ j need
          (by rw [hbehind.reader_eq]; exact herror) hfronts
          (by rw [hbehind.used_eq, hbehind.length_eq, Nat.add_zero]; exact hroom)
        have hall := hbehind.trans hbehind'
        rw [Nat.zero_add] at hall
        refine ⟨args', ?_, hall⟩
        rw [hrun args herror, decodeContainer, hheader]
        simp only [hts, hran]

/-! ### Every type -/

/-- A C string reserves nothing. -/
theorem decodeCstr_reserved (args : ThunkArgs w) :
    (decodeCstr args).1.reserved = args.reserved := by
  unfold decodeCstr ThunkArgs.scratchAlloc
  dsimp only
  split
  · rfl
  · split
    · rename_i halloc
      split at halloc
      · cases halloc
        rfl
      · cases halloc
    · rename_i halloc
      split at halloc
      · cases halloc
      · cases halloc
        rfl

/-- Scalars and `const char*`. -/
theorem decodes_basic {t : ArgType} (hbasic : t.Basic) :
    DecodesParams w (ArgFront w t) (VectorAt w t) (ran (argDecode t)) := by
  -- A scalar has no parts.
  have hparts (n : Nat) : t.parts n = none := by
    cases t <;> first | rfl | exact hbasic.elim
  -- What is there can be taken, if the scratch has room.
  have haccepts (args : ThunkArgs w) (k need : Nat) (herror : args.reader.error = false)
      (hfront : ArgFront w t args.reader.rest k need)
      (hroom : args.scratchUsed + need ≤ args.scratch.length) :
      ∃ args', ran (argDecode t) args = (args', true) ∧ PastParams args k need args' := by
    cases hfront with
    | basic _ hthere =>
        obtain ⟨args', value, hdecode, htakes⟩ := argDecode_takes hbasic herror hthere hroom
        exact ⟨args', ran_eq hdecode, htakes.reader_eq, htakes.used_eq, htakes.length_eq⟩
    | string _ => exact hbasic.elim
    | container _ hts =>
        rw [hparts] at hts
        cases hts
  refine ⟨?_, haccepts, ?_⟩
  · -- What was taken was there.
    intro args args' herror hran
    have hok : (argDecode t args).2.isSome := congrArg Prod.snd hran
    by_cases htaken : ∃ param k, wireParam w t args.reader.rest = some (param, k) ∧
        args.scratchUsed + scratchSize t param ≤ args.scratch.length
    · obtain ⟨param, k, hthere, hroom⟩ := htaken
      obtain ⟨args'', hran', hbehind⟩ := haccepts args k _ herror (.basic hbasic hthere) hroom
      rw [hran] at hran'
      cases hran'
      exact ⟨k, _, .basic hbasic hthere, hroom, hbehind⟩
    · have hrefused := argDecode_refuses hbasic herror fun param k hthere =>
        Nat.lt_of_not_le fun hroom => htaken ⟨param, k, hthere, hroom⟩
      rw [hrefused] at hok
      cases hok
  · -- None of them reserves anything: a C string goes to the scratch.
    intro args asked herror
    have hsame : (argDecode t args).1.reserved = args.reserved := by
      cases t with
      | cstr => exact decodeCstr_reserved args
      | bool => rfl
      | int type => rfl
      | float => rfl
      | double => rfl
      | _ => exact hbasic.elim
    rw [or_iff_left]
    · show asked ∈ (argDecode t args).1.reserved ↔ _
      rw [hsame]
    · exact not_vectorAt_leaf (by cases t <;> first | exact id | exact hbasic.elim) hparts

/-- `std::string`. -/
theorem decodes_string : DecodesParams w (ArgFront w .string) (VectorAt w .string)
    (ran (argDecode .string)) := by
  -- A `std::string` is not copied to the scratch, so it takes no room.
  have hran (args : ThunkArgs w) (herror : args.reader.error = false) :
      ran (argDecode .string) args
        = (blob (asStr w) args.reader.rest).elim (args.withReader args.reader.flagged, false)
            fun s => (args.withReader (args.reader.advance s.2), true) := by
    have hread := readStr_answer args.reader ⟨0, 0⟩
    unfold ran argDecode decodeString
    cases hblob : blob (asStr w) args.reader.rest with
    | none =>
        rw [hblob] at hread
        simp only [hread, flagged, if_true, Option.isSome_none, Option.elim_none]
    | some s =>
        have hnoError : (args.reader.advance s.2).error = false := herror
        rw [hblob] at hread
        simp only [hread, hnoError, Bool.false_eq_true, if_false, Option.isSome_some,
          Option.elim_some]
  refine ⟨?_, ?_, ?_⟩
  · -- What was read was a string.
    intro args args' herror hok
    rw [hran args herror] at hok
    cases hblob : blob (asStr w) args.reader.rest with
    | none =>
        rw [hblob] at hok
        cases hok
    | some s =>
        rw [hblob] at hok
        cases hok
        exact ⟨s.2, 0, .string hblob, args.used_le, rfl, rfl, rfl⟩
  · -- A string is read.
    intro args k need herror hfront _
    cases hfront with
    | basic hbasic _ => exact hbasic.elim
    | string hblob =>
        refine ⟨args.withReader (args.reader.advance k), ?_, rfl, rfl, rfl⟩
        rw [hran args herror, hblob]
        rfl
    | container _ hts => cases hts
  · -- And nothing is reserved for it.
    intro args asked herror
    rw [hran args herror, or_iff_left (not_vectorAt_leaf id fun n => rfl)]
    cases blob (asStr w) args.reader.rest with
    | none => exact Iff.rfl
    | some s => exact Iff.rfl

/-- Every decoder, from its parts. -/
theorem decodes_argDecode (t : ArgType) :
    DecodesParams w (ArgFront w t) (VectorAt w t) (ran (argDecode t)) := by
  -- By induction on the type.
  induction t with
  | string => exact decodes_string
  | vector element ih =>
      -- A vector takes any number of elements.
      refine decodes_container id (by intro h; cases h) (fun _ n h => by cases h)
        (fun args herror => ran_vector element herror) ?_
      intro n ts hts
      cases hts
      refine decodes_types ?_
      intro u hu
      rw [List.eq_of_mem_replicate hu]
      exact ih
  | array element size ih =>
      have hrun (args : ThunkArgs w) :
          ran (decodeParts size fun _ => argDecode element) args
            = decodeTypes (List.replicate size element) args := by
        rw [ran_parts fun _ => element, List.ofFn_const]
      refine decodes_container id (by intro h; cases h) (fun h => h.elim)
        (fun args herror => ran_expectArray ?_ (fun _ _ => rfl) hrun herror) ?_
      · -- An array takes as many as its size.
        intro m
        by_cases hm : m = size
        · rw [ArgType.parts, if_pos hm, if_pos hm, hm]
        · rw [ArgType.parts, if_neg hm, if_neg hm]
      · intro n ts hts
        rw [ArgType.parts, Option.ite_none_right_eq_some, Option.some.injEq] at hts
        obtain ⟨-, rfl⟩ := hts
        refine decodes_types ?_
        intro u hu
        rw [List.eq_of_mem_replicate hu]
        exact ih
  | pair first second ihFirst ihSecond =>
      refine decodes_container id (by intro h; cases h) (fun h => h.elim)
        (fun args herror => ran_expectArray (fun _ => rfl) (fun _ _ => rfl)
          (ran_both first second) herror) ?_
      -- A pair takes two.
      intro n ts hts
      rw [ArgType.parts, Option.ite_none_right_eq_some, Option.some.injEq] at hts
      obtain ⟨-, rfl⟩ := hts
      refine decodes_types ?_
      intro u hu
      rcases List.mem_pair.mp hu with rfl | rfl
      · exact ihFirst
      · exact ihSecond
  | tuple size element ih =>
      refine decodes_container id (by intro h; cases h) (fun h => h.elim)
        (fun args herror => ran_expectArray (fun _ => rfl) (fun _ _ => rfl) (ran_parts element)
          herror) ?_
      -- A tuple takes one of each of its types.
      intro n ts hts
      rw [ArgType.parts, Option.ite_none_right_eq_some, Option.some.injEq] at hts
      obtain ⟨-, rfl⟩ := hts
      refine decodes_types ?_
      intro u hu
      obtain ⟨i, rfl⟩ := List.mem_ofFn.mp hu
      exact ih i
  -- The scalars.
  | _ => exact decodes_basic trivial

end SerialRpc
