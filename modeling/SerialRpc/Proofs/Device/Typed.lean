import SerialRpc.Device.Typed
import SerialRpc.Proofs.Device.Requests

/-!
# `SerialRpc.Proofs.Device.Typed`: typed thunks call with all parameters, or not at all

* `wireParams`: the parameters of scalar and string types that stand at the front of some
  bytes, read off the format alone.
* `Receives`: how the values of a call and the scratch buffer show these parameters.
* `decodeCall_takes`, `decodeCall_refuses`: the recursion of `Decode`, with the scratch buffer in
  the invariant.
* `typed_thunk_calls`: when the callable runs, how often, and on what.
-/

set_option autoImplicit false

namespace SerialRpc

open MsgPack Reader

variable {w : SizeT} {ρ σ β : Type}

/-! ### Parameters on the wire -/

namespace ArgType

/-- The scalar types and `const char*`. -/
def Basic : ArgType → Prop
  | bool | int _ | float | double | cstr => True
  | string | vector _ | array _ _ | pair _ _ | tuple _ _ => False

/-- What a parameter of a type is on the wire: a string is its bytes. -/
@[reducible] def Wire : ArgType → Type
  | cstr => List UInt8
  | t => t.Val

/-- One of them for each type of a parameter list. -/
@[reducible] def Wires : List ArgType → Type
  | [] => Unit
  | t :: ts => t.Wire × Wires ts

end ArgType

/-- An integer of some type. -/
def ArgInt.asBits (type : ArgInt) (t : Token) : Option (BitVec type.bits) :=
  if type.signed then
    (asInt (-(maxSigned type.bits : Int) - 1) (maxSigned type.bits) t).map (.ofInt type.bits)
  else (asNat (maxUnsigned type.bits) t).map (.ofNat type.bits)

/-- The parameter of a basic type at the front of some bytes, and its length. -/
def wireParam (w : SizeT) : (t : ArgType) → List UInt8 → Option (t.Wire × Nat)
  | .bool, bs => header asBool bs
  | .int type, bs => header type.asBits bs
  | .float, bs => header asFloat bs
  | .double, bs => header asDouble bs
  | .cstr, bs => (blob (asStr w) bs).map fun s => ((bs.drop s.1.1).take s.1.2, s.2)
  | .string, _ | .vector _, _ | .array _ _, _ | .pair _ _, _ | .tuple _ _, _ => none

/-- The parameters at the front of some bytes. -/
def wireParams (w : SizeT) : (ts : List ArgType) → List UInt8 → Option (ArgType.Wires ts)
  | [], _ => some ()
  | t :: ts, bs =>
      (wireParam w t bs).bind fun first =>
        (wireParams w ts (bs.drop first.2)).map fun rest => (first.1, rest)

/-- The scratch bytes of a parameter: a string and its terminator. -/
def scratchSize : (t : ArgType) → t.Wire → Nat
  | .cstr, s => s.length + 1
  | .bool, _ | .int _, _ | .float, _ | .double, _ | .string, _ | .vector _, _ | .array _ _, _
  | .pair _ _, _ | .tuple _ _, _ => 0

/-- The scratch bytes of all parameters together. -/
def scratchTotal : (ts : List ArgType) → ArgType.Wires ts → Nat
  | [], _ => 0
  | t :: ts, values => scratchSize t values.1 + scratchTotal ts values.2

/-- A value shows a parameter: it is equal to it, or points to its bytes and a NUL. -/
def ShowsParam (memory : List UInt8) (used : Nat) : (t : ArgType) → t.Wire → t.Val → Prop
  | .cstr, s, p => p = used ∧ (memory.drop used).take (s.length + 1) = s ++ [0]
  | .bool, v, value => value = v
  | .int _, v, value => value = v
  | .float, v, value => value = v
  | .double, v, value => value = v
  | .string, _, _ | .vector _, _, _ | .array _ _, _, _ | .pair _ _, _, _ | .tuple _ _, _, _ => False

/-- The values show the parameters, in order. From `used` on each string has the bytes
behind the strings in front of it. -/
def Receives (memory : List UInt8) : Nat → (ts : List ArgType) → ArgType.Wires ts →
    ArgType.Vals ts → Prop
  | _, [], _, _ => True
  | used, t :: ts, params, values =>
      ShowsParam memory used t params.1 values.1 ∧
        Receives memory (used + scratchSize t params.1) ts params.2 values.2

/-! ### One parameter -/

/-- A read whose result is converted. -/
theorem store_map {α γ : Type} (g : α → γ) (f : Token → Option α) (out : α) (r : Reader w) :
    ((store out (r.answerOf (header f))).1, g (store out (r.answerOf (header f))).2)
      = store (g out) (r.answerOf (header fun t => (f t).map g)) := by
  simp only [store_answerOf, header]
  cases token r.rest with
  | none => rfl
  | some h =>
      simp only [Option.bind_some]
      cases f h.1 with
      | none => rfl
      | some v => rfl

/-- A read into an integer type is atomic. -/
theorem ArgInt.read_eq (type : ArgInt) (r : Reader w) :
    type.read r = store (BitVec.ofNat type.bits 0) (r.answerOf (header type.asBits)) := by
  unfold ArgInt.read
  by_cases hsigned : type.signed = true
  · have hbits : type.asBits = fun t => (asInt (-(maxSigned type.bits : Int) - 1)
        (maxSigned type.bits) t).map (.ofInt type.bits) := by
      funext t
      rw [ArgInt.asBits, if_pos hsigned]
    rw [if_pos hsigned, readSigned_eq, hbits]
    exact store_map (BitVec.ofInt type.bits) _ 0 r
  · have hbits : type.asBits = fun t =>
        (asNat (maxUnsigned type.bits) t).map (.ofNat type.bits) := by
      funext t
      rw [ArgInt.asBits, if_neg hsigned]
    rw [if_neg hsigned, readUnsigned_eq, hbits]
    exact store_map (BitVec.ofNat type.bits) _ 0 r

/-- What the decoding of a parameter does to `Args`: the cursor moves behind it, and the
scratch bytes in use stay what they are. -/
structure TakesParam (args : ThunkArgs w) (t : ArgType) (param : t.Wire) (k : Nat)
    (args' : ThunkArgs w) (value : t.Val) : Prop where
  reader_eq : args'.reader = args.reader.advance k
  used_eq : args'.scratchUsed = args.scratchUsed + scratchSize t param
  length_eq : args'.scratch.length = args.scratch.length
  kept : args'.scratch.take args.scratchUsed = args.scratch.take args.scratchUsed
  shows : ShowsParam args'.scratch args.scratchUsed t param value

/-- A scalar parameter whose token the reader accepts is taken, and the reader moves past it. -/
theorem decodeScalar_takes {α : Type} {read : Reader w → Reader w × α} {f : Token → Option α}
    {out x : α} {k : Nat} (hread : ∀ r, read r = store out (r.answerOf (header f)))
    {args : ThunkArgs w} (herror : args.reader.error = false)
    (hparam : header f args.reader.rest = some (x, k)) :
    decodeScalar read args = (args.withReader (args.reader.advance k), some x) := by
  have hnoError : (args.reader.advance k).error = false := herror
  simp only [decodeScalar, hread, store_answerOf, hparam, hnoError, Bool.false_eq_true, if_false]

/-- A scalar parameter whose token the reader refuses is not taken. -/
theorem decodeScalar_refuses {α : Type} {read : Reader w → Reader w × α} {f : Token → Option α}
    {out : α} (hread : ∀ r, read r = store out (r.answerOf (header f))) {args : ThunkArgs w}
    (hparam : header f args.reader.rest = none) : (decodeScalar read args).2 = none := by
  simp only [decodeScalar, hread, store_answerOf, hparam, flagged, if_true]

/-- A scalar uses no scratch bytes. -/
theorem takes_scalar {t : ArgType} {param : t.Wire} {value : t.Val} (args : ThunkArgs w) (k : Nat)
    (hsize : scratchSize t param = 0)
    (hshows : ShowsParam args.scratch args.scratchUsed t param value) :
    TakesParam args t param k (args.withReader (args.reader.advance k)) value where
  reader_eq := rfl
  used_eq := by rw [hsize]; rfl
  length_eq := rfl
  kept := rfl
  shows := hshows

/-- Some bytes copied behind the bytes in use, where there is room for them. -/
theorem copied_scratch {scratch : List UInt8} {used : Nat} (bytes : List UInt8)
    (hroom : used + bytes.length ≤ scratch.length) :
    let copied := scratch.take used ++ (bytes ++ scratch.drop (used + bytes.length))
    copied.length = scratch.length ∧ copied.take used = scratch.take used ∧
      (copied.drop used).take bytes.length = bytes := by
  intro copied
  have hfront : (scratch.take used).length = used := List.length_take_of_le (by omega)
  refine ⟨?_, List.take_left' hfront, ?_⟩
  · show (scratch.take used ++ (bytes ++ scratch.drop (used + bytes.length))).length = _
    simp only [List.length_append, hfront, List.length_drop]
    omega
  · show ((scratch.take used ++ _).drop used).take bytes.length = _
    rw [List.drop_left' hfront, List.take_left]

/-- Scratch bytes are handed out where the buffer has room for them. -/
theorem scratchAlloc_fits {args : ThunkArgs w} {len : Nat}
    (hroom : args.scratchUsed + len ≤ args.scratch.length) :
    args.scratchAlloc len
      = ({ args with scratchUsed := args.scratchUsed + len, used_le := hroom },
          some args.scratchUsed) :=
  dif_neg (Nat.not_lt_of_le hroom)

/-- Where it has none, nothing is handed out and nothing is claimed. -/
theorem scratchAlloc_full {args : ThunkArgs w} {len : Nat}
    (hroom : args.scratch.length < args.scratchUsed + len) :
    args.scratchAlloc len = (args, none) :=
  dif_pos hroom

/-- The bytes of a string are as many as its header says. -/
theorem blob_bytes_length {f : Token → Option Nat} {bs : List UInt8} {s : (Nat × Nat) × Nat}
    (h : blob f bs = some s) : ((bs.drop s.1.1).take s.1.2).length = s.1.2 := by
  obtain ⟨-, hlength, hsum⟩ := blob_length h
  rw [List.length_take, List.length_drop]
  omega

/-- `Args` behind a string, with the bytes for it claimed. -/
def claimed (args : ThunkArgs w) (s : (Nat × Nat) × Nat)
    (hroom : args.scratchUsed + (s.1.2 + 1) ≤ args.scratch.length) : ThunkArgs w :=
  { args.withReader (args.reader.advance s.2) with
    scratchUsed := args.scratchUsed + (s.1.2 + 1)
    used_le := hroom }

/-- A string that fits the scratch buffer is copied there with its terminator. -/
theorem decodeCstr_eq {args : ThunkArgs w} (herror : args.reader.error = false)
    {s : (Nat × Nat) × Nat} (hparam : blob (asStr w) args.reader.rest = some s)
    (hroom : args.scratchUsed + (s.1.2 + 1) ≤ args.scratch.length) :
    decodeCstr args
      = ((claimed args s hroom).copyTo args.scratchUsed
          ((args.reader.rest.drop s.1.1).take s.1.2 ++ [0]), some args.scratchUsed) := by
  have hread := readStr_answer args.reader ⟨0, 0⟩
  have hbytes := bytes_spanAt args.reader s.2 s.1
  have hnoError : (args.reader.advance s.2).error = false := herror
  have hlen : (spanAt args.reader.pos s.1).len = s.1.2 := rfl
  have halloc :=
    @scratchAlloc_fits _ (args.withReader (args.reader.advance s.2)) (s.1.2 + 1) hroom
  rw [hparam] at hread
  simp only [decodeCstr, hread, hnoError, Bool.false_eq_true, if_false, hbytes, hlen, halloc]
  rfl

/-- A string that fits is taken: the pointer handed to the handler reads back as its bytes. -/
theorem decodeCstr_takes {args : ThunkArgs w} (herror : args.reader.error = false)
    {s : (Nat × Nat) × Nat} (hparam : blob (asStr w) args.reader.rest = some s)
    (hroom : args.scratchUsed + (s.1.2 + 1) ≤ args.scratch.length) :
    ∃ args' value, decodeCstr args = (args', some value) ∧
      TakesParam args .cstr ((args.reader.rest.drop s.1.1).take s.1.2) s.2 args' value := by
  refine ⟨_, _, decodeCstr_eq herror hparam hroom, ?_⟩
  have hlength := blob_bytes_length hparam
  generalize (args.reader.rest.drop s.1.1).take s.1.2 = bytes at hlength
  have hcount : (bytes ++ [0]).length = bytes.length + 1 := List.length_append
  -- What `scratch_alloc` gave is filled, and nothing in front of it.
  obtain ⟨hsame, hkept, hcopied⟩ := copied_scratch (bytes ++ [0])
    (show args.scratchUsed + (bytes ++ [0]).length ≤ args.scratch.length by omega)
  refine ⟨rfl, ?_, hsame, hkept, rfl, ?_⟩
  · show args.scratchUsed + (s.1.2 + 1) = args.scratchUsed + (bytes.length + 1)
    rw [hlength]
  · rw [← hcount]
    exact hcopied

/-- A string that does not fit, terminator included, is refused, and so is any other token. -/
theorem decodeCstr_refuses {args : ThunkArgs w} (herror : args.reader.error = false)
    (hparam : ∀ s, blob (asStr w) args.reader.rest = some s →
      args.scratch.length < args.scratchUsed + (s.1.2 + 1)) :
    (decodeCstr args).2 = none := by
  have hread := readStr_answer args.reader ⟨0, 0⟩
  cases hblob : blob (asStr w) args.reader.rest with
  | none =>
      rw [hblob] at hread
      simp only [decodeCstr, hread, flagged, if_true]
  | some s =>
      have hnoError : (args.reader.advance s.2).error = false := herror
      have hlen : (spanAt args.reader.pos s.1).len = s.1.2 := rfl
      have halloc := @scratchAlloc_full _ (args.withReader (args.reader.advance s.2)) (s.1.2 + 1)
        (hparam s hblob)
      rw [hblob] at hread
      simp only [decodeCstr, hread, hnoError, Bool.false_eq_true, if_false, hlen, halloc]

/-- A parameter is decoded when its string has room in the scratch buffer. -/
theorem argDecode_takes {t : ArgType} (hbasic : t.Basic) {args : ThunkArgs w}
    (herror : args.reader.error = false) {param : t.Wire} {k : Nat}
    (hparam : wireParam w t args.reader.rest = some (param, k))
    (hroom : args.scratchUsed + scratchSize t param ≤ args.scratch.length) :
    ∃ args' value, argDecode t args = (args', some value) ∧
      TakesParam args t param k args' value := by
  -- A scalar is taken where its reader accepts, and a string where the scratch has room for it.
  cases t with
  | bool =>
      exact ⟨_, _, decodeScalar_takes (fun r => readBool_eq r false) herror hparam,
        takes_scalar args k rfl rfl⟩
  | int type =>
      exact ⟨_, _, decodeScalar_takes type.read_eq herror hparam, takes_scalar args k rfl rfl⟩
  | float =>
      exact ⟨_, _, decodeScalar_takes (fun r => readFloat_eq r 0) herror hparam,
        takes_scalar args k rfl rfl⟩
  | double =>
      exact ⟨_, _, decodeScalar_takes (fun r => readDouble_eq r 0) herror hparam,
        takes_scalar args k rfl rfl⟩
  | cstr =>
      obtain ⟨s, hblob, hs⟩ := Option.map_eq_some_iff.mp hparam
      cases hs
      have hbytes := blob_bytes_length hblob
      have hsize : scratchSize .cstr ((args.reader.rest.drop s.1.1).take s.1.2) = s.1.2 + 1 := by
        rw [scratchSize, hbytes]
      rw [hsize] at hroom
      exact decodeCstr_takes herror hblob hroom
  | _ => exact hbasic.elim

/-- A parameter of another type, or a string without room, is refused. -/
theorem argDecode_refuses {t : ArgType} (hbasic : t.Basic) {args : ThunkArgs w}
    (herror : args.reader.error = false)
    (hparam : ∀ param k, wireParam w t args.reader.rest = some (param, k) →
      args.scratch.length < args.scratchUsed + scratchSize t param) :
    (argDecode t args).2 = none := by
  -- A scalar needs no room, so it was not there at all.
  have hscalar (hsize : ∀ param, scratchSize t param = 0) :
      wireParam w t args.reader.rest = none := by
    cases hfound : wireParam w t args.reader.rest with
    | none => rfl
    | some found =>
        have hroom := hparam found.1 found.2 hfound
        rw [hsize] at hroom
        exact absurd args.used_le (Nat.not_le_of_lt hroom)
  cases t with
  | bool => exact decodeScalar_refuses (fun r => readBool_eq r false) (hscalar fun _ => rfl)
  | int type => exact decodeScalar_refuses type.read_eq (hscalar fun _ => rfl)
  | float => exact decodeScalar_refuses (fun r => readFloat_eq r 0) (hscalar fun _ => rfl)
  | double => exact decodeScalar_refuses (fun r => readDouble_eq r 0) (hscalar fun _ => rfl)
  | cstr =>
      refine decodeCstr_refuses herror ?_
      intro s hblob
      have hroom := hparam _ _ (show wireParam w .cstr args.reader.rest = some (_, s.2) by
        rw [wireParam, hblob]
        rfl)
      rwa [scratchSize, blob_bytes_length hblob] at hroom
  | _ => exact hbasic.elim

/-! ### All parameters -/

/-- What a value shows lies in the scratch bytes up to its own end. -/
theorem ShowsParam.of_take {memory memory' : List UInt8} {used : Nat} {t : ArgType} {param : t.Wire}
    {value : t.Val} (h : ShowsParam memory used t param value)
    (hsame : memory'.take (used + scratchSize t param) = memory.take (used + scratchSize t param)) :
    ShowsParam memory' used t param value := by
  cases t with
  | cstr =>
      obtain ⟨hpointer, hbytes⟩ := h
      refine ⟨hpointer, ?_⟩
      have hdrop := congrArg (List.drop used) hsame
      rw [List.drop_take, List.drop_take, scratchSize, Nat.add_sub_cancel_left, hbytes] at hdrop
      exact hdrop
  | _ => exact h

/-- A front that two buffers share is shared by its own front. -/
theorem take_of_take {memory memory' : List UInt8} {m n : Nat}
    (h : memory'.take n = memory.take n) (hm : m ≤ n) : memory'.take m = memory.take m := by
  have htake := congrArg (List.take m) h
  rwa [List.take_take, List.take_take, Nat.min_eq_left hm] at htake

/-- With all parameters there and room for the strings, `fn` gets every one of them. -/
theorem decodeCall_takes (ts : List ArgType) (hbasic : ∀ t ∈ ts, t.Basic)
    (fn : ArgType.Vals ts → ThunkArgs w → β) {args : ThunkArgs w}
    (herror : args.reader.error = false) {params : ArgType.Wires ts}
    (hparams : wireParams w ts args.reader.rest = some params)
    (hroom : args.scratchUsed + scratchTotal ts params ≤ args.scratch.length) :
    ∃ values args', decodeCall ts fn args = some (fn values args') ∧
      args'.scratch.length = args.scratch.length ∧
      args'.scratch.take args.scratchUsed = args.scratch.take args.scratchUsed ∧
      Receives args'.scratch args.scratchUsed ts params values := by
  induction ts generalizing args with
  | nil => exact ⟨(), args, rfl, rfl, rfl, trivial⟩
  | cons t ts ih =>
      obtain ⟨⟨param, k⟩, hparam, hrest⟩ := Option.bind_eq_some_iff.mp hparams
      obtain ⟨rest, hwires, hsplit⟩ := Option.map_eq_some_iff.mp hrest
      cases hsplit
      change args.scratchUsed + (scratchSize t param + scratchTotal ts rest) ≤ _ at hroom
      obtain ⟨args', value, hdecode, htakes⟩ := argDecode_takes (hbasic t (List.mem_cons_self ..))
        herror hparam (by omega)
      have hfollowing : wireParams w ts args'.reader.rest = some rest := by
        rw [htakes.reader_eq, rest_advance]
        exact hwires
      have hroom' : args'.scratchUsed + scratchTotal ts rest ≤ args'.scratch.length := by
        rw [htakes.used_eq, htakes.length_eq]
        omega
      obtain ⟨values, args'', hcall, hlength, hkept, hreceives⟩ :=
        ih (fun u hu => hbasic u (List.mem_cons_of_mem t hu))
          (fun values args => fn (value, values) args)
          (by rw [htakes.reader_eq]; exact herror) hfollowing hroom'
      -- The later strings lie behind the scratch bytes of this parameter.
      rw [htakes.used_eq] at hkept hreceives
      refine ⟨(value, values), args'', ?_, hlength.trans htakes.length_eq, ?_, ?_, hreceives⟩
      · simp only [decodeCall, hdecode]
        exact hcall
      · exact (take_of_take hkept (Nat.le_add_right _ _)).trans htakes.kept
      · exact htakes.shows.of_take hkept

/-- Otherwise some parameter is refused, and `fn` is not called. -/
theorem decodeCall_refuses (ts : List ArgType) (hbasic : ∀ t ∈ ts, t.Basic)
    (fn : ArgType.Vals ts → ThunkArgs w → β) {args : ThunkArgs w}
    (herror : args.reader.error = false)
    (hparams : ∀ params, wireParams w ts args.reader.rest = some params →
      args.scratch.length < args.scratchUsed + scratchTotal ts params) :
    decodeCall ts fn args = none := by
  -- By induction on the parameters: the first one that is refused ends the call.
  induction ts generalizing args with
  | nil =>
      have hused := hparams () rfl
      exact absurd args.used_le (Nat.not_le_of_lt hused)
  | cons t ts ih =>
      have hfirst := hbasic t (List.mem_cons_self ..)
      by_cases htaken : ∃ param k, wireParam w t args.reader.rest = some (param, k) ∧
          args.scratchUsed + scratchSize t param ≤ args.scratch.length
      · -- This parameter is decoded, so it is a later one.
        obtain ⟨param, k, hparam, hroom⟩ := htaken
        obtain ⟨args', value, hdecode, htakes⟩ := argDecode_takes hfirst herror hparam hroom
        simp only [decodeCall, hdecode]
        refine ih (fun u hu => hbasic u (List.mem_cons_of_mem t hu)) _
          (by rw [htakes.reader_eq]; exact herror) ?_
        intro rest hrest
        rw [htakes.reader_eq, rest_advance] at hrest
        have hall := hparams (param, rest) (by
          rw [wireParams, hparam, Option.bind_some]
          simp only [hrest, Option.map_some])
        have htotal : scratchTotal (t :: ts) (param, rest)
            = scratchSize t param + scratchTotal ts rest := rfl
        rw [htakes.used_eq, htakes.length_eq]
        omega
      · -- This parameter is refused, and those behind it are never looked at.
        have hrefused : (argDecode t args).2 = none := by
          refine argDecode_refuses hfirst herror ?_
          intro param k hparam
          by_contra hroom
          exact htaken ⟨param, k, hparam, Nat.le_of_not_lt hroom⟩
        generalize hdecode : argDecode t args = decoded at hrefused
        obtain ⟨args', value⟩ := decoded
        obtain rfl : value = none := hrefused
        simp only [decodeCall, hdecode]

/-! ### Thunks -/

/-- Mapping a script's value twice is mapping it once. -/
theorem Script.map_map {α γ : Type} (f : α → β) (g : β → γ) (script : Script α) :
    (script.map f).map g = script.map fun a => g (f a) := by
  induction script with
  | done a => rfl
  | notify name args next ih => exact congrArg (Script.notify name args) (funext ih)
  | log bytes next ih => exact congrArg (Script.log bytes) ih
  | logAt level next ih => exact congrArg (Script.logAt level) ih
  | attached next ih => exact congrArg Script.attached (funext ih)

/-- A callable that records its calls in the state of the sketch: the values, and the
scratch buffer as it is when the call starts. -/
def recording {ts : List ArgType} (fn : Callable ts ρ σ) :
    Callable ts ρ (σ × List (ArgType.Vals ts × List UInt8)) := fun values memory sketch =>
  (fn values memory sketch.1).map fun result =>
    (result.1, result.2, sketch.2 ++ [(values, memory)])

/-- A parameter array that a thunk accepts. -/
structure AcceptsParams (ts : List ArgType) (args : Args w) (params : ArgType.Wires ts) : Prop where
  count : args.size = ts.length
  there : wireParams w ts args.reader.rest = some params
  room : scratchTotal ts params ≤ kStrScratchSize

/-- What a thunk does with the parameters it accepts, and with all others. -/
theorem typedThunk_eq (ts : List ArgType) (hbasic : ∀ t ∈ ts, t.Basic) (pack : ρ → List PackOp)
    (fn : Callable ts ρ σ) {scratch : List UInt8} (hscratch : scratch.length = kStrScratchSize)
    {args : Args w} (herror : args.reader.error = false) (sketch : σ) :
    (∀ params, AcceptsParams ts args params →
      ∃ values memory, memory.length = kStrScratchSize ∧ Receives memory 0 ts params values ∧
        typedThunk scratch ts pack fn args sketch = invokeCall pack fn values memory sketch) ∧
    ((¬ ∃ params, AcceptsParams ts args params) →
      typedThunk scratch ts pack fn args sketch = .done (badArgs, sketch)) := by
  refine ⟨?_, ?_⟩
  · -- All parameters are there and fit the scratch, so the handler is called with them.
    intro params haccepts
    obtain ⟨hcount, hthere, hroom⟩ := haccepts
    rw [← hscratch] at hroom
    obtain ⟨values, args', hcall, hlength, -, hreceives⟩ := decodeCall_takes ts hbasic
      (fun values args => invokeCall pack fn values args.scratch sketch)
      (show (ThunkArgs.new args scratch).reader.error = false from herror) hthere
      (show 0 + scratchTotal ts params ≤ scratch.length by omega)
    refine ⟨values, args'.scratch, hlength.trans hscratch, hreceives, ?_⟩
    simp only [typedThunk, hcount, ne_eq, not_true_eq_false, if_false, hcall]
  · -- The wrong number of parameters, or one that is refused.
    intro hrejected
    by_cases hcount : args.size = ts.length
    · have hcall := decodeCall_refuses ts hbasic
        (fun values args => invokeCall pack fn values args.scratch sketch)
        (show (ThunkArgs.new args scratch).reader.error = false from herror) (by
          intro params hthere
          by_contra hroom
          have hfits : scratchTotal ts params ≤ scratch.length := by
            have hle := Nat.le_of_not_lt hroom
            exact Nat.zero_add (scratchTotal ts params) ▸ hle
          exact hrejected ⟨params, hcount, hthere, hscratch ▸ hfits⟩)
      simp only [typedThunk, hcount, ne_eq, not_true_eq_false, if_false, hcall]
    · simp only [typedThunk, ne_eq, hcount, not_false_eq_true, if_true]

/-- All or nothing. With parameters it accepts a thunk runs the callable exactly once, and
packs the result. With any others the callable does not run, and the reply is "bad args". -/
theorem typed_thunk_calls {sz : ServerSize} (ts : List ArgType) (hbasic : ∀ t ∈ ts, t.Basic)
    (pack : ρ → List PackOp) (fn : Callable ts ρ σ) (scratch : List UInt8)
    (hscratch : scratch.length = kStrScratchSize) (args : Args sz.sizeT)
    (herror : args.reader.error = false) :
    let thunk := typedThunk scratch ts pack (recording fn)
    (∀ params, AcceptsParams ts args params → ∀ sketch calls,
      ∃ values memory, memory.length = kStrScratchSize ∧ Receives memory 0 ts params values ∧
        thunk args (sketch, calls)
          = (fn values memory sketch).map fun result =>
              (⟨pack result.1, none⟩, result.2, calls ++ [(values, memory)])) ∧
    ((¬ ∃ params, AcceptsParams ts args params) →
      (∀ sketch calls, thunk args (sketch, calls) = .done (badArgs, sketch, calls)) ∧
      ∀ (s : Server sz (σ × List (ArgType.Vals ts × List UInt8))) (reply : Reply),
        s.invoke thunk args reply
          = ({ s with invoked := s.invoked ++ [⟨thunk, args, badArgs⟩] },
              { reply with error := some (text "bad args") })) ∧
    ∀ (ω : Type) (obj : ω) (mfn : ω → Callable ts ρ σ), mfn obj = fn →
      memberThunk scratch ts pack obj (fun obj => recording (mfn obj)) = thunk := by
  intro thunk
  have heq (sketch : σ) (calls : List (ArgType.Vals ts × List UInt8)) :=
    typedThunk_eq ts hbasic pack (recording fn) hscratch herror (sketch, calls)
  refine ⟨?_, ?_, ?_⟩
  · -- What the thunk logs is the call of the handler.
    intro params haccepts sketch calls
    obtain ⟨values, memory, hlength, hreceives, hthunk⟩ := (heq sketch calls).1 params haccepts
    refine ⟨values, memory, hlength, hreceives, ?_⟩
    rw [show thunk args (sketch, calls) = _ from hthunk, invokeCall, recording, Script.map_map]
  · -- A call that is refused leaves the sketch and the record alone.
    intro hrejected
    have hdone (sketch : σ) (calls : List (ArgType.Vals ts × List UInt8)) :
        thunk args (sketch, calls) = .done (badArgs, sketch, calls) :=
      (heq sketch calls).2 hrejected
    refine ⟨hdone, ?_⟩
    intro s reply
    simp only [Server.invoke, hdone s.sketch.1 s.sketch.2, Server.run]
    rfl
  · -- A member function is called as the function that was made of it.
    intro ω obj mfn hmfn
    rw [memberThunk, hmfn]

/-- `void f(int16_t, const char*, const char*)`. -/
def greeting : List ArgType := [.int ⟨true, 16, by decide, SizeT.host64.sixteen_le⟩, .cstr, .cstr]

/-- `[-100, "hi", "yo"]` is accepted, and one string alone is not. -/
theorem typed_thunk_calls_greeting :
    let thunk := typedThunk (w := .avr) (List.replicate kStrScratchSize 0) greeting
      (fun _ => [.nil]) (recording fun _ _ sketch => .done ((), sketch))
    (∃ values memory, Receives memory 0 greeting (-100, [0x68, 0x69], [0x79, 0x6f], ()) values ∧
      thunk ⟨Reader.new .avr [0xd0, 0x9c, 0xa2, 0x68, 0x69, 0xa2, 0x79, 0x6f], 3⟩ ((), [])
        = .done (⟨[.nil], none⟩, (), [(values, memory)])) ∧
    thunk ⟨Reader.new .avr [0xa2, 0x68, 0x69], 1⟩ ((), []) = .done (badArgs, (), []) := by
  intro thunk
  -- The three parameters are scalars and strings.
  have hbasic : ∀ t ∈ greeting, t.Basic := by
    intro t ht
    simp only [greeting, List.mem_cons, List.not_mem_nil, or_false] at ht
    rcases ht with rfl | rfl | rfl <;> trivial
  have hcalls (args : Args .avr) (herror : args.reader.error = false) :=
    @typed_thunk_calls _ _ Server.small greeting hbasic (fun _ => [.nil])
      (fun _ _ (sketch : Unit) => .done ((), sketch)) (List.replicate kStrScratchSize 0) rfl args
      herror
  refine ⟨?_, ?_⟩
  · -- Three parameters, as they were declared.
    obtain ⟨values, memory, -, hreceives, hthunk⟩ :=
      (hcalls ⟨Reader.new .avr [0xd0, 0x9c, 0xa2, 0x68, 0x69, 0xa2, 0x79, 0x6f], 3⟩ rfl).1
        (-100, [0x68, 0x69], [0x79, 0x6f], ()) ⟨rfl, rfl, by decide⟩ () []
    exact ⟨values, memory, hreceives, hthunk⟩
  · -- One parameter instead of three.
    refine ((hcalls ⟨Reader.new .avr [0xa2, 0x68, 0x69], 1⟩ rfl).2.1 ?_).1 () []
    intro haccepts
    obtain ⟨params, hcount, -, -⟩ := haccepts
    exact absurd hcount (by decide)

end SerialRpc
