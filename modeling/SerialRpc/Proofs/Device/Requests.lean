import SerialRpc.Proofs.Device.Listing
import SerialRpc.Proofs.Msgpack.Reader

/-!
# `SerialRpc.Proofs.Device.Requests`: what a payload asks of the device

`readIncoming` sorts payloads: a request, a notification, or something else.
`handleFrame_eq` says what `handle_frame_` does with each, and `readIncoming_request` and
its companions tie the sorting to the wire format (`Request`, `Notification`).

* `handleFrame_answers`: a request gets exactly one response, well formed, a notification
  none, and anything else is counted.
-/

set_option autoImplicit false

namespace SerialRpc

open MsgPack Reader

/-! ### The wire format -/

/-- A call, from its method on: a string, the header of an array, and the parameters, with
lengths that `size_t` can hold. -/
inductive Call (w : SizeT) (method : List UInt8) (count : Nat) (params : List UInt8) :
    List UInt8 → Prop where
  | mk {len head : List UInt8} (string : Spells (.str method.length) len)
      (array : Spells (.array count) head) (method_fits : method.length ≤ w.max)
      (count_fits : count ≤ w.max) : Call w method count params (len ++ method ++ (head ++ params))

/-- `[0, msgid, method, params…`. -/
inductive Request (w : SizeT) (msgid : Nat) (method : List UInt8) (count : Nat)
    (params : List UInt8) : List UInt8 → Prop where
  | mk {head type id rest : List UInt8} (four : Spells (.array 4) head)
      (zero : Spells (.int 0) type) (same : Spells (.int msgid) id) (msgid_lt : msgid < 2 ^ 32)
      (call : Call w method count params rest) :
      Request w msgid method count params (head ++ (type ++ (id ++ rest)))

/-- `[2, method, params…`. -/
inductive Notification (w : SizeT) (method : List UInt8) (count : Nat) (params : List UInt8) :
    List UInt8 → Prop where
  | mk {head type rest : List UInt8} (three : Spells (.array 3) head)
      (two : Spells (.int 2) type) (call : Call w method count params rest) :
      Notification w method count params (head ++ (type ++ rest))

/-! ### Sorting payloads -/

/-- What a payload asks for. -/
inductive Incoming (w : SizeT) where
  | request (msgid : Nat) (method : List UInt8) (args : Args w)
  | notification (method : List UInt8) (args : Args w)
  | malformed

/-- The method and the number of parameters, and the length up to the first of them. -/
def callHead (w : SizeT) (bs : List UInt8) : Option ((List UInt8 × Nat) × Nat) :=
  (blob (asStr w) bs).bind fun s =>
    (header (asArray w) (bs.drop s.2)).map fun count =>
      (((bs.drop s.1.1).take s.1.2, count.1), s.2 + count.2)

/-- The array header and the message type, and their length. -/
def frameHead (sz : ServerSize) (payload : List UInt8) : Option ((Nat × Int) × Nat) :=
  (header (asArray sz.sizeT) payload).bind fun count =>
    (header (asInt (-(maxSigned sz.intBits : Nat) - 1) (maxSigned sz.intBits))
      (payload.drop count.2)).map fun type => ((count.1, type.1), count.2 + type.2)

/-- The reader and the count a handler gets. -/
def argsAt (w : SizeT) (payload : List UInt8) (pos count : Nat) : Args w :=
  ⟨⟨payload, pos, false⟩, count⟩

/-- The payload of a frame, sorted. -/
def readIncoming (sz : ServerSize) (payload : List UInt8) : Incoming sz.sizeT :=
  match frameHead sz payload with
  | some ((4, 0), k) =>
      match header (asNat (maxUnsigned 32)) (payload.drop k) with
      | some (msgid, j) =>
          match callHead sz.sizeT (payload.drop (k + j)) with
          | some ((method, count), i) =>
              .request msgid method (argsAt sz.sizeT payload (k + j + i) count)
          | none => .malformed
      | none => .malformed
  | some ((3, 2), k) =>
      match callHead sz.sizeT (payload.drop k) with
      | some ((method, count), i) =>
          .notification method (argsAt sz.sizeT payload (k + i) count)
      | none => .malformed
  | _ => .malformed

/-! ### The sorting follows the wire format -/

/-- A call is read as what it says. -/
theorem callHead_of_call {w : SizeT} {method params bs : List UInt8} {count : Nat}
    (h : Call w method count params bs) :
    ∃ k, callHead w bs = some ((method, count), k) ∧ bs.drop k = params := by
  obtain ⟨string, array, method_fits, count_fits⟩ := h
  rename_i len head
  refine ⟨(len ++ method).length + head.length, ?_, ?_⟩
  · rw [callHead, blob_of_spells string (asStr_eq_some.mpr ⟨rfl, method_fits⟩), Option.bind_some,
      List.drop_left, header_of_spells array (asArray_eq_some.mpr ⟨rfl, count_fits⟩),
      Option.map_some, List.append_assoc len, List.drop_left, List.take_left]
  · rw [← List.length_append, ← List.append_assoc, List.drop_left]

/-- What is read as a call is one. -/
theorem call_of_callHead {w : SizeT} {method bs : List UInt8} {count k : Nat}
    (h : callHead w bs = some ((method, count), k)) : Call w method count (bs.drop k) bs := by
  obtain ⟨s, hblob, hmap⟩ := Option.bind_eq_some_iff.mp h
  obtain ⟨⟨n, j⟩, hheader, hp⟩ := Option.map_eq_some_iff.mp hmap
  obtain ⟨t, len, body, more, hstr, string, rfl, rfl⟩ := spells_of_blob hblob
  obtain ⟨rfl, method_fits⟩ := asStr_eq_some.mp hstr
  rw [List.drop_left] at hheader
  obtain ⟨t', harray, array⟩ := spells_of_header hheader
  obtain ⟨rfl, count_fits⟩ := asArray_eq_some.mp harray
  simp only [List.drop_left, List.append_assoc len, List.take_left, Prod.mk.injEq] at hp
  obtain ⟨⟨rfl, rfl⟩, rfl⟩ := hp
  have hcall : Call w body n (more.drop j) (len ++ body ++ (more.take j ++ more.drop j)) :=
    .mk string array method_fits count_fits
  rwa [List.take_append_drop, ← List.drop_length_add_append] at hcall

/-- The head of a frame is read as what it says. -/
theorem frameHead_of_spells (sz : ServerSize) {n : Nat} {v : Int} {head type : List UInt8}
    (array : Spells (.array n) head) (hn : n < 2 ^ 16) (int : Spells (.int v) type)
    (hv : 0 ≤ v ∧ v < 2 ^ 15) (rest : List UInt8) :
    frameHead sz (head ++ (type ++ rest)) = some ((n, v), head.length + type.length) := by
  have hcount : asArray sz.sizeT (.array n) = some n := asLength_small sz.sizeT hn
  -- An `int` has at least 16 bits, so every message type fits.
  have htype : asInt (-(maxSigned sz.intBits : Nat) - 1) (maxSigned sz.intBits) (.int v)
      = some v := by
    have hpow := Nat.pow_le_pow_right (show 0 < 2 by omega)
      (show 15 ≤ sz.intBits - 1 by have := sz.sixteen_le_int; omega)
    refine asInt_eq_some.mpr ⟨rfl, ?_⟩
    unfold maxSigned
    generalize 2 ^ (sz.intBits - 1) = bound at *
    omega
  rw [frameHead, header_of_spells array hcount, Option.bind_some, List.drop_left,
    header_of_spells int htype, Option.map_some]

/-- What is read as the head of a frame is one. -/
theorem spells_of_frameHead {sz : ServerSize} {payload : List UInt8} {n k : Nat} {v : Int}
    (h : frameHead sz payload = some ((n, v), k)) :
    ∃ head type, payload = head ++ (type ++ payload.drop k) ∧ Spells (.array n) head ∧
      Spells (.int v) type := by
  obtain ⟨⟨n', i⟩, hcount, hmap⟩ := Option.bind_eq_some_iff.mp h
  obtain ⟨⟨v', j⟩, htype, hp⟩ := Option.map_eq_some_iff.mp hmap
  cases hp
  obtain ⟨t, harray, array⟩ := spells_of_header hcount
  obtain ⟨rfl, -⟩ := asArray_eq_some.mp harray
  obtain ⟨t', hint, int⟩ := spells_of_header htype
  obtain ⟨rfl, -⟩ := asInt_eq_some.mp hint
  refine ⟨payload.take i, (payload.drop i).take j, ?_, array, int⟩
  rw [← List.drop_drop, List.take_append_drop, List.take_append_drop]

/-- A request is sorted as one. -/
theorem readIncoming_request {sz : ServerSize} {msgid count : Nat}
    {method params payload : List UInt8}
    (h : Request sz.sizeT msgid method count params payload) :
    ∃ pos, readIncoming sz payload = .request msgid method (argsAt sz.sizeT payload pos count) ∧
      payload.drop pos = params := by
  obtain ⟨four, zero, same, msgid_lt, call⟩ := h
  rename_i head type id rest
  obtain ⟨k, hcall, hparams⟩ := callHead_of_call call
  have hhead := frameHead_of_spells sz four (by decide) zero (by decide) (id ++ rest)
  have hmsgid : asNat (maxUnsigned 32) (.int msgid) = some msgid := by
    refine asNat_eq_some.mpr ⟨rfl, ?_⟩
    unfold maxUnsigned
    omega
  have hdrop : (head ++ (type ++ (id ++ rest))).drop (head.length + type.length) = id ++ rest := by
    rw [← List.append_assoc, ← List.length_append, List.drop_left]
  have hdrop' : (head ++ (type ++ (id ++ rest))).drop (head.length + type.length + id.length)
      = rest := by
    rw [← List.drop_drop, hdrop, List.drop_left]
  refine ⟨head.length + type.length + id.length + k, ?_, ?_⟩
  · simp only [readIncoming, hhead, hdrop, header_of_spells same hmsgid, hdrop', hcall]
  · rw [← List.drop_drop, hdrop', hparams]

/-- A notification is sorted as one. -/
theorem readIncoming_notification {sz : ServerSize} {count : Nat}
    {method params payload : List UInt8}
    (h : Notification sz.sizeT method count params payload) :
    ∃ pos, readIncoming sz payload = .notification method (argsAt sz.sizeT payload pos count) ∧
      payload.drop pos = params := by
  obtain ⟨three, two, call⟩ := h
  rename_i head type rest
  obtain ⟨k, hcall, hparams⟩ := callHead_of_call call
  have hhead := frameHead_of_spells sz three (by decide) two (by decide) rest
  have hdrop : (head ++ (type ++ rest)).drop (head.length + type.length) = rest := by
    rw [← List.append_assoc, ← List.length_append, List.drop_left]
  refine ⟨head.length + type.length + k, ?_, ?_⟩
  · simp only [readIncoming, hhead, hdrop, hcall]
  · rw [← List.drop_drop, hdrop, hparams]

/-- Only requests and notifications are sorted as such. -/
theorem readIncoming_malformed {sz : ServerSize} {payload : List UInt8}
    (hrequest : ∀ msgid method count params, ¬ Request sz.sizeT msgid method count params payload)
    (hnotification : ∀ method count params,
      ¬ Notification sz.sizeT method count params payload) :
    readIncoming sz payload = .malformed := by
  unfold readIncoming
  split
  · rename_i k hhead
    obtain ⟨head, type, hpayload, four, zero⟩ := spells_of_frameHead hhead
    -- Four slots and type 0, as far as the head goes.
    split
    · rename_i msgid j hmsgid
      split
      · rename_i method count i hcall
        obtain ⟨t, hnat, same⟩ := spells_of_header hmsgid
        obtain ⟨rfl, hlt⟩ := asNat_eq_some.mp hnat
        refine absurd ?_ (hrequest msgid method count ((payload.drop (k + j)).drop i))
        have hrest : payload.drop k = (payload.drop k).take j ++ payload.drop (k + j) := by
          rw [← List.drop_drop, List.take_append_drop]
        have h := Request.mk four zero same (by unfold maxUnsigned at hlt; omega)
          (call_of_callHead hcall)
        rwa [← hrest, ← hpayload] at h
      · rfl
    · rfl
  · -- Three slots and type 2.
    rename_i k hhead
    obtain ⟨head, type, hpayload, three, two⟩ := spells_of_frameHead hhead
    split
    · rename_i method count i hcall
      refine absurd ?_ (hnotification method count ((payload.drop k).drop i))
      have h := Notification.mk three two (call_of_callHead hcall)
      rwa [← hpayload] at h
    · rfl
  · rfl

/-! ### `handle_frame_` -/

section

variable {sz : ServerSize}

/-- The reads of a method and of the header of its parameters. -/
theorem readCall_eq (r : Reader sz.sizeT) :
    (∃ method count k, callHead sz.sizeT r.rest = some ((method, count), k) ∧
        (r.readStr ⟨0, 0⟩).1.readArray 0 = (r.advance k, count) ∧
        (r.advance k).bytes (r.readStr ⟨0, 0⟩).2 = method) ∨
      callHead sz.sizeT r.rest = none ∧ ((r.readStr ⟨0, 0⟩).1.readArray 0).1.error = true := by
  rw [readStr_answer, callHead]
  -- A failed read of the method leaves the flag set whatever the next read does.
  cases hmethod : blob (asStr sz.sizeT) r.rest with
  | none =>
      refine Or.inr ⟨rfl, ?_⟩
      simp only [readArray_eq, store_answerOf]
      split <;> rfl
  | some s =>
      obtain ⟨sizes, k⟩ := s
      simp only [readArray_eq, store_answerOf, rest_advance, Option.bind_some]
      cases hcount : header (asArray sz.sizeT) (r.rest.drop k) with
      | none => exact Or.inr ⟨rfl, rfl⟩
      | some count =>
          refine Or.inl ⟨_, _, _, rfl, by simp only [advance_advance], ?_⟩
          rw [bytes_spanAt]

/-- The parameters a handler gets, from where they start. -/
theorem args_eq (payload : List UInt8) (pos count : Nat) :
    (⟨(Reader.new sz.sizeT payload).advance pos, count⟩ : Args sz.sizeT)
      = argsAt sz.sizeT payload pos count := by
  simp [argsAt, advance, Reader.new]

/-- The error flag stays set. -/
theorem readCall_error {r : Reader sz.sizeT} (h : r.error = true) :
    ((r.readStr ⟨0, 0⟩).1.readArray 0).1.error = true := by
  rw [readStr_answer]
  cases blob (asStr sz.sizeT) r.rest <;>
    · simp only [readArray_eq, store_answerOf]
      split <;> first | rfl | exact h

namespace Server

open ServerSize

variable {σ : Type}

/-- The last-frame time is stamped. -/
def stamped (s : Server sz σ) : Server sz σ :=
  { s with
    lastFrameMs := s.clock s.readings
    readings := s.readings + 1 }

/-- What the device does with a payload, sorted. -/
def receive (s : Server sz σ) : Incoming sz.sizeT → Server sz σ
  | .request msgid method args =>
      (s.dispatch method args (newReply sz)).1.sendResponse (UInt32.ofNat msgid)
        (s.dispatch method args (newReply sz)).2
  | .notification method args => (s.dispatch method args (newReply sz)).1
  | .malformed => s.malformed

/-- `handle_frame_` does what the payload asks for. -/
theorem handleFrame_eq (s : Server sz σ) (payload : List UInt8) :
    s.handleFrame payload = s.stamped.receive (readIncoming sz payload) := by
  have hstart : (Reader.new sz.sizeT payload).rest = payload := by
    simp [Reader.rest, Reader.new]
  have hfirst := readArray_eq (Reader.new sz.sizeT payload) 0
  rw [store_answerOf, hstart] at hfirst
  unfold handleFrame readIncoming frameHead
  simp only [nowMs, hfirst]
  cases hcount : header (asArray sz.sizeT) payload with
  | none => rfl
  | some count =>
      obtain ⟨n, k⟩ := count
      simp only [Option.bind_some]
      rw [if_neg (by simp [advance, Reader.new]), readSigned_eq, store_answerOf,
        rest_advance, hstart]
      cases htype : header (asInt (-(maxSigned sz.intBits : Nat) - 1) (maxSigned sz.intBits))
          (payload.drop k) with
      | none => rfl
      | some type =>
          obtain ⟨type, j⟩ := type
          simp only [Option.map_some]
          rw [if_neg (by simp [advance, Reader.new]), advance_advance]
          -- The type decides how many slots there must be.
          by_cases hrequest : type = 0
          · subst hrequest
            rw [if_pos rfl]
            by_cases hfour : n = 4
            · subst hfour
              rw [if_neg (by simp), readUnsigned_eq, store_answerOf, rest_advance, hstart]
              cases hmsgid : header (asNat (maxUnsigned 32)) (payload.drop (k + j)) with
              | none =>
                  simp only [hmsgid]
                  rw [if_pos (readCall_error rfl)]
                  rfl
              | some msgid =>
                  obtain ⟨msgid, i⟩ := msgid
                  simp only [hmsgid, advance_advance]
                  obtain ⟨method, count, l, hcall, hread, hbytes⟩ | ⟨hcall, herror⟩ :=
                    readCall_eq ((Reader.new sz.sizeT payload).advance (k + j + i))
                  · rw [rest_advance, hstart] at hcall
                    simp only [hcall, hread, hbytes]
                    rw [if_neg (by simp [advance, Reader.new]), advance_advance]
                    rw [args_eq]
                    rfl
                  · rw [rest_advance, hstart] at hcall
                    simp only [hcall]
                    rw [if_pos herror]
                    rfl
            · rw [if_pos hfour]
              simp [hfour, receive, stamped]
          · rw [if_neg hrequest]
            by_cases hnotification : type = 2
            · subst hnotification
              rw [if_pos rfl]
              by_cases hthree : n = 3
              · subst hthree
                rw [if_neg (by simp)]
                obtain ⟨method, count, l, hcall, hread, hbytes⟩ | ⟨hcall, herror⟩ :=
                  readCall_eq ((Reader.new sz.sizeT payload).advance (k + j))
                · rw [rest_advance, hstart] at hcall
                  simp only [hcall, hread, hbytes]
                  rw [if_neg (by simp [advance, Reader.new]), advance_advance, args_eq]
                  rfl
                · rw [rest_advance, hstart] at hcall
                  simp only [hcall]
                  rw [if_pos herror]
                  rfl
              · rw [if_pos hthree]
                simp [hthree, receive, stamped]
            · rw [if_neg hnotification]
              simp [hrequest, hnotification, receive, stamped]

/-! ### Dispatch -/

/-- A hook sends no response. -/
theorem runHook_sends (s : Server sz σ) (hook : Option (Hook σ)) :
    Sends (¬ ·.IsResponse) s (s.runHook hook) := by
  unfold runHook
  cases hook with
  | none => exact Sends.of_eq rfl
  | some hook => exact (s.run_outputs (hook s.sketch)).sent

/-- A handler that succeeds packs at most one object, in whatever state the server is. -/
def PacksOneValue (fn : Handler sz.sizeT σ) : Prop :=
  ∀ (s : Server sz σ) (args : Args sz.sizeT), OneValue (s.run (fn args s.sketch)).2.1

/-- A dispatch that sends no response and leaves a reply to be answered. -/
def Serves (s : Server sz σ) (answer : Server sz σ × Reply) : Prop :=
  Sends (¬ ·.IsResponse) s answer.1 ∧ Answerable sz answer.2

/-- A handler leaves a reply that can be sent. -/
theorem invoke_serves (s : Server sz σ) {fn : Handler sz.sizeT σ} (args : Args sz.sizeT)
    (hone : PacksOneValue fn) (hshort : sz.bufSize < 2 ^ 32 ∨ ShortErrors fn) :
    s.Serves (s.invoke fn args (newReply sz)) := by
  refine ⟨(s.run_outputs (fn args s.sketch)).sent, answered_answerable (hone s args) ?_⟩
  intro error herror
  rcases hshort with hcap | hshort
  · exact Or.inr hcap
  · exact Or.inl (hshort s args error herror)

/-- The answer of `rpc.attach`: the protocol version and the number of handlers. -/
theorem answerable_attach (count : UInt32) :
    Answerable sz (answered sz
      ⟨[.array 2, .int kProtocolVersion, .uint count.toUInt64], none⟩) := by
  have hversion : Object (PackOp.int kProtocolVersion).encoding :=
    Object.of_header (t := .int 1) (by decide) rfl rfl
  -- Two integers, each an object of its own.
  have hcount : Object (PackOp.uint count.toUInt64).encoding := by
    refine Writer.encoding_object ?_ rfl rfl
    have hlt := count.toUInt64.toNat_lt
    simp only [PackOp.token, Token.Valid]
    omega
  have hpair : Object ([0x92] ++ ((PackOp.int kProtocolVersion).encoding
      ++ ((PackOp.uint count.toUInt64).encoding ++ []))) := by
    rw [List.append_nil]
    exact Object.of_children (t := .array 2) (by decide) rfl
      (hversion.sequence.append hcount.sequence)
  exact answerable_packed (Or.inr hpair)

/-- So does `rpc.attach`. -/
theorem attach_serves (s : Server sz σ) (timeoutMs : Nat) :
    s.Serves (s.attach timeoutMs (newReply sz)) :=
  ⟨(Sends.of_eq rfl).trans (runHook_sends _ s.onAttach), answerable_attach _⟩

/-- `rpc.detach` sends no response by itself. -/
theorem detach_sends (s : Server sz σ) : Sends (¬ ·.IsResponse) s s.detach := by
  unfold detach
  dsimp only
  split
  · exact (Sends.of_eq rfl).trans (runHook_sends _ s.onDetach)
  · exact Sends.of_eq rfl

/-- Only errors are counted. -/
theorem countFailure_success {answer : Server sz σ × Reply} (h : answer.2.error = none) :
    countFailure answer = answer := by
  simp [countFailure, h]

/-- Counting changes nothing of the reply. -/
theorem countFailure_serves {s : Server sz σ} {answer : Server sz σ × Reply}
    (h : s.Serves answer) : s.Serves (countFailure answer) := by
  unfold countFailure
  split
  · exact ⟨h.1.trans (Sends.of_eq rfl), h.2⟩
  · exact h

/-- The parameters say the optional one of `rpc.attach` or `rpc.list`: 0 if there are none, and
otherwise the first one, if it is an integer that `uint32_t` can hold. -/
inductive SaysOptional (count : Nat) (params : List UInt8) : Nat → Prop where
  | absent (none : count = 0) : SaysOptional count params 0
  | given {head rest : List UInt8} {v : Nat} (some : 1 ≤ count)
      (split : params = head ++ rest) (int : Spells (.int v) head)
      (fits : v < 2 ^ 32) : SaysOptional count params v

/-- The optional parameter of a built-in is read if it is there and fits. -/
theorem readOptional_eq_some {payload : List UInt8} {pos count v : Nat} :
    readOptional (argsAt sz.sizeT payload pos count) = some v ↔
      SaysOptional count (payload.drop pos) v := by
  -- The parameter is there, or its default is used.
  by_cases hcount : 1 ≤ count
  · have hsize : 1 ≤ (argsAt sz.sizeT payload pos count).size := hcount
    have hrest : (argsAt sz.sizeT payload pos count).reader.rest = payload.drop pos := rfl
    have hread : readOptional (argsAt sz.sizeT payload pos count)
        = (header (asNat (maxUnsigned 32)) (payload.drop pos)).map Prod.fst := by
      rw [readOptional, if_pos hsize, readUnsigned_eq, store_answerOf, hrest]
      cases header (asNat (maxUnsigned 32)) (payload.drop pos) with
      | none => rfl
      | some answer => rfl
    rw [hread]
    constructor
    · -- What is read is an integer of 32 bits.
      intro h
      obtain ⟨⟨v, k⟩, hheader, rfl⟩ := Option.map_eq_some_iff.mp h
      obtain ⟨t, hnat, hspells⟩ := spells_of_header hheader
      obtain ⟨rfl, hle⟩ := asNat_eq_some.mp hnat
      have hfits : v < 2 ^ 32 := by
        unfold maxUnsigned at hle
        omega
      exact .given hcount (List.take_append_drop k _).symm hspells hfits
    · -- What is such an integer is read.
      intro h
      cases h with
      | absent hnone => omega
      | given hsome hsplit hint hfits =>
          have haccept : asNat (maxUnsigned 32) (.int v) = some v :=
            asNat_eq_some.mpr ⟨rfl, Nat.le_sub_one_of_lt hfits⟩
          rw [hsplit, header_of_spells hint haccept]
          rfl
  · -- Without a parameter the value is 0.
    have hsize : ¬ 1 ≤ (argsAt sz.sizeT payload pos count).size := hcount
    have hread : readOptional (argsAt sz.sizeT payload pos count) = some 0 := by
      rw [readOptional, if_neg hsize]
    rw [hread]
    constructor
    · intro h
      cases h
      exact .absent (by omega)
    · intro h
      cases h with
      | absent => rfl
      | given hsome => exact absurd hsome hcount

/-- `rpc.list` changes nothing but a counter, and that only if not even one entry fits. -/
theorem packRpcListResult_server (s : Server sz σ) (reply : Reply) (start : Nat) :
    (s.packRpcListResult reply start).1 = s ∨
      (s.packRpcListResult reply start).1
        = { s with responseOverflowErrors := s.responseOverflowErrors + 1 } := by
  unfold packRpcListResult
  dsimp only
  split
  · exact Or.inl rfl
  · split
    · exact Or.inr rfl
    · split
      · exact Or.inr rfl
      · exact Or.inl rfl

/-- What a built-in method answers, one case for each way through `dispatch_builtin_`. -/
inductive AnswersBuiltin (s : Server sz σ) (args : Args sz.sizeT) (reply : Reply) :
    List UInt8 → Server sz σ × Reply → Prop where
  | ping : AnswersBuiltin s args reply (SerialRpc.text "rpc.ping")
      (s, { reply with writer := reply.writer.packAll [.int kProtocolVersion] })
  /-- The parameter of `rpc.list` or `rpc.attach` does not read. -/
  | rejected {method : List UInt8}
      (optional : method = SerialRpc.text "rpc.list" ∨ method = SerialRpc.text "rpc.attach")
      (unread : readOptional args = none) : AnswersBuiltin s args reply method
        (s, { reply with error := some (SerialRpc.text "bad args") })
  | list {start : Nat} (read : readOptional args = some start) :
      AnswersBuiltin s args reply (SerialRpc.text "rpc.list") (s.packRpcListResult reply start)
  | attach {timeoutMs : Nat} (read : readOptional args = some timeoutMs) :
      AnswersBuiltin s args reply (SerialRpc.text "rpc.attach") (s.attach timeoutMs reply)
  | detach : AnswersBuiltin s args reply (SerialRpc.text "rpc.detach") (s.detach, reply)

/-- **What a built-in method does** is one of five things. -/
theorem answersBuiltin_of_dispatchBuiltin {s : Server sz σ} {method : List UInt8}
    {args : Args sz.sizeT} {reply : Reply} {answer : Server sz σ × Reply}
    (h : s.dispatchBuiltin method args reply = some answer) :
    AnswersBuiltin s args reply method answer := by
  -- The branches of `dispatchBuiltin`, in its order.
  unfold dispatchBuiltin at h
  dsimp only at h
  split at h
  · rename_i hping
    cases h
    exact hping ▸ .ping
  · split at h
    · rename_i hlist
      -- The parameter is not an integer.
      split at h <;> cases h
      · exact .rejected (Or.inl hlist) ‹_›
      · exact hlist ▸ .list ‹_›
    · split at h
      · rename_i hattach
        split at h <;> cases h
        · exact .rejected (Or.inr hattach) ‹_›
        · exact hattach ▸ .attach ‹_›
      · split at h
        · rename_i hdetach
          cases h
          exact hdetach ▸ .detach
        · cases h

/-- `dispatch_` answers as a built-in method, or runs a handler of the sketch, or knows no such
method. -/
theorem dispatch_cases (s : Server sz σ) (method : List UInt8) (args : Args sz.sizeT)
    (reply : Reply) :
    (∃ answer, AnswersBuiltin s args reply method answer ∧
        s.dispatch method args reply = countFailure answer) ∨
      (∃ entry, s.dispatchBuiltin method args reply = none ∧
        findHandler s.handlers method = some entry ∧
        s.dispatch method args reply = countFailure (s.invoke entry.fn args reply)) ∨
      (s.dispatchBuiltin method args reply = none ∧ findHandler s.handlers method = none ∧
        s.dispatch method args reply
          = ({ s with unknownMethodErrors := s.unknownMethodErrors + 1 },
            { reply with error := some (SerialRpc.text "unknown method") })) := by
  unfold dispatch dispatchUser
  cases hbuiltin : s.dispatchBuiltin method args reply with
  | some answer => exact Or.inl ⟨answer, answersBuiltin_of_dispatchBuiltin hbuiltin, rfl⟩
  | none =>
      cases hfind : findHandler s.handlers method with
      | some entry => exact Or.inr (Or.inl ⟨entry, rfl, rfl, rfl⟩)
      | none => exact Or.inr (Or.inr ⟨rfl, rfl, rfl⟩)

/-- The built-in methods. -/
theorem AnswersBuiltin.serves {s : Server sz σ} (hheaders : s.HeadersFit) {method : List UInt8}
    {args : Args sz.sizeT} {answer : Server sz σ × Reply}
    (h : AnswersBuiltin s args (newReply sz) method answer) : s.Serves answer := by
  cases h with
  | ping =>
      have hversion := Object.of_header (t := .int 1) (show Spells _ [0x01] by decide) rfl rfl
      exact ⟨Sends.of_eq rfl, answerable_packed (Or.inr hversion)⟩
  | rejected => exact ⟨Sends.of_eq rfl, answerable_error (by decide +kernel)⟩
  | list =>
      obtain ⟨houtputs, hreply⟩ := packRpcListResult_answerable hheaders _
      exact ⟨houtputs.sent.mono fun _ hfalse => hfalse.elim, hreply⟩
  | attach => exact s.attach_serves _
  | detach =>
      have hnothing : Answerable sz (answered sz ⟨[], none⟩) := answerable_packed (Or.inl rfl)
      exact ⟨s.detach_sends, hnothing⟩

/-- The method that is called is in the table. -/
theorem mem_of_findHandler {handlers : List (Entry sz.sizeT σ)} {method : List UInt8}
    {entry : Entry sz.sizeT σ} (h : findHandler handlers method = some entry) :
    entry ∈ handlers := List.mem_of_find?_eq_some h

/-- **A call** leaves a reply that can be sent, and has sent no response yet. -/
theorem dispatch_serves {s : Server sz σ} (hheaders : s.HeadersFit)
    (hone : ∀ entry ∈ s.handlers, PacksOneValue entry.fn) (method : List UInt8)
    (args : Args sz.sizeT) : s.Serves (s.dispatch method args (newReply sz)) := by
  rcases s.dispatch_cases method args (newReply sz) with ⟨answer, hbuiltin, hdispatch⟩ |
    ⟨entry, -, hfind, hdispatch⟩ | ⟨-, -, hdispatch⟩
  · rw [hdispatch]
    exact countFailure_serves (hbuiltin.serves hheaders)
  · rw [hdispatch]
    have hmem := mem_of_findHandler hfind
    refine countFailure_serves (s.invoke_serves args (hone entry hmem) ?_)
    rcases hheaders with hsmall | ⟨-, hentries⟩
    · -- A small result buffer is a small payload buffer.
      refine Or.inl ?_
      unfold kResultScratch kResponseHeaderMax at hsmall
      split at hsmall <;> omega
    · exact Or.inr (hentries entry hmem).2
  · rw [hdispatch]
    exact ⟨Sends.of_eq rfl, answerable_error (by decide +kernel)⟩

/-! ### Replies -/

/-- Exactly one response is sent, the last thing of all, and it answers `msgid`. -/
def SendsResponse (msgid : Nat) (s s' : Server sz σ) : Prop :=
  ∃ during response, s'.sent = s.sent ++ during ++ [.frame response (frameBytes response)] ∧
    (∀ x ∈ during, ¬ x.IsResponse) ∧ Response msgid response

/-- A payload is answered by the rules: one response to a request, none to a notification,
and anything else changes a counter and the last-frame time. -/
structure Answers (s : Server sz σ) (payload : List UInt8) : Prop where
  request : ∀ msgid method count params, Request sz.sizeT msgid method count params payload →
    SendsResponse msgid s (s.handleFrame payload)
  notification : ∀ method count params, Notification sz.sizeT method count params payload →
    Sends (¬ ·.IsResponse) s (s.handleFrame payload)
  other : (∀ msgid method count params, ¬ Request sz.sizeT msgid method count params payload) →
    (∀ method count params, ¬ Notification sz.sizeT method count params payload) →
      s.handleFrame payload = { s with
        lastFrameMs := s.clock s.readings
        readings := s.readings + 1
        malformedErrors := s.malformedErrors + 1 }

/-- **One response for each request.** When the table can be listed and the handlers pack at
most one value, every payload is answered by the rules. -/
theorem handleFrame_answers (s : Server sz σ) (payload : List UInt8) (hroom : 32 ≤ sz.bufSize)
    (hheaders : s.HeadersFit) (hone : ∀ entry ∈ s.handlers, PacksOneValue entry.fn) :
    s.Answers payload := by
  -- Every method serves the request, whatever it does with its arguments.
  have hserves (method : List UInt8) (args : Args sz.sizeT) :
      s.stamped.Serves (s.stamped.dispatch method args (newReply sz)) :=
    dispatch_serves (s := s.stamped) hheaders hone method args
  constructor
  · -- A request: what was sent in between, and then the response to its message id.
    intro msgid method count params hrequest
    obtain ⟨pos, hread, -⟩ := readIncoming_request hrequest
    obtain ⟨four, zero, same, msgid_lt, call⟩ := hrequest
    rw [handleFrame_eq, hread, receive]
    obtain ⟨⟨during, hduring, hnone⟩, hreply⟩ := hserves method (argsAt sz.sizeT _ pos count)
    obtain ⟨-, hsent⟩ := sendResponse_eq (s.stamped.dispatch method (argsAt sz.sizeT _ pos count)
      (newReply sz)).1 (UInt32.ofNat msgid) hreply.1 hroom
    have hwell := responsePayload_wellFormed (UInt32.ofNat msgid) hreply
    rw [UInt32.toNat_ofNat', Nat.mod_eq_of_lt msgid_lt] at hwell
    exact ⟨during, _, by rw [hsent, hduring]; rfl, hnone, hwell⟩
  · -- A notification: what its handler sends, and nothing behind it.
    intro method count params hnotification
    obtain ⟨pos, hread, -⟩ := readIncoming_notification hnotification
    rw [handleFrame_eq, hread, receive]
    exact (hserves method (argsAt sz.sizeT payload pos count)).1
  · -- Neither of them.
    intro hrequest hnotification
    rw [handleFrame_eq, readIncoming_malformed hrequest hnotification]
    rfl

/-- A 16-bit board. -/
def small : ServerSize where
  maxHandlers := 1
  bufSize := 64
  header_fits := Nat.le_of_ble_eq_true rfl
  sizeT := .avr
  intBits := 16
  sixteen_le_int := Nat.le_of_ble_eq_true rfl
  useStl := false
  logBufSize := 64

/-- A server with one handler, whose answer is 7. -/
def answering : Server small Unit :=
  (Server.new small () fun _ => 0).bind
    ⟨[0x66], fun _ sketch => .done (⟨[.int 7], none⟩, sketch), rawSignature⟩

/-- A call of the handler is answered. -/
theorem handleFrame_answers_call :
    SendsResponse 1 answering (answering.handleFrame [0x94, 0x00, 0x01, 0xa1, 0x66, 0x90]) := by
  have hone : ∀ entry ∈ answering.handlers, PacksOneValue entry.fn := by
    intro entry hentry s args _
    rw [show answering.handlers = [⟨[0x66], fun _ sketch => .done (⟨[.int 7], none⟩, sketch),
      rawSignature⟩] from rfl, List.mem_singleton] at hentry
    rw [hentry]
    have hseven : Object [0x07] := Object.of_header (t := .int 7) (by decide) rfl rfl
    exact Or.inr hseven
  have hrequest : Request .avr 1 [0x66] 0 []
      ([0x94] ++ ([0x00] ++ ([0x01] ++ ([0xa1] ++ [0x66] ++ ([0x90] ++ []))))) :=
    .mk (by decide) (by decide) (by decide) (by decide)
      (.mk (by decide) (by decide) (by decide) (by decide))
  exact (handleFrame_answers answering _ (by decide) (Or.inl (by decide)) hone).request 1 [0x66] 0
    [] hrequest

/-! ### Where the rules fail -/

/-- `rpc.list`, once its parameter is read. -/
theorem dispatch_list (s : Server sz σ) {args : Args sz.sizeT} {start : Nat}
    (hread : readOptional args = some start) (reply : Reply) :
    s.dispatch (SerialRpc.text "rpc.list") args reply
      = countFailure (s.packRpcListResult reply start) := by
  -- `rpc.list` is the second built-in that is looked up.
  have hping : SerialRpc.text "rpc.list" ≠ SerialRpc.text "rpc.ping" := by decide +kernel
  rw [dispatch, dispatchBuiltin, if_neg hping, if_pos rfl, hread]

/-- A string that is cut off is no object. -/
theorem not_sequence_of_cut {name cut : List UInt8} {n : Nat} (hname : name.length < 2 ^ 32)
    (hn : n < 2 ^ 32) (hcut : cut.length < n) :
    ¬ Sequence 2 (shortest (.str name.length) ++ name ++ (shortest (.str n) ++ cut)) := by
  intro h
  have hfirst : token (shortest (.str name.length) ++ name ++ (shortest (.str n) ++ cut))
      = some (.str name.length, (shortest (.str name.length)).length) := by
    rw [List.append_assoc]
    exact token_shortest (t := .str name.length) hname _
  obtain ⟨-, hrest⟩ := h.of_token hfirst
  change Sequence (0 + 1) (List.drop (_ + name.length) _) at hrest
  rw [← List.length_append, List.drop_left] at hrest
  obtain ⟨hlength, -⟩ := hrest.of_token (token_shortest (t := .str n) hn _)
  change _ + n ≤ _ at hlength
  rw [List.length_append] at hlength
  omega

/-- A server with a result buffer of 64 KiB and 18 bytes. -/
def wide : ServerSize where
  maxHandlers := 8
  bufSize := 65562
  header_fits := Nat.le_of_ble_eq_true rfl
  sizeT := .host64
  intBits := 32
  sixteen_le_int := Nat.le_of_ble_eq_true rfl
  useStl := true
  logBufSize := 64

/-- `rpc.list`, called with message id 1. -/
def listRequest : List UInt8 :=
  [0x94] ++ ([0x00] ++ ([0x01] ++ ([0xa8] ++ SerialRpc.text "rpc.list" ++ ([0x90] ++ []))))

/-- It is a request. -/
theorem listRequest_request : Request .host64 1 (SerialRpc.text "rpc.list") 0 [] listRequest :=
  .mk (by decide) (by decide) (by decide) (by decide)
    (.mk (by decide +kernel) (by decide) (by decide +kernel) (by decide))

/-- The entry of such a name without its last two bytes. -/
theorem entryBytes_cut {entry : Entry sz.sizeT σ} (hname : entry.name.length = 2 ^ 16)
    (hsignature : (signature entry).length = 10) :
    (entryBytes entry).take 65551
      = [0x92] ++ (shortest (.str entry.name.length) ++ entry.name
          ++ (shortest (.str 10) ++ (signature entry).take 8)) := by
  have hfirst : (shortest (.str entry.name.length) ++ entry.name).length = 65541 := by
    simp [hname, shortest, shortestBytes]
  have hparts : 65551 = [(0x92 : UInt8)].length
      + ((shortest (.str entry.name.length) ++ entry.name).length
        + ((shortest (.str 10)).length + 8)) := by
    rw [hfirst]
    rfl
  rw [entryBytes_eq, hsignature, hparts, List.take_length_add_append, List.take_length_add_append,
    List.take_length_add_append]

/-- No response holds a result that is cut off. -/
theorem not_response_of_cut {name cut : List UInt8} (hname : name.length < 2 ^ 32)
    (hcut : cut.length < 10) (msgid : Nat) :
    ¬ Response msgid ([0x94] ++ ([0x01] ++ ([0x01] ++ ([kNil] ++ (arrayHeader 1 ++ ([0x92]
      ++ (shortest (.str name.length) ++ name ++ (shortest (.str 10) ++ cut)))))))) := by
  intro h
  have hslots := h.object.sequence.of_spells (t := .array 4) (by decide) rfl
  have hresult := ((hslots.of_spells (t := .int 1) (by decide) rfl).of_spells
    (t := .int 1) (by decide) rfl).of_spells (t := .nil) (by decide) rfl
  have hentries := hresult.of_spells (spells_arrayHeader (by decide)) rfl
  exact not_sequence_of_cut hname (by decide) hcut
    (hentries.of_spells (t := .array 2) (by decide) rfl)

/-- A name of 64 KiB is cut off, and the response with it. -/
theorem list_cut {s : Server wide σ} {entry : Entry wide.sizeT σ} (hentry : s.handlers = [entry])
    (hname : entry.name.length = 2 ^ 16) (hsig : entry.writeSig = rawSignature) :
    ¬ SendsResponse 1 s (s.handleFrame listRequest) := by
  have hrequest : Request wide.sizeT 1 (SerialRpc.text "rpc.list") 0 [] listRequest :=
    listRequest_request
  obtain ⟨pos, hread, -⟩ := readIncoming_request hrequest
  have hsignature : (signature entry).length = 10 := by
    unfold signature
    rw [hsig]
    decide +kernel
  -- The size counts a header of three bytes for the name, but its header has five.
  have hsize : entrySize entry = 65551 := by
    rw [entrySize, hname, hsignature]
    decide
  have hscratch : wide.kResultScratch = 65554 := by decide
  have hlength : (entryBytes entry).length = 65553 := by
    simp [entryBytes_eq, hname, hsignature, shortest, shortestBytes]
  obtain ⟨-, herror, hoverflow, hresultSize, hresult⟩ :=
    packRpcListResult_cut (s := s.stamped) hentry (by omega) (by omega)
  have hsized : (s.stamped.packRpcListResult (newReply wide) 0).2.result.length
      = (s.stamped.packRpcListResult (newReply wide) 0).2.resultSize := by
    rw [hresult, hresultSize, List.length_append, List.length_take]
    simp [arrayHeader]
    omega
  rw [hsize, entryBytes_cut hname hsignature] at hresult
  rw [handleFrame_eq, hread, receive, dispatch_list _ rfl,
    countFailure_success herror]
  generalize (s.stamped.packRpcListResult (newReply wide) 0).2 = reply at *
  have hbytes : resultBytes reply = reply.result := by
    rw [resultBytes, if_neg (by rw [hresultSize]; decide)]
  have hheader := header_length_le 1
  have hroom : kResponseHeaderMax + wide.kResultScratch ≤ wide.bufSize := by decide
  have hpayload : responsePayload wide.bufSize 1 reply
      = [0x94] ++ ([0x01] ++ ([0x01] ++ ([kNil] ++ reply.result))) := by
    rw [responsePayload_of_fits (fullPayload_result 1 herror hoverflow), hbytes, encodings_header]
    · rfl
    · rw [List.length_append, hbytes, hsized, hresultSize]
      omega
  obtain ⟨-, hsent⟩ := sendResponse_eq (s.stamped.packRpcListResult (newReply wide) 0).1 1 hsized
    (by decide)
  rw [hpayload, hresult] at hsent
  rintro ⟨during, response, hresponse, -, hwell⟩
  obtain ⟨-, hframe⟩ := List.append_inj' (hsent.symm.trans hresponse) rfl
  simp only [List.cons.injEq, Sent.frame.injEq, and_true] at hframe
  rw [← hframe.1] at hwell
  -- So the last two bytes of the entry are missing in the response.
  refine not_response_of_cut (by omega) ?_ 1 hwell
  rw [List.length_take]
  omega

/-- A request of method `x` that announces 65536 parameters. -/
def countRequest : List UInt8 :=
  [0x94] ++ ([0x00] ++ ([0x01] ++ ([0xa1] ++ [0x78] ++ ([0xdd, 0x00, 0x01, 0x00, 0x00] ++ []))))

/-- A server with one handler, whose name has 64 KiB. -/
def longName : Server wide Unit :=
  (Server.new wide () fun _ => 0).bind
    ⟨List.replicate (2 ^ 16) 0x61, fun _ sketch => .done (⟨[], none⟩, sketch), rawSignature⟩

/-- Two requests without a well-formed response: one that announces more parameters than
`size_t` can count, and `rpc.list` with a name that outgrows `str_header_len_`. -/
theorem handleFrame_answers_fails :
    (Request .host64 1 [0x78] 65536 [] countRequest ∧
      ¬ SendsResponse 1 (Server.new small () fun _ => 0)
        ((Server.new small () fun _ => 0).handleFrame countRequest)) ∧
    Request .host64 1 (SerialRpc.text "rpc.list") 0 [] listRequest ∧
      (∀ entry ∈ longName.handlers, PacksOneValue entry.fn) ∧
      ¬ SendsResponse 1 longName (longName.handleFrame listRequest) := by
  -- One name longer than a response can hold.
  refine ⟨⟨?_, ?_⟩, listRequest_request, ?_, ?_⟩
  · exact .mk (by decide) (by decide) (by decide) (by decide)
      (.mk (by decide) (by decide) (by decide) (by decide))
  · -- The request for the count is not answered at all.
    rintro ⟨during, response, hsent, -⟩
    have hnothing :
        ((Server.new small () fun _ => 0).handleFrame countRequest).sent.length = 0 := by
      decide +kernel
    rw [hsent, List.length_append] at hnothing
    simp at hnothing
  · -- The handler packs no value.
    intro entry hentry s args _
    have hone : longName.handlers = [⟨List.replicate (2 ^ 16) 0x61,
        fun _ sketch => .done (⟨[], none⟩, sketch), rawSignature⟩] := rfl
    rw [hone, List.mem_singleton] at hentry
    rw [hentry]
    exact Or.inl rfl
  · exact list_cut rfl List.length_replicate rfl

end Server

end

end SerialRpc
