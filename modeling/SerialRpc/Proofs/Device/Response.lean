import SerialRpc.Proofs.Device.Sending

/-!
# `SerialRpc.Proofs.Device.Response`: the payload of a response

`send_response_` builds a response in one of four ways: the error, the result behind its
header, a nil behind the header when the handler packed nothing, and `response too large`
when the first three do not fit. `responsePayload` says which bytes this gives, without
buffers, and `buildResponse_eq` that the code writes them.

* `Response`: `[1, msgid, e, r]` and nothing behind it.
* `responsePayload_wellFormed`: of a reply that holds at most one object, or an error, every
  response is of this form.
-/

set_option autoImplicit false

namespace SerialRpc

open MsgPack

/-- `[1, msgid, e, r]` and nothing behind it: a nil and one object, or a string and a nil. -/
inductive Response (msgid : Nat) : List UInt8 → Prop where
  | success {head type id error result : List UInt8} (four : Spells (.array 4) head)
      (one : Spells (.int 1) type) (same : Spells (.int msgid) id) (none : Spells .nil error)
      (object : Object result) : Response msgid (head ++ type ++ id ++ error ++ result)
  | failure {head type id len error result : List UInt8} (four : Spells (.array 4) head)
      (one : Spells (.int 1) type) (same : Spells (.int msgid) id)
      (string : Spells (.str error.length) len) (none : Spells .nil result) :
      Response msgid (head ++ type ++ id ++ (len ++ error) ++ result)

/-- A response is one object. -/
theorem Response.object {msgid : Nat} {payload : List UInt8} (h : Response msgid payload) :
    Object payload := by
  have scalar {t : Token} {bs : List UInt8} (hbs : Spells t bs) (hbody : t.bodyBytes = 0)
      (hchildren : t.children = 0) : Sequence 1 bs :=
    (Object.of_header hbs hbody hchildren).sequence
  obtain ⟨four, one, same, none, object⟩ | ⟨four, one, same, string, none⟩ := h
  · have hslots := ((scalar one rfl rfl).append (scalar same rfl rfl)).append
      ((scalar none rfl rfl).append object.sequence)
    simpa only [List.append_assoc] using Object.of_children four rfl hslots
  · have hslots := ((scalar one rfl rfl).append (scalar same rfl rfl)).append
      ((Object.of_body string rfl rfl).sequence.append (scalar none rfl rfl))
    simpa only [List.append_assoc] using Object.of_children four rfl hslots

namespace Server

open ServerSize

variable {sz : ServerSize} {σ : Type}

/-! ### The bytes -/

/-- The result a successful response carries: nil when nothing was packed. -/
def resultBytes (reply : Reply) : List UInt8 :=
  if reply.resultSize = 0 then [kNil] else reply.result

/-- The response to a reply, as long as there is room. `none` when the result itself did not
fit its buffer. -/
def fullPayload (msgid : UInt32) (reply : Reply) : Option (List UInt8) :=
  match reply.error with
  | some error => some (PackOp.encodings (packError msgid error))
  | none =>
      if reply.writer.overflow then none
      else some (PackOp.encodings (packHeader msgid) ++ resultBytes reply)

/-- `[1, msgid, "response too large", nil]`. -/
def tooLarge (msgid : UInt32) : List UInt8 :=
  PackOp.encodings (packError msgid (SerialRpc.text "response too large"))

/-- The payload of a response in a buffer of `cap` bytes. -/
def responsePayload (cap : Nat) (msgid : UInt32) (reply : Reply) : List UInt8 :=
  ((fullPayload msgid reply).filter fun payload => payload.length ≤ cap).getD (tooLarge msgid)

/-- The full response of a call that has succeeded: the header and the result. -/
theorem fullPayload_result (msgid : UInt32) {reply : Reply} (herror : reply.error = none)
    (hfits : reply.writer.overflow = false) :
    fullPayload msgid reply
      = some (PackOp.encodings (packHeader msgid) ++ resultBytes reply) := by
  simp [fullPayload, herror, hfits]

/-- With room for it the response is the full one. -/
theorem responsePayload_of_fits {cap : Nat} {msgid : UInt32} {reply : Reply} {bs : List UInt8}
    (hfull : fullPayload msgid reply = some bs) (hroom : bs.length ≤ cap) :
    responsePayload cap msgid reply = bs := by
  simp [responsePayload, hfull, Option.filter, hroom]

/-- A message id is packed as a natural number. -/
theorem encoding_msgid (msgid : UInt32) :
    (PackOp.uint msgid.toUInt64).encoding = shortestNat msgid.toNat := by
  simp [PackOp.encoding, PackOp.token, PackOp.body, shortest, shortestInt]

/-- The first bytes of every response. -/
theorem encodings_header (msgid : UInt32) :
    PackOp.encodings (packHeader msgid) = 0x94 :: 0x01 :: shortestNat msgid.toNat ++ [kNil] := by
  show [0x94] ++ ([0x01] ++ ((PackOp.uint msgid.toUInt64).encoding ++ ([kNil] ++ []))) = _
  simp [encoding_msgid]

/-- The bytes of an error response. -/
theorem encodings_error (msgid : UInt32) (error : List UInt8) :
    PackOp.encodings (packError msgid error)
      = 0x94 :: 0x01 :: shortestNat msgid.toNat ++ (shortest (.str error.length) ++ error)
          ++ [kNil] := by
  show [0x94] ++ ([0x01] ++ ((PackOp.uint msgid.toUInt64).encoding
    ++ ((PackOp.str error).encoding ++ ([kNil] ++ [])))) = _
  rw [encoding_msgid]
  simp [PackOp.encoding, PackOp.token, PackOp.body]

/-- A message id takes at most five bytes. -/
theorem shortestNat_length_le (msgid : UInt32) : (shortestNat msgid.toNat).length ≤ 5 := by
  have hlt := msgid.toNat_lt
  unfold shortestNat
  repeat' split
  all_goals simp

/-- The header of a response has room in the bytes that are set aside for it. -/
theorem header_length_le (msgid : UInt32) :
    (PackOp.encodings (packHeader msgid)).length ≤ kResponseHeaderMax := by
  have hid := shortestNat_length_le msgid
  simp [encodings_header, kResponseHeaderMax]
  omega

/-- The last resort fits the smallest sensible buffer. -/
theorem tooLarge_length_le (msgid : UInt32) : (tooLarge msgid).length ≤ 32 := by
  have hid := shortestNat_length_le msgid
  have htext : (SerialRpc.text "response too large").length = 18 := by decide +kernel
  rw [tooLarge, encodings_error, htext]
  simp [htext, shortest]
  omega

/-! ### The code writes them -/

/-- What a step of `send_response_` built: the payload, if there was room for it. -/
def Built (cap : Nat) (built : List UInt8 × Nat × Bool) (payload : Option (List UInt8)) : Prop :=
  (built.2.2 = false ∧ ∃ bs, payload = some bs ∧ bs.length ≤ cap ∧ built.1.take built.2.1 = bs) ∨
    (built.2.2 = true ∧ ∀ bs, payload = some bs → cap < bs.length)

/-- The error response is built as it should be, or overflows. -/
theorem buildError_built (buf : List UInt8) (msgid : UInt32) (error : List UInt8) :
    Built buf.length (buildError buf msgid error)
      (some (PackOp.encodings (packError msgid error))) := by
  have hholds := Writer.packAll_holds buf buf.length le_rfl (packError msgid error)
  unfold buildError
  cases hoverflow : ((Writer.new buf buf.length).packAll (packError msgid error)).overflow with
  | false =>
      obtain ⟨hdata, hlength⟩ := hholds.data_of_fits hoverflow
      exact Or.inl ⟨hoverflow, _, rfl, hlength, hdata⟩
  | true =>
      refine Or.inr ⟨hoverflow, fun bs hbs => ?_⟩
      have := hholds.overflow_eq
      cases hbs
      simpa [hoverflow] using this.symm

/-- The header, a nil or the result, and how much of them there is room for. -/
theorem buildSuccess_built (buf : List UInt8) (msgid : UInt32) (reply : Reply)
    (herror : reply.error = none) (hresult : reply.result.length = reply.resultSize)
    (hroom : kResponseHeaderMax ≤ buf.length) :
    Built buf.length (buildSuccess buf msgid reply) (fullPayload msgid reply) := by
  have hholds := Writer.packAll_holds (List.replicate kResponseHeaderMax 0) kResponseHeaderMax
    (by simp) (packHeader msgid)
  -- The header always fits the room that is kept for it.
  have hheader := header_length_le msgid
  have hoverflow := hholds.overflow_eq
  rw [decide_eq_false (by omega)] at hoverflow
  have hsize := hholds.size_eq
  rw [Nat.min_eq_left hheader] at hsize
  obtain ⟨hdata, -⟩ := hholds.data_of_fits hoverflow
  simp only [buildSuccess, fullPayload, herror, hoverflow, hdata, hsize, Bool.false_or]
  generalize PackOp.encodings (packHeader msgid) = header at *
  have hlength := Buffer.overwrite_length (show header.length ≤ buf.length by omega)
  split
  · exact Or.inr ⟨rfl, fun bs hbs => by simp at hbs⟩
  · split
    · -- Nothing was packed: a nil behind the header.
      rename_i hzero
      have hnil := Writer.packAll_holds ((Buffer.overwrite buf header).drop header.length)
        (buf.length - header.length) (by simp [hlength]) [.nil]
      have hbytes : PackOp.encodings [.nil] = [kNil] := rfl
      have hnilOverflow := hnil.overflow_eq
      have hnilSize := hnil.size_eq
      rw [hbytes] at hnilOverflow hnilSize hnil
      rw [Buffer.overwrite_take, resultBytes, if_pos hzero]
      split
      · rename_i hfull
        rw [hfull] at hnilOverflow
        refine Or.inr ⟨rfl, fun bs hbs => ?_⟩
        cases hbs
        simp at hnilOverflow ⊢
        omega
      · rename_i hfits
        obtain ⟨hnilData, hnilLength⟩ := hnil.data_of_fits (by simpa using hfits)
        refine Or.inl ⟨rfl, _, rfl, ?_, ?_⟩
        · simp at hnilLength ⊢
          omega
        · rw [List.take_length_add_append]
          exact congrArg (header ++ ·) hnilData
    · -- The result is copied behind the header.
      rename_i hnonempty
      rw [resultBytes, if_neg hnonempty]
      split
      · rename_i hfits
        refine Or.inl ⟨rfl, _, rfl, by rw [List.length_append, hresult]; exact hfits, ?_⟩
        rw [Buffer.overwrite_take, List.take_length_add_append, ← hresult, Buffer.overwrite_take]
      · rename_i hfull
        refine Or.inr ⟨rfl, fun bs hbs => ?_⟩
        cases hbs
        rw [List.length_append, hresult]
        omega

/-- So is the first response, whichever it is. -/
theorem buildAnswer_built (buf : List UInt8) (msgid : UInt32) (reply : Reply)
    (hresult : reply.result.length = reply.resultSize) (hroom : kResponseHeaderMax ≤ buf.length) :
    Built buf.length (buildAnswer buf msgid reply) (fullPayload msgid reply) := by
  unfold buildAnswer
  cases herror : reply.error with
  | some error =>
      rw [fullPayload, herror]
      exact buildError_built buf msgid error
  | none => exact buildSuccess_built buf msgid reply herror hresult hroom

/-- `send_response_` writes the payload of the response. -/
theorem buildResponse_eq {buf : List UInt8} (msgid : UInt32) {reply : Reply}
    (hresult : reply.result.length = reply.resultSize) (hroom : 32 ≤ buf.length) :
    (buildResponse buf msgid reply).1.take (buildResponse buf msgid reply).2.1
      = responsePayload buf.length msgid reply := by
  have hheader : kResponseHeaderMax ≤ buf.length := by
    unfold kResponseHeaderMax
    omega
  unfold buildResponse responsePayload
  -- The answer fits, or the error takes its place.
  obtain ⟨hfits, bs, hpayload, hlength, hbs⟩ | ⟨hfull, hlong⟩ :=
    buildAnswer_built buf msgid reply hresult hheader
  · simp only [hfits, hpayload]
    simpa [Option.filter, hlength] using hbs
  · have hlast := buildAnswer_length buf msgid reply hheader
    -- The error fits: it is short, and the header is in front of it already.
    have hfallback := buildError_built (buildAnswer buf msgid reply).1 msgid
      (SerialRpc.text "response too large")
    rw [hlast] at hfallback
    have hfilter : (fullPayload msgid reply).filter (fun payload => payload.length ≤ buf.length)
        = none := by
      cases hp : fullPayload msgid reply with
      | none => rfl
      | some bs => simpa [Option.filter] using hlong bs hp
    obtain ⟨-, bs, hpayload, -, hbs⟩ | ⟨-, htoo⟩ := hfallback
    · simp only [hfull, if_true, hbs, hfilter, Option.getD_none]
      cases hpayload
      rfl
    · have hroom' := htoo _ rfl
      have htoo := tooLarge_length_le msgid
      unfold tooLarge at htoo
      omega

/-- A response fits the buffer. -/
theorem responsePayload_length_le {cap : Nat} (msgid : UInt32) (reply : Reply) (hcap : 32 ≤ cap) :
    (responsePayload cap msgid reply).length ≤ cap := by
  have htoo := tooLarge_length_le msgid
  unfold responsePayload
  cases hpayload : (fullPayload msgid reply).filter fun payload => payload.length ≤ cap with
  | none =>
      rw [Option.getD_none]
      omega
  | some bs => simpa using (Option.filter_eq_some_iff.mp hpayload).2

/-! ### Well-formed responses -/

/-- A response can be made of the reply: an error whose length fits a MessagePack header
when there is room for it at all, or a result that is nothing or one object, unless it
overflowed. -/
def Answerable (sz : ServerSize) (reply : Reply) : Prop :=
  reply.result.length = reply.resultSize ∧
    match reply.error with
    | some error => error.length < 2 ^ 32 ∨ sz.bufSize < 2 ^ 32
    | none => reply.writer.overflow = false → reply.result = [] ∨ Object reply.result

/-- A handler that succeeds packs at most one object. -/
def OneValue (answer : Answer) : Prop :=
  answer.error = none →
    PackOp.encodings answer.packed = [] ∨ Object (PackOp.encodings answer.packed)

/-- The reply a handler leaves its answer in. -/
def answered (sz : ServerSize) (answer : Answer) : Reply :=
  { newReply sz with
    writer := (newReply sz).writer.packAll answer.packed
    error := answer.error }

/-- What is in the buffer of such a reply. -/
theorem answered_holds (sz : ServerSize) (answer : Answer) :
    (answered sz answer).writer.Holds (List.replicate sz.kResultScratch 0) sz.kResultScratch
      (PackOp.encodings answer.packed) :=
  Writer.packAll_holds _ _ (by simp) _

/-- The result is what was packed, as far as it fits. -/
theorem answered_result (sz : ServerSize) (answer : Answer) :
    (answered sz answer).result = (PackOp.encodings answer.packed).take sz.kResultScratch :=
  (answered_holds sz answer).data_eq

/-- The result is as long as its size says. -/
theorem answered_sized (sz : ServerSize) (answer : Answer) :
    (answered sz answer).result.length = (answered sz answer).resultSize := by
  have hsize : (answered sz answer).resultSize = (answered sz answer).writer.size := rfl
  rw [answered_result, List.length_take, hsize, (answered_holds sz answer).size_eq, Nat.min_comm]

/-- The reply of a handler can be answered, if it packs one value at most. -/
theorem answered_answerable {answer : Answer} (h : OneValue answer)
    (herror : ∀ error ∈ answer.error, error.length < 2 ^ 32 ∨ sz.bufSize < 2 ^ 32) :
    Answerable sz (answered sz answer) := by
  refine ⟨answered_sized sz answer, ?_⟩
  have hsame : (answered sz answer).error = answer.error := rfl
  rw [hsame]
  cases hanswer : answer.error with
  | some error => exact herror error (by simp [hanswer])
  | none =>
      intro hfits
      obtain ⟨-, hlength⟩ := (answered_holds sz answer).data_of_fits hfits
      rw [answered_result, List.take_of_length_le hlength]
      exact h hanswer

/-- A handler that succeeds. -/
theorem answerable_packed {ops : List PackOp}
    (h : PackOp.encodings ops = [] ∨ Object (PackOp.encodings ops)) :
    Answerable sz (answered sz ⟨ops, none⟩) :=
  answered_answerable (fun _ => h) (by simp)

/-- An error of the server itself. -/
theorem answerable_error {error : List UInt8} (h : error.length < 2 ^ 32) :
    Answerable sz { newReply sz with error := some error } := by
  have hanswerable : Answerable sz (answered sz ⟨[], some error⟩) := by
    refine answered_answerable (by rintro ⟨⟩) fun error' hmem => Or.inl ?_
    cases hmem
    exact h
  exact hanswerable

/-- A message id is spelled by its shortest bytes. -/
theorem spells_msgid (msgid : UInt32) :
    Spells (.int msgid.toNat) (shortestNat msgid.toNat) := by
  have hlt := msgid.toNat_lt
  simpa [Spells] using token_shortestNat (show msgid.toNat < 2 ^ 64 by omega) []

/-- An error response is a response to its request. -/
theorem response_error (msgid : UInt32) {error : List UInt8} (h : error.length < 2 ^ 32) :
    Response msgid.toNat (PackOp.encodings (packError msgid error)) := by
  rw [encodings_error]
  show Response msgid.toNat ([0x94] ++ [0x01] ++ shortestNat msgid.toNat
    ++ (shortest (.str error.length) ++ error) ++ [kNil])
  exact .failure (by decide) (by decide) (spells_msgid msgid) (spells_shortest h) (by decide)

/-- So is a result. -/
theorem response_result (msgid : UInt32) {reply : Reply}
    (h : reply.result = [] ∨ Object reply.result)
    (hsized : reply.result.length = reply.resultSize) :
    Response msgid.toNat (PackOp.encodings (packHeader msgid) ++ resultBytes reply) := by
  have hobject : Object (resultBytes reply) := by
    unfold resultBytes
    split
    · exact Object.of_header (t := .nil) (by decide) rfl rfl
    · rename_i hnonempty
      rcases h with h | h
      · exact absurd (hsized.symm.trans (by rw [h]; rfl)) hnonempty
      · exact h
  rw [encodings_header]
  show Response msgid.toNat ([0x94] ++ [0x01] ++ shortestNat msgid.toNat ++ [kNil]
    ++ resultBytes reply)
  exact .success (by decide) (by decide) (spells_msgid msgid) (by decide) hobject

/-- **Every response is well formed.** -/
theorem responsePayload_wellFormed (msgid : UInt32) {reply : Reply} (h : Answerable sz reply) :
    Response msgid.toNat (responsePayload sz.bufSize msgid reply) := by
  obtain ⟨hsized, hanswer⟩ := h
  unfold responsePayload
  cases hpayload : (fullPayload msgid reply).filter fun payload => payload.length ≤ sz.bufSize with
  | none =>
      rw [Option.getD_none]
      exact response_error msgid (by decide +kernel)
  | some bs =>
      obtain ⟨hfull, hroom⟩ := Option.filter_eq_some_iff.mp hpayload
      rw [Option.getD_some]
      unfold fullPayload at hfull
      cases herror : reply.error with
      | some error =>
          rw [herror] at hfull hanswer
          cases hfull
          refine response_error msgid ?_
          -- An error that is longer than its header can say has no room in the buffer.
          rcases hanswer with hshort | hcap
          · exact hshort
          · rw [encodings_error] at hroom
            simp at hroom
            omega
      | none =>
          rw [herror] at hfull hanswer
          dsimp only at hfull hanswer
          split at hfull
          · cases hfull
          · rename_i hfits
            cases hfull
            exact response_result msgid (hanswer (by simpa using hfits)) hsized

/-- `send_response_` sends the response, and that is all that is seen of it. -/
theorem sendResponse_eq (s : Server sz σ) (msgid : UInt32) {reply : Reply}
    (hsized : reply.result.length = reply.resultSize) (hroom : 32 ≤ sz.bufSize) :
    s.sendResponse msgid reply = s.withOutput (s.sendResponse msgid reply) ∧
      (s.sendResponse msgid reply).sent = s.sent ++
        [.frame (responsePayload sz.bufSize msgid reply)
          (frameBytes (responsePayload sz.bufSize msgid reply))] := by
  have hpayload := buildResponse_eq msgid hsized (show 32 ≤ s.payloadBuf.length by
    rw [s.payloadBuf_length]
    exact hroom)
  rw [s.payloadBuf_length] at hpayload
  have hlength := responsePayload_length_le msgid reply hroom
  unfold sendResponse
  dsimp only
  rw [hpayload, sendFrame_eq _ hlength]
  exact ⟨rfl, rfl⟩

end Server

end SerialRpc
