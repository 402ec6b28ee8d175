import SerialRpc.Host.Listing
import SerialRpc.Proofs.Host.Calls

/-!
# `SerialRpc.Proofs.Host.Paging`: the client, from a page to the list

* `parseObject_page`: an array of `[name, signature]` pairs is read as the page it is.
* `collectFrom_page`: a page of new names is appended.
* `readMessage_notification`: a notification is no response.
-/

set_option autoImplicit false

namespace SerialRpc

open MsgPack Reader

/-! ### Pages -/

/-- `[name, signature]`. -/
def MethodInfo.value (mi : MethodInfo) : Value := .array [.str mi.name, .str mi.signature]

/-- The strings have headers. -/
def MethodInfo.Short (mi : MethodInfo) : Prop :=
  mi.name.length < 2 ^ 32 ∧ mi.signature.length < 2 ^ 32

/-- A page that is read back is the page that was sent. -/
theorem parseRpcList_page (page : List MethodInfo) :
    parseRpcList (.array (page.map MethodInfo.value)) = .ok page := by
  rw [parseRpcList]
  induction page with
  | nil => rfl
  | cons mi page ih =>
      rw [List.map_cons, List.mapM_cons, ih]
      rfl

/-- What the encoding of a page keeps, and what it asks for. -/
theorem page_value {page : List MethodInfo} (h : ∀ mi ∈ page, mi.Short) :
    Value.SizedElems (page.map MethodInfo.value) ∧
      Value.normalizedElems (page.map MethodInfo.value) = page.map MethodInfo.value ∧
      Value.nestingElems (page.map MethodInfo.value) ≤ 2 := by
  induction page with
  | nil => exact ⟨trivial, rfl, Nat.zero_le 2⟩
  | cons mi page ih =>
      obtain ⟨⟨hname, hsignature⟩, hrest⟩ := List.forall_mem_cons.mp h
      obtain ⟨hsized, hnormalized, hnesting⟩ := ih hrest
      refine ⟨⟨⟨show (2 : Nat) < 2 ^ 32 by decide, hname, hsignature, trivial⟩, hsized⟩, ?_, ?_⟩
      · rw [List.map_cons, Value.normalizedElems, hnormalized]
        rfl
      · exact max_le (Nat.le_refl 2) hnesting

/-- **A page is read as it is**, whatever header counts its entries. -/
theorem parseObject_page {page : List MethodInfo} {head : List UInt8}
    (hhead : Spells (.array page.length) head) (hlength : page.length < 2 ^ 32)
    (h : ∀ mi ∈ page, mi.Short) :
    parseObject (head ++ PackOp.encodings (Value.opsElems (page.map MethodInfo.value)))
      = .ok (.array (page.map MethodInfo.value), head.length
          + (PackOp.encodings (Value.opsElems (page.map MethodInfo.value))).length) := by
  obtain ⟨hsized, hnormalized, hnesting⟩ := page_value h
  have hdeep : Value.nestingElems (page.map MethodInfo.value) ≤ Value.kMaxDepth :=
    Nat.le_trans hnesting (by decide)
  rw [← List.length_map MethodInfo.value] at hhead hlength
  have hparse := Value.parseNested_array hhead hlength hsized hdeep []
  rwa [List.append_nil, hnormalized] at hparse

/-- A page of new names. -/
theorem addPage_new {out page : List MethodInfo} (added : Nat)
    (h : ((out ++ page).map MethodInfo.name).Nodup) :
    addPage out added page = (out ++ page, added + page.length) := by
  induction page generalizing out added with
  | nil => rw [addPage, List.append_nil, List.length_nil, Nat.add_zero]
  | cons mi page ih =>
      have hnew : (out.any fun e => e.name = mi.name) = false := by
        rw [List.any_eq_false]
        intro e he hsame
        rw [List.map_append, List.map_cons] at h
        exact (List.nodup_append.mp h).2.2 e.name (List.mem_map_of_mem he) mi.name
          List.mem_cons_self (of_decide_eq_true hsame)
      have hassoc : out ++ mi :: page = out ++ [mi] ++ page := by simp
      rw [addPage, hnew, if_neg Bool.false_ne_true, ih (added + 1) (hassoc ▸ h), hassoc,
        List.length_cons]
      congr 1
      omega

section

variable {σ : Type} {fetchPage : σ → Nat → σ × Fetched} {s s' : σ} {out : List MethodInfo}

/-- What fetching a page keeps, the loop keeps. -/
theorem collectFrom_keeps {P : σ → Prop} (hfetch : ∀ s start, P s → P (fetchPage s start).1)
    (iters : Nat) (out : List MethodInfo) {s : σ} (h : P s) :
    P (collectFrom fetchPage iters out s).1 := by
  induction iters generalizing out s with
  | zero => exact h
  | succ iters ih =>
      have hkept := hfetch s out.length h
      rw [collectFrom]
      rcases hfetched : fetchPage s out.length with ⟨s', (_ | ⟨mi, page⟩) | e | _⟩ <;>
        rw [hfetched] at hkept
      · exact hkept
      · simp only
        split
        · exact hkept
        · exact ih _ hkept
      · exact hkept
      · exact hkept

/-- An empty page ends the loop. -/
theorem collectFrom_empty (iters : Nat) {names : Nat} (hnames : out.length = names)
    (h : fetchPage s names = (s', .page [])) :
    collectFrom fetchPage (iters + 1) out s = (s', .returned out) := by
  rw [collectFrom, hnames, h]

/-- A page of new names, and the loop goes on. -/
theorem collectFrom_page (iters : Nat) {names : Nat} (hnames : out.length = names)
    {page : List MethodInfo} (hne : page ≠ []) (hnew : ((out ++ page).map MethodInfo.name).Nodup)
    (h : fetchPage s names = (s', .page page)) :
    collectFrom fetchPage (iters + 1) out s = collectFrom fetchPage iters (out ++ page) s' := by
  cases page with
  | nil => exact absurd rfl hne
  | cons mi page =>
      rw [collectFrom, hnames, h]
      simp only [addPage_new 0 hnew]
      rw [if_neg (by simp)]

end

/-! ### Other frames -/

/-- A notification is no response. -/
theorem readMessage_notification {rest : List UInt8} {msgid : Nat} {isError : Bool}
    {error result : Value} :
    readMessage (0x93 :: 0x02 :: rest) ≠ .response msgid isError error result := by
  have hthree : Spells (.array 3) [0x93] := by decide
  have htwo : Spells (.int 2) [0x02] := by decide
  -- The head is read as an array of three and the number 2, so it is that of a notification.
  have hcount : header (asArray .host64) (0x93 :: 0x02 :: rest) = some (3, 1) :=
    header_of_spells hthree (show asArray .host64 (.array 3) = some 3 by decide) _
  have htype : header (asInt (-(maxSigned 32 : Nat) - 1) (maxSigned 32)) (0x02 :: rest)
      = some (2, 1) :=
    header_of_spells htwo
      (show asInt (-(maxSigned 32 : Nat) - 1) (maxSigned 32) (.int 2) = some 2 by decide) _
  have hhead : messageHead (0x93 :: 0x02 :: rest) = some ((3, 2), 2) := by
    rw [messageHead, hcount, Option.bind_some]
    show (header _ (0x02 :: rest)).map _ = _
    rw [htype]
    rfl
  have hnone : responseHead (0x93 :: 0x02 :: rest) = none := by
    rw [responseHead, hhead]
    rfl
  rw [readMessage, hnone]
  intro hmessage
  dsimp only at hmessage
  split at hmessage
  · split at hmessage <;> cases hmessage
  · cases hmessage

/-! ### Message ids -/

/-- Fetching a page takes one message id, or none when nothing more is known of the environment. -/
theorem RPC.fetchPage_ids (first : UInt32) (memory : Memory) (l : RPC.Listing) (start : Nat)
    (h : l.client.Sized ∧ l.client.nextMsgid = first + UInt32.ofNat l.requests.length) :
    (RPC.fetchPage memory l start).1.client.Sized ∧
      (RPC.fetchPage memory l start).1.client.nextMsgid
        = first + UInt32.ofNat (RPC.fetchPage memory l start).1.requests.length := by
  obtain ⟨hsized, hids⟩ := h
  rw [RPC.fetchPage]
  cases l.exchanges with
  | nil => exact ⟨hsized, hids⟩
  | cons exchange exchanges =>
      have hlater := RPC.callValues_later hsized exchange.write (text "rpc.list")
        [.int (Int64.ofNat start)] exchange.start exchange.attempts memory
      refine ⟨hlater.sized, hlater.nextMsgid.trans ?_⟩
      simp only [List.length_append, List.length_singleton]
      rw [hids, UInt32.ofNat_add, UInt32.add_assoc]
      rfl

/-- `list` takes as many message ids as it makes requests. -/
theorem RPC.list_ids {c : RPC} (h : c.Sized) (exchanges : List RPC.Exchange) :
    (c.list exchanges).1.client.Sized ∧
      (c.list exchanges).1.client.nextMsgid
        = c.nextMsgid + UInt32.ofNat (c.list exchanges).1.requests.length :=
  collectFrom_keeps (RPC.fetchPage_ids c.nextMsgid .unlimited) kMaxListPages []
    ⟨h, (UInt32.add_zero c.nextMsgid).symm⟩

end SerialRpc
