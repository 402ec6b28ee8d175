import SerialRpc.Proofs.Device.Table
import SerialRpc.Proofs.Paging

/-!
# `SerialRpc.Proofs.ListPages`: the pages of `rpc.list` are exact and maximal

`pack_rpc_list_result_` compares `start` with the size of the table in 32 bits. `PageExact` is what
it should answer for a table of any size: an error, an empty array, or the longest run of entries
that fits.

* `page_maximal`: the entry behind a page does not fit.
* `packRpcListResult_beyond`: nothing behind the result buffer is written.
* `PageExact.of_counted`, `not_pageExact`: the answer is right unless the table has 2^32 entries
  or more and `start` names one that the cut size leaves out.
* `list_page_exact_iff`: the two together. `list_page_wraps`: a table that `bind` can make.
-/

set_option autoImplicit false

namespace SerialRpc

open MsgPack Reader

namespace Server

open ServerSize

variable {sz : ServerSize} {σ : Type}

/-! ### Maximal pages -/

/-- Every entry has a name of less than 65536 bytes, or is larger than `room`. -/
theorem entryBytes_large {room : Nat} {entry : Entry sz.sizeT σ} (hroom : room < 2 ^ 16)
    (hlarge : room < entrySize entry) : room < (entryBytes entry).length := by
  by_cases hname : entry.name.length < 2 ^ 16
  · rwa [entryBytes_length hname]
  · have := name_length_le entry
    omega

/-- What follows a page does not fit behind it. -/
theorem page_maximal {room : Nat} (entries : List (Entry sz.sizeT σ)) (hroom : room < 2 ^ 16) :
    ∃ rest, entries = page room entries ++ rest ∧
      ∀ next ∈ rest.head?,
        room < (pageBytes (page room entries)).length + (entryBytes next).length := by
  -- By induction on the entries: each takes its size off the room that is left.
  induction entries generalizing room with
  | nil => exact ⟨[], rfl, by simp⟩
  | cons entry entries ih =>
      rw [page]
      by_cases hlarge : room < entrySize entry
      · -- The entry does not fit, and it is the next one.
        rw [if_pos hlarge]
        refine ⟨entry :: entries, rfl, ?_⟩
        intro next hnext
        obtain rfl : entry = next := by simpa using hnext
        have := entryBytes_large hroom hlarge
        simp only [pageBytes, List.flatMap_nil, List.length_nil]
        omega
      · -- The entry is on the page, and the rest of the page has what is left of the room.
        rw [if_neg hlarge]
        have hname : entry.name.length < 2 ^ 16 := by
          unfold entrySize listEntrySize at hlarge
          omega
        have hless : room - entrySize entry < 2 ^ 16 := by omega
        obtain ⟨rest, hrest, hfull⟩ := ih hless
        refine ⟨rest, by rw [List.cons_append, ← hrest], ?_⟩
        intro next hnext
        have := hfull next hnext
        rw [pageBytes_cons, List.length_append, entryBytes_length hname]
        omega

/-! ### The memory behind the result buffer -/

/-- Writing behind `written` keeps the length of the buffer, and stays in it. -/
theorem writeBehind_sized {scratch written : Nat} {raw : List UInt8} (hraw : raw.length = scratch)
    (hwritten : written ≤ scratch) (ops : List PackOp) :
    let w := (Writer.new (raw.drop written) (scratch - written)).packAll ops
    (raw.take written ++ w.buf).length = scratch ∧ written + w.size ≤ scratch := by
  intro w
  have hsize : w.size = _ := (Writer.packAll_holds (raw.drop written) (scratch - written)
    (by simp [hraw]) ops).size_eq
  have hbuf : w.buf.length = (raw.drop written).length := Writer.packAll_buf_length _ ops
  refine ⟨?_, by omega⟩
  rw [List.length_append, hbuf, List.length_take, List.length_drop, hraw]
  omega

/-- The loop keeps the length of the buffer. -/
theorem listEntries_length {scratch : Nat} {raw : List UInt8} {written count : Nat}
    (entries : List (Entry sz.sizeT σ)) (hraw : raw.length = scratch) (hwritten : written ≤ scratch)
    {done : List UInt8 × Nat × Nat}
    (h : listEntries scratch raw written count entries = some done) : done.1.length = scratch := by
  induction entries generalizing raw written count with
  | nil =>
      cases h
      exact hraw
  | cons entry entries ih =>
      rw [listEntries] at h
      simp only at h
      split at h
      · split at h
        · cases h
        · cases h
          exact hraw
      · obtain ⟨hlength, hroom⟩ := writeBehind_sized hraw hwritten
          (packListEntry entry.name (signature entry))
        exact ih hlength hroom h

/-- The loop does not reach behind the buffer. -/
theorem listEntries_beyond {scratch : Nat} (beyond : List UInt8) {raw : List UInt8}
    {written count : Nat} (entries : List (Entry sz.sizeT σ)) (hraw : raw.length = scratch)
    (hwritten : written ≤ scratch) :
    listEntries scratch (raw ++ beyond) written count entries
      = (listEntries scratch raw written count entries).map
          fun done => (done.1 ++ beyond, done.2) := by
  induction entries generalizing raw written count with
  | nil => rfl
  | cons entry entries ih =>
      have hdrop : (raw ++ beyond).drop written = raw.drop written ++ beyond :=
        List.drop_append_of_le_length (by omega)
      have htake : (raw ++ beyond).take written = raw.take written :=
        List.take_append_of_le_length (by omega)
      have hroom : scratch - written ≤ (raw.drop written).length := by simp [hraw]
      -- The writer of an entry has the rest of the result buffer, and `beyond` behind that.
      rw [listEntries, listEntries]
      simp only
      split
      · split <;> rfl
      · rw [hdrop, htake, Writer.packAll_beyond hroom]
        obtain ⟨hlength, hwritten'⟩ := writeBehind_sized hraw hwritten
          (packListEntry entry.name (signature entry))
        simp only [← List.append_assoc]
        exact ih hlength hwritten'

/-- A reply whose result buffer has other memory behind it. -/
def replyBefore (sz : ServerSize) (beyond : List UInt8) : Reply :=
  { newReply sz with
    writer := Writer.new (List.replicate sz.kResultScratch 0 ++ beyond) sz.kResultScratch }

/-- Nothing behind the result buffer is written or matters. -/
theorem packRpcListResult_beyond (s : Server sz σ) (start : Nat) (beyond : List UInt8) :
    s.packRpcListResult (replyBefore sz beyond) start
      = ((s.packRpcListResult (newReply sz) start).1,
          { (s.packRpcListResult (newReply sz) start).2 with
            writer := { (s.packRpcListResult (newReply sz) start).2.writer with
              buf := (s.packRpcListResult (newReply sz) start).2.writer.buf ++ beyond } }) := by
  have hcap : sz.kResultScratch ≤ (List.replicate sz.kResultScratch (0 : UInt8)).length := by simp
  unfold packRpcListResult
  simp only
  split
  · simp only [replyBefore, newReply, Writer.packAll_beyond hcap]
  · split
    · rfl
    · rename_i hroom
      have hlist := @listEntries_beyond _ _ _ beyond (List.replicate sz.kResultScratch 0) 3 0
        (s.handlers.drop (startIndex s.handlers.length start)) List.length_replicate
        (show 3 ≤ sz.kResultScratch by omega)
      have hlarger : (replyBefore sz beyond).writer.buf
          = List.replicate sz.kResultScratch 0 ++ beyond := rfl
      have hbuf : (newReply sz).writer.buf = List.replicate sz.kResultScratch 0 := rfl
      rw [hlarger, hbuf, hlist]
      cases hdone : listEntries sz.kResultScratch (List.replicate sz.kResultScratch 0) 3 0
          (s.handlers.drop (startIndex s.handlers.length start)) with
      | none => rfl
      | some done =>
          -- The header is patched at the front.
          have hlength := listEntries_length _ List.length_replicate
            (show 3 ≤ sz.kResultScratch by omega) hdone
          have hset (raw : List UInt8) (i : Nat) (b : UInt8) (hi : i < raw.length) :
              (raw ++ beyond).set i b = raw.set i b ++ beyond := List.set_append_left i b hi
          simp only [Option.map_some]
          rw [hset _ 0 _ (by omega), hset _ 1 _ (by simp; omega), hset _ 2 _ (by simp; omega)]
          rfl

/-- The answer fills the buffer it was given, and no more. -/
theorem packRpcListResult_buf_length (s : Server sz σ) (start : Nat) :
    (s.packRpcListResult (newReply sz) start).2.writer.buf.length = sz.kResultScratch := by
  have hbuf : (newReply sz).writer.buf.length = sz.kResultScratch := List.length_replicate
  unfold packRpcListResult
  simp only
  split
  · exact (Writer.packAll_buf_length _ _).trans hbuf
  · split
    · exact hbuf
    · rename_i hroom
      cases hdone : listEntries sz.kResultScratch (newReply sz).writer.buf 3 0
          (s.handlers.drop (startIndex s.handlers.length start)) with
      | none => exact hbuf
      | some done =>
          simp only [List.length_set]
          exact listEntries_length _ hbuf (by omega) hdone

/-! ### What a page should be -/

/-- The reply to `rpc.list`. -/
def listReply (s : Server sz σ) (start : Nat) : Reply := (s.packRpcListResult (newReply sz) start).2

/-- The entries of `run`, as the host reads them: `[[name, signature], ...]`. -/
def listValue (run : List (Entry sz.sizeT σ)) : Value :=
  .array (run.map fun entry => .array [.str entry.name, .str (signature entry)])

/-- What `rpc.list` should reply from the entry with the number `start` on. -/
structure PageExact (s : Server sz σ) (start : Nat) : Prop where
  behind_end : s.handlers.length ≤ start →
    (s.listReply start).error = none ∧ (s.listReply start).result = PackOp.encodings [.array 0]
  /-- An entry alone is behind the three bytes of an array header. -/
  too_large : (s.listReply start).error = some (SerialRpc.text "response too large") ↔
    ∃ entry, s.handlers[start]? = some entry ∧ sz.bufSize - 8 - 3 < (entryBytes entry).length
  /-- An array16 of whole entries, which is read to its end. The next entry does not fit. -/
  longest : ∀ entry, s.handlers[start]? = some entry →
    (entryBytes entry).length ≤ sz.bufSize - 8 - 3 →
    ∃ run rest, s.handlers.drop start = run ++ rest ∧ run ≠ [] ∧ run.length < 2 ^ 16 ∧
      (s.listReply start).error = none ∧
      (s.listReply start).result = arrayHeader run.length ++ run.flatMap entryBytes ∧
      (s.listReply start).result.length ≤ sz.bufSize - 8 ∧
      (∀ next ∈ rest.head?,
        sz.bufSize - 8 < (s.listReply start).result.length + (entryBytes next).length) ∧
      Value.decode (Reader.new .host64 (s.listReply start).result) = .ok (listValue run,
        ⟨(s.listReply start).result, (s.listReply start).result.length, false⟩)
  /-- Memory behind the result buffer. -/
  untouched : ∀ beyond, (s.packRpcListResult (replyBefore sz beyond) start).2.writer.buf.drop
    (sz.bufSize - 8) = beyond

/-- An array16 of entries is read as they are. -/
theorem decode_run {run : List (Entry sz.sizeT σ)} (hcount : run.length < 2 ^ 16)
    (hnames : ∀ entry ∈ run, entry.name.length < 2 ^ 32) {bs : List UInt8}
    (hbs : bs = arrayHeader run.length ++ pageBytes run) :
    Value.decode (Reader.new .host64 bs) = .ok (listValue run, ⟨bs, bs.length, false⟩) := by
  have hshort : ∀ mi ∈ run.map methodInfo, mi.Short := by
    refine List.forall_mem_map.mpr fun entry hentry => ⟨hnames entry hentry, ?_⟩
    have hsignature := signature_length entry
    unfold kSigBufSize at hsignature
    show (signature entry).length < 2 ^ 32
    omega
  have hhead : Spells (.array (run.map methodInfo).length) (arrayHeader run.length) := by
    rw [List.length_map]
    exact spells_arrayHeader hcount
  have hparse := parseObject_page hhead (by rw [List.length_map]; omega) hshort
  rw [← pageBytes_value, ← hbs, ← List.length_append, ← hbs] at hparse
  rw [decode_parseObject rfl]
  show Value.atCursor (Reader.new .host64 bs) (parseObject bs) = _
  rw [hparse, List.map_map]
  simp only [Value.atCursor, Except.map, Reader.advance, Reader.new, Nat.zero_add]
  rfl

/-! ### When it is -/

/-- The 32-bit size of the table does not hide the entry `start`. -/
def Counted (total start : Nat) : Prop := total ≤ start ∨ start < total % 2 ^ 32

/-- An index inside the table is the one that was asked for. -/
theorem startIndex_eq {total start : Nat} (h : startIndex total start < total) :
    startIndex total start = start := by
  by_cases hstart : start < total % 2 ^ 32
  · rw [startIndex, if_pos hstart]
  · rw [startIndex, if_neg hstart] at h
    exact absurd h (Nat.lt_irrefl total)

/-- The scratch for a result, where the buffer is as large as `config.h` asks. -/
theorem kResultScratch_eq (hmin : 32 ≤ sz.bufSize) : sz.kResultScratch = sz.bufSize - 8 := by
  rw [kResultScratch, if_pos (by unfold kResponseHeaderMax; omega), kResponseHeaderMax]

/-- A page has an entry exactly when the first one fits. -/
theorem page_cons_ne_nil {room : Nat} (hroom : room < 2 ^ 16) (entry : Entry sz.sizeT σ)
    (entries : List (Entry sz.sizeT σ)) :
    page room (entry :: entries) ≠ [] ↔ (entryBytes entry).length ≤ room := by
  rw [page]
  by_cases hlarge : room < entrySize entry
  · -- The size that the device computes is exact, or a bound from below for a long name.
    have := entryBytes_large hroom hlarge
    rw [if_pos hlarge]
    simp
    omega
  · have hname : entry.name.length < 2 ^ 16 := by
      unfold entrySize listEntrySize at hlarge
      omega
    rw [if_neg hlarge, entryBytes_length hname]
    simp
    omega

/-- The page from `start` on, when its first entry fits. -/
theorem Listed.longest (hmin : 32 ≤ sz.bufSize) (hmax : sz.bufSize ≤ 65535) {s : Server sz σ}
    {start : Nat} (hlisted : Listed (page (sz.kResultScratch - 3) (s.handlers.drop start))
      (s.listReply start))
    (hpage : page (sz.kResultScratch - 3) (s.handlers.drop start) ≠ []) :
    ∃ run rest, s.handlers.drop start = run ++ rest ∧ run ≠ [] ∧ run.length < 2 ^ 16 ∧
      (s.listReply start).error = none ∧
      (s.listReply start).result = arrayHeader run.length ++ run.flatMap entryBytes ∧
      (s.listReply start).result.length ≤ sz.bufSize - 8 ∧
      (∀ next ∈ rest.head?,
        sz.bufSize - 8 < (s.listReply start).result.length + (entryBytes next).length) ∧
      Value.decode (Reader.new .host64 (s.listReply start).result) = .ok (listValue run,
        ⟨(s.listReply start).result, (s.listReply start).result.length, false⟩) := by
  have hscratch := kResultScratch_eq hmin
  have hmeasured : Measured (sz.kResultScratch - 3) (s.handlers.drop start) :=
    fun entry _ hsize => by
      unfold entrySize listEntrySize at hsize
      omega
  -- An entry has at least three bytes, so fewer than `2 ^ 16` of them fit into the buffer.
  obtain ⟨-, hthree, hbytes⟩ := pageBytes_sequence hmeasured
  obtain ⟨rest, hrest, hfull⟩ := page_maximal (s.handlers.drop start)
    (show sz.kResultScratch - 3 < 2 ^ 16 by omega)
  have hlength : (s.listReply start).result.length
      = 3 + (pageBytes (page (sz.kResultScratch - 3) (s.handlers.drop start))).length := by
    rw [hlisted.sized, hlisted.size]
  have hnames : ∀ entry ∈ page (sz.kResultScratch - 3) (s.handlers.drop start),
      entry.name.length < 2 ^ 32 := by
    intro entry hentry
    have hpart : (entryBytes entry).length
        ≤ (pageBytes (page (sz.kResultScratch - 3) (s.handlers.drop start))).length :=
      (List.sublist_flatten_of_mem (List.mem_map_of_mem hentry)).length_le
    have hname := name_length_le entry
    omega
  refine ⟨_, rest, hrest, hpage, by omega, hlisted.error, hlisted.result, by omega, ?_,
    decode_run (by omega) hnames hlisted.result⟩
  intro next hnext
  have := hfull next hnext
  omega

/-- The reply to `rpc.list` is right for a table that is counted right. -/
theorem PageExact.of_counted (hmin : 32 ≤ sz.bufSize) (hmax : sz.bufSize ≤ 65535)
    {s : Server sz σ} {start : Nat} (hcounted : Counted s.handlers.length start) :
    s.PageExact start := by
  -- The scratch buffer is the frame less the header of the response.
  have hscratch := kResultScratch_eq hmin
  have hheaders : s.HeadersFit := Or.inl (by omega)
  have hmod := Nat.mod_le s.handlers.length (2 ^ 32)
  -- The buffer behind the scratch is not written to, whatever happens.
  have huntouched : ∀ beyond, (s.packRpcListResult (replyBefore sz beyond) start).2.writer.buf.drop
      (sz.bufSize - 8) = beyond := by
    intro beyond
    rw [packRpcListResult_beyond, ← hscratch]
    exact List.drop_left' (s.packRpcListResult_buf_length start)
  -- The three ways for `packRpcListResult` to end.
  rcases packRpcListResult_cases (hheaders.measured (startIndex s.handlers.length start)) with
    ⟨hempty, hpacked⟩ | ⟨hless, hnone, hpacked⟩ | ⟨hless, hpage, reply, hpacked, hlisted⟩
  · -- Nothing from `start` on.
    have hend : s.handlers.length ≤ start := by
      unfold startIndex at hempty
      rcases hcounted with hend | hinside
      · exact hend
      · rw [if_pos hinside] at hempty
        omega
    have hreply : s.listReply start = answered sz ⟨[.array 0], none⟩ := by
      rw [listReply, hpacked]
    have hresult : (s.listReply start).result = PackOp.encodings [.array 0] := by
      rw [hreply, answered_result]
      refine List.take_of_length_le ?_
      rw [show (PackOp.encodings [.array 0]).length = 1 from rfl]
      omega
    have hnothing : s.handlers[start]? = none := List.getElem?_eq_none hend
    have herror : (s.listReply start).error = none := by
      rw [hreply]
      rfl
    refine ⟨fun _ => ⟨herror, hresult⟩, ?_, ?_, huntouched⟩
    · rw [herror, hnothing]
      simp
    · intro entry hentry
      rw [hnothing] at hentry
      cases hentry
  · -- An entry that is too large by itself.
    have hstart := startIndex_eq hless
    rw [hstart] at hless hnone
    have hreply : (s.listReply start).error = some (SerialRpc.text "response too large") := by
      rw [listReply, hpacked]
    have hlarge : sz.bufSize - 8 - 3 < (entryBytes s.handlers[start]).length := by
      rw [List.drop_eq_getElem_cons hless] at hnone
      have hpage := page_cons_ne_nil (show sz.kResultScratch - 3 < 2 ^ 16 by omega)
        s.handlers[start] (s.handlers.drop (start + 1))
      rcases hnone with hroom | hnil
      · omega
      · rw [hnil, hscratch] at hpage
        simpa using hpage
    refine ⟨fun hend => absurd hend (by omega), ?_, ?_, huntouched⟩
    · rw [hreply, List.getElem?_eq_getElem hless]
      simpa using hlarge
    · intro entry hentry hfits
      rw [List.getElem?_eq_getElem hless, Option.some.injEq] at hentry
      rw [← hentry] at hfits
      omega
  · -- A page.
    have hstart := startIndex_eq hless
    rw [hstart] at hless hpage hlisted
    have hreply : s.listReply start = reply := by
      rw [listReply, hpacked]
    rw [← hreply] at hlisted
    have hfits : (entryBytes s.handlers[start]).length ≤ sz.bufSize - 8 - 3 := by
      have hfirst := hpage
      rw [List.drop_eq_getElem_cons hless, page_cons_ne_nil (by omega), hscratch] at hfirst
      exact hfirst
    refine ⟨fun hend => absurd hend (by omega), ?_, ?_, huntouched⟩
    · rw [hlisted.error, List.getElem?_eq_getElem hless]
      simpa using hfits
    · intro entry _ _
      exact hlisted.longest hmin hmax hpage

/-- The entry `start` of a table that is counted wrong is never listed. -/
theorem not_pageExact (hmin : 32 ≤ sz.bufSize) {s : Server sz σ} {start : Nat}
    (hwrapped : ¬ Counted s.handlers.length start) : ¬ s.PageExact start := by
  -- The index was cut to 32 bits, so `rpc.list` takes it for one past the end.
  rw [Counted, not_or, Nat.not_le, Nat.not_lt] at hwrapped
  obtain ⟨hless, hhidden⟩ := hwrapped
  have hend : startIndex s.handlers.length start = s.handlers.length := by
    rw [startIndex, if_neg (by omega)]
  have hpacked : s.listReply start = answered sz ⟨[.array 0], none⟩ := by
    rw [listReply, packRpcListResult]
    simp only
    rw [hend, if_pos (Nat.le_refl _)]
    rfl
  have herror : (s.listReply start).error = none := by
    rw [hpacked]
    rfl
  have hresult : (s.listReply start).result = [0x90] := by
    rw [hpacked, answered_result]
    exact List.take_of_length_le (by
      rw [kResultScratch_eq hmin, show (PackOp.encodings [.array 0]).length = 1 from rfl]
      omega)
  intro hexact
  have hentry := List.getElem?_eq_getElem hless
  by_cases hfits : (entryBytes s.handlers[start]).length ≤ sz.bufSize - 8 - 3
  · -- It fits, and the array has no room for it.
    obtain ⟨run, -, -, -, -, -, hlist, -⟩ := hexact.longest _ hentry hfits
    rw [hresult] at hlist
    have := congrArg List.length hlist
    simp [arrayHeader] at this
  · -- It does not fit, and there is no error.
    have := hexact.too_large.mpr ⟨_, hentry, by omega⟩
    rw [herror] at this
    cases this

/-- **The pages of `rpc.list` are exact and maximal**, except that a table of 2^32 entries or more
hides the entries behind its size modulo 2^32. -/
theorem list_page_exact_iff (hmin : 32 ≤ sz.bufSize) (hmax : sz.bufSize ≤ 65535)
    (s : Server sz σ) (start : UInt32) :
    s.PageExact start.toNat ↔
      s.handlers.length ≤ start.toNat ∨ start.toNat < s.handlers.length % 2 ^ 32 := by
  constructor
  · intro hexact
    by_contra hwrapped
    exact not_pageExact hmin hwrapped hexact
  · intro hcounted
    exact .of_counted hmin hmax hcounted

/-- A table of two entries, of which one fits. -/
theorem list_page_exact_paged :
    pagedSystem.device.PageExact 0 ∧ pagedSystem.device.PageExact 1 := by
  have htwo : pagedSystem.device.handlers.length = 2 := by decide +kernel
  have hfirst := list_page_exact_iff (by decide) (by decide) pagedSystem.device 0
  have hsecond := list_page_exact_iff (by decide) (by decide) pagedSystem.device 1
  rw [htwo] at hfirst hsecond
  exact ⟨hfirst.mpr (by decide), hsecond.mpr (by decide)⟩

/-! ### A table that is too large -/

/-- Binding entries of new names on the STL backend appends them. -/
theorem binds_new (hstl : sz.useStl = true) (s : Server sz σ) {entries : List (Entry sz.sizeT σ)}
    (hnew : ((s.handlers ++ entries).map Entry.name).Nodup) :
    (entries.foldl bind s).handlers = s.handlers ++ entries := by
  induction entries generalizing s with
  | nil => simp
  | cons entry entries ih =>
      have hnames := hnew
      rw [List.map_append, List.map_cons, List.nodup_append] at hnames
      -- The loop at the start of `add_handler_` finds nothing to replace.
      have hfree : replaceEntry entry s.handlers = none := by
        rw [replaceEntry_eq_none]
        intro hmem
        exact hnames.2.2 _ hmem _ List.mem_cons_self rfl
      have hbind : (s.bind entry).handlers = s.handlers ++ [entry] := by
        simp only [bind, hstl, if_true, addHandlerStl, hfree]
      have hassoc : s.handlers ++ entry :: entries = s.handlers ++ [entry] ++ entries := by simp
      rw [List.foldl_cons, ih (s.bind entry) (by rwa [hbind, ← hassoc]), hbind, hassoc]

/-- A number as 32 digits. -/
def binaryName (i : Nat) : List UInt8 :=
  (List.range 32).map fun k => if i.testBit k then 0x31 else 0x30

/-- Different numbers have different digits. -/
theorem binaryName_injective {i j : Nat} (hi : i < 2 ^ 32) (hj : j < 2 ^ 32)
    (h : binaryName i = binaryName j) : i = j := by
  refine Nat.eq_of_testBit_eq fun k => ?_
  by_cases hk : k < 32
  · have hdigit := congrArg (·[k]?) h
    simp only [binaryName, List.getElem?_map, List.getElem?_range hk, Option.map_some,
      Option.some.injEq] at hdigit
    cases hbit : i.testBit k <;> cases hbit' : j.testBit k <;> simp [hbit, hbit'] at hdigit ⊢
  · have hpow : 2 ^ 32 ≤ 2 ^ k := Nat.pow_le_pow_right (by decide) (by omega)
    rw [Nat.testBit_lt_two_pow (by omega), Nat.testBit_lt_two_pow (by omega)]

/-- A build with the STL on a 64-bit host. -/
def hosted : ServerSize where
  maxHandlers := 0
  bufSize := 256
  header_fits := Nat.le_of_ble_eq_true rfl
  sizeT := .host64
  intBits := 32
  sixteen_le_int := wide.sixteen_le_int
  useStl := true
  logBufSize := 64

/-- `n` entries of different names. -/
def crowd (n : Nat) : List (Entry hosted.sizeT Unit) :=
  (List.range n).map fun i => ⟨binaryName i, fun _ s => .done (⟨[], none⟩, s), rawSignature⟩

/-- A sketch that binds them all. -/
def crowded (n : Nat) : Server hosted Unit := (crowd n).foldl bind (Server.new hosted () fun _ => 0)

/-- So the names of a crowd are all different. -/
theorem crowd_names {n : Nat} (hn : n ≤ 2 ^ 32) : ((crowd n).map Entry.name).Nodup := by
  rw [crowd, List.map_map]
  refine (List.nodup_map_iff_inj_on List.nodup_range).mpr ?_
  intro i hi j hj h
  rw [List.mem_range] at hi hj
  exact binaryName_injective (by omega) (by omega) h

/-- So all of it is bound, in order. -/
theorem crowded_handlers {n : Nat} (hn : n ≤ 2 ^ 32) : (crowded n).handlers = crowd n := by
  have hnew : (((Server.new hosted () fun _ => 0).handlers ++ crowd n).map Entry.name).Nodup :=
    crowd_names hn
  exact binds_new rfl (Server.new hosted () fun _ => 0) hnew

/-- So the table is as long as the crowd. -/
theorem crowded_length {n : Nat} (hn : n ≤ 2 ^ 32) : (crowded n).handlers.length = n := by
  rw [crowded_handlers hn, crowd, List.length_map, List.length_range]

/-- A table of 2^32 entries of different names: the first page is empty. -/
theorem list_page_wraps :
    (crowded (2 ^ 32)).handlers.length = 2 ^ 32 ∧
      ((crowded (2 ^ 32)).handlers.map Entry.name).Nodup ∧
      ¬ (crowded (2 ^ 32)).PageExact (0 : UInt32).toNat := by
  have hlength := crowded_length (Nat.le_refl (2 ^ 32))
  have hnames := crowd_names (Nat.le_refl (2 ^ 32))
  rw [← crowded_handlers (Nat.le_refl (2 ^ 32))] at hnames
  have hwrapped : ¬ Counted (2 ^ 32) (0 : UInt32).toNat := by
    unfold Counted
    decide
  rw [← hlength] at hwrapped
  exact ⟨hlength, hnames, not_pageExact (by decide) hwrapped⟩

end Server

end SerialRpc
