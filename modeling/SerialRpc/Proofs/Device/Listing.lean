import SerialRpc.Proofs.Device.Response

/-!
# `SerialRpc.Proofs.Device.Listing`: a page of `rpc.list`

`pack_rpc_list_result_` computes the size of an entry before it writes it, with
`str_header_len_`, which knows no header for a string of 65536 bytes. `Measured` says that
the computed size is right. Then the loop commits the entries of `page`, whole, and the
reply is one array.

* `listEntries_eq`: what the loop leaves behind.
* `packRpcListResult_answerable`: the reply is one object, or an error.
-/

set_option autoImplicit false

namespace SerialRpc

open MsgPack

namespace Server

open ServerSize

variable {sz : ServerSize} {σ : Type}

/-! ### Signatures -/

/-- A token is cut where the buffer ends. -/
theorem sigAppend_length {cap : Nat} {buf : List UInt8} (h : buf.length ≤ cap - 1)
    (token : List UInt8) : (sigAppend cap buf token).length ≤ cap - 1 := by
  simp only [sigAppend, List.length_append, List.length_take]
  omega

/-- A signature leaves room for its terminator. -/
theorem signature_length (entry : Entry sz.sizeT σ) : (signature entry).length < kSigBufSize := by
  have hfold : ∀ (tokens : List (List UInt8)) (buf : List UInt8), buf.length ≤ kSigBufSize - 1 →
      (tokens.foldl (sigAppend kSigBufSize) buf).length ≤ kSigBufSize - 1 := by
    intro tokens
    induction tokens with
    | nil => exact fun buf h => h
    | cons token tokens ih => exact fun buf h => ih _ (sigAppend_length h token)
  have hlength := hfold entry.writeSig [] (by simp)
  have hpos : 0 < kSigBufSize := by decide
  unfold signature
  omega

/-! ### Entries -/

/-- The bytes of an entry. -/
def entryBytes (entry : Entry sz.sizeT σ) : List UInt8 :=
  PackOp.encodings (packListEntry entry.name (signature entry))

/-- The size of an entry as the code computes it. -/
def entrySize (entry : Entry sz.sizeT σ) : Nat :=
  listEntrySize entry.name.length (signature entry).length

/-- An entry that fits `scratch` bytes by its computed size has this size. -/
def Measured (scratch : Nat) (entries : List (Entry sz.sizeT σ)) : Prop :=
  ∀ entry ∈ entries, entrySize entry ≤ scratch → entry.name.length < 2 ^ 16

/-- What is measured for a buffer is measured for a smaller one. -/
theorem Measured.mono {scratch room : Nat} {entries : List (Entry sz.sizeT σ)}
    (h : Measured scratch entries) (hroom : room ≤ scratch) : Measured room entries :=
  fun entry hentry hsize => h entry hentry (hsize.trans hroom)

/-- The bytes of an entry: an array of its name and its signature. -/
theorem entryBytes_eq (entry : Entry sz.sizeT σ) :
    entryBytes entry
      = [0x92] ++ ((shortest (.str entry.name.length) ++ entry.name)
          ++ (shortest (.str (signature entry).length) ++ signature entry)) := by
  show [0x92] ++ ((PackOp.str entry.name).encoding
    ++ ((PackOp.str (signature entry)).encoding ++ [])) = _
  rw [List.append_nil]
  rfl

/-- `str_header_len_` is right for strings that `pack_str` gives no str32 header. -/
theorem strHeaderLen_eq {len : Nat} (h : len < 2 ^ 16) :
    (shortest (.str len)).length = strHeaderLen len := by
  simp only [shortest, shortestBytes, strHeaderLen]
  repeat' split
  all_goals simp
  all_goals omega

/-- They are as many as `list_entry_size_` says, for a name that is not too long. -/
theorem entryBytes_length {entry : Entry sz.sizeT σ} (h : entry.name.length < 2 ^ 16) :
    (entryBytes entry).length = entrySize entry := by
  have hsig : (signature entry).length < 2 ^ 16 := by
    have := signature_length entry
    unfold kSigBufSize at this
    omega
  simp only [entryBytes_eq, List.length_append, strHeaderLen_eq h, strHeaderLen_eq hsig,
    List.length_singleton, entrySize, listEntrySize]
  omega

/-- They are one object. -/
theorem entryBytes_object {entry : Entry sz.sizeT σ} (h : entry.name.length < 2 ^ 16) :
    Object (entryBytes entry) := by
  have hsig := signature_length entry
  unfold kSigBufSize at hsig
  have hname : Object (PackOp.str entry.name).encoding :=
    Writer.encoding_object (show entry.name.length < 2 ^ 32 by omega) rfl rfl
  have hsignature : Object (PackOp.str (signature entry)).encoding :=
    Writer.encoding_object (show (signature entry).length < 2 ^ 32 by omega) rfl rfl
  rw [entryBytes_eq]
  exact Object.of_children (t := .array 2) (by decide) rfl
    (hname.sequence.append hsignature.sequence)

/-! ### Pages -/

/-- The entries of a page: as many as fit `room` bytes, from the first one on. -/
def page (room : Nat) : List (Entry sz.sizeT σ) → List (Entry sz.sizeT σ)
  | [] => []
  | entry :: entries =>
      if room < entrySize entry then [] else entry :: page (room - entrySize entry) entries

/-- A page is the front of the table. -/
theorem page_front (room : Nat) (entries : List (Entry sz.sizeT σ)) :
    page room entries <+: entries := by
  induction entries generalizing room with
  | nil => exact List.prefix_refl []
  | cons entry entries ih =>
      rw [page]
      split
      · exact List.nil_prefix
      · exact List.cons_prefix_cons.mpr ⟨rfl, ih _⟩

/-- The bytes of a page. -/
def pageBytes (entries : List (Entry sz.sizeT σ)) : List UInt8 := entries.flatMap entryBytes

/-- The bytes of the first entry come first. -/
theorem pageBytes_cons (entry : Entry sz.sizeT σ) (entries : List (Entry sz.sizeT σ)) :
    pageBytes (entry :: entries) = entryBytes entry ++ pageBytes entries := rfl

/-- A page is a sequence of objects, three bytes each or more. -/
theorem pageBytes_sequence {room : Nat} {entries : List (Entry sz.sizeT σ)}
    (h : Measured room entries) :
    Sequence (page room entries).length (pageBytes (page room entries)) ∧
      3 * (page room entries).length ≤ (pageBytes (page room entries)).length ∧
      (pageBytes (page room entries)).length ≤ room := by
  -- By induction on the entries, with the room that is left.
  induction entries generalizing room with
  | nil => exact ⟨.nil, by simp [page], by simp [page, pageBytes]⟩
  | cons entry entries ih =>
      rw [page]
      split
      · -- The entry does not fit, and the page ends before it.
        exact ⟨.nil, by simp, by simp [pageBytes]⟩
      · -- It fits: it is an object of a string and a signature, and more may follow.
        rename_i hroom
        have hname := h entry (by simp) (by omega)
        have hlength := entryBytes_length hname
        have hmin : 3 ≤ entrySize entry := by
          unfold entrySize listEntrySize strHeaderLen
          split <;> split <;> omega
        obtain ⟨hseq, hcount, hfits⟩ := @ih (room - entrySize entry) fun e he hsize =>
          h e (by simp [he]) (by omega)
        rw [pageBytes_cons, List.length_cons, List.length_append, hlength]
        refine ⟨?_, by omega, by omega⟩
        rw [Nat.add_comm]
        exact (entryBytes_object hname).sequence.append hseq

/-- The room for a page is what was not written. -/
theorem page_cons {scratch written : Nat} (hwritten : written ≤ scratch)
    (entry : Entry sz.sizeT σ) (entries : List (Entry sz.sizeT σ)) :
    page (scratch - written) (entry :: entries)
      = if scratch < written + entrySize entry then []
        else entry :: page (scratch - (written + entrySize entry)) entries := by
  rw [page, Nat.sub_sub]
  by_cases hfull : scratch < written + entrySize entry
  · rw [if_pos hfull, if_pos (by omega)]
  · rw [if_neg hfull, if_neg (by omega)]

/-- An entry that fits by its computed size is written whole. -/
theorem writeEntry {scratch : Nat} (written : Nat) {raw : List UInt8}
    (entry : Entry sz.sizeT σ) {w : Writer}
    (hw : w = (Writer.new (raw.drop written) (scratch - written)).packAll
      (packListEntry entry.name (signature entry)))
    (hraw : raw.length = scratch) (hroom : written + entrySize entry ≤ scratch)
    (hname : entry.name.length < 2 ^ 16) :
    w.size = entrySize entry ∧ (raw.take written ++ w.buf).length = scratch ∧
      (raw.take written ++ w.buf).take (written + entrySize entry)
        = raw.take written ++ entryBytes entry := by
  -- The writer starts behind the bytes that are there, in what is left of the scratch.
  have hlength := entryBytes_length hname
  have hholds : w.Holds (raw.drop written) (scratch - written) (entryBytes entry) := by
    rw [hw]
    exact Writer.packAll_holds _ _ (by simp [hraw]) _
  have hsize : w.size = entrySize entry := by
    rw [hholds.size_eq, hlength]
    omega
  have hoverflow : w.overflow = false := by
    rw [hholds.overflow_eq, hlength, decide_eq_false_iff_not]
    omega
  have hbuf : w.buf.length = scratch - written := by
    rw [hw, Writer.packAll_buf_length]
    simp [Writer.new, hraw]
  have hfront : (raw.take written).length = written := by
    rw [List.length_take]
    omega
  -- So the scratch has the old bytes and the entry, in this order.
  refine ⟨hsize, by rw [List.length_append, hfront, hbuf]; omega, ?_⟩
  obtain ⟨hdata, -⟩ := hholds.data_of_fits hoverflow
  rw [Writer.data, hsize] at hdata
  calc (raw.take written ++ w.buf).take (written + entrySize entry)
      = (raw.take written ++ w.buf).take ((raw.take written).length + entrySize entry) := by
        rw [hfront]
    _ = raw.take written ++ w.buf.take (entrySize entry) := List.take_length_add_append _
    _ = raw.take written ++ entryBytes entry := by rw [hdata]

/-- What the loop leaves behind: nothing when the first entry does not fit, or the entries
of the page behind what was there, and their number. -/
theorem listEntries_eq {scratch : Nat} {raw : List UInt8} {written : Nat} (count : Nat)
    {entries : List (Entry sz.sizeT σ)} (hraw : raw.length = scratch) (hwritten : written ≤ scratch)
    (h : Measured scratch entries) :
    (listEntries scratch raw written count entries = none ∧
        count = 0 ∧ entries ≠ [] ∧ page (scratch - written) entries = []) ∨
      ∃ raw', listEntries scratch raw written count entries
          = some (raw', written + (pageBytes (page (scratch - written) entries)).length,
              count + (page (scratch - written) entries).length) ∧
        raw'.length = scratch ∧
        raw'.take (written + (pageBytes (page (scratch - written) entries)).length)
          = raw.take written ++ pageBytes (page (scratch - written) entries) ∧
        (0 < count ∨ entries = [] ∨ page (scratch - written) entries ≠ []) := by
  induction entries generalizing raw written count with
  | nil => exact Or.inr ⟨raw, rfl, hraw, by simp [page, pageBytes], Or.inr (Or.inl rfl)⟩
  | cons entry entries ih =>
      have hsize : listEntrySize entry.name.length (signature entry).length = entrySize entry := rfl
      rw [listEntries, page_cons hwritten]
      simp only [hsize]
      by_cases hfull : scratch < written + entrySize entry
      · -- The entry does not fit: the page ends here.
        simp only [if_pos hfull]
        by_cases hcount : count = 0
        · exact Or.inl ⟨by rw [if_pos hcount], hcount, by simp, trivial⟩
        · exact Or.inr ⟨raw, by rw [if_neg hcount]; rfl, hraw, by simp [pageBytes],
            Or.inl (by omega)⟩
      · -- It fits: it is written behind the others, and the loop goes on.
        have hname := h entry (by simp) (by omega)
        obtain ⟨hwrote, hlength, htake⟩ := writeEntry written entry rfl hraw (by omega) hname
        simp only [if_neg hfull, hwrote]
        have hnext := ih (count + 1) hlength (show written + entrySize entry ≤ scratch by omega)
          fun e he => h e (by simp [he])
        rw [htake] at hnext
        rw [pageBytes_cons, List.length_append, entryBytes_length hname, List.length_cons,
          ← Nat.add_assoc,
          Nat.add_comm (page (scratch - (written + entrySize entry)) entries).length 1,
          ← Nat.add_assoc]
        obtain ⟨-, hcount, -⟩ | ⟨raw', hlist, hlength', htake', -⟩ := hnext
        · -- Only a first entry makes the loop fail.
          omega
        · exact Or.inr ⟨raw', hlist, hlength', by rw [htake', List.append_assoc],
            Or.inr (Or.inr (List.cons_ne_nil _ _))⟩

/-! ### The reply -/

/-- The errors a handler sets are shorter than MessagePack allows a string to be. -/
def ShortErrors (fn : Handler sz.sizeT σ) : Prop :=
  ∀ (s : Server sz σ) (args : Args sz.sizeT), ∀ error ∈ (s.run (fn args s.sketch)).2.1.error,
    error.length < 2 ^ 32

/-- No length outgrows the header it is written in. A result buffer below 64 KiB is enough
for that, as `str_header_len_` assumes. -/
def HeadersFit (s : Server sz σ) : Prop :=
  sz.kResultScratch < 2 ^ 16 ∨
    s.handlers.length < 2 ^ 16 ∧
      ∀ entry ∈ s.handlers, entry.name.length < 2 ^ 16 ∧ ShortErrors entry.fn

/-- Where the headers fit, every entry of the table is measured. -/
theorem HeadersFit.measured {s : Server sz σ} (h : s.HeadersFit) (start : Nat) :
    Measured sz.kResultScratch (s.handlers.drop start) := by
  intro entry hentry hsize
  rcases h with hsmall | ⟨-, hnames⟩
  · unfold entrySize listEntrySize at hsize
    omega
  · exact (hnames entry (List.mem_of_mem_drop hentry)).1

/-- The count of a page fits its header. -/
theorem HeadersFit.count_lt {s : Server sz σ} (h : s.HeadersFit) (start : Nat) :
    (page (sz.kResultScratch - 3) (s.handlers.drop start)).length < 2 ^ 16 := by
  have hcount := (page_front (sz.kResultScratch - 3) (s.handlers.drop start)).length_le
  obtain ⟨-, hthree, hroom⟩ := pageBytes_sequence ((h.measured start).mono (Nat.sub_le _ 3))
  rw [List.length_drop] at hcount
  rcases h with hsmall | ⟨hhandlers, -⟩ <;> omega

/-- The bytes of the array header that is patched in. -/
def arrayHeader (count : Nat) : List UInt8 :=
  [kArray16, UInt8.ofNat (count / 2 ^ 8 % 2 ^ 8), UInt8.ofNat (count % 2 ^ 8)]

/-- The array16 header spells its count. -/
theorem spells_arrayHeader {count : Nat} (h : count < 2 ^ 16) :
    Spells (.array count) (arrayHeader count) := by
  have hbytes : arrayHeader count = kArray16 :: BigEndian.toBytes 2 count := by
    simp [arrayHeader, BigEndian.toBytes, ← UInt8.toNat_inj]
  have htoken := token_family (show lead kArray16 = .sized .array 2 by decide)
    (show count < 256 ^ 2 by omega) []
  rw [hbytes, Spells]
  simpa [Family.token] using htoken

/-- The header is patched over the first three bytes. -/
theorem patch_take {raw : List UInt8} {n : Nat} (a b c : UInt8) (h : 3 + n ≤ raw.length) :
    (((raw.set 0 a).set 1 b).set 2 c).take (3 + n)
      = [a, b, c] ++ (raw.take (3 + n)).drop 3 := by
  obtain ⟨x, y, z, rest, rfl⟩ : ∃ x y z rest, raw = x :: y :: z :: rest := by
    rcases raw with _ | ⟨x, _ | ⟨y, _ | ⟨z, rest⟩⟩⟩
    · simp at h
    · simp at h
      omega
    · simp at h
      omega
    · exact ⟨x, y, z, rest, rfl⟩
  rw [Nat.add_comm]
  rfl

/-- A page is one array of its entries. -/
theorem page_object {s : Server sz σ} (h : s.HeadersFit) (start : Nat) :
    Object (arrayHeader (page (sz.kResultScratch - 3) (s.handlers.drop start)).length
      ++ pageBytes (page (sz.kResultScratch - 3) (s.handlers.drop start))) := by
  exact Object.of_children (spells_arrayHeader (h.count_lt start)) rfl
    (pageBytes_sequence ((h.measured start).mono (Nat.sub_le _ 3))).1

/-- A reply over a page: the array header and the entries. -/
structure Listed (entries : List (Entry sz.sizeT σ)) (reply : Reply) : Prop where
  error : reply.error = none
  overflow : reply.writer.overflow = false
  size : reply.resultSize = 3 + (pageBytes entries).length
  result : reply.result = arrayHeader entries.length ++ pageBytes entries

/-- The result is as long as its size says. -/
theorem Listed.sized {entries : List (Entry sz.sizeT σ)} {reply : Reply}
    (h : Listed entries reply) :
    reply.result.length = reply.resultSize := by
  rw [h.size, h.result, List.length_append]
  rfl

/-- `rpc.list` in its three cases: nothing from `start` on, no room for the first entry, or a
page. -/
theorem packRpcListResult_cases {s : Server sz σ} {start : Nat}
    (hmeasured : Measured sz.kResultScratch
      (s.handlers.drop (startIndex s.handlers.length start))) :
    (s.handlers.length ≤ startIndex s.handlers.length start ∧
      s.packRpcListResult (newReply sz) start = (s, answered sz ⟨[.array 0], none⟩)) ∨
    (startIndex s.handlers.length start < s.handlers.length ∧
      (sz.kResultScratch < 3 ∨ page (sz.kResultScratch - 3)
        (s.handlers.drop (startIndex s.handlers.length start)) = []) ∧
      s.packRpcListResult (newReply sz) start
        = ({ s with responseOverflowErrors := s.responseOverflowErrors + 1 },
            { newReply sz with error := some (SerialRpc.text "response too large") })) ∨
    (startIndex s.handlers.length start < s.handlers.length ∧
      page (sz.kResultScratch - 3)
        (s.handlers.drop (startIndex s.handlers.length start)) ≠ [] ∧
      ∃ reply, s.packRpcListResult (newReply sz) start = (s, reply) ∧
        Listed (page (sz.kResultScratch - 3)
          (s.handlers.drop (startIndex s.handlers.length start))) reply) := by
  unfold packRpcListResult
  dsimp only
  by_cases hempty : s.handlers.length ≤ startIndex s.handlers.length start
  · rw [if_pos hempty]
    exact Or.inl ⟨hempty, rfl⟩
  · rw [if_neg hempty]
    by_cases hroom : sz.kResultScratch < 3
    · rw [if_pos hroom]
      exact Or.inr (Or.inl ⟨by omega, Or.inl hroom, rfl⟩)
    · rw [if_neg hroom]
      have hbuf : (newReply sz).writer.buf.length = sz.kResultScratch := by
        simp [newReply, Writer.new]
      rcases listEntries_eq 0 hbuf (show 3 ≤ sz.kResultScratch by omega) hmeasured with
        ⟨hnone, -, -, hpage⟩ | ⟨raw, hsome, hlength, htake, hfirst⟩
      · rw [hnone]
        exact Or.inr (Or.inl ⟨by omega, Or.inr hpage, rfl⟩)
      · rw [hsome]
        -- The table goes on at the start, so its first entry was written.
        have hpage : page (sz.kResultScratch - 3)
            (s.handlers.drop (startIndex s.handlers.length start)) ≠ [] := by
          rcases hfirst with hcount | hnil | hpage
          · omega
          · exact absurd (List.drop_eq_nil_iff.mp hnil) hempty
          · exact hpage
        refine Or.inr (Or.inr ⟨by omega, hpage, _, rfl, ?_⟩)
        generalize page (sz.kResultScratch - 3)
          (s.handlers.drop (startIndex s.handlers.length start)) = entries at *
        -- The header is patched over the room that was left for it.
        have hwritten : 3 + (pageBytes entries).length ≤ raw.length := by
          have hfront := congrArg List.length htake
          rw [List.length_take, List.length_append, List.length_take, hbuf] at hfront
          omega
        have hpatched := patch_take kArray16 (UInt8.ofNat ((0 + entries.length) / 2 ^ 8 % 2 ^ 8))
          (UInt8.ofNat ((0 + entries.length) % 2 ^ 8)) hwritten
        have hfront : ((newReply sz).writer.buf.take 3).length = 3 := by
          rw [List.length_take, hbuf]
          omega
        rw [htake, List.drop_left' hfront, Nat.zero_add] at hpatched
        refine ⟨rfl, rfl, rfl, ?_⟩
        simp only [Reply.result, Reply.resultSize, Option.getD_some, Nat.zero_add, hpatched]
        rfl

/-- `rpc.list` counts an overflow at most, and leaves one object or an error. -/
theorem packRpcListResult_answerable {s : Server sz σ} (h : s.HeadersFit) (start : Nat) :
    Outputs (fun _ => False) s (s.packRpcListResult (newReply sz) start).1 ∧
      Answerable sz (s.packRpcListResult (newReply sz) start).2 := by
  rcases packRpcListResult_cases (h.measured (startIndex s.handlers.length start)) with
    ⟨-, hpacked⟩ | ⟨-, -, hpacked⟩ | ⟨-, -, reply, hpacked, hlisted⟩
  · rw [hpacked]
    exact ⟨Outputs.refl s,
      answerable_packed (Or.inr (Object.of_header (t := .array 0) (by decide) rfl rfl))⟩
  · rw [hpacked]
    exact ⟨Outputs.of_silent rfl rfl, answerable_error (by decide +kernel)⟩
  · rw [hpacked]
    refine ⟨Outputs.refl s, hlisted.sized, ?_⟩
    rw [hlisted.error]
    intro _
    rw [hlisted.result]
    exact Or.inr (page_object h (startIndex s.handlers.length start))

/-! ### A name that outgrows `str_header_len_` -/

/-- An entry whose computed size is the whole room, and too small: it is cut off. -/
theorem packRpcListResult_cut {s : Server sz σ} {entry : Entry sz.sizeT σ}
    (hentry : s.handlers = [entry]) (hsize : 3 + entrySize entry = sz.kResultScratch)
    (hlong : entrySize entry < (entryBytes entry).length) :
    (s.packRpcListResult (newReply sz) 0).1 = s ∧
      (s.packRpcListResult (newReply sz) 0).2.error = none ∧
      (s.packRpcListResult (newReply sz) 0).2.writer.overflow = false ∧
      (s.packRpcListResult (newReply sz) 0).2.resultSize = sz.kResultScratch ∧
      (s.packRpcListResult (newReply sz) 0).2.result
        = arrayHeader 1 ++ (entryBytes entry).take (entrySize entry) := by
  have hmeasured : listEntrySize entry.name.length (signature entry).length = entrySize entry := rfl
  have hbuf : (newReply sz).writer.buf = List.replicate sz.kResultScratch 0 := rfl
  -- The writer of the entry stops at the end of the buffer.
  have hholds := Writer.packAll_holds ((newReply sz).writer.buf.drop 3) (sz.kResultScratch - 3)
    (by simp [hbuf]) (packListEntry entry.name (signature entry))
  have hwritten := hholds.size_eq
  have hdata := hholds.data_eq
  have hlength := Writer.packAll_buf_length
    (Writer.new ((newReply sz).writer.buf.drop 3) (sz.kResultScratch - 3))
    (packListEntry entry.name (signature entry))
  change _ = min (entryBytes entry).length _ at hwritten
  change _ = (entryBytes entry).take _ at hdata
  rw [Nat.min_eq_right (by omega)] at hwritten
  rw [Writer.data, hwritten] at hdata
  have hlist : listEntries sz.kResultScratch (newReply sz).writer.buf 3 0 (s.handlers.drop 0)
      = some ((newReply sz).writer.buf.take 3
          ++ ((Writer.new ((newReply sz).writer.buf.drop 3) (sz.kResultScratch - 3)).packAll
            (packListEntry entry.name (signature entry))).buf, sz.kResultScratch, 1) := by
    rw [hentry, List.drop_zero, listEntries]
    simp only [hmeasured]
    rw [if_neg (by omega), hwritten, listEntries, Nat.add_sub_cancel' (by omega)]
  generalize ((Writer.new ((newReply sz).writer.buf.drop 3) (sz.kResultScratch - 3)).packAll
    (packListEntry entry.name (signature entry))).buf = written at *
  have hstart : startIndex s.handlers.length 0 = 0 := by
    simp [hentry, startIndex]
  have hpatched : 3 + entrySize entry ≤ ((newReply sz).writer.buf.take 3 ++ written).length := by
    rw [List.length_append, hlength]
    simp [hbuf, Writer.new]
    omega
  have htake := patch_take kArray16 (UInt8.ofNat (1 / 2 ^ 8 % 2 ^ 8)) (UInt8.ofNat (1 % 2 ^ 8))
    hpatched
  have hfront : ((newReply sz).writer.buf.take 3).length = 3 := by
    rw [hbuf, List.take_replicate, List.length_replicate]
    omega
  have hroom : sz.kResultScratch - 3 = entrySize entry := by omega
  rw [hsize, List.drop_take, List.drop_left' hfront, hdata, hroom] at htake
  unfold packRpcListResult
  simp only [hstart, hlist]
  rw [if_neg (by simp [hentry]), if_neg (by omega)]
  exact ⟨rfl, rfl, rfl, rfl, htake⟩

end Server

end SerialRpc
