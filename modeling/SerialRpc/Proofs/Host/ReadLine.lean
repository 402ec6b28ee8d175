import SerialRpc.Proofs.Host.SerialPort

/-!
# `SerialRpc.Proofs.Host.ReadLine`: a caller that keeps calling `read_line()`

`read_line()` returns `nullopt` on a timeout, and what it has read of a line until then is gone. So
a caller that keeps calling gets what `Lines.heard` says, with the timeouts as interruptions:
`keepCalling_heard`. `keepCalling_iff` says when these are the lines of the stream.
-/

set_option autoImplicit false

namespace SerialRpc

namespace SerialPort

open Lines (scriptEvents heard completeLines)
open Window (Conserves)

/-- What is going to happen: the bytes that are buffered, and what `read_native` does, where no
bytes are a timeout. -/
def events (p : SerialPort) (script : List (List UInt8)) : List (Option UInt8) :=
  p.pending.map some ++ scriptEvents script

/-- The bytes among the events are those pending and those of the script. -/
theorem events_reduceOption (p : SerialPort) (script : List (List UInt8)) :
    (p.events script).reduceOption = p.pending ++ script.flatten := by
  have hpending : (p.pending.map some).reduceOption = p.pending := by
    simp [List.reduceOption]
  rw [events, List.reduceOption_append, Lines.scriptEvents_reduceOption, hpending]

/-- What `read_native` has moved, and what is left of a script. -/
theorem split_script {script : List (List UInt8)} {used rest : List NativeRead}
    (h : script.map NativeRead.moved = used ++ rest) :
    ∃ front back, script = front ++ back ∧ used = front.map .moved ∧ rest = back.map .moved := by
  obtain ⟨front, back, hscript, hused, hrest⟩ := List.map_eq_append_iff.mp h
  exact ⟨front, back, hscript, hused.symm, hrest.symm⟩

/-- The bytes received in reads that all deliver. -/
theorem received_map (chunks : List (List UInt8)) :
    received (chunks.map .moved) = chunks.flatten := by
  rw [received, List.flatMap_map]
  exact List.flatMap_id

/-- A read that delivers is no empty chunk. -/
theorem chunk_ne_nil {chunks : List (List UInt8)}
    (h : ∀ r ∈ chunks.map NativeRead.moved, Delivers r) : ∀ chunk ∈ chunks, chunk ≠ [] := by
  intro chunk hchunk
  obtain ⟨bytes, hbytes, heq⟩ := h (.moved chunk) (List.mem_map_of_mem hchunk)
  cases heq
  exact hbytes

/-- The bytes of a stretch without timeouts. -/
theorem Progress.events {p q : SerialPort} {front : List (List UInt8)} {consumed : List UInt8}
    (h : Progress p (front.map .moved) consumed q) (hfront : ∀ chunk ∈ front, chunk ≠ [])
    (back : List (List UInt8)) :
    p.events (front ++ back) = consumed.map some ++ q.events back := by
  have hconserves := h.conserves
  rw [received_map] at hconserves
  have hsplit : scriptEvents (front ++ back) = scriptEvents front ++ scriptEvents back :=
    List.flatMap_append
  calc p.events (front ++ back)
      = (p.pending ++ front.flatten).map some ++ scriptEvents back := by
        rw [SerialPort.events, hsplit, Lines.scriptEvents_text hfront, List.map_append,
          List.append_assoc]
    _ = (consumed ++ q.pending).map some ++ scriptEvents back := by rw [hconserves]
    _ = consumed.map some ++ q.events back := by
        rw [SerialPort.events, List.map_append, List.append_assoc]

/-- The bytes of a stretch that a timeout ends. -/
theorem Progress.events_timeout {p q : SerialPort} {front : List (List UInt8)}
    {consumed : List UInt8} (h : Progress p ((front ++ [[]]).map .moved) consumed q)
    (hfront : ∀ chunk ∈ front, chunk ≠ []) (hempty : q.pending = []) (back : List (List UInt8)) :
    p.events (front ++ [[]] ++ back) = consumed.map some ++ none :: q.events back := by
  have hconserves := h.conserves
  have hflatten : (front ++ [[]]).flatten = front.flatten := by simp
  rw [received_map, hflatten, Conserves, hempty, List.append_nil] at hconserves
  have hsplit : scriptEvents (front ++ [[]] ++ back)
      = scriptEvents front ++ none :: scriptEvents back := by
    simp [scriptEvents]
  calc p.events (front ++ [[]] ++ back)
      = (p.pending ++ front.flatten).map some ++ none :: scriptEvents back := by
        rw [SerialPort.events, hsplit, Lines.scriptEvents_text hfront, List.map_append,
          List.append_assoc]
    _ = consumed.map some ++ none :: q.events back := by
        rw [hconserves, SerialPort.events, hempty]
        rfl

/-- Chunks that `read_native` has room for. -/
def Chunks (p : SerialPort) (script : List (List UInt8)) : Prop :=
  ∀ chunk ∈ script, chunk.length ≤ p.rxBuf.length

/-- Such chunks fit the buffer. -/
theorem Chunks.fits {p : SerialPort} {script : List (List UInt8)} (h : p.Chunks script) :
    p.Fits (script.map .moved) := by
  intro bytes hbytes
  obtain ⟨chunk, hchunk, heq⟩ := List.mem_map.mp hbytes
  cases heq
  exact h bytes hchunk

/-- A count is never negative, clamped or not. -/
theorem clampToInt_nonneg (count : Nat) : ¬ clampToInt count < 0 := by
  unfold clampToInt
  omega

/-- One call of `read_line()`: it waits and there is no line, or it returns and something has
happened, and then the other lines are those that are heard afterwards. -/
theorem readLineOptional_cases {p : SerialPort} (hopen : p.isOpen = true)
    {script : List (List UInt8)} (hchunks : p.Chunks script) :
    (∃ q rest, p.readLineOptional (script.map .moved) = (q, none, rest) ∧
      heard cr lf p.maxLineLength (p.lineState []) (p.events script) = []) ∨
    ∃ q result back, p.readLineOptional (script.map .moved) = (q, some result, back.map .moved) ∧
      q.isOpen = true ∧ q.maxLineLength = p.maxLineLength ∧ q.Chunks back ∧
      heard cr lf p.maxLineLength (p.lineState []) (p.events script)
        = result.toList ++ heard cr lf p.maxLineLength (q.lineState []) (q.events back) ∧
      (q.events back).length < (p.events script).length := by
  obtain ⟨used, consumed, e, hreads, hprogress, hline, hstops⟩ := readLine_spec hopen hchunks.fits
  obtain ⟨front, back, rfl, rfl, hback⟩ := split_script hreads
  have hopen' : (p.readLine ((front ++ back).map .moved)).port.isOpen = true :=
    hprogress.isOpen.trans hopen
  have hrest : (p.readLine ((front ++ back).map .moved)).port.Chunks back := by
    intro chunk hchunk
    rw [hprogress.size]
    exact hchunks chunk (List.mem_append_right front hchunk)
  have hflag := hprogress.timedOut
  have hheard := hline.heard_append
  unfold readLineOptional
  dsimp only
  generalize p.readLine ((front ++ back).map .moved) = turn at *
  obtain ⟨q, out, ret, rest⟩ := turn
  dsimp only at *
  cases hstops with
  | ended hmoved hret =>
      have hfront := chunk_ne_nil hmoved
      have hevents := hprogress.events hfront back
      -- No timeout has been among the chunks, and so the line is not withheld.
      have hquiet : ¬ (clampToInt out.length < 0 ∨ q.timedOut = true) := by
        rintro (hneg | htimeout)
        · exact clampToInt_nonneg _ hneg
        · rcases hflag.mp htimeout with hbefore | hmoved
          · cases hbefore
          · obtain ⟨chunk, hchunk, heq⟩ := List.mem_map.mp hmoved
            cases heq
            exact hfront [] hchunk rfl
      have hpos := List.length_pos_iff.mpr hline.ne_nil
      dsimp only at hret
      subst hret hback
      refine .inr ⟨q, some out, back, ?_, hopen', hprogress.maxLineLength, hrest, ?_, ?_⟩
      · exact if_neg hquiet
      · exact (congrArg _ hevents).trans (hheard _)
      · change (q.events back).length < (p.beginOperation.events (front ++ back)).length
        rw [hevents, List.length_append, List.length_map]
        omega
  | waits hmoved hempty hret hreads =>
      -- All that was going to happen has happened, within the line.
      have hevents := hprogress.events (chunk_ne_nil hmoved) back
      subst hret hreads
      obtain rfl := List.map_eq_nil_iff.mp hback.symm
      refine .inl ⟨q, [], rfl, ?_⟩
      have hnone : q.events [] = [] := by
        rw [SerialPort.events, hempty]
        rfl
      rw [hnone] at hevents
      exact (congrArg _ hevents).trans (hheard _)
  | timedOut before hused hmoved hempty hret =>
      -- The last chunk that was used is the one without bytes.
      obtain ⟨first, last, rfl, rfl, hlast⟩ := split_script hused
      obtain rfl : last = [[]] := by
        obtain ⟨chunk, others, rfl, hchunk, hothers⟩ := List.map_eq_cons_iff.mp hlast.symm
        cases hchunk
        rw [List.map_eq_nil_iff.mp hothers]
      have hevents := hprogress.events_timeout (chunk_ne_nil hmoved) hempty back
      have htimedOut : q.timedOut = true := hflag.mpr (.inr (by simp))
      dsimp only at hret
      subst hret hback
      refine .inr ⟨q, none, back, ?_, hopen', hprogress.maxLineLength, hrest, ?_, ?_⟩
      · exact if_pos (.inr htimedOut)
      · exact (congrArg _ hevents).trans (hheard _)
      · change (q.events back).length < (p.beginOperation.events (first ++ [[]] ++ back)).length
        rw [hevents, List.length_append, List.length_cons]
        omega
  | failed before number hused hempty hret =>
      -- A script has no failures.
      have hmem : NativeRead.failed number ∈ front.map NativeRead.moved := by
        rw [hused]
        exact List.mem_append_right before List.mem_cons_self
      obtain ⟨chunk, -, heq⟩ := List.mem_map.mp hmem
      cases heq

/-- What a caller that keeps calling gets. -/
theorem keepCalling_heard {p : SerialPort} (hopen : p.isOpen = true) {script : List (List UInt8)}
    (hchunks : p.Chunks script) {n : Nat} (hn : (p.events script).length ≤ n) :
    (p.keepCalling (script.map .moved) n).filterMap id
      = heard cr lf p.maxLineLength (p.lineState []) (p.events script) := by
  induction n generalizing p script with
  | zero =>
      rw [List.eq_nil_of_length_eq_zero (Nat.le_zero.mp hn)]
      rfl
  | succ n ih =>
      obtain ⟨q, rest, hcall, hheard⟩ |
        ⟨q, result, back, hcall, hopen', hmax, hback, hheard, hless⟩ :=
        readLineOptional_cases hopen hchunks
      · rw [keepCalling, hcall, hheard]
        rfl
      · -- Each call that returns uses up something of what happens.
        have hrest := ih hopen' hback (by omega)
        rw [hmax] at hrest
        rw [keepCalling, hcall, hheard, ← hrest]
        cases result <;> rfl

/-- **When no text is lost.** `read_native` delivers a stream in chunks, with timeouts (the chunks
without bytes) between them, to an open port that is not within a CRLF pair; the stream starts with
what is buffered, and no text between its line ends is longer than a line may be. A caller that
keeps calling `read_line()` gets exactly the complete lines of the stream if and only if no timeout
comes within a line that ends later: where the stream so far ends with a byte of a line, no line
ends afterwards. -/
theorem keepCalling_iff {p : SerialPort} (hopen : p.isOpen = true) (hlf : p.pendingLf = false)
    (script : List (List UInt8)) (hchunks : ∀ chunk ∈ script, chunk.length ≤ p.rxBuf.length)
    (hwithin : Lines.Within cr lf p.maxLineLength (p.pending ++ script.flatten)) (n : Nat)
    (hn : p.pending.length + script.length + script.flatten.length ≤ n) :
    (p.keepCalling (script.map .moved) n).filterMap id
        = completeLines cr lf [] (p.pending ++ script.flatten) ↔
      ∀ before after, script = before ++ [] :: after →
        Lines.MidLine cr lf (p.pending ++ before.flatten) →
        ∀ c ∈ after.flatten, ¬ Lines.IsEnd cr lf c := by
  have hlength : (p.events script).length ≤ n := by
    have hscript := Lines.scriptEvents_length_le script
    rw [events, List.length_append, List.length_map]
    omega
  have hstart : p.lineState [] = ⟨false, []⟩ := by rw [lineState, hlf]
  have hstream := p.events_reduceOption script
  have hiff := Lines.heard_iff (show cr ≠ lf by decide)
    (hstream.symm ▸ hwithin : Lines.Within cr lf p.maxLineLength (p.events script).reduceOption)
  rw [keepCalling_heard hopen hchunks hlength, hstart, ← hstream, hiff, events, Lines.spares_map,
    List.nil_append]
  exact Lines.spares_scriptEvents p.pending script

/-- A timeout between two lines. -/
theorem keepCalling_iff_between :
    ((opened 64 100).keepCalling ([[0x61, lf], [], [0x62, cr]].map .moved) 10).filterMap id
      = [[0x61], [0x62]] := by
  have hiff := keepCalling_iff (p := opened 64 100) rfl rfl [[0x61, lf], [], [0x62, cr]]
    (by decide) (by decide) 10 (by decide)
  refine hiff.mpr ?_
  simp only [Lines.forall_split_cons]
  simp [Lines.MidLine, Lines.IsEnd, opened, pending]

/-- A timeout within a line: its first part is gone, and the rest is taken for a line. -/
theorem keepCalling_loses :
    (∀ chunk ∈ [[0x61], [], [0x62, lf]], chunk.length ≤ (opened 64 100).rxBuf.length) ∧
      Lines.Within cr lf (opened 64 100).maxLineLength [0x61, 0x62, lf] ∧
      ((opened 64 100).keepCalling ([[0x61], [], [0x62, lf]].map .moved) 10).filterMap id
        = [[0x62]] ∧
      completeLines cr lf [] [[0x61], [], [0x62, lf]].flatten = [[0x61, 0x62]] := by
  have hchunks : (opened 64 100).Chunks [[0x61], [], [0x62, lf]] := by
    unfold Chunks
    decide
  refine ⟨hchunks, by decide, ?_, by decide⟩
  rw [keepCalling_heard rfl hchunks (by decide)]
  decide

end SerialPort

end SerialRpc
