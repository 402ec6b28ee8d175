import SerialRpc.Device.Table
import SerialRpc.Proofs.Device.Calls
import SerialRpc.Proofs.Device.Paging
import SerialRpc.Proofs.Device.Table

/-!
# `SerialRpc.Proofs.Device.Backends`: the two handler tables agree

`Implements` says what a backend does to the list of its entries: `add_handler_` is an
operation on lists, and `dispatch_user_` finds what `findHandler` finds. The fixed table
implements `addHandlerFixed` and the vector implements `addHandlerStl`
(`fixedBackend_implements`, `stlBackend_implements`), so that a server with a table behind it
binds and dispatches as `Server` does (`bind_server`, `dispatch_eq`).

A run is a list of `Use`s: binds of C strings, and any other events of a device. The two
operations on lists differ when the fixed table is full. A run that binds no more names than
`MaxHandlers` never meets a full table with a new name, and over it the two servers are the
same in every field (`runs_agree`).
-/

set_option autoImplicit false

namespace SerialRpc

variable {w : SizeT} {σ : Type}

/-! ### Names -/

/-- Two spellings of one comparison of bytes. -/
theorem memcmp_iff {a b : List UInt8} {n m : Nat} :
    (n = m ∧ memcmp a b m = true) ↔ n = m ∧ a.take n = b.take m := by
  constructor
  · rintro ⟨rfl, hbytes⟩
    exact ⟨rfl, of_decide_eq_true hbytes⟩
  · rintro ⟨rfl, hbytes⟩
    exact ⟨rfl, decide_eq_true hbytes⟩

/-- A C string ends inside its memory. -/
theorem strlen_le (s : CString) : strlen s ≤ s.memory.length := List.idxOf_le_length

/-- Its bytes are those in front of the terminator. -/
@[simp]
theorem CString.length_string (s : CString) : s.string.length = strlen s := by
  rw [CString.string, List.length_take, Nat.min_eq_left (strlen_le s)]

/-- `method_is_` compares the bytes. -/
theorem methodIs_iff {ptr : List UInt8} {len : Nat} (hlen : len ≤ ptr.length) (lit : CString) :
    methodIs ptr len lit = true ↔ lit.string = ptr.take len := by
  rw [methodIs, Bool.and_eq_true, decide_eq_true_iff, memcmp_iff]
  constructor
  · intro h
    exact h.2.symm
  · intro h
    have hlength := congrArg List.length h
    rw [lit.length_string, List.length_take, Nat.min_eq_left hlen] at hlength
    exact ⟨hlength.symm, h.symm⟩

/-- The vector compares the bytes as well. -/
theorem stlIs_iff {ptr name : List UInt8} {len : Nat} (hlen : len ≤ ptr.length) :
    (decide (name.length = len) && memcmp name ptr len) = true ↔ name = ptr.take len := by
  rw [Bool.and_eq_true, decide_eq_true_iff, memcmp_iff, List.take_length]
  constructor
  · intro h
    exact h.2
  · intro h
    refine ⟨?_, h⟩
    rw [h, List.length_take, Nat.min_eq_left hlen]

/-! ### What a backend does to its entries -/

/-- The backend does `add` to the list of its entries, and looks names up in it. -/
structure Backend.Implements (b : Backend w σ)
    (add : List (Entry w σ) → Entry w σ → Option (List (Entry w σ))) : Prop where
  addHandler : ∀ t name fn writeSig,
    (b.addHandler t name fn writeSig).map b.entries
      = add (b.entries t) ⟨name.string, fn, writeSig⟩
  dispatchUser : ∀ t ptr len, len ≤ ptr.length →
    b.dispatchUser t ptr len = (findHandler (b.entries t) (ptr.take len)).map Entry.fn

namespace Backend

variable (b : Backend w σ)

/-- The names of a table are those of its entries. -/
theorem names_eq (t : b.Table) : b.names t = (b.entries t).map Entry.name := by
  rw [names, entries, List.map_ofFn]
  rfl

end Backend

/-- The loop of `add_handler_` finds the entry and replaces its callable in place. -/
theorem replaceEntry_eq (entry : Entry w σ) (table : List (Entry w σ)) :
    replaceEntry entry table
      = (table.findIdx? fun e => e.name = entry.name).map fun i =>
          table.modify i fun e => { e with fn := entry.fn, writeSig := entry.writeSig } := by
  induction table with
  | nil => rfl
  | cons e table ih =>
      rw [replaceEntry, List.findIdx?_cons]
      by_cases hname : e.name = entry.name
      · simp [hname]
      · rw [if_neg hname, ih, decide_eq_false hname, Option.map_map]
        simp only [Bool.false_eq_true, if_false, Option.map_map]
        rfl

/-! ### The fixed table -/

/-- What the server sees of an entry of the fixed table. -/
def FixedEntry.entry (e : FixedEntry w σ) : Entry w σ := ⟨e.name.string, e.fn, e.writeSig⟩

namespace FixedTable

variable {maxHandlers : Nat}

/-- The entries of the table are its rows in use. -/
theorem entries_eq (t : FixedTable maxHandlers w σ) :
    (fixedBackend maxHandlers w σ).entries t = t.toList.map FixedEntry.entry := by
  rw [Slots.toList, List.map_ofFn]
  rfl

/-- The comparison of the loops, over the entries as the server sees them. -/
theorem methodIs_eq {ptr : List UInt8} {len : Nat} (hlen : len ≤ ptr.length) :
    (fun e : FixedEntry w σ => methodIs ptr len e.name)
      = (fun e : Entry w σ => decide (e.name = ptr.take len)) ∘ FixedEntry.entry := by
  funext e
  rw [Bool.eq_iff_iff, methodIs_iff hlen, Function.comp_apply, decide_eq_true_iff]
  rfl

/-- The entry that `add_handler_` replaces. -/
theorem set_entries (t : FixedTable maxHandlers w σ) (i : Fin t.count) (fn : Handler w σ)
    (writeSig : List (List UInt8)) :
    (fixedBackend maxHandlers w σ).entries
        (t.set i { t.get i with fn := fn, writeSig := writeSig })
      = ((fixedBackend maxHandlers w σ).entries t).modify i.val fun e =>
          { e with fn := fn, writeSig := writeSig } := by
  rw [entries_eq, entries_eq, Slots.toList_set]
  apply List.ext_getElem
  · simp
  · intro j hj _
    rw [List.getElem_map, List.getElem_set, List.getElem_modify]
    by_cases hij : i.val = j
    · subst hij
      rw [if_pos rfl, if_pos rfl, List.getElem_map, Slots.getElem_toList]
      rfl
    · rw [if_neg hij, if_neg hij, List.getElem_map]

/-- The entry that `add_handler_` appends. -/
theorem push_entries (t : FixedTable maxHandlers w σ) (hroom : t.count < maxHandlers)
    (e : FixedEntry w σ) :
    (fixedBackend maxHandlers w σ).entries (t.push hroom e)
      = (fixedBackend maxHandlers w σ).entries t ++ [e.entry] := by
  rw [entries_eq, entries_eq, Slots.toList_push, List.map_append]
  rfl

/-- `add_handler_` is the operation on lists. -/
theorem addHandler_entries (t : FixedTable maxHandlers w σ) (name : CString) (fn : Handler w σ)
    (writeSig : List (List UInt8)) :
    (t.addHandler name fn writeSig).map (fixedBackend maxHandlers w σ).entries
      = addHandlerFixed maxHandlers ((fixedBackend maxHandlers w σ).entries t)
          ⟨name.string, fn, writeSig⟩ := by
  have hindex := t.map_val_find fun e => methodIs name.memory (strlen name) e.name
  rw [methodIs_eq (strlen_le name), ← List.findIdx?_map, ← t.entries_eq] at hindex
  unfold addHandler
  rw [addHandlerFixed, replaceEntry_eq, methodIs_eq (strlen_le name), CString.string, ← hindex]
  -- The loop finds the slot of the name, or there is none.
  cases t.find ((fun e : Entry w σ => decide (e.name = name.memory.take (strlen name)))
      ∘ FixedEntry.entry) with
  | some i => exact congrArg some (t.set_entries i fn writeSig)
  | none =>
      have hlength : ((fixedBackend maxHandlers w σ).entries t).length = t.count :=
        (fixedBackend maxHandlers w σ).length_entries t
      simp only [Option.map_none, hlength]
      by_cases hroom : t.count < maxHandlers
      · rw [dif_pos hroom, if_pos hroom]
        exact congrArg some (t.push_entries hroom ⟨name, fn, writeSig⟩)
      · rw [dif_neg hroom, if_neg hroom]
        rfl

/-- `dispatch_user_` finds the entry of its method. -/
theorem dispatchUser_entries (t : FixedTable maxHandlers w σ) {ptr : List UInt8} {len : Nat}
    (hlen : len ≤ ptr.length) :
    t.dispatchUser ptr len
      = (findHandler ((fixedBackend maxHandlers w σ).entries t) (ptr.take len)).map Entry.fn := by
  rw [dispatchUser, methodIs_eq hlen, findHandler, entries_eq, List.find?_map, ← Slots.map_find,
    Option.map_map, Option.map_map]
  rfl

end FixedTable

/-- **The fixed table** implements `addHandlerFixed`. -/
theorem fixedBackend_implements (maxHandlers : Nat) (w : SizeT) (σ : Type) :
    (fixedBackend maxHandlers w σ).Implements (addHandlerFixed maxHandlers) where
  addHandler := FixedTable.addHandler_entries
  dispatchUser t _ _ hlen := FixedTable.dispatchUser_entries t hlen

/-! ### The vector -/

namespace StlTable

/-- The entries of the vector are its elements. -/
theorem entries_eq (t : StlTable w σ) : (stlBackend w σ).entries t = t := by
  apply List.ext_getElem
  · exact (stlBackend w σ).length_entries t
  · intro i h hi
    have hentry : ((stlBackend w σ).entries t)[i]
        = ⟨t[i].name.take t[i].name.length, t[i].fn, t[i].writeSig⟩ := List.getElem_ofFn h
    rw [hentry, List.take_length]

/-- `add_handler_` on the vector is the other operation on lists. -/
theorem addHandler_entries (t : StlTable w σ) (name : CString) (fn : Handler w σ)
    (writeSig : List (List UInt8)) :
    (stlBackend w σ).entries (t.addHandler name fn writeSig)
      = addHandlerStl ((stlBackend w σ).entries t) ⟨name.string, fn, writeSig⟩ := by
  rw [entries_eq, entries_eq, addHandler]

/-- `dispatch_user_` finds the entry of its method here, too. -/
theorem dispatchUser_entries (t : StlTable w σ) {ptr : List UInt8} {len : Nat}
    (hlen : len ≤ ptr.length) :
    t.dispatchUser ptr len
      = (findHandler ((stlBackend w σ).entries t) (ptr.take len)).map Entry.fn := by
  have hsame : (fun e : Entry w σ => decide (e.name.length = len) && memcmp e.name ptr len)
      = fun e => decide (e.name = ptr.take len) := by
    funext e
    rw [Bool.eq_iff_iff, stlIs_iff hlen, decide_eq_true_iff]
  rw [dispatchUser, hsame, entries_eq, findHandler]

end StlTable

/-- **The vector** implements `addHandlerStl`. -/
theorem stlBackend_implements (w : SizeT) (σ : Type) :
    (stlBackend w σ).Implements fun table entry => some (addHandlerStl table entry) where
  addHandler t name fn writeSig := congrArg some (StlTable.addHandler_entries t name fn writeSig)
  dispatchUser t _ _ hlen := StlTable.dispatchUser_entries t hlen

/-! ### A server and its table -/

/-- So does the table of a build, whichever it has. -/
theorem backend_implements (sz : ServerSize) (σ : Type) :
    (sz.backend σ).Implements fun table entry =>
      if sz.useStl then some (addHandlerStl table entry)
      else addHandlerFixed sz.maxHandlers table entry := by
  unfold ServerSize.backend
  split
  · exact stlBackend_implements sz.sizeT σ
  · exact fixedBackend_implements sz.maxHandlers sz.sizeT σ

namespace BackedServer

variable {sz : ServerSize} {b : Backend sz.sizeT σ}
  {add : List (Entry sz.sizeT σ) → Entry sz.sizeT σ → Option (List (Entry sz.sizeT σ))}

/-- `bind` does to the server what the backend does to its entries. -/
theorem bind_eq (h : b.Implements add) (d : BackedServer sz σ b) (name : CString)
    (fn : Handler sz.sizeT σ) (writeSig : List (List UInt8)) :
    (d.bind name fn writeSig).server
      = match add d.server.handlers ⟨name.string, fn, writeSig⟩ with
        | some handlers => { d.server with handlers := handlers }
        | none =>
            { d.server with
                responseOverflowErrors := d.server.responseOverflowErrors + 1 } := by
  rw [d.shown, ← h.addHandler]
  unfold bind
  cases b.addHandler d.table name fn writeSig with
  | none => rfl
  | some table => rfl

/-- With the table of its build a server binds as `Server` does. -/
theorem bind_server (d : BackedServer sz σ (sz.backend σ)) (name : CString)
    (fn : Handler sz.sizeT σ) (writeSig : List (List UInt8)) :
    (d.bind name fn writeSig).server = d.server.bind ⟨name.string, fn, writeSig⟩ := by
  rw [bind_eq (backend_implements sz σ), Server.bind]
  by_cases hstl : sz.useStl = true
  · rw [if_pos hstl, if_pos hstl]
  · rw [if_neg hstl, if_neg hstl]
    cases addHandlerFixed sz.maxHandlers d.server.handlers ⟨name.string, fn, writeSig⟩ with
    | none => rfl
    | some handlers => rfl

/-- Whatever the table is, a server dispatches as `Server` does. -/
theorem dispatch_eq (h : b.Implements add) (d : BackedServer sz σ b) (method : List UInt8)
    (args : Args sz.sizeT) (reply : Reply) :
    d.dispatch method args reply = d.server.dispatch method args reply := by
  have huser : d.dispatchUser method args reply = d.server.dispatchUser method args reply := by
    rw [dispatchUser, h.dispatchUser d.table method method.length le_rfl, List.take_length,
      ← d.shown, Option.map_map]
    rfl
  -- The built-in methods do not look at the table.
  unfold dispatch Server.dispatch
  rw [huser]
  cases d.server.dispatchBuiltin method args reply with
  | some answer => rfl
  | none => cases d.server.dispatchUser method args reply <;> rfl

end BackedServer

/-! ### Events that bind nothing -/

namespace Server

variable {sz : ServerSize}

/-- A frame leaves the table alone. -/
theorem sendFrame_handlers (s : Server sz σ) (payload : List UInt8) :
    (s.sendFrame payload).handlers = s.handlers := by
  unfold sendFrame
  dsimp only
  split <;> rfl

/-- So does a failure. -/
theorem countFailure_handlers (answer : Server sz σ × Reply) :
    (countFailure answer).1.handlers = answer.1.handlers := by
  unfold countFailure
  split <;> rfl

/-- So does a page of `rpc.list`. -/
theorem packRpcListResult_handlers (s : Server sz σ) (reply : Reply) (start : Nat) :
    (s.packRpcListResult reply start).1.handlers = s.handlers := by
  rcases s.packRpcListResult_server reply start with hsame | hcounted
  · rw [hsame]
  · rw [hcounted]

/-- So does `rpc.attach`, with its hook. -/
theorem attach_handlers (s : Server sz σ) (timeoutMs : Nat) (reply : Reply) :
    (s.attach timeoutMs reply).1.handlers = s.handlers :=
  (runHook_keeps _ s.onAttach).1

/-- So does `rpc.detach`. -/
theorem detach_handlers (s : Server sz σ) : s.detach.handlers = s.handlers := by
  unfold detach
  dsimp only
  split
  · exact (runHook_keeps _ s.onDetach).1
  · rfl

/-- So does every built-in method. -/
theorem AnswersBuiltin.handlers {s : Server sz σ} {method : List UInt8} {args : Args sz.sizeT}
    {reply : Reply} {answer : Server sz σ × Reply}
    (h : AnswersBuiltin s args reply method answer) : answer.1.handlers = s.handlers := by
  cases h with
  | ping => rfl
  | rejected => rfl
  | list => exact s.packRpcListResult_handlers reply _
  | attach => exact s.attach_handlers _ reply
  | detach => exact s.detach_handlers

/-- So does every call. -/
theorem dispatch_handlers (s : Server sz σ) (method : List UInt8) (args : Args sz.sizeT)
    (reply : Reply) : (s.dispatch method args reply).1.handlers = s.handlers := by
  rcases s.dispatch_cases method args reply with ⟨answer, hbuiltin, hdispatch⟩ |
    ⟨entry, -, -, hdispatch⟩ | ⟨-, -, hdispatch⟩
  · rw [hdispatch]
    exact (countFailure_handlers answer).trans hbuiltin.handlers
  · have hrun := (s.run_keeps (entry.fn args s.sketch)).1
    rw [hdispatch]
    exact (countFailure_handlers _).trans hrun
  · rw [hdispatch]

/-- A frame leaves the table as it is. -/
theorem handleFrame_handlers (s : Server sz σ) (payload : List UInt8) :
    (s.handleFrame payload).handlers = s.handlers := by
  rw [handleFrame_eq]
  cases readIncoming sz payload with
  | request msgid method args =>
      exact (sendFrame_handlers _ _).trans (dispatch_handlers _ _ _ _)
  | notification method args => exact dispatch_handlers _ _ _ _
  | malformed => rfl

/-- So does a byte that is read: only `bind` changes the table. -/
theorem pollByte_handlers (s : Server sz σ) (b : UInt8) :
    (s.pollByte b).handlers = s.handlers := by
  unfold pollByte
  dsimp only
  cases ((SerialRpc.demux sz.demuxSize).step s.demux b).2 with
  | none => rfl
  | some report =>
      cases report with
      | frame payload => exact handleFrame_handlers _ payload
      | textLine line truncated => exact (runHook_keeps _ _).1

/-- Only a bind changes the table. -/
theorem act_handlers (s : Server sz σ) {event : Event sz σ} (h : ∀ entry, event ≠ .bind entry) :
    (s.act event).handlers = s.handlers := by
  cases event with
  | byte b => exact s.pollByte_handlers b
  | pollEnd => exact s.checkAttachTimeout_keeps.1
  | notify name args => exact (s.run_keeps (.notify name args fun _ => .done ())).1
  | log b => exact (s.run_keeps (.log [b] (.done ()))).1
  | bind entry => exact absurd rfl (h entry)
  | _ => rfl

end Server

/-! ### Runs -/

/-- What happens to a server with a table behind it. -/
inductive Use (sz : ServerSize) (σ : Type) where
  /-- `bind` or `bind_raw`. -/
  | bind (name : CString) (fn : Handler sz.sizeT σ) (writeSig : List (List UInt8))
  /-- Anything else. -/
  | other (event : Server.Event sz σ) (h : ∀ entry, event ≠ .bind entry)

namespace Use

variable {sz : ServerSize}

/-- What a use binds. -/
def binding : Use sz σ → List (Entry sz.sizeT σ)
  | .bind name fn writeSig => [⟨name.string, fn, writeSig⟩]
  | .other _ _ => []

/-- The binds of a run, in order. -/
def bindings (uses : List (Use sz σ)) : List (Entry sz.sizeT σ) := uses.flatMap binding

/-- The distinct names that a run binds. -/
def boundNames (uses : List (Use sz σ)) : List (List UInt8) :=
  ((bindings uses).map Entry.name).dedup

/-- The callable that was bound last to a name. -/
def lastBound (uses : List (Use sz σ)) (method : List UInt8) : Option (Handler sz.sizeT σ) :=
  ((bindings uses).reverse.find? fun entry => entry.name = method).map Entry.fn

/-- The last use binds behind the others. -/
theorem bindings_append (uses : List (Use sz σ)) (use : Use sz σ) :
    bindings (uses ++ [use]) = bindings uses ++ use.binding := by
  rw [bindings, List.flatMap_append, List.flatMap_singleton]
  rfl

/-- The part of a run binds no more names than the run. -/
theorem length_boundNames_le (uses : List (Use sz σ)) (use : Use sz σ) :
    (boundNames uses).length ≤ (boundNames (uses ++ [use])).length := by
  apply List.Subperm.length_le
  apply List.subperm_of_subset (List.nodup_dedup _)
  intro name hname
  have hbound : name ∈ (bindings uses).map Entry.name := List.mem_dedup.mp hname
  apply List.mem_dedup.mpr
  rw [bindings_append, List.map_append]
  exact List.mem_append_left _ hbound

end Use

namespace BackedServer

variable {sz : ServerSize} {b : Backend sz.sizeT σ}

/-- One use. -/
def act (d : BackedServer sz σ b) : Use sz σ → BackedServer sz σ b
  | .bind name fn writeSig => d.bind name fn writeSig
  | .other event h => ⟨d.server.act event, d.table, (d.server.act_handlers h).trans d.shown⟩

/-- The server of a build without the STL after a run. -/
def runFixed (sz : ServerSize) (sketch : σ) (clock : Nat → UInt32) (uses : List (Use sz σ)) :
    BackedServer sz σ (fixedBackend sz.maxHandlers sz.sizeT σ) :=
  uses.foldl act (BackedServer.new _ sketch clock)

/-- The server of a build with the STL after the same run. -/
def runStl (sz : ServerSize) (sketch : σ) (clock : Nat → UInt32) (uses : List (Use sz σ)) :
    BackedServer sz σ (stlBackend sz.sizeT σ) :=
  uses.foldl act (BackedServer.new _ sketch clock)

/-- Two servers with the binds in `bound` behind them: the same but for the storage. -/
structure Agree (bound : List (Entry sz.sizeT σ))
    (fixed : BackedServer sz σ (fixedBackend sz.maxHandlers sz.sizeT σ))
    (stl : BackedServer sz σ (stlBackend sz.sizeT σ)) : Prop where
  server : fixed.server = stl.server
  tabled : Tabled bound fixed.server.handlers

variable {bound : List (Entry sz.sizeT σ)}
  {fixed : BackedServer sz σ (fixedBackend sz.maxHandlers sz.sizeT σ)}
  {stl : BackedServer sz σ (stlBackend sz.sizeT σ)}

/-- A bind with room for its name. -/
theorem Agree.bind (h : Agree bound fixed stl) (name : CString) (fn : Handler sz.sizeT σ)
    (writeSig : List (List UInt8))
    (hroom : ((bound ++ (Use.bind name fn writeSig).binding).map Entry.name).dedup.length
      ≤ sz.maxHandlers) :
    Agree (bound ++ (Use.bind name fn writeSig).binding) (fixed.bind name fn writeSig)
      (stl.bind name fn writeSig) := by
  let entry : Entry sz.sizeT σ := ⟨name.string, fn, writeSig⟩
  have hfixed := bind_eq (fixedBackend_implements _ _ _) fixed name fn writeSig
  have hstl := bind_eq (stlBackend_implements _ _) stl name fn writeSig
  rw [← h.server] at hstl
  have htabled := h.tabled
  cases hreplace : replaceEntry entry fixed.server.handlers with
  | some handlers =>
      -- The name is in the table, and keeps its place.
      rw [addHandlerFixed, hreplace] at hfixed
      rw [addHandlerStl, hreplace] at hstl
      refine ⟨hfixed.trans hstl.symm, ?_⟩
      rw [hfixed]
      exact htabled.replace hreplace
  | none =>
      -- The name is new, so that the table is shorter than the names of the whole run.
      have happend := htabled.append hreplace
      have hlength := happend.length
      rw [List.length_append, List.length_singleton] at hlength
      have hfree : fixed.server.handlers.length < sz.maxHandlers := by
        have hbound : ((bound ++ [entry]).map Entry.name).dedup.length ≤ sz.maxHandlers := hroom
        omega
      rw [addHandlerFixed, hreplace] at hfixed
      simp only [if_pos hfree] at hfixed
      rw [addHandlerStl, hreplace] at hstl
      refine ⟨hfixed.trans hstl.symm, ?_⟩
      rw [hfixed]
      exact happend

/-- Any other event. -/
theorem Agree.other (h : Agree bound fixed stl) {event : Server.Event sz σ}
    (hevent : ∀ entry, event ≠ .bind entry) :
    Agree bound (fixed.act (.other event hevent)) (stl.act (.other event hevent)) := by
  constructor
  · exact congrArg (fun s => s.act event) h.server
  · have hkept : (fixed.server.act event).handlers = fixed.server.handlers :=
      fixed.server.act_handlers hevent
    show Tabled bound (fixed.server.act event).handlers
    rw [hkept]
    exact h.tabled

/-- Over every run that binds no more names than fit. -/
theorem runs_agree (sketch : σ) (clock : Nat → UInt32) {uses : List (Use sz σ)}
    (hnames : (Use.boundNames uses).length ≤ sz.maxHandlers) :
    Agree (Use.bindings uses) (runFixed sz sketch clock uses) (runStl sz sketch clock uses) := by
  induction uses using List.reverseRecOn with
  | nil => exact ⟨rfl, ⟨List.nodup_nil, fun _ => Iff.rfl, fun _ => rfl⟩⟩
  | append_singleton uses use ih =>
      -- Fewer uses bind no more names, so the induction hypothesis applies.
      have hbefore := ih ((Use.length_boundNames_le uses use).trans hnames)
      rw [runFixed, runStl, List.foldl_append, List.foldl_append, Use.bindings_append]
      cases use with
      | bind name fn writeSig =>
          refine hbefore.bind name fn writeSig ?_
          rw [Use.boundNames, Use.bindings_append] at hnames
          exact hnames
      | other event hevent =>
          rw [Use.binding, List.append_nil]
          exact hbefore.other hevent

/-- What a server with the binds in `bound` runs for a method that is not built in. -/
theorem dispatch_last
    {add : List (Entry sz.sizeT σ) → Entry sz.sizeT σ → Option (List (Entry sz.sizeT σ))}
    (himplements : b.Implements add) {d : BackedServer sz σ b}
    (h : Tabled bound d.server.handlers) {method : List UInt8} (hmethod : ¬ BuiltIn method)
    (args : Args sz.sizeT) (reply : Reply) :
    ∃ answer, Server.Ran ((bound.reverse.find? fun entry => entry.name = method).map Entry.fn)
      args answer d.server (d.dispatch method args reply).1 := by
  rw [dispatch_eq himplements, ← h.lookup method]
  simp only [Server.dispatch, Server.dispatchBuiltin_none hmethod, Server.dispatchUser]
  cases hfind : findHandler d.server.handlers method with
  -- Nobody bound the method, and the answer says so.
  | none => exact ⟨⟨[], some (SerialRpc.text "unknown method")⟩, rfl, rfl⟩
  | some entry =>
      -- Counting a failure comes behind the run, and runs nothing.
      have hcount (answer : Server sz σ × Reply) :
          (Server.countFailure answer).1.invoked = answer.1.invoked := by
        unfold Server.countFailure
        split <;> rfl
      have hrun : (d.server.run (entry.fn args d.server.sketch)).1.invoked
          = d.server.invoked := by
        rw [(d.server.run_outputs _).eq]
        rfl
      refine ⟨(d.server.run (entry.fn args d.server.sketch)).2.1, (hcount _).trans ?_⟩
      exact congrArg (· ++ [_]) hrun

end BackedServer

end SerialRpc
