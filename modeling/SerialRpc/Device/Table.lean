import SerialRpc.Device.Server
import SerialRpc.Lib.Slots

/-!
# `SerialRpc.Device.Table`: the storage behind the handler table

`Server` has its handlers as the list of the entries in use. This file has what is behind
`#if SERIAL_RPC_USE_STL`: a `std::vector` whose entries own their names, and an array of
`MaxHandlers` entries that point to theirs. `Backend` is the interface of the two, and the
rest of the server sees a table through `handler_count_`, `handler_name_` and the members
of the entries: `entries` is what it sees.

`BackedServer` is a server with one of them. `bind` and `dispatch_` are the two members
whose code depends on the switch, and are written here over the table.
-/

set_option autoImplicit false

namespace SerialRpc

/-! ### Names -/

/-- A `const char *` at a terminated string: the memory from there on. -/
structure CString where
  memory : List UInt8
  terminated : 0 ∈ memory

/-- `strlen`. -/
def strlen (s : CString) : Nat := s.memory.idxOf 0

/-- `memcmp(a, b, n) == 0`. -/
def memcmp (a b : List UInt8) (n : Nat) : Bool := a.take n = b.take n

/-- `std::string(s)`. -/
def CString.string (s : CString) : List UInt8 := s.memory.take (strlen s)

/-- `method_is_`. -/
def methodIs (ptr : List UInt8) (len : Nat) (lit : CString) : Bool :=
  len = strlen lit && memcmp ptr lit.memory (strlen lit)

variable {w : SizeT} {σ : Type}

/-! ### The fixed table -/

/-- `Entry` of the fixed backend. -/
structure FixedEntry (w : SizeT) (σ : Type) where
  name : CString
  fn : Handler w σ
  writeSig : List (List UInt8)

/-- `_handlers` and `_handler_count` of the fixed backend. -/
abbrev FixedTable (maxHandlers : Nat) (w : SizeT) (σ : Type) :=
  Slots (FixedEntry w σ) maxHandlers

namespace FixedTable

variable {maxHandlers : Nat}

/-- `handler_name_`: the pointer and the length. -/
def handlerName (t : FixedTable maxHandlers w σ) (i : Fin t.count) : List UInt8 × Nat :=
  ((t.get i).name.memory, strlen (t.get i).name)

/-- `dispatch_user_`: the callable it runs. -/
def dispatchUser (t : FixedTable maxHandlers w σ) (ptr : List UInt8) (len : Nat) :
    Option (Handler w σ) :=
  (t.find fun e => methodIs ptr len e.name).map fun i => (t.get i).fn

/-- `add_handler_`. `none` when the table is full. -/
def addHandler (t : FixedTable maxHandlers w σ) (name : CString) (fn : Handler w σ)
    (writeSig : List (List UInt8)) : Option (FixedTable maxHandlers w σ) :=
  match t.find fun e => methodIs name.memory (strlen name) e.name with
  | some i => some (t.set i { t.get i with fn := fn, writeSig := writeSig })
  | none => if h : t.count < maxHandlers then some (t.push h ⟨name, fn, writeSig⟩) else none

end FixedTable

/-! ### The STL table -/

/-- `_handlers` of the STL backend. -/
abbrev StlTable (w : SizeT) (σ : Type) := List (Entry w σ)

namespace StlTable

/-- `handler_name_`. -/
def handlerName (t : StlTable w σ) (i : Fin t.length) : List UInt8 × Nat :=
  (t[i].name, t[i].name.length)

/-- `dispatch_user_`. -/
def dispatchUser (t : StlTable w σ) (ptr : List UInt8) (len : Nat) : Option (Handler w σ) :=
  (t.find? fun e => e.name.length = len && memcmp e.name ptr len).map Entry.fn

/-- `add_handler_`. -/
def addHandler (t : StlTable w σ) (name : CString) (fn : Handler w σ)
    (writeSig : List (List UInt8)) : StlTable w σ :=
  addHandlerStl t ⟨name.string, fn, writeSig⟩

end StlTable

/-! ### The switch -/

/-- The members behind `#if SERIAL_RPC_USE_STL`, and the two members of an entry that are
the same on both sides. -/
structure Backend (w : SizeT) (σ : Type) where
  Table : Type
  new : Table
  /-- `handler_count_`. -/
  handlerCount : Table → Nat
  handlerCount_new : handlerCount new = 0
  handlerName : (t : Table) → Fin (handlerCount t) → List UInt8 × Nat
  fn : (t : Table) → Fin (handlerCount t) → Handler w σ
  writeSig : (t : Table) → Fin (handlerCount t) → List (List UInt8)
  dispatchUser : Table → List UInt8 → Nat → Option (Handler w σ)
  /-- `none` when the table is full. -/
  addHandler : Table → CString → Handler w σ → List (List UInt8) → Option Table

/-- `SERIAL_RPC_USE_STL` is off. -/
def fixedBackend (maxHandlers : Nat) (w : SizeT) (σ : Type) : Backend w σ where
  Table := FixedTable maxHandlers w σ
  new := Slots.empty _ _
  handlerCount t := t.count
  handlerCount_new := rfl
  handlerName := FixedTable.handlerName
  fn t i := (t.get i).fn
  writeSig t i := (t.get i).writeSig
  dispatchUser := FixedTable.dispatchUser
  addHandler := FixedTable.addHandler

/-- `SERIAL_RPC_USE_STL` is on. -/
def stlBackend (w : SizeT) (σ : Type) : Backend w σ where
  Table := StlTable w σ
  new := []
  handlerCount t := t.length
  handlerCount_new := rfl
  handlerName := StlTable.handlerName
  fn t i := t[i].fn
  writeSig t i := t[i].writeSig
  dispatchUser := StlTable.dispatchUser
  addHandler t name fn writeSig := some (t.addHandler name fn writeSig)

/-- The backend of a build. -/
def ServerSize.backend (sz : ServerSize) (σ : Type) : Backend sz.sizeT σ :=
  if sz.useStl then stlBackend sz.sizeT σ else fixedBackend sz.maxHandlers sz.sizeT σ

namespace Backend

variable (b : Backend w σ)

/-- The bytes of the name of a handler. -/
def name (t : b.Table) (i : Fin (b.handlerCount t)) : List UInt8 :=
  (b.handlerName t i).1.take (b.handlerName t i).2

/-- The names in the table, in order. -/
def names (t : b.Table) : List (List UInt8) := List.ofFn (b.name t)

/-- What the server sees of the table. -/
def entries (t : b.Table) : List (Entry w σ) :=
  List.ofFn fun i => ⟨b.name t i, b.fn t i, b.writeSig t i⟩

/-- A table has as many entries as it says. -/
theorem length_entries (t : b.Table) : (b.entries t).length = b.handlerCount t :=
  List.length_ofFn

/-- A new table has none. -/
theorem entries_new : b.entries b.new = [] := by
  rw [← List.length_eq_zero_iff, length_entries, b.handlerCount_new]

end Backend

/-! ### A server and its table -/

/-- A `Server` with its storage. -/
structure BackedServer (sz : ServerSize) (σ : Type) (b : Backend sz.sizeT σ) where
  server : Server sz σ
  table : b.Table
  shown : server.handlers = b.entries table

namespace BackedServer

variable {sz : ServerSize} {b : Backend sz.sizeT σ}

/-- The constructor. -/
def new (b : Backend sz.sizeT σ) (sketch : σ) (clock : Nat → UInt32) : BackedServer sz σ b where
  server := Server.new sz sketch clock
  table := b.new
  shown := b.entries_new.symm

/-- `bind` and `bind_raw`, through `add_handler_`. -/
def bind (d : BackedServer sz σ b) (name : CString) (fn : Handler sz.sizeT σ)
    (writeSig : List (List UInt8)) : BackedServer sz σ b :=
  match b.addHandler d.table name fn writeSig with
  | some table => ⟨{ d.server with handlers := b.entries table }, table, rfl⟩
  | none =>
      ⟨{ d.server with responseOverflowErrors := d.server.responseOverflowErrors + 1 }, d.table,
        d.shown⟩

/-- `dispatch_user_`. -/
def dispatchUser (d : BackedServer sz σ b) (method : List UInt8) (args : Args sz.sizeT)
    (reply : Reply) : Option (Server sz σ × Reply) :=
  (b.dispatchUser d.table method method.length).map fun fn => d.server.invoke fn args reply

/-- `dispatch_`. -/
def dispatch (d : BackedServer sz σ b) (method : List UInt8) (args : Args sz.sizeT)
    (reply : Reply) : Server sz σ × Reply :=
  match d.server.dispatchBuiltin method args reply with
  | some answer => Server.countFailure answer
  | none =>
      match d.dispatchUser method args reply with
      | some answer => Server.countFailure answer
      | none =>
          ({ d.server with unknownMethodErrors := d.server.unknownMethodErrors + 1 },
            { reply with error := some (SerialRpc.text "unknown method") })

end BackedServer

end SerialRpc
