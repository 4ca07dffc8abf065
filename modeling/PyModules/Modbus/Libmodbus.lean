import PyModules.Frames
import PyModules.Library.Heap

/-!
# The calls of libmodbus

The repository holds libmodbus only as a packed release. What the module relies on is
written here: contexts are created, used, and freed through a handle, every call
tolerates NULL, and a call on a freed context is a use after free. A request through a serial
line without a slave address fails an assertion. What a device answers, and whether a context
is created or connects, is an argument.
-/

namespace PyModules.Modbus

/-- The two kinds of context. -/
inductive Backend
  | rtu
  | tcp
  deriving DecidableEq, Repr

/-- `modbus_t`, as far as the module can tell: its backend and its slave address. -/
structure Context where
  backend : Backend
  slave : ℤ
  deriving DecidableEq, Repr

/-- A request on the wire. -/
structure Request where
  function : ℕ
  addr : ℤ
  nb : ℤ
  deriving DecidableEq, Repr

/-- Memory of the module: its two static variables, the contexts that libmodbus
allocated, and the requests that were sent. -/
structure Mem where
  mb : Option ℕ
  slaveAddr : ℤ
  contexts : Heap Context
  requests : List Request

/-- Memory at import. -/
def Mem.initial : Mem := ⟨none, 1, Heap.empty, []⟩

/-- `MODBUS_MAX_READ_BITS` -/
def MODBUS_MAX_READ_BITS : ℤ := 2000

/-- `MODBUS_MAX_READ_REGISTERS` -/
def MODBUS_MAX_READ_REGISTERS : ℕ := 125

/-- Read `*ctx`. -/
def deref (ctx : ℕ) : CM Mem Context := do
  match (← getMem).contexts.cell ctx with
  | some c => return c
  | none => fault .useAfterFree

/-- The slave address of a new context: none is -1 on a serial line, and TCP uses 255. -/
def Backend.newSlave : Backend → ℤ
  | .rtu => -1
  | .tcp => 255

/-- `modbus_new_rtu` and `modbus_new_tcp`: NULL or a fresh context. -/
def modbusNew (backend : Backend) (creates : Bool) : CM Mem (Option ℕ) := do
  if !creates then return none
  let ctx := (← getMem).contexts.next
  modifyMem fun mem =>
    { mem with contexts := mem.contexts.alloc ⟨backend, backend.newSlave⟩ }
  return some ctx

/-- `modbus_connect` -/
def modbusConnect (ctx : Option ℕ) (connects : Bool) : CM Mem ℤ :=
  match ctx with
  | none => return -1
  | some p => do
    let _ ← deref p
    return if connects then 0 else -1

/-- `modbus_close` -/
def modbusClose (ctx : Option ℕ) : CM Mem Unit :=
  match ctx with
  | none => return ()
  | some p => do
    let _ ← deref p
    return ()

/-- `modbus_free` -/
def modbusFree (ctx : Option ℕ) : CM Mem Unit :=
  match ctx with
  | none => return ()
  | some p => do
    let _ ← deref p
    modifyMem fun mem => { mem with contexts := mem.contexts.free p }

/-- The slave addresses that `modbus_set_slave` accepts. -/
def Backend.Accepts (backend : Backend) (slave : ℤ) : Prop :=
  0 ≤ slave ∧ slave ≤ 247 ∨ backend = .tcp ∧ slave = 255

instance (backend : Backend) (slave : ℤ) : Decidable (backend.Accepts slave) :=
  inferInstanceAs (Decidable (_ ∨ _))

/-- Store a slave address in the context `p`. -/
def Mem.setSlave (mem : Mem) (p : ℕ) (slave : ℤ) : Mem :=
  { mem with contexts := mem.contexts.modify p fun c => { c with slave := slave } }

/-- `modbus_set_slave` -/
def modbusSetSlave (ctx : Option ℕ) (slave : ℤ) : CM Mem ℤ :=
  match ctx with
  | none => return -1
  | some p => do
    let c ← deref p
    if c.backend.Accepts slave then
      modifyMem fun mem => mem.setSlave p slave
      return 0
    else return -1

/-- `modbus_set_response_timeout` -/
def modbusSetResponseTimeout (ctx : Option ℕ) (_sec _usec : ℤ) : CM Mem ℤ :=
  match ctx with
  | none => return -1
  | some p => do
    let _ ← deref p
    return 0

/-- `assert` -/
def assert (p : Prop) [Decidable p] : CM Mem Unit :=
  if p then return () else fault .abort

/-- What `build_request_basis` asserts: on a serial line the context has a slave address. -/
def Context.Addressed (c : Context) : Prop := c.backend = .rtu → c.slave ≠ -1

instance (c : Context) : Decidable c.Addressed := inferInstanceAs (Decidable (_ → _))

/-- Send a request for at most `limit` elements through the context `c`, and store what the
device answers at the start of `dest`; `none` is the result -1. -/
def transmit {α : Type} (c : Context) (function : ℕ) (limit addr nb : ℤ)
    (answer : Option (List α)) (dest : List α) : CM Mem (Option (List α × List α)) := do
  if nb > limit then return none
  assert c.Addressed
  modifyMem fun mem =>
    { mem with
      requests := mem.requests ++ [⟨function, addr % 2 ^ 16, nb % 2 ^ 16⟩] }
  match answer with
  | none => return none
  | some data =>
    if data.length ≤ dest.length then return some (data, data ++ dest.drop data.length)
    else fault .outOfBounds

/-- A request through a context. -/
def request {α : Type} (ctx : Option ℕ) (function : ℕ) (limit addr nb : ℤ)
    (answer : Option (List α)) (dest : List α) : CM Mem (Option (List α × List α)) :=
  match ctx with
  | none => return none
  | some p => do
    let c ← deref p
    transmit c function limit addr nb answer dest

/-- `modbus_read_bits` (function 1) and `modbus_read_input_bits` (function 2): the result
and the destination, one byte a bit. -/
def modbusReadBits (function : ℕ) (ctx : Option ℕ) (addr nb : ℤ)
    (answer : Option (List UInt8)) (dest : List UInt8) : CM Mem (ℤ × List UInt8) := do
  match ← request ctx function MODBUS_MAX_READ_BITS addr nb answer dest with
  | none => return (-1, dest)
  | some (_, dest) => return (nb, dest)

/-- `modbus_read_registers` (function 3) and `modbus_read_input_registers` (function 4):
the result and the destination, one word a register. -/
def modbusReadRegisters (function : ℕ) (ctx : Option ℕ) (addr nb : ℤ)
    (answer : Option (List UInt16)) (dest : List UInt16) : CM Mem (ℤ × List UInt16) := do
  match ← request ctx function MODBUS_MAX_READ_REGISTERS addr nb answer dest with
  | none => return (-1, dest)
  | some (data, dest) => return (data.length, dest)

/-! ## What each call does to a process -/

@[simp] theorem run_deref (p : ℕ) (s : Proc Mem) :
    (deref p).run s = match s.mem.contexts.cell p with
      | some c => .ok (c, s)
      | none => .error .useAfterFree := by
  simp only [deref, StateT.run_bind, run_getMem, ok_bind]
  cases s.mem.contexts.cell p <;> rfl

/-- An assertion that holds does nothing. -/
theorem assert_of_holds {p : Prop} [Decidable p] (h : p) : assert p = pure () := if_pos h

/-- An assertion that fails ends the process. -/
theorem run_assert_failed {p : Prop} [Decidable p] (h : ¬p) (s : Proc Mem) :
    (assert p).run s = .error .abort := by
  rw [assert, if_neg h]
  rfl

/-- `modbus_set_slave` on a live context. -/
theorem run_modbusSetSlave {p : ℕ} {c : Context} {s : Proc Mem}
    (hlive : s.mem.contexts.cell p = some c) (slave : ℤ) :
    (modbusSetSlave (some p) slave).run s =
      if c.backend.Accepts slave then .ok (0, ⟨s.err, s.mem.setSlave p slave⟩)
      else .ok (-1, s) := by
  by_cases haccept : c.backend.Accepts slave <;> simp [modbusSetSlave, hlive, haccept]

end PyModules.Modbus
