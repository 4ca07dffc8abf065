import PyModules.Modbus.Libmodbus

/-!
# The Modbus extension module

The functions of `pymodbus.c`. Constructors and setters hand the static context `mb`
to libmodbus; `read_registers` converts its arguments, asks for a block of bits or
registers, and decodes the block into a list.
-/

namespace PyModules.Modbus

/-- What libmodbus answers a constructor. -/
structure NewEnv where
  /-- `modbus_new_rtu` or `modbus_new_tcp` returns a context. -/
  creates : Bool
  /-- `modbus_connect` succeeds. -/
  connects : Bool
  /-- `modbus_strerror(errno)` after a failure. -/
  strerror : String
  deriving DecidableEq, Repr

/-- What `new_rtu` and `new_tcp` do once their arguments are parsed. -/
def construct (backend : Backend) (env : NewEnv) : CM Mem PyRef := do
  let mb ← modbusNew backend env.creates
  modifyMem fun mem => { mem with mb := mb }
  if mb.isNone then raise env.strerror
  else
    let rc ← modbusConnect mb env.connects
    if rc = -1 then
      modbusFree mb
      raise env.strerror
    else
      let _ ← modbusSetSlave mb (← getMem).slaveAddr
      return pyTrue

/-- The arguments of `new_rtu`. -/
def parseNewRtu (args : List PyObject) : Option SerialArgs := parseSerial 9600 args

/-- `new_rtu` -/
def newRtu (args : List PyObject) (env : NewEnv) : CM Mem PyRef :=
  match parseNewRtu args with
  | none => raise "Invalid input parameter."
  | some _ => construct .rtu env

/-- `PyArg_ParseTuple(args, "s|i", ...)` with the default port of `new_tcp`. -/
def parseNewTcp (args : List PyObject) : Option (List UInt8 × ℤ) := do
  if 2 < args.length then none
  let ip ← required convertStr args 0
  let port ← optional convertInt 502 args 1
  return (ip, port)

/-- `new_tcp` -/
def newTcp (args : List PyObject) (env : NewEnv) : CM Mem PyRef :=
  match parseNewTcp args with
  | none => raise "Invalid input parameter."
  | some _ => construct .tcp env

/-- `set_slave`, which parses its argument into the static variable. -/
def setSlave (args : List PyObject) : CM Mem PyRef := do
  match parseOne convertInt args with
  | none => raise "Invalid input parameter."
  | some slave =>
    modifyMem fun mem => { mem with slaveAddr := slave }
    if slave < 0 ∨ slave > 247 then raise "Invalid slave_addr = [0 .. 247]"
    else
      let _ ← modbusSetSlave (← getMem).mb slave
      return pyTrue

/-- `PyArg_ParseTuple(args, "i|i", ...)` into two `unsigned int`. -/
def parseTimeout (args : List PyObject) : Option (ℤ × ℤ) := do
  if 2 < args.length then none
  let sec ← required convertInt args 0
  let usec ← optional convertInt 0 args 1
  return (sec % 2 ^ 32, usec % 2 ^ 32)

/-- `set_timeout` -/
def setTimeout (args : List PyObject) : CM Mem PyRef := do
  match parseTimeout args with
  | none => raise "Invalid input parameter."
  | some (sec, usec) =>
    let _ ← modbusSetResponseTimeout (← getMem).mb sec usec
    return pyTrue

/-- `modbus_close(mb); modbus_free(mb);`, the body of `free_rtu` and `free_tcp`. -/
def release : CM Mem PyRef := do
  let mb := (← getMem).mb
  modbusClose mb
  modbusFree mb
  return pyNone

/-- `free_rtu` -/
def freeRtu : CM Mem PyRef := release

/-- `free_tcp` -/
def freeTcp : CM Mem PyRef := release

/-! ## Reading -/

/-- `enum PY_DATA_TYPE` -/
inductive PyDataType
  | u16
  | u32
  | s16
  | s32
  | f16
  | d32
  | b08
  deriving DecidableEq, Repr

/-- The names of the data types, in the order of the enumeration. -/
def typeNames : List (PyDataType × List UInt8) :=
  [(.u16, lit "U16"), (.u32, lit "U32"), (.s16, lit "S16"), (.s32, lit "S32"),
    (.f16, lit "F16"), (.d32, lit "D32"), (.b08, lit "B08")]

/-- The search loop: `memcmp` over the three letters of each name. The first byte that
differs decides, and the NUL after a short name differs from every letter. -/
def findType (typeName : List UInt8) : Option PyDataType :=
  (typeNames.find? fun entry => entry.2.isPrefixOf typeName).map Prod.fst

/-- Registers or bits for one element. -/
def PyDataType.width : PyDataType → ℤ
  | .u16 | .s16 | .b08 => 1
  | .u32 | .s32 | .f16 => 2
  | .d32 => 4

/-- `nb`, in 32-bit arithmetic. -/
def count (type : PyDataType) (pynb : ℤ) : ℤ := toInt32 (type.width * pynb)

/-- Sizes that differ between the platforms the module is built for. -/
structure Platform where
  /-- Bits of a C `long`. -/
  longBits : ℕ
  /-- The most items that the interpreter can give a list. -/
  listMax : ℤ
  deriving DecidableEq, Repr

/-- ARMv7 -/
def armv7 : Platform := ⟨32, 536870911⟩

/-- `PyLong_AsLong` -/
def asLong (target : Platform) (a : PyAtom) : CM Mem ℤ :=
  match a.intValue with
  | none => do
    pyErrSet .type "an integer is required"
    return -1
  | some v =>
    if -2 ^ (target.longBits - 1) ≤ v ∧ v < 2 ^ (target.longBits - 1) then return v
    else do
      pyErrSet .overflow "Python int too large to convert to C long"
      return -1

/-- `PyUnicode_AsUTF8` -/
def asUTF8 (a : PyAtom) : CM Mem (Option (List UInt8)) :=
  match a with
  | .str (some bytes) => return some bytes
  | .str none => do
    pyErrSet .unicodeEncode "surrogates not allowed"
    return none
  | _ => do
    pyErrSet .type "bad argument type for built-in operation"
    return none

/-- The text of a C string in a message. -/
def messageText (bytes : List UInt8) : String :=
  (String.fromUTF8? ⟨(bytes.takeWhile (· ≠ 0)).toArray⟩).getD ""

/-- The message for a type name that is not in the table. -/
def typeMessage (typeName : List UInt8) : String :=
  "Invalid data type [" ++ messageText typeName ++
    "]. Vaild type (U16, U32, S16, S32, F16, D32, B08)"

/-- What the device answers a request for bits or for registers. -/
structure ReadEnv where
  bits : Option (List UInt8)
  words : Option (List UInt16)
  /-- `modbus_strerror(errno)` after a failure. -/
  strerror : String
  deriving DecidableEq, Repr

/-- The two destination arrays. -/
structure Dest where
  u16 : List UInt16
  u08 : List UInt8
  deriving DecidableEq, Repr

/-- The arrays before the read. -/
def Dest.zero : Dest :=
  ⟨List.replicate MODBUS_MAX_READ_REGISTERS 0, List.replicate MODBUS_MAX_READ_REGISTERS 0⟩

/-- The switch over the function code: the result and the arrays, or `none` for a code
that is not supported. -/
def dispatch (mb : Option ℕ) (code addr nb : ℤ) (env : ReadEnv) (dest : Dest) :
    CM Mem (Option (ℤ × Dest)) := do
  if code = 1 ∨ code = 2 then
    let (regs, u08) ← modbusReadBits code.toNat mb addr nb env.bits dest.u08
    return some (regs, { dest with u08 := u08 })
  else if code = 3 ∨ code = 4 then
    let (regs, u16) ← modbusReadRegisters code.toNat mb addr nb env.words dest.u16
    return some (regs, { dest with u16 := u16 })
  else return none

/-- `dest[k]` -/
def load {α : Type} (dest : List α) (k : ℕ) : CM Mem α :=
  match dest[k]? with
  | some v => return v
  | none => fault .outOfBounds

/-- The loop over `j` that adds up the words of one element, `todo` words from the `j`-th
on; `wrap` is the arithmetic of the accumulator's type. -/
def accumulate (wrap : ℤ → ℤ) (u16 : List UInt16) (base : ℕ) : ℕ → ℕ → ℤ → CM Mem ℤ
  | 0, _, ieee => return ieee
  | todo + 1, j, ieee => do
    let word ← load u16 (j + base)
    accumulate wrap u16 base todo (j + 1) (wrap (ieee + wrap (word.toNat * 2 ^ (j * 16))))

/-- Arithmetic of `unsigned int`. -/
def toUInt32 (v : ℤ) : ℤ := v % 2 ^ 32

/-- Arithmetic of `long long`. -/
def toInt64 (v : ℤ) : ℤ := Int.bmod v (2 ^ 64)

/-- Element `i` of the result. `Py_BuildValue` fetches a C `int` for the formats `h`,
`i`, and `B`. -/
def element (type : PyDataType) (dest : Dest) (i : ℕ) : CM Mem PyAtom := do
  match type with
  | .u16 => return .int (← load dest.u16 i).toNat
  | .u32 => return .int (toInt32 (← accumulate toUInt32 dest.u16 (i * 2) 2 0 0))
  | .s16 => return .int (Int.bmod (← load dest.u16 i).toNat (2 ^ 16))
  | .s32 => return .int (← accumulate toInt32 dest.u16 (i * 2) 2 0 0)
  | .f16 => return .float (.single (.ofInt 32 (← accumulate toInt32 dest.u16 (i * 2) 2 0 0)))
  | .d32 => return .float (.double (.ofInt 64 (← accumulate toInt64 dest.u16 (i * 4) 4 0 0)))
  | .b08 => return .int (← load dest.u08 i).toNat

/-- `PyList_New`: the items set so far, none; or NULL. -/
def listNew (target : Platform) (n : ℤ) : CM Mem (Option (List PyAtom)) := do
  if n < 0 then
    pyErrSet .system "bad argument to internal function"
    return none
  else if n > target.listMax then
    pyErrSet .memory ""
    return none
  else return some []

/-- The loop over `i` that sets the items, `todo` items from the `i`-th on. -/
def setItems (element : ℕ → CM Mem PyAtom) :
    ℕ → ℕ → Option (List PyAtom) → CM Mem (Option (List PyAtom))
  | 0, _, pList => return pList
  | todo + 1, i, pList => do
    let v ← element i
    match pList with
    | none => fault .nullPointer
    | some items => setItems element todo (i + 1) (some (items ++ [v]))

/-- `PyArg_ParseTuple(args, "O!|i", &PyList_Type, ...)` -/
def parseRead (args : List PyObject) : Option (List PyAtom × ℤ) := do
  if 2 < args.length then none
  let listObj ← required convertList args 0
  let pynb ← optional convertInt 1 args 1
  return (listObj, pynb)

/-- The part of `read_registers` after its arguments are parsed and converted. -/
def readBlock (target : Platform) (code addr pynb : ℤ) (type : PyDataType) (env : ReadEnv) :
    CM Mem PyRef := do
  match ← dispatch (← getMem).mb code addr (count type pynb) env Dest.zero with
  | none => raise "Invalid function code"
  | some (regs, dest) =>
    if regs = -1 then raise env.strerror
    else
      let pList ← listNew target pynb
      let pList ← setItems (element type dest) pynb.toNat 0 pList
      return pList.map .list

/-- `read_registers`. The format `O!` has checked that the first argument is a list. -/
def readRegisters (target : Platform) (args : List PyObject) (env : ReadEnv) : CM Mem PyRef := do
  match parseRead args with
  | none => raise "Invalid input parameter."
  | some ([codeObj, addrObj, typeObj], pynb) =>
    let code ← asLong target codeObj
    let addr ← asLong target addrObj
    match ← asUTF8 typeObj with
    | none => fault .nullPointer
    | some typeName =>
      match findType typeName with
      | none => raise (typeMessage typeName)
      | some type => readBlock target (toInt32 code) (toInt32 addr) pynb type env
  | some _ => raise "Invalid input data size."

/-! ## What constructors and setters do to a process -/

/-- The memory once a new context is stored in `mb`. -/
def Mem.created (mem : Mem) (backend : Backend) : Mem :=
  { mem with
    mb := some mem.contexts.next
    contexts := mem.contexts.alloc ⟨backend, backend.newSlave⟩ }

/-- A constructor that gets no context stores NULL. -/
theorem run_construct_null (backend : Backend) {env : NewEnv} (h : env.creates = false)
    (s : Proc Mem) :
    (construct backend env).run s =
      .ok (NULL, ⟨some ⟨.module, env.strerror⟩, { s.mem with mb := none }⟩) := by
  simp [construct, modbusNew, h]

/-- A constructor that does not connect frees the context and keeps its address. -/
theorem run_construct_dead (backend : Backend) {env : NewEnv} (h : env.creates = true)
    (hconn : env.connects = false) (s : Proc Mem) :
    (construct backend env).run s =
      .ok (NULL, ⟨some ⟨.module, env.strerror⟩,
        { s.mem.created backend with
          contexts := (s.mem.created backend).contexts.free s.mem.contexts.next }⟩) := by
  simp [construct, modbusNew, h, modbusConnect, hconn, modbusFree, Mem.created]

/-- A constructor that connects hands the static slave address to the new context, which
keeps its own when libmodbus does not accept it. -/
theorem run_construct_held (backend : Backend) {env : NewEnv} (h : env.creates = true)
    (hconn : env.connects = true) (s : Proc Mem) :
    (construct backend env).run s =
      .ok (pyTrue, ⟨s.err,
        if backend.Accepts s.mem.slaveAddr then
          (s.mem.created backend).setSlave s.mem.contexts.next s.mem.slaveAddr
        else s.mem.created backend⟩) := by
  by_cases haccept : backend.Accepts s.mem.slaveAddr <;>
    simp [construct, modbusNew, h, modbusConnect, hconn, Mem.created, modbusSetSlave, haccept]

/-! ## Conversions -/

/-- The `long` that `PyLong_AsLong` returns. -/
def cLong (target : Platform) (a : PyAtom) : ℤ :=
  match a.intValue with
  | some v =>
    if -2 ^ (target.longBits - 1) ≤ v ∧ v < 2 ^ (target.longBits - 1) then v else -1
  | none => -1

/-- The exception that `PyLong_AsLong` sets. -/
def longFailure (target : Platform) (a : PyAtom) : Option PyErr :=
  match a.intValue with
  | some v =>
    if -2 ^ (target.longBits - 1) ≤ v ∧ v < 2 ^ (target.longBits - 1) then none
    else some ⟨.overflow, "Python int too large to convert to C long"⟩
  | none => some ⟨.type, "an integer is required"⟩

/-- A conversion to `long` returns a value whether or not it fails. -/
theorem run_asLong (target : Platform) (a : PyAtom) (s : Proc Mem) :
    (asLong target a).run s =
      .ok (cLong target a, ⟨(longFailure target a).or s.err, s.mem⟩) := by
  unfold asLong cLong longFailure
  cases a.intValue with
  | none => rfl
  | some v =>
    dsimp only
    split
    · rfl
    · rfl

/-- With a valid type name, `read_registers` reads a block for the two converted numbers;
the failures of their conversions are in the error indicator. -/
theorem run_readRegisters {target : Platform} {args : List PyObject} {codeObj addrObj : PyAtom}
    {typeName : List UInt8} {pynb : ℤ} {type : PyDataType}
    (hparse : parseRead args = some ([codeObj, addrObj, .str (some typeName)], pynb))
    (htype : findType typeName = some type) (env : ReadEnv) (s : Proc Mem) :
    (readRegisters target args env).run s =
      (readBlock target (toInt32 (cLong target codeObj)) (toInt32 (cLong target addrObj)) pynb
        type env).run
        ⟨(longFailure target addrObj).or ((longFailure target codeObj).or s.err), s.mem⟩ := by
  simp [readRegisters, hparse, run_asLong, asUTF8, htype]

/-- Anything but a `str` with an encoding has no UTF-8 text. -/
theorem run_asUTF8_null {a : PyAtom} (h : ¬∃ typeName, a = .str (some typeName)) (s : Proc Mem) :
    ∃ s', (asUTF8 a).run s = .ok (none, s') := by
  unfold asUTF8
  split
  · rename_i bytes
    exact absurd ⟨bytes, rfl⟩ h
  · exact ⟨_, rfl⟩
  · exact ⟨_, rfl⟩

/-- Without a UTF-8 text, `read_registers` compares NULL. -/
theorem run_readRegisters_null {target : Platform} {args : List PyObject}
    {codeObj addrObj typeObj : PyAtom} {pynb : ℤ}
    (hparse : parseRead args = some ([codeObj, addrObj, typeObj], pynb))
    (h : ¬∃ typeName, typeObj = .str (some typeName)) (env : ReadEnv) (s : Proc Mem) :
    (readRegisters target args env).run s = .error .nullPointer := by
  obtain ⟨s', hnull⟩ := run_asUTF8_null h
    ⟨(longFailure target addrObj).or ((longFailure target codeObj).or s.err), s.mem⟩
  simp [readRegisters, hparse, run_asLong, hnull]

/-- A text that names no type is refused. -/
theorem run_readRegisters_unknown {target : Platform} {args : List PyObject}
    {codeObj addrObj : PyAtom} {typeName : List UInt8} {pynb : ℤ}
    (hparse : parseRead args = some ([codeObj, addrObj, .str (some typeName)], pynb))
    (htype : findType typeName = none) (env : ReadEnv) (s : Proc Mem) :
    (readRegisters target args env).run s =
      .ok (NULL, ⟨some ⟨.module, typeMessage typeName⟩, s.mem⟩) := by
  simp [readRegisters, hparse, run_asLong, asUTF8, htype]

/-- What `read_registers` can do with its arguments: raise, compare a NULL type name, or
read a block. -/
theorem readRegisters_cases (target : Platform) (args : List PyObject) (env : ReadEnv)
    (s : Proc Mem) :
    (∃ msg, (readRegisters target args env).run s =
        .ok (NULL, ⟨some ⟨.module, msg⟩, s.mem⟩)) ∨
      (readRegisters target args env).run s = .error .nullPointer ∨
      ∃ codeObj addrObj typeName pynb type,
        parseRead args = some ([codeObj, addrObj, .str (some typeName)], pynb) ∧
        findType typeName = some type := by
  by_cases hitems : ∃ codeObj addrObj typeObj pynb,
      parseRead args = some ([codeObj, addrObj, typeObj], pynb)
  · obtain ⟨codeObj, addrObj, typeObj, pynb, hparse⟩ := hitems
    by_cases hname : ∃ typeName, typeObj = .str (some typeName)
    · obtain ⟨typeName, rfl⟩ := hname
      cases htype : findType typeName with
      | some type => exact .inr (.inr ⟨_, _, _, _, _, hparse, htype⟩)
      | none =>
        exact .inl ⟨typeMessage typeName, run_readRegisters_unknown hparse htype env s⟩
    · exact .inr (.inl (run_readRegisters_null hparse hname env s))
  · refine .inl ?_
    unfold readRegisters
    split
    · exact ⟨_, rfl⟩
    · rename_i hparse
      exact absurd ⟨_, _, _, _, hparse⟩ hitems
    · exact ⟨_, rfl⟩

/-- A block is not read with another function code. -/
theorem run_readBlock_unsupported {target : Platform} {code addr pynb : ℤ} {type : PyDataType}
    {env : ReadEnv} (hcode : code ∉ [1, 2, 3, 4]) (s : Proc Mem) :
    (readBlock target code addr pynb type env).run s =
      .ok (NULL, ⟨some ⟨.module, "Invalid function code"⟩, s.mem⟩) := by
  simp only [List.mem_cons, List.not_mem_nil, or_false, not_or] at hcode
  obtain ⟨h1, h2, h3, h4⟩ := hcode
  simp [readBlock, dispatch, h1, h2, h3, h4]

/-- A block read with a supported function code uses the context, even one that was freed. -/
theorem run_readBlock_freed {target : Platform} {code addr pynb : ℤ} {type : PyDataType}
    {env : ReadEnv} (hcode : code ∈ [1, 2, 3, 4]) {s : Proc Mem} {p : ℕ} (hp : s.mem.mb = some p)
    (hcell : s.mem.contexts.cell p = none) :
    (readBlock target code addr pynb type env).run s = .error .useAfterFree := by
  simp only [List.mem_cons, List.not_mem_nil, or_false] at hcode
  rcases hcode with rfl | rfl | rfl | rfl <;>
    simp [readBlock, dispatch, hp, modbusReadBits, modbusReadRegisters, request, hcell]

end PyModules.Modbus
