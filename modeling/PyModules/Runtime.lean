import Mathlib.Algebra.Group.Nat.Defs
import Mathlib.Algebra.Ring.Int.Defs
import Mathlib.Tactic.Common

/-!
# The C and CPython runtime under the extension modules

All four extension modules are C functions called by the interpreter. A call may
read and write the module's static variables, set the Python error indicator, and
return an object or NULL. A call that leaves defined C behaviour, or that aborts the
process, has no result at all; it ends in a `Fault`. The answers of the operating
system are arguments of the model, so that every theorem ranges over all of them.
-/

namespace PyModules

/-- Ways in which a call ends without returning: it leaves the behaviour that C defines,
or the process is aborted. -/
inductive Fault
  /-- NULL is dereferenced, or handed to `fgets`, `fwrite`, `fclose` or `memcmp`. -/
  | nullPointer
  /-- A freed object is dereferenced or freed again. -/
  | useAfterFree
  /-- An array is read or written past its end. -/
  | outOfBounds
  /-- An assertion of a library fails. -/
  | abort
  deriving DecidableEq, Repr

/-- Exception types that a call can raise. -/
inductive PyExc
  /-- The exception the module creates for itself, such as `PWMError`. -/
  | module
  /-- `TypeError` -/
  | type
  /-- `OverflowError` -/
  | overflow
  /-- `SystemError` -/
  | system
  /-- `MemoryError` -/
  | memory
  /-- `UnicodeEncodeError` -/
  | unicodeEncode
  /-- `UnicodeDecodeError`, which keeps the bytes it could not decode. -/
  | unicodeDecode (object : List UInt8)
  deriving DecidableEq, Repr

/-- A pending Python exception: its type and message. -/
structure PyErr where
  /-- The exception type. -/
  exc : PyExc
  /-- The message text. -/
  msg : String
  deriving DecidableEq, Repr

/-- Floating-point values, kept as the bit patterns C copies into them. -/
inductive CFloat
  /-- A `float`. -/
  | single (bits : BitVec 32)
  /-- A `double`. -/
  | double (bits : BitVec 64)
  deriving DecidableEq, Repr

/-- Python objects that are not lists, as far as the C converters tell them
apart. A `str` is known to C only through its UTF-8 encoding; one with a lone
surrogate has none. Any object no converter accepts is `other`. -/
inductive PyAtom
  | none
  | bool (b : Bool)
  | int (v : ℤ)
  | str (utf8 : Option (List UInt8))
  | bytes (data : List UInt8)
  | float (v : CFloat)
  | other
  deriving DecidableEq, Repr

/-- Python objects: an atom or a list of objects. A list inside a list is `other`,
since no function of the modules looks into it. -/
inductive PyObject
  | atom (a : PyAtom)
  | list (items : List PyAtom)
  deriving DecidableEq, Repr

/-- The `PyObject *` a function returns; NULL is `none`. -/
abbrev PyRef := Option PyObject

/-- `return NULL` -/
def NULL : PyRef := none

/-- `Py_RETURN_TRUE` -/
def pyTrue : PyRef := some (.atom (.bool true))

/-- `Py_RETURN_FALSE` -/
def pyFalse : PyRef := some (.atom (.bool false))

/-- `Py_RETURN_NONE` -/
def pyNone : PyRef := some (.atom .none)

/-- The bytes of an ASCII string literal, its terminating NUL left out. -/
def lit (s : String) : List UInt8 := s.toList.map fun c => c.toNat.toUInt8

/-! ## Calls -/

/-- The process as a call sees it: the error indicator and the module's memory. -/
structure Proc (σ : Type) where
  /-- The Python error indicator. -/
  err : Option PyErr
  /-- Static variables of the module and whatever they reach. -/
  mem : σ
  deriving DecidableEq, Repr

/-- A C function body: it transforms the process, or faults. -/
abbrev CM (σ : Type) := StateT (Proc σ) (Except Fault)

variable {σ α β : Type}

/-- End without a result. -/
def fault (f : Fault) : CM σ α := fun _ => .error f

/-- The module's memory. -/
def getMem : CM σ σ := do return (← get).mem

/-- Change the module's memory. -/
def modifyMem (f : σ → σ) : CM σ Unit := modify fun s => { s with mem := f s.mem }

/-- `PyErr_SetString`, and `PyErr_Format` once its arguments are filled in: replace
whatever the indicator held. -/
def pyErrSet (exc : PyExc) (msg : String) : CM σ Unit :=
  modify fun s => { s with err := some ⟨exc, msg⟩ }

/-- `PyErr_SetString(<module error>, msg); return NULL;` -/
def raise (msg : String) : CM σ PyRef := do
  pyErrSet .module msg
  return NULL

@[simp] theorem ok_bind {ε : Type} (a : α) (f : α → Except ε β) :
    (Except.ok a >>= f) = f a := rfl

@[simp] theorem error_bind {ε : Type} (e : ε) (f : α → Except ε β) :
    (Except.error e >>= f) = .error e := rfl

@[simp] theorem pure_eq_ok {ε : Type} (a : α) :
    (pure a : Except ε α) = .ok a := rfl

/-- A sequence succeeds through a success of its first part. -/
theorem bind_eq_ok {ε : Type} {x : Except ε α} {f : α → Except ε β} {b : β} :
    (x >>= f) = .ok b ↔ ∃ a, x = .ok a ∧ f a = .ok b := by
  cases x with
  | error e => simp
  | ok a => simp

theorem map_eq_ok {ε : Type} {x : Except ε α} {f : α → β} {b : β} :
    x.map f = .ok b ↔ ∃ a, x = .ok a ∧ f a = b := by
  cases x with
  | error e => simp [Except.map]
  | ok a => simp [Except.map]

theorem map_eq_error {ε : Type} {x : Except ε α} {f : α → β} {e : ε} :
    x.map f = .error e ↔ x = .error e := by
  cases x with
  | error e => simp [Except.map]
  | ok a => simp [Except.map]

@[simp] theorem run_fault (f : Fault) (s : Proc σ) :
    (fault f : CM σ α).run s = .error f := rfl

@[simp] theorem run_getMem (s : Proc σ) : (getMem : CM σ σ).run s = .ok (s.mem, s) := rfl

@[simp] theorem run_modifyMem (f : σ → σ) (s : Proc σ) :
    (modifyMem f).run s = .ok ((), { s with mem := f s.mem }) := rfl

@[simp] theorem run_pyErrSet (exc : PyExc) (msg : String) (s : Proc σ) :
    (pyErrSet exc msg : CM σ Unit).run s = .ok ((), { s with err := some ⟨exc, msg⟩ }) := rfl

@[simp] theorem run_raise (msg : String) (s : Proc σ) :
    (raise msg : CM σ PyRef).run s = .ok (NULL, { s with err := some ⟨.module, msg⟩ }) := rfl

/-! ## Argument conversion -/

/-- `INT_MIN` -/
def INT_MIN : ℤ := -2147483648

/-- `INT_MAX` -/
def INT_MAX : ℤ := 2147483647

/-- Reinterpretation of an integer as a 32-bit `int`. -/
def toInt32 (v : ℤ) : ℤ := Int.bmod v (2 ^ 32)

/-- The value of an `int` object; `bool` is a subclass of `int`. -/
def PyAtom.intValue : PyAtom → Option ℤ
  | .int v => some v
  | .bool b => some (if b then 1 else 0)
  | _ => Option.none

/-- Argument format `i`: an `int` object in the range of a C `int`. -/
def convertInt : PyObject → Option ℤ
  | .atom a => do
    let v ← a.intValue
    if INT_MIN ≤ v ∧ v ≤ INT_MAX then some v else none
  | .list _ => none

/-- Argument format `k`: an `int` object modulo the range of an `unsigned long` of
`width` bits, with no overflow check. -/
def convertULong (width : ℕ) : PyObject → Option ℤ
  | .atom a => do
    let v ← a.intValue
    some (v % 2 ^ width)
  | .list _ => none

/-- Argument format `s`: the UTF-8 bytes of a `str` without embedded NUL. -/
def convertStr : PyObject → Option (List UInt8)
  | .atom (.str (some b)) => if 0 ∈ b then none else some b
  | _ => none

/-- Argument format `c`: a `bytes` object of length one. -/
def convertChar : PyObject → Option UInt8
  | .atom (.bytes [b]) => some b
  | _ => none

/-- Argument format `O!` with `PyList_Type`. -/
def convertList : PyObject → Option (List PyAtom)
  | .list items => some items
  | .atom _ => none

/-- Conversion of a positional argument before the `|` of a format. -/
def required (convert : PyObject → Option α) (args : List PyObject) (i : ℕ) : Option α := do
  convert (← args[i]?)

/-- Conversion of a positional argument after the `|` of a format: the variable
keeps its initial value when the argument is absent. -/
def optional (convert : PyObject → Option α) (init : α) (args : List PyObject) (i : ℕ) :
    Option α :=
  match args[i]? with
  | none => some init
  | some o => convert o

/-- `PyArg_ParseTuple(args, f, ...)` for a format `f` of one required argument. -/
def parseOne (convert : PyObject → Option α) : List PyObject → Option α
  | [o] => convert o
  | _ => none

/-- Arguments of a constructor for a serial port, format `s|icii`. -/
structure SerialArgs where
  device : List UInt8
  baud : ℤ
  parity : UInt8
  dataBit : ℤ
  stopBit : ℤ
  deriving DecidableEq, Repr

/-- `PyArg_ParseTuple(args, "s|icii", ...)` with a default baud rate, `'N'`, 8, and 1. -/
def parseSerial (baud : ℤ) (args : List PyObject) : Option SerialArgs := do
  if 5 < args.length then none
  let device ← required convertStr args 0
  let baud ← optional convertInt baud args 1
  let parity ← optional convertChar 78 args 2
  let dataBit ← optional convertInt 8 args 3
  let stopBit ← optional convertInt 1 args 4
  return ⟨device, baud, parity, dataBit, stopBit⟩

end PyModules
