import PyModules.Modbus.Returns
import PyModules.Raises

/-!
# The exceptions of the Modbus module

All functions raise the exception of the module. `read_registers` also leaves exceptions of
the interpreter: it goes on after an address that was not converted, and it asks for a list of
whatever length it was given.
-/

namespace PyModules.Modbus

/-- The interpreter has a list of this length. -/
def HasList (target : Platform) (pynb : ℤ) : Prop := 0 ≤ pynb ∧ pynb ≤ target.listMax

/-- A block is asked for and answered, and libmodbus does not report the answer as a failure. -/
def Decodes (mem : Mem) (code pynb : ℤ) (type : PyDataType) (env : ReadEnv) : Prop :=
  Sends mem code (count type pynb) ∧ Answers mem code env ∧
    ¬((code = 1 ∨ code = 2) ∧ count type pynb = -1)

/-- A block that is decoded has no list to be decoded into, or its address was not converted. -/
def Foreign (target : Platform) (mem : Mem) (args : List PyObject) (env : ReadEnv) : Prop :=
  ∃ codeObj addrObj typeName pynb type,
    parseRead args = some ([codeObj, addrObj, .str (some typeName)], pynb) ∧
    findType typeName = some type ∧
    Decodes mem (toInt32 (cLong target codeObj)) pynb type env ∧
    (¬HasList target pynb ∨ longFailure target addrObj ≠ none)

/-- A `read_registers` whose block is decoded without a list, or from an address that was not
converted. -/
def Call.Foreign (target : Platform) (mem : Mem) : Call → Prop
  | .readRegisters args env => Modbus.Foreign target mem args env
  | _ => False

end PyModules.Modbus
