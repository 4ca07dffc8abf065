import PyModules.IxoraBoard
import PyModules.Library.Parallel
import PyModules.Lte.Returns
import PyModules.Modbus.Returns
import PyModules.Pwm.Writes

/-!
# One process with all four modules

A Python program imports the four modules into one process, and a call that leaves defined
behaviour takes the whole process with it. The modules share no memory, so the order in which
the program mixes their calls does not matter: the process gets through a run precisely if each
module gets through its own calls.
-/

namespace PyModules

/-! ## The PWM module -/

namespace Pwm

end Pwm

/-! ## The LED module -/

/-- A call of one of the modules. -/
abbrev ProcessCall := (Lte.Call ⊕ Modbus.Call) ⊕ (Pwm.Call ⊕ IxoraLed.Call)

/-- The memories of the modules. -/
abbrev Process (π : Type) := (Lte.Mem π × Modbus.Mem) × (Pwm.Mem × IxoraLed.Mem)

/-- The memories at import, with a serial line. -/
def Process.initial {π : Type} (tty : π) : Process π :=
  ((Lte.Mem.initial tty, Modbus.Mem.initial), (Pwm.Mem.initial, IxoraLed.Mem.initial))

variable {π : Type} [Lte.Tty π]

/-- The process after a call. -/
def Process.step (target : Modbus.Platform) :
    Process π → ProcessCall → Except Fault (Process π) :=
  Parallel.step (Parallel.step Lte.step (Modbus.step target))
    (Parallel.step (Pwm.step target.longBits) IxoraLed.step)

end PyModules
