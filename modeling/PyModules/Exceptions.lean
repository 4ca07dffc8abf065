import PyModules.Lte.Exceptions
import PyModules.Modbus.Exceptions
import PyModules.Process

/-!
# Which exceptions a call can leave

A program that handles the exception of a module catches everything that its functions raise,
with two exceptions: a `cmd_lte` whose reply is no text, and a `read_registers` that asks for a
list that cannot be, or for an address that was not converted.
-/

namespace PyModules

/-! ## The PWM and LED modules -/

namespace Pwm

end Pwm

namespace IxoraLed

end IxoraLed

/-! ## The process -/

variable {π : Type} [Lte.Tty π]

/-- What a call returns to the interpreter, and the exception it leaves. -/
def ProcessCall.outcome (target : Modbus.Platform) (p : Process π) :
    ProcessCall → Except Fault (PyRef × Option PyErr)
  | .inl (.inl c) => (c.body.run ⟨none, p.1.1⟩).map fun r => (r.1, r.2.err)
  | .inl (.inr c) => ((c.body target).run ⟨none, p.1.2⟩).map fun r => (r.1, r.2.err)
  | .inr (.inl c) => ((c.body target.longBits).run ⟨none, p.2.1⟩).map fun r => (r.1, r.2.err)
  | .inr (.inr c) => (c.body.run ⟨none, p.2.2⟩).map fun r => (r.1, r.2.err)

/-- The call leaves an exception of the interpreter instead of that of its module. -/
def ProcessCall.Foreign (target : Modbus.Platform) (p : Process π) : ProcessCall → Prop
  | .inl (.inl c) => c.Foreign p.1.1
  | .inl (.inr c) => c.Foreign target p.1.2
  | .inr _ => False

end PyModules
