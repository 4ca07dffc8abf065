import PyModules.Lte.Session
import PyModules.Raises

/-!
# The exceptions of the LTE module

All functions raise the exception of the module. `cmd_lte` makes a string of what the modem
answered, and leaves the exception of the decoder where that is no text.
-/

namespace PyModules.Lte

variable {π : Type}

variable [Tty π]

/-- The modem answers `cmd_lte` with `OK` in a text that is no UTF-8. -/
def Undecodable (mem : Mem π) (args : List PyObject) : Prop :=
  Connected mem ∧ ∃ cmd b, parseOne convertStr args = some cmd ∧
    (Tty.write cmd mem.tty).1 = cmd.length ∧ (received (Tty.write cmd mem.tty).2).1 = some b ∧
    okToken <:+: b ∧ utf8Valid (b.takeWhile (· ≠ 0)) = false

/-- A `cmd_lte` whose reply is no text. -/
def Call.Foreign (mem : Mem π) : Call → Prop
  | .command (.cmdLte args) => Undecodable mem args
  | _ => False

end PyModules.Lte
