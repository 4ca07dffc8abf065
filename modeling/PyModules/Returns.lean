import PyModules.Runtime

/-!
# Calls that return

A call returns, or it leaves the behaviour that C defines on the way. Whether a program
returns can be read off its parts: a first part that is known to run can be skipped.
-/

namespace PyModules

variable {σ α β : Type}

end PyModules
